-- SUMMARY: Connections to databases: opening, making the tables, and the operations of a backup.
import Telemetry.Database.Address
import Telemetry.Database.Relational
import Telemetry.Site

/-!
# Connections

A connection names a database of the site. Its operations fail once it is closed, and as long as the
tables are missing; a connection that may only read refuses to write.
-/

namespace Telemetry.Database

/-- An opened database. -/
structure Connection where
  /-- The name of the database at the site. -/
  key : String
  kind : Kind
  readOnly : Bool
  isOpen : Bool
  deriving DecidableEq

namespace Connection

/-- The name of the database that lives in memory. No file has this name. -/
def memoryKey : String := ":memory:"

-- ---------------------------------------------------------------------------
-- Opening
-- ---------------------------------------------------------------------------

/-- Fail for a reason that only the log shows. -/
def refuse {α : Type} (detail : String) : Outcome α :=
  fail (.database detail)

/-- Open a new database in memory. -/
def openMemory (site : Site) : Connection × Site :=
  (⟨memoryKey, .sqlite, false, true⟩,
    { site with databases := site.databases.insert memoryKey none })

/-- Open a database file. A file without content is a database without tables. -/
def openFile (target : SqliteTarget) (site : Site) : Outcome Connection × Site :=
  let path := Path.canonical target.path
  let connection : Connection := ⟨path, .sqlite, target.mode.readOnly, true⟩
  match site.databases.find? path, site.disk.read path with
  | some _, _ => (.ok connection, site)
  | none, .ok [] => (.ok connection, { site with databases := site.databases.insert path none })
  | none, .ok (_ :: _) => (refuse "file is not a database", site)
  | none, .error .notFound =>
    if target.mode.create && (site.disk.folderFault? path).isNone then
      (.ok connection, { site with databases := site.databases.insert path none })
    else (refuse "unable to open database file", site)
  | none, .error _ => (refuse "unable to open database file", site)

/-- Connect to the database that an address names. Nothing answers at the address of a database on
    another machine. -/
def connect (address : String) (site : Site) : Outcome Connection × Site :=
  if Url.otherScheme? address = some "sqlite" then
    match SqliteTarget.read? address with
    | none => (refuse "invalid database address", site)
    | some target =>
      if target.mode.inMemory then
        let (connection, site) := openMemory site
        (.ok connection, site)
      else openFile target site
  else (refuse "no database answers at this address", site)

-- ---------------------------------------------------------------------------
-- Tables
-- ---------------------------------------------------------------------------

/-- The tables of the database, absent if they have not been made. -/
def tables? (c : Connection) (site : Site) : Option Tables :=
  (site.databases.find? c.key).join

/-- The site with other tables in the database. -/
def setTables (c : Connection) (tables : Option Tables) (site : Site) : Site :=
  { site with databases := site.databases.insert c.key tables }

/-- Make the tables if they are missing. -/
def migrate (c : Connection) (site : Site) : Outcome Unit × Site :=
  if !c.isOpen then (refuse "connection is closed", site)
  else if (c.tables? site).isSome then (.ok (), site)
  else if c.readOnly then (refuse "attempt to write a readonly database", site)
  else (.ok (), c.setTables (some .empty) site)

/-- Drop the tables. -/
def dropTables (c : Connection) (site : Site) : Outcome Unit × Site :=
  if !c.isOpen then (refuse "connection is closed", site)
  else (.ok (), c.setTables none site)

/-- Connect and make the tables. -/
def connectAndMigrate (address : String) (site : Site) : Outcome Connection × Site :=
  match connect address site with
  | (.error e, site) => (.error e, site)
  | (.ok connection, site) =>
    let (result, site) := connection.migrate site
    (result.map fun _ => connection, site)

-- ---------------------------------------------------------------------------
-- Operations
-- ---------------------------------------------------------------------------

/-- Write rows in one transaction. -/
def update (c : Connection) (rows : List Row) (site : Site) : Outcome Unit × Site :=
  if !c.isOpen then (refuse "connection is closed", site)
  else
    match rows, c.tables? site, c.readOnly with
    | [], _, _ => (.ok (), site)
    | _, some tables, false =>
      let (result, tables) := tables.update rows
      (result, c.setTables (some tables) site)
    | first :: _, _, _ => ((do let _ ← first.complete; refuse "no such table"), site)

/-- Read from the tables. -/
def query {α : Type} (c : Connection) (site : Site) (f : Tables → α) : Outcome α :=
  if !c.isOpen then refuse "connection is closed"
  else
    match c.tables? site with
    | some tables => .ok (f tables)
    | none => refuse "no such table"

/-- The operations of the database behind a connection. Closing does not change the database. -/
def relational (c : Connection) : Relational Site where
  update := c.update
  readOne type name site := (c.query site (·.row? type name), site)
  readAll site := (c.query site (·.rows), site)
  ping site := (if c.isOpen then .ok () else refuse "connection is closed", site)
  close site := (.ok (), site)

/-- Each type name with the names of its metrics. -/
def byType (c : Connection) (site : Site) : Outcome (List (String × List String)) :=
  c.query site (·.byType)

end Connection

end Telemetry.Database
