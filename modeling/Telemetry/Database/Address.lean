-- SUMMARY: Database addresses: the kind of database, and the file and mode of a SQLite address.
import Telemetry.Text.Utf8
import Telemetry.Url.Basic

/-!
# Database addresses

A database is named by a URL. A SQLite address names a file, or the database in memory, and may say how
the file is opened. Unless told otherwise the file has to be there and is opened for writing.
-/

namespace Telemetry.Database

/-- The kinds of databases that an address can name. -/
inductive Kind where
  | postgres
  | sqlite
  deriving DecidableEq, Repr

/-- The kind that an address names, by its first letters. -/
def Kind.ofAddress (address : String) : Kind :=
  if address.startsWith "sqlite" then .sqlite else .postgres

def Kind.name : Kind → String
  | postgres => "PostgreSQL"
  | sqlite => "SQLite"

/-- How a database file is opened. -/
structure OpenMode where
  readOnly : Bool
  create : Bool
  inMemory : Bool
  deriving DecidableEq, Repr

/-- What a SQLite address asks for. -/
structure SqliteTarget where
  /-- The path of the file; it names nothing if the database is in memory. -/
  path : String
  mode : OpenMode
  deriving DecidableEq, Repr

namespace SqliteTarget

/-- The address without its scheme. -/
def dropScheme (address : String) : String :=
  if address.startsWith "sqlite://" then (address.drop 9).toString
  else if address.startsWith "sqlite:" then (address.drop 7).toString
  else address

/-- Apply one parameter of an address. An unknown name or value is refused. -/
def applyParameter (mode : OpenMode) (name value : String) : Option OpenMode :=
  match name, value with
  | "mode", "ro" => some { mode with readOnly := true }
  | "mode", "rw" => some mode
  | "mode", "rwc" => some { mode with create := true }
  | "mode", "memory" => some { mode with inMemory := true }
  | "cache", "private" | "cache", "shared" => some mode
  | "immutable", "true" | "immutable", "1" | "immutable", "false" | "immutable", "0" => some mode
  | _, _ => none

/-- The text that a percent-encoded text stands for, if it is well formed. -/
def decodeText? (text : String) : Option String :=
  Utf8.decode? (Url.percentDecode (fun _ => false) (Utf8.encode text))

/-- Name and value of a parameter. -/
def splitParameter (parameter : String) : String × String :=
  match parameter.splitOn "=" with
  | [] => ("", "")
  | name :: value =>
    let decode := fun (text : String) =>
      (decodeText? (String.ofList (text.toList.map fun c => if c = '+' then ' ' else c))).getD text
    (decode name, decode (String.intercalate "=" value))

/-- Read a SQLite address. -/
def read? (address : String) : Option SqliteTarget := do
  let text := dropScheme address
  let (path, parameters) :=
    match text.splitOn "?" with
    | [] => ("", [])
    | path :: rest =>
      (path, (String.intercalate "?" rest).splitOn "&" |>.filter (· ≠ ""))
  let inMemory := path = ":memory:" || path = ""
  let mode ← (parameters.map splitParameter).foldlM
    (fun mode (name, value) => applyParameter mode name value) ⟨false, false, inMemory⟩
  let path ← decodeText? path
  some ⟨path, mode⟩

end SqliteTarget

end Telemetry.Database
