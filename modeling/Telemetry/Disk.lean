-- SUMMARY: A disk of files and directories, and the single steps that change it.
import Telemetry.SortedMap

/-!
# The disk

What a program can see of a file system: the files and directories at their paths. Writing is made of
single steps, each of which may fail, so that a run can be followed up to any of them.
-/

namespace Telemetry

/-- What stands at a path. -/
inductive Disk.Entry where
  | file (content : List UInt8)
  | directory
  deriving DecidableEq

/-- The files and directories by path. The working directory and the root are always there. -/
structure Disk where
  entries : SortedMap Disk.Entry

/-- Why a step on a disk failed. -/
inductive DiskFault where
  | notFound
  | isDirectory
  | notDirectory
  deriving DecidableEq, Repr

def DiskFault.message : DiskFault → String
  | notFound => "no such file or directory"
  | isDirectory => "is a directory"
  | notDirectory => "not a directory"

-- ---------------------------------------------------------------------------
-- Paths
-- ---------------------------------------------------------------------------

namespace Path

/-- The named parts of a path. -/
def parts (path : String) : List String :=
  (path.splitOn "/").filter fun part => part ≠ "" && part ≠ "."

/-- The path of a list of parts, from the root or from the working directory. -/
def ofParts (absolute : Bool) (parts : List String) : String :=
  (if absolute then "/" else "") ++ String.intercalate "/" parts

/-- The path without empty parts and without references to the same directory. -/
def canonical (path : String) : String :=
  ofParts (path.startsWith "/") (parts path)

/-- The directories above a path, the outermost first. -/
def ancestors (path : String) : List String :=
  let all := parts path
  (List.range all.length).tail.map fun n => ofParts (path.startsWith "/") (all.take n)

end Path

namespace Disk

/-- The disk with nothing but the working directory and the root. -/
def empty : Disk := ⟨.empty⟩

instance : Inhabited Disk := ⟨empty⟩

-- ---------------------------------------------------------------------------
-- Looking
-- ---------------------------------------------------------------------------

def entry? (d : Disk) (path : String) : Option Entry :=
  d.entries.find? path

/-- Why the directory that holds a path is not there, if it is not. -/
def folderFault? (d : Disk) (path : String) : Option DiskFault :=
  (Path.ancestors path).findSome? fun folder =>
    match d.entry? folder with
    | some .directory => none
    | some (.file _) => some .notDirectory
    | none => some .notFound

/-- Something stands at a path. -/
def exists? (d : Disk) (path : String) : Bool :=
  (d.entry? path).isSome

/-- The content of a file. -/
def read (d : Disk) (path : String) : Except DiskFault (List UInt8) :=
  match d.entry? path with
  | some (.file content) => .ok content
  | some .directory => .error .isDirectory
  | none =>
    if path = "" || path = "/" then .error .isDirectory
    else .error ((d.folderFault? path).getD .notFound)

-- ---------------------------------------------------------------------------
-- Changing
-- ---------------------------------------------------------------------------

/-- Put an entry at a path, whatever stood there. -/
def put (d : Disk) (path : String) (e : Entry) : Disk :=
  ⟨d.entries.insert path e⟩

/-- Take away what stands at a path. -/
def remove (d : Disk) (path : String) : Disk :=
  ⟨d.entries.erase path⟩

/-- One step of writing. -/
inductive Step where
  /-- Create a file, or make it empty. -/
  | create (path : String)
  /-- Write at the end of a file. -/
  | append (path : String) (content : List UInt8)
  /-- Wait until a file is stored. -/
  | sync (path : String)
  /-- Move a file, in place of one at the target. -/
  | rename (source target : String)
  deriving DecidableEq

/-- The disk after a step. -/
def Step.run (d : Disk) : Step → Except DiskFault Disk
  | create path =>
    match d.folderFault? path, d.entry? path with
    | some fault, _ => .error fault
    | none, some .directory => .error .isDirectory
    | none, _ => .ok (d.put path (.file []))
  | append path content =>
    match d.read path with
    | .ok before => .ok (d.put path (.file (before ++ content)))
    | .error fault => .error fault
  | sync _ => .ok d
  | rename source target =>
    match d.read source, d.entry? target with
    | .error fault, _ => .error fault
    | .ok _, some .directory => .error .isDirectory
    | .ok content, _ => .ok ((d.remove source).put target (.file content))

/-- Run steps until one fails, and the disk that they leave. -/
def runSteps (d : Disk) : List Step → Except DiskFault Unit × Disk
  | [] => (.ok (), d)
  | step :: rest =>
    match step.run d with
    | .ok d => d.runSteps rest
    | .error fault => (.error fault, d)

/-- Make directories that are not there yet, from the outermost on. -/
def makeFolders (d : Disk) : List String → Except DiskFault Unit × Disk
  | [] => (.ok (), d)
  | folder :: rest =>
    match d.entry? folder with
    | some .directory => d.makeFolders rest
    | some (.file _) => (.error .notDirectory, d)
    | none => (d.put folder .directory).makeFolders rest

end Disk

end Telemetry
