-- SUMMARY: Reading the flags of a command line and the variables of the environment.
import Telemetry.Number.Reading
import Telemetry.Settings.Basic

/-!
# Flags

Every flag has a value, which stands in the same argument or in the next one, and a variable of the
environment that counts if the flag is not there. An argument that begins with a dash is no value. A
value is checked when the next flag begins or the command line ends; an argument that nobody takes is
reported before the value that waits to be checked.
-/

namespace Telemetry.Settings

/-- The values that a flag takes. -/
inductive ValueForm where
  | text
  | path
  | natural
  | bool
  | level
  | format
  | mode
  /-- Texts separated by commas; the flag may be repeated. -/
  | texts
  deriving DecidableEq, Repr

/-- A flag of a program. -/
structure Flag where
  /-- The name behind two dashes. -/
  name : String
  /-- The letter behind one dash. -/
  letter : Option Char
  /-- The variable of the environment. -/
  variableName : String
  form : ValueForm
  deriving DecidableEq, Repr

/-- Why a command line is not carried out. -/
inductive UsageFault where
  | displayHelp
  | displayVersion
  | unknownArgument
  /-- A value is missing, or none of those that are allowed. -/
  | invalidValue
  /-- A value cannot be read. -/
  | valueValidation
  /-- A value stands behind a flag that takes none. -/
  | tooManyValues
  /-- A flag is repeated. -/
  | argumentConflict
  deriving DecidableEq, Repr

/-- The fault of a value. -/
def ValueForm.fault? (form : ValueForm) (value : String) : Option UsageFault :=
  let unreadable {α : Type} : Outcome α → Option UsageFault
    | .ok _ => none
    | .error _ => some .valueValidation
  match form with
  | text | texts => none
  | path => if value.isEmpty then some .invalidValue else none
  | natural =>
    match readNatural 64 value with
    | .ok _ => none
    | .error _ => some .valueValidation
  | bool => if value = "true" || value = "false" then none else some .invalidValue
  | level => unreadable (Log.Level.read value)
  | format => unreadable (Log.Format.read value)
  | mode => unreadable (PushMode.read value)

-- ---------------------------------------------------------------------------
-- Given values
-- ---------------------------------------------------------------------------

/-- The values that have been given, by the names of their flags. -/
abbrev Given := List (String × List String)

namespace Given

/-- The values of a flag. -/
def values? (g : Given) (name : String) : Option (List String) :=
  g.lookup name

/-- The value of a flag that is not repeated. -/
def value? (g : Given) (name : String) : Option String :=
  (g.values? name).bind (·.head?)

/-- The number of a flag. -/
def natural? (g : Given) (name : String) : Option Nat :=
  (g.value? name).bind fun text => (readNatural 64 text).toOption

/-- The truth value of a flag. -/
def bool? (g : Given) (name : String) : Option Bool :=
  (g.value? name).map (· == "true")

/-- Take a value for a flag. -/
def accept (g : Given) (flag : Flag) (value : String) : Except UsageFault Given :=
  let before := g.values? flag.name
  if flag.form = .texts then
    let values := before.getD [] ++ value.splitOn ","
    .ok ((flag.name, values) :: g.filter (·.1 ≠ flag.name))
  else if before.isSome then .error .argumentConflict
  else
    match flag.form.fault? value with
    | some fault => .error fault
    | none => .ok ((flag.name, [value]) :: g)

end Given

-- ---------------------------------------------------------------------------
-- The command line
-- ---------------------------------------------------------------------------

/-- How far a command line has been read. -/
structure Progress where
  given : Given
  /-- The flag whose value has not been checked yet, and the value once it has been read. -/
  pending : Option (Flag × Option String)
  /-- The mark behind which there are no flags has been read. -/
  pastFlags : Bool

namespace Progress

/-- Check the value that waits. -/
def settle (p : Progress) : Except UsageFault Progress :=
  match p.pending with
  | none => .ok p
  | some (_, none) => .error .invalidValue
  | some (flag, some value) => do
    let given ← p.given.accept flag value
    .ok { p with given, pending := none }

/-- Begin a flag, whose value may stand in the same argument. -/
def begin (p : Progress) (flag : Flag) (value : Option String) : Except UsageFault Progress := do
  let p ← p.settle
  match value with
  | none => .ok { p with pending := some (flag, none) }
  | some value => do
    let given ← p.given.accept flag value
    .ok { p with given }

/-- End with a fault, once the value that waits is all right. -/
def stop (p : Progress) (fault : UsageFault) : Except UsageFault Progress := do
  let _ ← p.settle
  .error fault

/-- Read an argument behind two dashes. -/
def longFlag (flags : List Flag) (p : Progress) (text : String) : Except UsageFault Progress :=
  let (name, rest) := text.toList.span (· ≠ '=')
  let value := if rest.isEmpty then none else some (String.ofList rest.tail)
  match String.ofList name, value with
  | "help", none => p.stop .displayHelp
  | "version", none => p.stop .displayVersion
  | "help", some _ | "version", some _ => .error .tooManyValues
  | name, value =>
    match flags.find? fun flag => flag.name = name with
    | some flag => p.begin flag value
    | none => .error .unknownArgument

/-- Read an argument behind one dash. -/
def shortFlag (flags : List Flag) (p : Progress) (letter : Char) (rest : List Char) :
    Except UsageFault Progress :=
  if letter = 'h' then p.stop .displayHelp
  else if letter = 'V' then p.stop .displayVersion
  else
    match flags.find? fun flag => flag.letter = some letter, rest with
    | none, _ => .error .unknownArgument
    | some flag, [] => p.begin flag none
    | some flag, '=' :: value => p.begin flag (some (.ofList value))
    | some flag, value => p.begin flag (some (.ofList value))

/-- Read an argument. -/
def read (flags : List Flag) (p : Progress) (argument : String) : Except UsageFault Progress :=
  if p.pastFlags then .error .unknownArgument
  else
    match argument.toList with
    | ['-', '-'] => .ok { p with pastFlags := true }
    | '-' :: '-' :: text => p.longFlag flags (.ofList text)
    | '-' :: letter :: rest => p.shortFlag flags letter rest
    | _ =>
      match p.pending with
      | some (flag, none) => .ok { p with pending := some (flag, some argument) }
      | _ => .error .unknownArgument

end Progress

/-- Take the variables of the environment for flags that have not been given. -/
def addVariables (environment : List (String × String)) : List Flag → Given →
    Except UsageFault Given
  | [], g => .ok g
  | flag :: rest, g =>
    match g.values? flag.name, environment.lookup flag.variableName with
    | none, some value => do addVariables environment rest (← g.accept flag value)
    | _, _ => addVariables environment rest g

/-- The values that command line and environment give. -/
def readGiven (flags : List Flag) (arguments : List String) (environment : List (String × String)) :
    Except UsageFault Given := do
  let p ← arguments.foldlM (Progress.read flags) ⟨[], none, false⟩
  let p ← p.settle
  addVariables environment flags p.given

end Telemetry.Settings
