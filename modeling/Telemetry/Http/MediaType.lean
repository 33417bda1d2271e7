-- SUMMARY: Media types of bodies, and which of them are JSON.

/-!
# Media types

A media type is a type and a subtype, which may end in a suffix behind a plus sign, followed by
parameters. A body is JSON if the subtype or the suffix says so.
-/

namespace Telemetry.Http

/-- A media type without its parameters, in lower case. -/
structure MediaType where
  type : String
  subtype : String
  suffix : Option String
  deriving DecidableEq, Repr

namespace MediaType

/-- The characters of names. -/
def isToken (c : Char) : Bool :=
  c.isAlphanum || "!#$%&*+-.^_|~".toList.contains c || c = '\x27' || c = '\x60'

/-- The characters between the quotes of a value. -/
def isQuotable (c : Char) : Bool :=
  32 ≤ c.toNat && c.toNat < 127 && c ≠ '"'

/-- The rest behind the value of a parameter and the semicolon after it. -/
def afterValue? (text : List Char) : Option (List Char) :=
  match text with
  | '"' :: quoted =>
    match quoted.dropWhile isQuotable with
    | '"' :: rest =>
      match rest.dropWhile (· = ' ') with
      | [] => some []
      | ';' :: rest => some rest
      | _ => none
    | _ => none
  | _ =>
    match text.span isToken with
    | (_, []) => some []
    | (_ :: _, ';' :: rest) => some rest
    | _ => none

/-- The parameters are well formed. Each round takes at least one character. -/
def parametersOk : (fuel : Nat) → List Char → Bool
  | _, [] => true
  | 0, _ => false
  | fuel + 1, text =>
    match (text.dropWhile (· = ' ')).span isToken with
    | ([], []) => true
    | (_ :: _, '=' :: rest) => (afterValue? rest).elim false (parametersOk fuel)
    | _ => false

/-- A subtype and its suffix, which stands behind the last plus sign that is not the first character. -/
def splitSuffix (subtype : List Char) : List Char × Option (List Char) :=
  let (suffix, before) := subtype.reverse.span (· ≠ '+')
  match before with
  | _ :: start@(_ :: _) => (start.reverse, some suffix.reverse)
  | _ => (subtype, none)

/-- Read the media type of a header. -/
def read? (text : String) : Option MediaType :=
  match text.toLower.toList.span isToken with
  | (type@(_ :: _), '/' :: rest) =>
    match rest.span isToken with
    | (subtype@(_ :: _), after) =>
      let (subtype, suffix) := splitSuffix subtype
      let mediaType := ⟨.ofList type, .ofList subtype, suffix.map .ofList⟩
      match after with
      | [] => some mediaType
      | ';' :: parameters =>
        if parametersOk parameters.length parameters then some mediaType else none
      | _ => none
    | _ => none
  | _ => none

/-- A body of this type is JSON. -/
def isJson (m : MediaType) : Bool :=
  m.subtype == "json" || m.suffix == some "json"

end MediaType

end Telemetry.Http
