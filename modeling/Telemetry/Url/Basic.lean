-- SUMMARY: Web addresses: reading, writing, and adding segments to the path.
import Telemetry.Url.Host

/-!
# Web addresses

A web address has the scheme `http` or `https`, a host, and perhaps credentials, a port, a path, a query
and a fragment. Reading is lenient: any number of slashes of either kind may stand before the host, blanks
around the text and line breaks within are dropped, and characters that may not stand where they are get
encoded. Dots in the path are resolved. Writing gives the canonical form. The names of hosts are brought to
ASCII by a conversion that the reader is given.
-/

namespace Telemetry

/-- A web address in canonical parts; texts are encoded. -/
structure Url where
  scheme : String
  username : String
  /-- The password, absent when it is empty. -/
  password : Option String
  host : String
  /-- The port, absent when it is the one of the scheme. -/
  port : Option Nat
  /-- The segments of the path; there is at least one. -/
  path : List String
  query : Option String
  fragment : Option String
  deriving DecidableEq, Repr

namespace Url

-- ---------------------------------------------------------------------------
-- Schemes
-- ---------------------------------------------------------------------------

/-- The text that is read: no controls or blanks at the ends, no tabs or line breaks anywhere. -/
def cleanInput (text : String) : List Char :=
  let isEdge := fun (c : Char) => c.toNat ≤ 0x20
  let inner := ((text.toList.dropWhile isEdge).reverse.dropWhile isEdge).reverse
  inner.filter fun c => c ≠ '\t' && c ≠ '\n' && c ≠ '\r'

/-- The character may stand in a scheme after its first letter. -/
def isSchemeChar (c : Char) : Bool :=
  c.isAlphanum || c = '+' || c = '-' || c = '.'

/-- The scheme in lower case and the text after its colon. -/
def splitScheme? (text : List Char) : Option (String × List Char) :=
  match text.span isSchemeChar with
  | (first :: rest, ':' :: after) =>
    if first.isAlpha then
      some (String.ofList ((first :: rest).map Char.toLower), after)
    else none
  | _ => none

/-- The schemes of web addresses. -/
def isWebScheme (scheme : String) : Bool :=
  scheme = "http" || scheme = "https"

/-- The port that a scheme implies. -/
def defaultPort? (scheme : String) : Option Nat :=
  if scheme = "http" then some 80 else if scheme = "https" then some 443 else none

-- ---------------------------------------------------------------------------
-- Authority
-- ---------------------------------------------------------------------------

/-- The character ends the authority. -/
def endsAuthority (c : Char) : Bool :=
  c = '/' || c = '\\' || c = '?' || c = '#'

/-- The text before and after the last at-sign; without one nothing is before it. -/
def splitCredentials (authority : List Char) : Option (List Char) × List Char :=
  match authority.reverse.span (· ≠ '@') with
  | (host, _ :: credentials) => (some credentials.reverse, host.reverse)
  | (host, []) => (none, host.reverse)

/-- User name and password, encoded. -/
def readCredentials (credentials : List Char) : String × Option String :=
  let (name, rest) := credentials.span (· ≠ ':')
  let password := rest.drop 1
  (encodePart .userinfo name,
    if password.isEmpty then none else some (encodePart .userinfo password))

/-- The text of the host and what follows it; a colon inside brackets belongs to the host. -/
def splitHost : (inBrackets : Bool) → List Char → List Char × List Char
  | _, [] => ([], [])
  | inBrackets, c :: rest =>
    if c = ':' && !inBrackets then ([], c :: rest)
    else
      let (host, after) := splitHost (if c = '[' then true else if c = ']' then false else inBrackets) rest
      (c :: host, after)

/-- The port after a host. -/
def readPort (scheme : String) : List Char → Except Fault (Option Nat)
  | ':' :: digits =>
    if !digits.all Char.isDigit then .error .invalidPort
    else
      let port := digits.foldl (fun acc c => acc * 10 + (c.toNat - '0'.toNat)) 0
      if 65535 < port then .error .invalidPort
      else if digits.isEmpty || defaultPort? scheme = some port then .ok none
      else .ok (some port)
  | _ => .ok none

-- ---------------------------------------------------------------------------
-- Path
-- ---------------------------------------------------------------------------

/-- A segment that means the directory itself. -/
def isSingleDot (segment : String) : Bool :=
  [".", "%2e", "%2E"].contains segment

/-- A segment that means the directory above. -/
def isDoubleDot (segment : String) : Bool :=
  ["..", "%2e%2e", "%2e%2E", "%2E%2e", "%2E%2E", "%2e.", "%2E.", ".%2e", ".%2E"].contains segment

/-- A drive letter, which no reference to the directory above removes. -/
def isDriveLetter (segment : String) : Bool :=
  match segment.toList with
  | [letter, mark] => letter.isAlpha && (mark = ':' || mark = '|')
  | _ => false

/-- The path without its last segment, given and returned in reverse. -/
def removeLast : List String → List String
  | [] => []
  | last :: before => if isDriveLetter last then last :: before else before

/-- Put an encoded segment behind a path in reverse. A dot segment at the end leaves an empty segment. -/
def resolveSegment (path : List String) (segment : String) (isLast : Bool) : List String :=
  if isDoubleDot segment then
    let path := removeLast path
    if isLast then "" :: path else path
  else if isSingleDot segment then if isLast then "" :: path else path
  else segment :: path

/-- Put raw segments behind a path in reverse. -/
def resolveSegments (path : List String) : List (List Char) → List String
  | [] => path
  | [last] => resolveSegment path (encodePart .path last) true
  | segment :: rest =>
    resolveSegments (resolveSegment path (encodePart .path segment) false) rest

/-- The segments between slashes of either kind. -/
def splitPath (text : List Char) : List (List Char) :=
  text.splitOnP fun c => c = '/' || c = '\\'

/-- The path of a text that is empty or begins with a slash. -/
def readPath (text : List Char) : List String :=
  (resolveSegments [] (splitPath (text.drop 1))).reverse

-- ---------------------------------------------------------------------------
-- Reading
-- ---------------------------------------------------------------------------

/-- The text before a mark, and the text after it if the mark is there. -/
def splitMark (mark : Char) (text : List Char) : List Char × Option (List Char) :=
  match text.span (· ≠ mark) with
  | (before, _ :: after) => (before, some after)
  | (before, []) => (before, none)

/-- Read what follows the colon of a web scheme. -/
def readAfterScheme (toAscii? : ToAscii) (scheme : String) (text : List Char) : Except Fault Url := do
  let text := text.dropWhile fun c => c = '/' || c = '\\'
  let (authority, rest) := text.span fun c => !endsAuthority c
  let (credentials, hostAndPort) := splitCredentials authority
  let (hostText, portText) := splitHost false hostAndPort
  let host ← Host.read toAscii? hostText
  let port ← readPort scheme portText
  let (username, password) := (credentials.map readCredentials).getD ("", none)
  let (beforeFragment, fragment) := splitMark '#' rest
  let (path, query) := splitMark '?' beforeFragment
  .ok
    { scheme, username, password, host, port
      path := readPath path
      query := query.map (encodePart .query)
      fragment := fragment.map (encodePart .fragment) }

/-- Read a web address; `none` if the text has no web scheme. -/
def readWeb? (toAscii? : ToAscii) (text : String) : Option (Except Fault Url) :=
  match splitScheme? (cleanInput text) with
  | some (scheme, rest) =>
    if isWebScheme scheme then some (readAfterScheme toAscii? scheme rest) else none
  | none => none

-- ---------------------------------------------------------------------------
-- Writing
-- ---------------------------------------------------------------------------

/-- The credentials with the sign that ends them. -/
def writeCredentials (u : Url) : String :=
  let password := (u.password.map (":" ++ ·)).getD ""
  if u.username.isEmpty && password.isEmpty then "" else u.username ++ password ++ "@"

/-- The path with its slashes. -/
def writePath (u : Url) : String :=
  "/" ++ String.intercalate "/" u.path

/-- Path and query, which is what a request asks for. -/
def requestTarget (u : Url) : String :=
  u.writePath ++ (u.query.map ("?" ++ ·)).getD ""

/-- Host and port. -/
def writeAuthority (u : Url) : String :=
  u.host ++ (u.port.map fun port => ":" ++ toString port).getD ""

/-- The canonical text of a web address. -/
def write (u : Url) : String :=
  u.scheme ++ "://" ++ u.writeCredentials ++ u.writeAuthority ++ u.requestTarget
    ++ (u.fragment.map ("#" ++ ·)).getD ""

-- ---------------------------------------------------------------------------
-- Adding segments
-- ---------------------------------------------------------------------------

/-- The path without an empty segment at its end. -/
def dropEmptyEnd (path : List String) : List String :=
  match path.reverse with
  | "" :: before@(_ :: _) => before.reverse
  | _ => path

/-- Put one more segment behind a path. It is encoded as a whole, tabs and line breaks are dropped, and
    the two dot segments leave the path as it is. A segment that becomes one of them only by what is
    dropped is resolved like a dot segment at the end of a path. -/
def addSegment (path : List String) (raw : String) : List String :=
  if raw = "." || raw = ".." then path
  else
    let before := if path = [""] then [] else path.reverse
    let kept := raw.toList.filter fun c => c ≠ '\t' && c ≠ '\n' && c ≠ '\r'
    (resolveSegment before (encodePart .segment kept) true).reverse

/-- The address with segments added to its path. -/
def addSegments (u : Url) (segments : List String) : Url :=
  { u with path := segments.foldl addSegment (dropEmptyEnd u.path) }

-- ---------------------------------------------------------------------------
-- Other schemes
-- ---------------------------------------------------------------------------

/-- The fault in what follows the colon of a scheme without rules of its own, if there is one: an
    authority has to have a host if it has anything else, and a port that is a number. -/
def otherFault? (text : List Char) : Option Fault :=
  match text with
  | '/' :: '/' :: rest =>
    let isEnd := fun (c : Char) => c = '/' || c = '?' || c = '#'
    let authority := rest.takeWhile fun c => !isEnd c
    let (credentials, hostAndPort) := splitCredentials authority
    let (hostText, portText) := splitHost false hostAndPort
    match Host.readOpaque hostText, readPort "" portText with
    | .error fault, _ => some fault
    | .ok host, port =>
      if host.isEmpty && (!portText.isEmpty || credentials.isSome) then some .emptyHost
      else
        match port with
        | .error fault => some fault
        | .ok _ => none
  | _ => none

/-- The scheme of a text that is a URL of a scheme without rules of its own. -/
def otherScheme? (text : String) : Option String :=
  match splitScheme? (cleanInput text) with
  | some (scheme, rest) =>
    if isWebScheme scheme || (otherFault? rest).isSome then none else some scheme
  | none => none

end Url

end Telemetry
