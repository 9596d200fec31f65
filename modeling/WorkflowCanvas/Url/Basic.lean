import WorkflowCanvas.Url.Host

/-!
# URLs

The parts of an absolute URL, each in its encoded form, and the text they make.  A scheme is special
if its URLs always name a host and always have a path.
-/

namespace WorkflowCanvas

/-- The scheme of a URL. -/
structure Url.Scheme where
  /-- In lower case. -/
  name : List Char
  deriving DecidableEq

namespace Url.Scheme

/-- The port of special schemes that have one. -/
def defaultPort? (s : Scheme) : Option Nat :=
  [("http".toList, 80), ("ws".toList, 80), ("https".toList, 443), ("wss".toList, 443),
    ("ftp".toList, 21)].lookup s.name

/-- Whether the URLs are those of files. -/
def isFile (s : Scheme) : Bool := s.name == "file".toList

/-- Whether the scheme is special. -/
def isSpecial (s : Scheme) : Bool := s.isFile || s.defaultPort?.isSome

/-- Whether requests can be sent to the URLs. -/
def isWeb (s : Scheme) : Bool := s.name == "http".toList || s.name == "https".toList

end Url.Scheme

/-- Who is asked for access, and where. -/
structure Url.Authority where
  user : List Char
  password : List Char
  host : Url.Host
  /-- None for the port of the scheme. -/
  port : Option Nat
  deriving DecidableEq

/-- What is asked for. -/
inductive Url.Path
  /-- A text without hierarchy, to which nothing can be appended. -/
  | rootless (text : List Char)
  /-- Names from the root down. -/
  | names (names : List (List Char))
  deriving DecidableEq

/-- An absolute URL. -/
structure Url where
  scheme : Url.Scheme
  authority : Option Url.Authority
  path : Url.Path
  query : Option (List Char)
  fragment : Option (List Char)
  deriving DecidableEq

namespace Url

/-- User and password in front of a host. -/
def Authority.credentials (a : Authority) : List Char :=
  if a.user = [] ∧ a.password = [] then []
  else if a.password = [] then a.user ++ ['@']
  else a.user ++ ':' :: a.password ++ ['@']

/-- The text of an authority. -/
def Authority.chars (a : Authority) : List Char :=
  a.credentials ++ a.host.chars ++ (a.port.elim [] fun port => ':' :: Nat.toDigits 10 port)

/-- The text of a path. -/
def Path.chars : Path → List Char
  | .rootless text => text
  | .names all => all.flatMap ('/' :: ·)

/-- What keeps the path of a URL without authority from being read as one. -/
def pathGuard (u : Url) : List Char :=
  match u.authority, u.path with
  | none, .names ([] :: _ :: _) => ['/', '.']
  | _, _ => []

/-- The URL up to its path. -/
def originChars (u : Url) : List Char :=
  u.scheme.name ++ ':' :: (u.authority.elim [] fun a => '/' :: '/' :: a.chars) ++ u.pathGuard

/-- The URL behind its path. -/
def suffixChars (u : Url) : List Char :=
  (u.query.elim [] ('?' :: ·)) ++ (u.fragment.elim [] ('#' :: ·))

/-- The text of a URL. -/
def chars (u : Url) : List Char := u.originChars ++ u.path.chars ++ u.suffixChars

/-- The text of a URL. -/
def render (u : Url) : String := String.ofList u.chars

/-- Whether nothing can be appended to the URL. -/
def isRootless (u : Url) : Bool :=
  match u.path with
  | .rootless _ => true
  | .names _ => false

/-! ## Names in a path -/

/-- A name that stays where it is. -/
def isDot (name : List Char) : Bool := [".".toList, "%2e".toList].contains (name.map Char.toLower)

/-- A name that leads to the directory above. -/
def isDoubleDot (name : List Char) : Bool :=
  ["..".toList, "%2e.".toList, ".%2e".toList, "%2e%2e".toList].contains (name.map Char.toLower)

/-- The letter of a drive, which no name leads out of. -/
def isDrive : List Char → Bool
  | [c, mark] => c.isAlpha && (mark == ':' || mark == '|')
  | _ => false

/-- The names without the last one. -/
def above (names : List (List Char)) : List (List Char) :=
  match names.getLast? with
  | some name => if isDrive name then names else names.dropLast
  | none => []

/-- Follows an encoded name from where others lead; a final name that is followed ends the path with
a slash. -/
def follow (names : List (List Char)) (name : List Char) (final : Bool) : List (List Char) :=
  let ending := if final then [[]] else []
  if isDoubleDot name then above names ++ ending
  else if isDot name then names ++ ending
  else names ++ [name]

/-- The letter of a drive with a colon behind it. -/
def markDrive (name : List Char) : List Char := if isDrive name then name.take 1 ++ [':'] else name

/-- The names of a path as a file's URL has them: the first is not empty unless it is the only one.
-/
def trimRoot (names : List (List Char)) : List (List Char) :=
  match names.dropWhile (· == []) with
  | [] => [[]]
  | name :: names => markDrive name :: names

/-- The path in the form of the scheme. -/
def settle (s : Scheme) (names : List (List Char)) : List (List Char) :=
  if s.isFile then trimRoot names else names

/-! ## Appending -/

/-- Tabs and line ends, which are taken out of every URL. -/
def isLayout (c : Char) : Bool := c == '\t' || c == '\n' || c == '\r'

/-- Leaves out the empty name at the end of a path, but not the root. -/
def dropEmptyName (names : List (List Char)) : List (List Char) :=
  if names.length ≤ 1 ∨ names.getLast? ≠ some [] then names else names.dropLast

/-- Appends a text as one name.  `.` and `..` are left out. -/
def appendName (s : Scheme) (names : List (List Char)) (text : List Char) : List (List Char) :=
  if text = ['.'] ∨ text = ['.', '.'] then names
  else
    let start := if names = [[]] then [] else names
    let name := percentEncode (segmentReserved s.isSpecial) (text.filter (!isLayout ·))
    settle s (follow start name true)

/-- The URL with texts appended as names of its path, if it has names. -/
def append? (u : Url) (texts : List (List Char)) : Option Url :=
  match u.path with
  | .rootless _ => none
  | .names names =>
    some { u with path := .names (texts.foldl (appendName u.scheme) (dropEmptyName names)) }

end Url

end WorkflowCanvas
