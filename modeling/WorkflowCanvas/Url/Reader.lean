import WorkflowCanvas.Url.Basic

/-!
# Reading URLs

`Url.ofText` reads an absolute URL as browsers do: white space around it and layout within it do not
count, special schemes need no slashes before their host and take a backslash for a slash, and the
names `.` and `..` are followed.
-/

namespace WorkflowCanvas.Url

/-- Whether a character separates the names of a path. -/
def isSlash (special : Bool) (c : Char) : Bool := c == '/' || (special && c == '\\')

/-- Whether a character stands behind the path. -/
def endsPath (c : Char) : Bool := c == '?' || c == '#'

/-- Whether a character stands behind the authority. -/
def endsAuthority (special : Bool) (c : Char) : Bool := isSlash special c || endsPath c

/-- The text before the first character of a kind, and the text from it on. -/
def cut (stop : Char → Bool) (text : List Char) : List Char × List Char :=
  (text.takeWhile (!stop ·), text.dropWhile (!stop ·))

/-- Reads a scheme and the colon behind it. -/
def readScheme (text : List Char) : Option (Scheme × List Char) :=
  let (name, rest) := cut (fun c => !(c.isAlphanum || c == '+' || c == '-' || c == '.')) text
  match rest with
  | ':' :: rest =>
    if (name.head?.map Char.isAlpha) = some true then some (⟨name.map Char.toLower⟩, rest) else none
  | _ => none

/-! ## Authorities -/

/-- User and password. -/
def splitCredentials (text : List Char) : List Char × List Char :=
  let (user, password) := cut (· == ':') text
  (percentEncode userReserved user, percentEncode userReserved (password.drop 1))

/-- The host and what stands behind it: colons between brackets belong to the host. -/
def splitHost (bracketed : Bool) : List Char → List Char × List Char
  | [] => ([], [])
  | c :: text =>
    if c = ':' ∧ bracketed = false then ([], c :: text)
    else
      let (host, rest) := splitHost (c == '[' || (bracketed && c != ']')) text
      (c :: host, rest)

/-- Reads a port; the one of the scheme counts as none. -/
def readPort (s : Scheme) (text : List Char) : Except Error (Option Nat × List Char) :=
  let (digits, rest) := cut (!Char.isDigit ·) text
  let port := Text.numberOf 10 (digits.filterMap (Text.digit? 10))
  if 65535 < port ∨ (rest ≠ [] ∧ rest.head? ≠ some '\\') then .error .badPort
  else .ok (if digits = [] ∨ s.defaultPort? = some port then none else some port, rest)

/-- Reads host and port. -/
def readHost [Idna] (s : Scheme) (text : List Char) :
    Except Error ((Host × Option Nat) × List Char) := do
  let (hostText, rest) := splitHost false text
  if hostText = [] ∧ (s.isSpecial ∨ rest ≠ []) then .error .emptyHost
  else
    let host ← if s.isSpecial then Host.ofText hostText else Host.ofAnyText hostText
    match rest with
    | ':' :: rest =>
      let (port, rest) ← readPort s rest
      .ok ((host, port), rest)
    | rest => .ok ((host, none), rest)

/-- Reads the authority behind two slashes. -/
def readAuthority [Idna] (s : Scheme) (text : List Char) :
    Except Error (Authority × List Char) := do
  let (zone, behind) := cut (endsAuthority s.isSpecial) text
  let (before, hostText) := (Text.splitLast? '@' zone).getD ([], zone)
  let (user, password) := splitCredentials before
  let named := user ≠ [] ∨ password ≠ []
  if hostText = [] ∧ (named ∨ (zone = ['@'] ∧ behind ≠ [])) then .error .emptyHost
  else
    let ((host, port), rest) ← readHost s hostText
    if host = .empty ∧ named then .error .emptyHost
    else .ok (⟨user, password, host, port⟩, rest ++ behind)

/-- Reads the host of a file.  The letter of a drive is no host, and the machine itself needs none.
-/
def readFileHost [Idna] (text : List Char) : Except Error (Host × List Char) := do
  let (hostText, behind) := cut (endsAuthority true) text
  if hostText = [] ∨ isDrive hostText then .ok (.empty, text)
  else
    let host ← Host.ofText hostText
    .ok (if host = .domain "localhost".toList then .empty else host, behind)

/-! ## Paths -/

/-- Follows the pieces of a path. -/
def followAll (names : List (List Char)) : List (List Char) → List (List Char)
  | [] => names
  | [piece] => follow names (percentEncode pathReserved piece) true
  | piece :: pieces => followAll (follow names (percentEncode pathReserved piece) false) pieces

/-- Reads the names of a path; the slash before the first may be missing. -/
def readNames (s : Scheme) (text : List Char) : List (List Char) :=
  let text := if (text.head?.map (isSlash s.isSpecial)) = some true then text.drop 1 else text
  settle s (followAll [] (Text.split (isSlash s.isSpecial) text))

/-! ## Whole URLs -/

/-- Reads query and fragment. -/
def readSuffix (s : Scheme) (text : List Char) : Option (List Char) × Option (List Char) :=
  let (query, fragment) := cut (· == '#') text
  (if query = [] then none else some (percentEncode (queryReserved s.isSpecial) (query.drop 1)),
    if fragment = [] then none else some (percentEncode fragmentReserved (fragment.drop 1)))

/-- The URL with the path and what follows it read from a text. -/
def complete (s : Scheme) (authority : Option Authority) (text : List Char) : Url :=
  let (path, rest) := cut endsPath text
  let (query, fragment) := readSuffix s rest
  let path :=
    if s.isSpecial || path ≠ [] then .names (readNames s path)
    else .names []
  ⟨s, authority, path, query, fragment⟩

/-- Reads the URL of a file behind its scheme. -/
def readFile [Idna] (s : Scheme) (text : List Char) : Except Error Url :=
  match text with
  | a :: b :: rest =>
    if isSlash true a && isSlash true b then do
      let (host, rest) ← readFileHost rest
      .ok (complete s (some ⟨[], [], host, none⟩) rest)
    else .ok (complete s (some ⟨[], [], .empty, none⟩) text)
  | text => .ok (complete s (some ⟨[], [], .empty, none⟩) text)

/-- Reads a URL behind its scheme. -/
def readBehind [Idna] (s : Scheme) (text : List Char) : Except Error Url :=
  if s.isFile then readFile s text
  else if s.isSpecial then do
    let (authority, rest) ← readAuthority s (text.dropWhile (isSlash true))
    .ok (complete s (some authority) rest)
  else
    match text with
    | '/' :: '/' :: rest => do
      let (authority, rest) ← readAuthority s rest
      .ok (complete s (some authority) rest)
    | '/' :: _ => .ok (complete s none text)
    | text =>
      let (path, rest) := cut endsPath text
      let (query, fragment) := readSuffix s rest
      .ok ⟨s, none, .rootless (percentEncode hostReserved path), query, fragment⟩

/-- Whether a character is left out at the ends of a text. -/
def isMargin (c : Char) : Bool := c.toNat ≤ 0x20

/-- The part of a text that is read. -/
def strip (text : List Char) : List Char :=
  (((text.dropWhile isMargin).reverse.dropWhile isMargin).reverse).filter (!isLayout ·)

/-- Reads an absolute URL. -/
def ofText [Idna] (text : String) : Except Error Url :=
  match readScheme (strip text.toList) with
  | some (s, rest) => readBehind s rest
  | none => .error .noScheme

end WorkflowCanvas.Url
