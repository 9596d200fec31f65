import WorkflowCanvas.Text.Basic
import WorkflowCanvas.Url.Punycode

/-!
# Domain names

A domain name in ASCII.  The letters of a plain name are made small.  Any other name is brought into
ASCII by the tables of Unicode, and `Idna` stands for them: how URLs are read and what follows from
it is the same for all of them.  `Idna` has one instance here.  It is for the common alphabets: it
takes one character at a time, so it refuses joiners and combining marks and leaves the direction of
a label unchecked.
-/

namespace WorkflowCanvas.Url

/-- How a name that is not plain is brought into ASCII, with every label that needs it in Punycode.
There is nothing for a name that may not stand for a domain. -/
class Idna where
  toAscii? : List Char → Option (List Char)

namespace Domain

/-- What a label in Punycode begins with. -/
def encodedPrefix : List Char := "xn--".toList

/-- Whether a label, in small letters, is in Punycode. -/
def isEncoded (label : List Char) : Bool := encodedPrefix.isPrefixOf label

/-- The labels of a name. -/
def labels (name : List Char) : List (List Char) := Text.split (· == '.') name

/-- Whether a name is in ASCII and stands for nothing else. -/
def isPlain (name : List Char) : Bool :=
  name.all (·.toNat < 0x80) && (labels (name.map Char.toLower)).all (!isEncoded ·)

/-- The characters that never stand in a domain name. -/
def isForbidden (c : Char) : Bool :=
  c.toNat ≤ 0x20 || c.toNat == 0x7F
    || ['%', '#', '/', ':', '<', '>', '?', '@', '[', '\\', ']', '^', '|'].contains c

/-- A domain name in ASCII. -/
def toAscii? [Idna] (name : List Char) : Option (List Char) :=
  let ascii := if isPlain name then some (name.map Char.toLower) else Idna.toAscii? name
  ascii.filter fun ascii => !ascii.any isForbidden

/-! ## Names in the common alphabets -/

/-- Blocks of capital letters whose small letters stand a fixed distance above them. -/
def capitals : List (Nat × Nat × Nat) := [
  (0x41, 0x5A, 32), (0xC0, 0xD6, 32), (0xD8, 0xDE, 32), (0x386, 0x386, 38), (0x388, 0x38A, 37),
  (0x38C, 0x38C, 64), (0x38E, 0x38F, 63), (0x391, 0x3A1, 32), (0x3A3, 0x3AB, 32),
  (0x400, 0x40F, 80), (0x410, 0x42F, 32), (0x531, 0x556, 48)]

/-- Blocks in which capital and small letters alternate, a capital first. -/
def alternating : List (Nat × Nat) := [
  (0x100, 0x12F), (0x134, 0x137), (0x139, 0x13E), (0x141, 0x148), (0x14A, 0x177), (0x179, 0x17E),
  (0x1CD, 0x1DC), (0x1DE, 0x1EF), (0x1F8, 0x21F), (0x222, 0x233), (0x3D8, 0x3EF), (0x460, 0x481),
  (0x48A, 0x4BF), (0x4C1, 0x4CE), (0x4D0, 0x52F), (0x1E00, 0x1E95), (0x1EA0, 0x1EFF)]

/-- The number of a character's small letter. -/
def foldCase (n : Nat) : Nat :=
  match capitals.find? fun (low, high, _) => low ≤ n && n ≤ high with
  | some (_, _, distance) => n + distance
  | none =>
    match alternating.find? fun (low, high) => low ≤ n && n ≤ high with
    | some (low, _) => low + (n - low) / 2 * 2 + 1
    | none => n

/-- The full stops that separate labels. -/
def isFullStop (n : Nat) : Bool := n == 0x2E || n == 0x3002 || n == 0xFF0E || n == 0xFF61

/-- The characters that are left out: the soft hyphen, spaces without width and variation
selectors. -/
def isIgnored (n : Nat) : Bool :=
  n == 0xAD || n == 0x200B || n == 0x2060 || n == 0xFEFF || (0xFE00 ≤ n && n ≤ 0xFE0F)

/-- A character as it stands in a domain name, if it may.  Those outside ASCII that are not graphic
are refused, and joiners and combining marks are among them. -/
def mapChar? (c : Char) : Option (List Char) :=
  let n := c.toNat
  if n < 0x80 then some [c.toLower]
  else if isFullStop n then some ['.']
  else if isIgnored n then some []
  else if n == 0xFFFD || Text.isBlank c || !Text.isGraphic c then none
  else if 0xFF01 ≤ n && n ≤ 0xFF5E then some [Char.ofNat (foldCase (n - 0xFEE0))]
  else some [Char.ofNat (foldCase n)]

/-- A label whose characters have been mapped, in ASCII. -/
def label? (label : List Char) : Option (List Char) :=
  if label.any (0x80 ≤ ·.toNat) then
    if isEncoded label then none else some (encodedPrefix ++ Punycode.encode label)
  else if isEncoded label then
    -- It must stand for a label that is not in ASCII and is in its mapped form.
    match Punycode.decode? (label.drop 4) with
    | some plain =>
      if plain.any (0x80 ≤ ·.toNat) && plain.all (fun c => mapChar? c == some [c]) then some label
      else none
    | none => none
  else
    some label

instance : Idna where
  toAscii? name := do
    let mapped ← name.mapM mapChar?
    let ascii ← (labels mapped.flatten).mapM label?
    some (['.'].intercalate ascii)

end Domain

end WorkflowCanvas.Url
