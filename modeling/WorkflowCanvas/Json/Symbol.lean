/-!
# Text that may hold stray bytes

What comes from a file or from the network is bytes.  Read as UTF-8 it is a list of symbols: the
characters that are there, and every byte that belongs to none.  A text of the program is the
special case without stray bytes.
-/

namespace WorkflowCanvas

/-- A character, or a byte that is part of no character. -/
inductive Symbol
  | char (c : Char)
  | stray (byte : UInt8)
  deriving DecidableEq

namespace Symbol

/-- The symbols of a text. -/
def ofText (text : String) : List Symbol := text.toList.map .char

/-- How many bytes the symbol takes. -/
def width : Symbol → Nat
  | .char c => c.utf8Size
  | .stray _ => 1

/-- Whether a list of symbols takes at least `n` bytes. -/
def spans : List Symbol → Nat → Bool
  | [], n => n == 0
  | s :: rest, n => n ≤ s.width || spans rest (n - s.width)

/-- The character with this number, if there is one and it needs at least `least` to be encoded in
so many bytes. -/
def codePoint? (least n : Nat) : Option Char :=
  if h : n.isValidChar ∧ least ≤ n then some (Char.ofNatAux n h.1) else none

/-- A byte that continues a character, without its mark. -/
def continuation? (byte : UInt8) : Option Nat :=
  if byte.toNat / 64 = 2 then some (byte.toNat % 64) else none

/-- The character in two bytes. -/
def twoBytes? (a b : UInt8) : Option Char := do
  if a.toNat / 32 = 6 then codePoint? 0x80 (a.toNat % 32 * 64 + (← continuation? b)) else none

/-- The character in three bytes. -/
def threeBytes? (a b c : UInt8) : Option Char := do
  if a.toNat / 16 = 14 then
    codePoint? 0x800 ((a.toNat % 16 * 64 + (← continuation? b)) * 64 + (← continuation? c))
  else none

/-- The character in four bytes. -/
def fourBytes? (a b c d : UInt8) : Option Char := do
  if a.toNat / 8 = 30 then
    codePoint? 0x10000 (((a.toNat % 8 * 64 + (← continuation? b)) * 64 + (← continuation? c)) * 64
      + (← continuation? d))
  else none

/-- Bytes read as UTF-8. -/
def ofBytes : List UInt8 → List Symbol
  | [] => []
  | a :: rest =>
    if a.toNat < 0x80 then
      .char (Char.ofNat a.toNat) :: ofBytes rest
    else
      match rest with
      | b :: rest₂ =>
        match twoBytes? a b with
        | some ch => .char ch :: ofBytes rest₂
        | none =>
          match rest₂ with
          | c :: rest₃ =>
            match threeBytes? a b c with
            | some ch => .char ch :: ofBytes rest₃
            | none =>
              match rest₃ with
              | d :: rest₄ =>
                match fourBytes? a b c d with
                | some ch => .char ch :: ofBytes rest₄
                | none => .stray a :: ofBytes (b :: c :: d :: rest₄)
              | [] => .stray a :: ofBytes (b :: c :: [])
          | [] => .stray a :: ofBytes (b :: [])
      | [] => [.stray a]

/-- The characters, if no byte is stray. -/
def chars? : List Symbol → Option (List Char)
  | [] => some []
  | .char c :: rest => (chars? rest).map (c :: ·)
  | .stray _ :: _ => none

/-- The text, if no byte is stray. -/
def toText? (symbols : List Symbol) : Option String := (chars? symbols).map String.ofList

theorem chars?_map_char (cs : List Char) : chars? (cs.map .char) = some cs := by
  induction cs with
  | nil => rfl
  | cons c cs ih => simp [chars?, ih]

theorem toText?_ofText (text : String) : toText? (ofText text) = some text := by
  simp [toText?, ofText, chars?_map_char]

end Symbol

end WorkflowCanvas
