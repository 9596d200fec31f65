import Mathlib.Tactic.IntervalCases
import WorkflowCanvas.Json.Lexeme
import WorkflowCanvas.Json.Tree

/-!
# Reading a written text

`escapeChar` writes one character of a text and the reader takes it back in one or more steps
(`readTextFrom_escapeChar`): at once, behind a backslash, or from the four digits of a control
character.  Going over the characters, `readText_textChars` says that a written text is read as
itself, whatever stands behind it.
-/

namespace WorkflowCanvas.Json

lemma hexDigit?_digitChar {n : Nat} (hn : n < 16) :
    hexDigit? (.char (Nat.digitChar n)) = some n := by
  interval_cases n <;> decide

lemma width_digitChar {n : Nat} (hn : n < 16) : Symbol.width (.char (Nat.digitChar n)) = 1 := by
  interval_cases n <;> decide

/-- Four one-byte symbols are enough for the digits of an escape. -/
lemma spans_four {a b c d : Symbol} (rest : List Symbol) (ha : a.width = 1) (hb : b.width = 1)
    (hc : c.width = 1) (hd : d.width = 1) : Symbol.spans (a :: b :: c :: d :: rest) 4 = true := by
  simp [Symbol.spans, ha, hb, hc, hd]

lemma closeHex_none {value : Nat} (hlt : value < 0xD800) :
    closeHex none value = .ok (.inl (Char.ofNat value)) := by
  rw [closeHex, if_neg (by omega), if_neg (by omega)]

/-- A digit of an escape that is not the last. -/
lemma readTextFrom_hex {s : Symbol} {digit : Nat} {lead : Option Nat} {clean : Bool}
    (missing value : Nat) (read : List Char) (rest : List Symbol)
    (hs : hexDigit? s = some digit) :
    readTextFrom (.hex (missing + 2) value lead) clean read (s :: rest) =
      readTextFrom (.hex (missing + 1) (value * 16 + digit) lead) clean read rest := by
  rw [readTextFrom, hs]
  dsimp only
  rw [if_pos (by omega)]
  rfl

/-- The last digit of an escape that is no surrogate. -/
lemma readTextFrom_lastHex {s : Symbol} {digit value : Nat} (read : List Char)
    (rest : List Symbol) (hs : hexDigit? s = some digit) (hlt : value * 16 + digit < 0xD800) :
    readTextFrom (.hex 1 value none) true read (s :: rest) =
      readTextFrom .plain true (Char.ofNat (value * 16 + digit) :: read) rest := by
  rw [readTextFrom, hs]
  dsimp only
  rw [if_neg (by omega), closeHex_none hlt]

/-- A control character is read from its four digits. -/
lemma readTextFrom_control {high low : Nat} (hhigh : high < 16) (hlow : low < 16)
    (read : List Char) (rest : List Symbol) :
    readTextFrom .plain true read (.char '\\' :: .char 'u' :: .char '0' :: .char '0' ::
        .char (Nat.digitChar high) :: .char (Nat.digitChar low) :: rest) =
      readTextFrom .plain true (Char.ofNat (high * 16 + low) :: read) rest := by
  have hzero : hexDigit? (.char '0') = some 0 := by decide
  have hwidth : Symbol.width (.char '0') = 1 := rfl
  have hspans := spans_four rest hwidth hwidth (width_digitChar hhigh) (width_digitChar hlow)
  have hvalue : ((0 * 16 + 0) * 16 + 0) * 16 + high = high := by omega
  rw [readTextFrom, readTextFrom, if_pos hspans, readTextFrom_hex 2 0 read _ hzero,
    readTextFrom_hex 1 _ read _ hzero, readTextFrom_hex 0 _ read _ (hexDigit?_digitChar hhigh),
    hvalue, readTextFrom_lastHex read rest (hexDigit?_digitChar hlow) (by omega)]

/-- A written character is read as itself. -/
lemma readTextFrom_escapeChar (c : Char) (read : List Char) (rest : List Symbol) :
    readTextFrom .plain true read ((escapeChar c).map .char ++ rest) =
      readTextFrom .plain true (c :: read) rest := by
  unfold escapeChar
  split
  · rfl
  · rfl
  · rfl
  · rfl
  · rfl
  · rfl
  · rfl
  · rename_i hquote hslash _ _ _ _ _
    split
    · rename_i hcontrol
      have hhigh : c.toNat / 16 < 16 := by omega
      have hlow : c.toNat % 16 < 16 := by omega
      have hvalue : c.toNat / 16 * 16 + c.toNat % 16 = c.toNat := by omega
      have hread := readTextFrom_control hhigh hlow read rest
      rw [hvalue, Char.ofNat_toNat] at hread
      exact hread
    · rename_i hplain
      rw [List.map_cons, List.map_nil, List.singleton_append, readTextFrom, if_neg hplain]
      · exact hquote
      · exact hslash

/-- What is between the quotes of a written text is read as the text. -/
lemma readTextFrom_characters (cs read : List Char) (rest : List Symbol) :
    readTextFrom .plain true read ((cs.flatMap escapeChar).map .char ++ rest) =
      readTextFrom .plain true (cs.reverse ++ read) rest := by
  induction cs generalizing read with
  | nil => rfl
  | cons c cs ih =>
    rw [List.flatMap_cons, List.map_append, List.append_assoc, readTextFrom_escapeChar, ih,
      List.reverse_cons, List.append_assoc, List.singleton_append]

/-- A written text is read as itself, and reading stops behind its closing quote. -/
theorem readText_textChars (s : String) (rest : List Symbol) :
    readText ((s.toList.flatMap escapeChar ++ ['"']).map .char ++ rest) = .ok (s, rest) := by
  rw [readText, List.map_append, List.append_assoc, readTextFrom_characters, List.append_nil]
  change Except.ok (String.ofList s.toList.reverse.reverse, rest) = _
  rw [List.reverse_reverse, String.ofList_toList]

end WorkflowCanvas.Json
