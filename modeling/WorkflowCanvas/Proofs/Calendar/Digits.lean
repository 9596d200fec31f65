import Mathlib.Data.List.Induction
import WorkflowCanvas.Calendar.Reader
import WorkflowCanvas.Proofs.Decimal.Parts

/-!
# Numbers of a given width

The parts of dates and times are written in digits, padded with zeros to a width.  `Writes` says of
a text that it consists of so many digits and writes a number, which is all that the readers ask for
(`Calendar.readNumber_append`): they take the number and leave what stands behind it.
-/

namespace WorkflowCanvas

/-- The text consists of `width` digits, which write `n`. -/
structure Writes (width n : Nat) (text : List Char) : Prop where
  length_eq : text.length = width
  isDigit : ∀ c ∈ text, c.isDigit = true
  value_eq : Nat.ofDigitChars 10 text 0 = n

/-- A number in its decimal digits, behind zeros that fill the width. -/
lemma writes_padded (width n : Nat) :
    Writes (max width (Nat.toDigits 10 n).length) n (padded width n) where
  length_eq := by
    simp only [padded, List.length_append, List.length_replicate]
    omega
  isDigit c hc := by
    rcases List.mem_append.1 hc with hzero | hdigit
    · exact Decimal.isDigit_of_mem_zeros hzero
    · exact Nat.isDigit_of_mem_toDigits (by decide) (by decide) hdigit
  value_eq := by simp [padded, Nat.ofDigitChars_append]

lemma writes_padded_of_lt {width n : Nat} (hwidth : 0 < width) (hlt : n < 10 ^ width) :
    Writes width n (padded width n) := by
  have hlength : (Nat.toDigits 10 n).length ≤ width :=
    (Nat.length_toDigits_le_iff (by decide) hwidth).2 hlt
  have hwrites := writes_padded width n
  rwa [Nat.max_eq_left hlength] at hwrites

lemma writes_two {n : Nat} (hlt : n < 100) : Writes 2 n (padded 2 n) :=
  writes_padded_of_lt (by decide) hlt

lemma numberOf_lt {digits : List Nat} (hdigits : ∀ d ∈ digits, d < 10) :
    Text.numberOf 10 digits < 10 ^ digits.length := by
  induction digits using List.reverseRecOn with
  | nil => simp [Text.numberOf]
  | append_singleton digits d ih =>
    have hd : d < 10 := hdigits d (by simp)
    have hfront := ih fun x hx => hdigits x (List.mem_append_left _ hx)
    simp only [Text.numberOf, List.foldl_append, List.foldl_cons, List.foldl_nil,
      List.length_append, List.length_singleton, Nat.pow_succ] at hfront ⊢
    omega

namespace Writes

variable {width n : Nat} {text : List Char}

lemma exists_cons (h : Writes width n text) (hwidth : 0 < width) :
    ∃ c rest, text = c :: rest ∧ c.isDigit = true := by
  have hne : text ≠ [] := by
    rintro rfl
    exact Nat.ne_of_gt hwidth h.length_eq.symm
  obtain ⟨c, rest, rfl⟩ := List.exists_cons_of_ne_nil hne
  exact ⟨c, rest, rfl, h.isDigit c List.mem_cons_self⟩

lemma isDigit_of_getLast? (h : Writes width n text) (hwidth : 0 < width) {front : List Char}
    {c : Char} (hc : c ∈ (front ++ text).getLast?) : c.isDigit = true := by
  obtain ⟨d, rest, rfl, -⟩ := h.exists_cons hwidth
  rw [List.getLast?_append_of_ne_nil front (by simp)] at hc
  exact h.isDigit c (List.mem_of_getLast? hc)

lemma numberOf_eq (h : Writes width n text) :
    Text.numberOf 10 (text.map Decimal.digitOf) = n := by
  rw [Text.numberOf, Decimal.foldl_digitOf, h.value_eq]

/-- A text writes one number. -/
lemma unique {width' n' : Nat} (h : Writes width n text) (h' : Writes width' n' text) : n = n' :=
  h.value_eq.symm.trans h'.value_eq

end Writes

namespace Calendar

/-! ## Reading digits -/

/-- Nothing at the head of the text continues a number. -/
def NoDigit (text : List Char) : Prop := ∀ c ∈ text.head?, Text.digit? 10 c = none

lemma noDigit_nil : NoDigit [] := nofun

lemma noDigit_cons {c : Char} {text : List Char} (h : Text.digit? 10 c = none) :
    NoDigit (c :: text) := by
  intro d hd
  obtain rfl := Option.some.inj hd
  exact h

variable {cs rest : List Char} {width n : Nat}

lemma takeDigits_of_noDigit (most : Nat) (hrest : NoDigit rest) :
    takeDigits most rest = ([], rest) := by
  cases most with
  | zero => rfl
  | succ most =>
    cases rest with
    | nil => rfl
    | cons c rest => simp [takeDigits, hrest c rfl]

lemma dropWhile_of_noDigit (hrest : NoDigit rest) : rest.dropWhile Char.isDigit = rest := by
  cases rest with
  | nil => rfl
  | cons c rest =>
    refine List.dropWhile_cons_of_neg fun hc => ?_
    simpa [Decimal.digit?_of_isDigit hc] using hrest c rfl

/-- Digits are taken as long as they last or until there are enough of them. -/
lemma takeDigits_append {most : Nat} (hcs : ∀ c ∈ cs, c.isDigit = true) (hmost : cs.length ≤ most)
    (hend : cs.length = most ∨ NoDigit rest) :
    takeDigits most (cs ++ rest) = (cs.map Decimal.digitOf, rest) := by
  induction cs generalizing most with
  | nil =>
    rcases hend with rfl | hrest
    · rfl
    · exact takeDigits_of_noDigit most hrest
  | cons c cs ih =>
    obtain ⟨fewer, rfl⟩ : ∃ fewer, most = fewer + 1 := ⟨most - 1, by simp at hmost; omega⟩
    have hmore : takeDigits fewer (cs ++ rest) = (cs.map Decimal.digitOf, rest) :=
      ih (fun x hx => hcs x (List.mem_cons_of_mem c hx)) (by simpa using hmost)
        (by simpa using hend)
    simp [takeDigits, Decimal.digit?_of_isDigit (hcs c List.mem_cons_self), hmore]

lemma digits_of_takeDigits (most : Nat) (text : List Char) :
    (takeDigits most text).1.length ≤ most ∧ ∀ d ∈ (takeDigits most text).1, d < 10 := by
  fun_induction takeDigits most text with
  | case1 text => simp
  | case2 most => simp
  | case3 most c text d hd ih =>
    refine ⟨by simpa using ih.1, ?_⟩
    simpa using ⟨Text.digit?_lt hd, ih.2⟩
  | case4 most c text hc => simp

/-- A written number is read, and what follows is left. -/
lemma readNumber_append {least most : Nat} (h : Writes width n cs) (hleast : least ≤ width)
    (hmost : width ≤ most) (hend : width = most ∨ NoDigit rest) :
    readNumber least most (cs ++ rest) = some (n, rest) := by
  have hlength := h.length_eq
  have htake : takeDigits most (cs ++ rest) = (cs.map Decimal.digitOf, rest) :=
    takeDigits_append h.isDigit (by omega) (hend.imp_left hlength.trans)
  simp [readNumber, htake, hlength, h.numberOf_eq, Nat.not_lt.2 hleast]

/-- A number has no more digits than are taken. -/
lemma lt_of_readNumber {least most : Nat} {text : List Char}
    (h : readNumber least most text = some (n, rest)) : n < 10 ^ most := by
  obtain ⟨hlength, hdigits⟩ := digits_of_takeDigits most text
  have hvalue : Text.numberOf 10 (takeDigits most text).1 = n := by
    simp only [readNumber] at h
    split at h
    · cases h
    · exact congrArg Prod.fst (Option.some.inj h)
  rw [← hvalue]
  exact Nat.lt_of_lt_of_le (numberOf_lt hdigits) (Nat.pow_le_pow_right (by decide) hlength)

end Calendar

end WorkflowCanvas
