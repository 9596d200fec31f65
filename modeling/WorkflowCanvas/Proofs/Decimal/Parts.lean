import Mathlib.Data.List.Basic
import Mathlib.Tactic.Ring
import WorkflowCanvas.Decimal.Style
import WorkflowCanvas.Text.Basic

/-!
# The parts of a decimal's text

In every style the text of a decimal consists of whole digits, of a fraction behind a point if there
is one, and of an exponent if there is one.  `Decimal.Parts` are these three, and
`Decimal.exists_parts` finds them in the text of any decimal.  What a reader makes of a written
number is then said of parts, once for all styles.

Parts may hold more zeros than the digits of the decimal, which the power of ten makes up for.
-/

namespace WorkflowCanvas

/-! ## Digits -/

namespace Decimal

/-- The value of a decimal digit. -/
def digitOf (c : Char) : Nat := c.toNat - '0'.toNat

lemma digit?_of_isDigit {c : Char} (h : c.isDigit = true) :
    Text.digit? 10 c = some (digitOf c) := by
  have hrange : '0' ≤ c ∧ c ≤ '9' := by
    simpa [Char.isDigit, Char.le_def] using h
  have hlt : digitOf c < 10 := by
    have hle : c.toNat ≤ '9'.toNat := hrange.2
    have hnine : '9'.toNat = 57 := rfl
    have hzero : '0'.toNat = 48 := rfl
    unfold digitOf
    omega
  rw [Text.digit?, Text.digitValue?, if_pos hrange]
  exact Option.filter_eq_some_iff.2 ⟨rfl, by simpa using hlt⟩

lemma foldl_digitOf (cs : List Char) (whole : Nat) :
    (cs.map digitOf).foldl (fun n d => n * 10 + d) whole = Nat.ofDigitChars 10 cs whole := by
  induction cs generalizing whole with
  | nil => simp
  | cons c cs ih =>
    rw [List.map_cons, List.foldl_cons, ih, Nat.ofDigitChars_cons, Nat.mul_comm 10 whole]
    rfl

lemma head?_toDigits_ne (n : Nat) (hpos : 0 < n) : (Nat.toDigits 10 n).head? ≠ some '0' := by
  induction n using Nat.strong_induction_on with
  | _ n ih =>
    rw [Nat.toDigits_eq_if (by decide)]
    split
    · rw [List.head?_cons]
      intro heq
      have hzero := Nat.digitChar_eq_zero.1 (Option.some.inj heq)
      omega
    · have hfront := ih (n / 10) (by omega) (by omega)
      obtain ⟨c, cs, hcs⟩ : ∃ c cs, Nat.toDigits 10 (n / 10) = c :: cs :=
        List.exists_cons_of_ne_nil Nat.toDigits_ne_nil
      rw [hcs] at hfront ⊢
      exact hfront

/-- The whole digits of a number: some, and no zero before another digit. -/
structure WholeDigits (cs : List Char) : Prop where
  isDigit : ∀ c ∈ cs, c.isDigit = true
  ne_nil : cs ≠ []
  lead : cs.length = 1 ∨ cs.head? ≠ some '0'

lemma wholeDigits_toDigits (n : Nat) : WholeDigits (Nat.toDigits 10 n) where
  isDigit _ hc := Nat.isDigit_of_mem_toDigits (by decide) (by decide) hc
  ne_nil := Nat.toDigits_ne_nil
  lead := by
    by_cases hzero : n = 0
    · rw [hzero]
      exact .inl rfl
    · exact .inr (head?_toDigits_ne n (by omega))

lemma WholeDigits.take {cs : List Char} (h : WholeDigits cs) {count : Nat} (hpos : 0 < count) :
    WholeDigits (cs.take count) where
  isDigit c hc := h.isDigit c (List.mem_of_mem_take hc)
  ne_nil := by
    rw [Ne, List.take_eq_nil_iff]
    rintro (hzero | hnil)
    · omega
    · exact h.ne_nil hnil
  lead := by
    rcases h.lead with hone | hhead
    · rw [List.length_take, hone]
      omega
    · rw [List.head?_take, if_neg (by omega)]
      exact .inr hhead

section Digits

variable (d : Decimal)

lemma wholeDigits_digitChars : WholeDigits (Style.digitChars d) := wholeDigits_toDigits d.digits

lemma length_digitChars_pos : 0 < (Style.digitChars d).length := Nat.length_toDigits_pos

lemma digits_lt_pow_length : d.digits < 10 ^ (Style.digitChars d).length :=
  (Nat.length_toDigits_le_iff (by decide) (length_digitChars_pos d)).1 (Nat.le_refl _)

lemma ofDigitChars_digitChars : Nat.ofDigitChars 10 (Style.digitChars d) 0 = d.digits :=
  Nat.ofDigitChars_ten_toDigits

variable {d}

lemma length_digitChars_le (hdigits : d.digits < 10 ^ 18) : (Style.digitChars d).length ≤ 18 :=
  (Nat.length_toDigits_le_iff (by decide) (by decide)).2 hdigits

end Digits

lemma isDigit_of_mem_zeros {count : Nat} {c : Char} (hc : c ∈ List.replicate count '0') :
    c.isDigit = true := by
  obtain rfl := (List.mem_replicate.1 hc).2
  rfl

/-! ## Parts -/

/-- The parts of the text of a decimal. -/
structure Parts where
  whole : List Char
  fraction : List Char
  power : Option Int

namespace Parts

/-- The text of an exponent. -/
def powerChars (power : Int) : List Char :=
  'e' :: (if power < 0 then '-' else '+') :: Nat.toDigits 10 power.natAbs

/-- What stands behind the whole digits. -/
def tailChars (p : Parts) : List Char :=
  (if p.fraction = [] then [] else '.' :: p.fraction) ++ p.power.elim [] powerChars

/-- The text that consists of the parts. -/
def chars (p : Parts) : List Char := p.whole ++ p.tailChars

/-- The digits without the point. -/
def digitChars (p : Parts) : List Char := p.whole ++ p.fraction

/-- The power of ten that the digits without the point are multiplied by. -/
def exponent (p : Parts) : Int := p.power.getD 0 - p.fraction.length

/-- The parts stand for the decimal, with so many zeros more among the digits. -/
structure Spells (p : Parts) (d : Decimal) (zeros : Nat) : Prop where
  isDigit : ∀ c ∈ p.digitChars, c.isDigit = true
  ne_nil : p.whole ≠ []
  /-- There is no zero in front, unless the digits of the decimal are zero. -/
  wholeDigits : 0 < d.digits ∨ d.exponent = 0 → WholeDigits p.whole
  power : p.power.getD 0 = 0 ∨ p.power.getD 0 = Style.leadingExponent d
  value : Nat.ofDigitChars 10 p.digitChars 0 = d.digits * 10 ^ zeros
  exponent_eq : p.exponent = d.exponent - zeros

end Parts

open Parts

/-! ## The layouts -/

/-- The digits with zeros behind them, and perhaps zeros behind the point. -/
lemma spells_whole {d : Decimal} (hsign : 0 ≤ d.exponent) (places : Nat) :
    Spells ⟨Style.digitChars d ++ List.replicate d.exponent.toNat '0', List.replicate places '0',
      none⟩ d (d.exponent.toNat + places) where
  isDigit c hc := by
    rcases List.mem_append.1 hc with hc | hc
    · rcases List.mem_append.1 hc with hc | hc
      · exact (wholeDigits_digitChars d).isDigit c hc
      · exact isDigit_of_mem_zeros hc
    · exact isDigit_of_mem_zeros hc
  ne_nil := List.append_ne_nil_of_left_ne_nil (wholeDigits_digitChars d).ne_nil _
  wholeDigits hlead := by
    have hdigits := wholeDigits_digitChars d
    refine ⟨fun c hc => ?_, List.append_ne_nil_of_left_ne_nil hdigits.ne_nil _, ?_⟩
    · rcases List.mem_append.1 hc with hc | hc
      · exact hdigits.isDigit c hc
      · exact isDigit_of_mem_zeros hc
    · rcases hlead with hpos | hzero
      · rw [List.head?_append_of_ne_nil _ hdigits.ne_nil]
        exact .inr (head?_toDigits_ne d.digits hpos)
      · rw [hzero, Int.toNat_zero, List.replicate_zero, List.append_nil]
        exact hdigits.lead
  power := .inl rfl
  value := by
    rw [Parts.digitChars, Nat.ofDigitChars_append, Nat.ofDigitChars_append,
      ofDigitChars_digitChars, Nat.ofDigitChars_replicate_zero, Nat.ofDigitChars_replicate_zero]
    ring
  exponent_eq := by
    simp only [Parts.exponent, Option.getD_none, List.length_replicate]
    omega

/-- The digits with a point behind the first of them. -/
lemma spells_cut {d : Decimal} {count : Nat} {power : Option Int} (hpos : 0 < count)
    (hpower : power.getD 0 = 0 ∨ power.getD 0 = Style.leadingExponent d)
    (hexponent : power.getD 0 - ((Style.digitChars d).length - count : Nat) = d.exponent) :
    Spells ⟨(Style.digitChars d).take count, (Style.digitChars d).drop count, power⟩ d 0 where
  isDigit := by
    rw [Parts.digitChars, List.take_append_drop]
    exact (wholeDigits_digitChars d).isDigit
  ne_nil := ((wholeDigits_digitChars d).take hpos).ne_nil
  wholeDigits _ := (wholeDigits_digitChars d).take hpos
  power := hpower
  value := by
    rw [Parts.digitChars, List.take_append_drop, ofDigitChars_digitChars, Nat.pow_zero,
      Nat.mul_one]
  exponent_eq := by
    rw [Parts.exponent, List.length_drop, hexponent]
    omega

/-- The digits behind a zero, the point and more zeros. -/
lemma spells_behind {d : Decimal} {zeros : Nat}
    (hexponent : d.exponent = -((zeros + (Style.digitChars d).length : Nat) : Int)) :
    Spells ⟨['0'], List.replicate zeros '0' ++ Style.digitChars d, none⟩ d 0 where
  isDigit c hc := by
    rcases List.mem_append.1 hc with hc | hc
    · exact (wholeDigits_toDigits 0).isDigit c hc
    · rcases List.mem_append.1 hc with hc | hc
      · exact isDigit_of_mem_zeros hc
      · exact (wholeDigits_digitChars d).isDigit c hc
  ne_nil := List.cons_ne_nil _ _
  wholeDigits _ := wholeDigits_toDigits 0
  power := .inl rfl
  value := by
    rw [Parts.digitChars, Nat.ofDigitChars_append, Nat.ofDigitChars_append,
      Nat.ofDigitChars_replicate_zero, Nat.pow_zero, Nat.mul_one]
    exact ofDigitChars_digitChars d
  exponent_eq := by
    simp only [Parts.exponent, List.length_append, List.length_replicate, Option.getD_none]
    omega

end Decimal

namespace Style

open Decimal Parts

/-- The zeros that a text without exponent has behind the digits. -/
def zeros (style : Style) (d : Decimal) : Nat :=
  if 0 ≤ d.exponent then d.exponent.toNat + (if style.pointZero then 1 else 0) else 0

/-- A text without an exponent. -/
lemma exists_parts_positional (style : Style) (d : Decimal) :
    ∃ p : Parts, style.positionalChars d = p.chars ∧ p.Spells d (style.zeros d) ∧
      (style.pointZero = true → p.fraction ≠ []) := by
  have hlength := length_digitChars_pos d
  unfold positionalChars zeros
  by_cases hsign : 0 ≤ d.exponent
  · rw [if_pos hsign, if_pos hsign]
    refine ⟨_, ?_, spells_whole hsign _, ?_⟩
    · cases style.pointZero <;> simp [chars, tailChars]
    · intro hpoint
      rw [hpoint]
      exact List.cons_ne_nil _ _
  · rw [if_neg hsign, if_neg hsign]
    by_cases hplaces : (-d.exponent).toNat < (digitChars d).length
    · have hne : (digitChars d).drop ((digitChars d).length - (-d.exponent).toNat) ≠ [] :=
        List.ne_nil_of_length_pos (by rw [List.length_drop]; omega)
      refine ⟨⟨_, _, none⟩, ?_, spells_cut ?_ (.inl rfl) ?_, fun _ => hne⟩
      · simp [hplaces, chars, tailChars, hne]
      · omega
      · rw [Option.getD_none]
        omega
    · have hne : List.replicate ((-d.exponent).toNat - (digitChars d).length) '0' ++
          digitChars d ≠ [] := List.append_ne_nil_of_right_ne_nil _ Nat.toDigits_ne_nil
      refine ⟨_, ?_, spells_behind ?_, fun _ => hne⟩
      · simp [hplaces, chars, tailChars, hne]
      · omega

/-- A text with an exponent. -/
lemma exists_parts_scientific (d : Decimal) :
    ∃ p : Parts, scientificChars d = p.chars ∧ p.Spells d 0 ∧ p.power ≠ none := by
  have hlength := length_digitChars_pos d
  refine ⟨⟨_, _, some (leadingExponent d)⟩, ?_, @spells_cut d 1 _ (by decide) (.inr rfl) ?_,
    Option.some_ne_none _⟩
  · simp [scientificChars, chars, tailChars, powerChars]
  · rw [Option.getD_some, leadingExponent]
    omega

/-- The text of a decimal in any style has parts. -/
lemma exists_parts (style : Style) (d : Decimal) :
    ∃ (p : Parts) (zeros : Nat), style.decimalChars d = p.chars ∧ p.Spells d zeros := by
  obtain ⟨p, htext, hspells, -⟩ := exists_parts_positional style d
  obtain ⟨p', htext', hspells', -⟩ := exists_parts_scientific d
  unfold decimalChars
  split
  · exact ⟨p, _, htext, hspells⟩
  · split
    · exact ⟨p, _, htext, hspells⟩
    · exact ⟨p', _, htext', hspells'⟩

/-- The text of a decimal begins with a digit. -/
lemma decimalChars_eq_cons (style : Style) (d : Decimal) :
    ∃ c cs, style.decimalChars d = c :: cs ∧ c.isDigit = true := by
  obtain ⟨p, zeros, htext, hspells⟩ := style.exists_parts d
  obtain ⟨c, cs, hcs⟩ := List.exists_cons_of_ne_nil hspells.ne_nil
  rw [htext, chars, hcs]
  exact ⟨c, _, rfl, hspells.isDigit c (by rw [Parts.digitChars, hcs]; exact List.mem_cons_self)⟩

end Style

end WorkflowCanvas
