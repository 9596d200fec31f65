import WorkflowCanvas.Decimal.Reader
import WorkflowCanvas.Proofs.Decimal.Parts
import WorkflowCanvas.Proofs.Decimal.Shortest

/-!
# Reading decimal text back

`Binary64.ofText?` puts the digits of a text together and rounds once.  So it gives back the number
that the text was written for (`Binary64.ofText?_render`), whatever the style.  In particular the
text determines the number, the sign of a zero included (`Binary64.renderChars_injective`).
-/

namespace WorkflowCanvas

namespace Binary64

open Decimal Decimal.Parts

/-! ## Reading the parts -/

lemma digitsValue_eq {digits : List Char} (hdigits : ∀ c ∈ digits, c.isDigit = true) :
    digitsValue digits = Nat.ofDigitChars 10 digits 0 := by
  have hvalues : digits.filterMap (Text.digit? 10) = digits.map digitOf := by
    induction digits with
    | nil => rfl
    | cons c digits ih =>
      have hc : Text.digit? 10 c = some (digitOf c) :=
        digit?_of_isDigit (hdigits c List.mem_cons_self)
      rw [List.filterMap_cons_some hc, List.map_cons,
        ih fun c hc => hdigits c (List.mem_cons_of_mem _ hc)]
  rw [digitsValue, hvalues, Text.numberOf, foldl_digitOf]

lemma spanDecimal_append {digits rest : List Char} (hdigits : ∀ c ∈ digits, c.isDigit = true)
    (hrest : ∀ c ∈ rest.head?, c.isDigit = false) :
    spanDecimal (digits ++ rest) = (digits, rest) := by
  have hstop : rest.takeWhile Char.isDigit = [] ∧ rest.dropWhile Char.isDigit = rest := by
    cases rest with
    | nil => exact ⟨rfl, rfl⟩
    | cons c rest =>
      have hc : ¬ c.isDigit = true := by
        rw [hrest c rfl]
        decide
      exact ⟨List.takeWhile_cons_of_neg hc, List.dropWhile_cons_of_neg hc⟩
  rw [spanDecimal, List.takeWhile_append_of_pos hdigits, List.dropWhile_append_of_pos hdigits,
    hstop.1, hstop.2, List.append_nil]

lemma exponent?_powerChars (power : Int) : exponent? (powerChars power) = some power := by
  have hdigits : ∀ c ∈ Nat.toDigits 10 power.natAbs, c.isDigit = true := fun c hc =>
    Nat.isDigit_of_mem_toDigits (by decide) (by decide) hc
  have hspan : spanDecimal (Nat.toDigits 10 power.natAbs ++ []) =
      (Nat.toDigits 10 power.natAbs, []) := spanDecimal_append hdigits fun c hc => nomatch hc
  rw [List.append_nil] at hspan
  have hvalue : digitsValue (Nat.toDigits 10 power.natAbs) = power.natAbs := by
    rw [digitsValue_eq hdigits, Nat.ofDigitChars_ten_toDigits]
  unfold powerChars
  by_cases hsign : power < 0
  · rw [if_pos hsign]
    simp only [exponent?, true_or, if_true, hspan, hvalue, Nat.toDigits_ne_nil, ne_eq, not_true,
      or_self, if_false, Option.some.injEq]
    omega
  · rw [if_neg hsign]
    simp only [exponent?, true_or, if_true, hspan, hvalue, Nat.toDigits_ne_nil, ne_eq, not_true,
      or_self, if_false, Option.some.injEq, Bool.false_eq_true]
    omega

/-- An exponent that is not there is zero. -/
lemma exponent?_elim (power : Option Int) :
    exponent? (power.elim [] powerChars) = some (power.getD 0) := by
  cases power with
  | none => rfl
  | some power => exact exponent?_powerChars power

lemma head?_elim_powerChars (power : Option Int) :
    ∀ c ∈ (power.elim [] powerChars).head?, c.isDigit = false := by
  cases power with
  | none => exact fun c hc => nomatch hc
  | some power =>
    rintro c hc
    obtain rfl := Option.some.inj hc
    rfl

lemma head?_tailChars (p : Parts) : ∀ c ∈ p.tailChars.head?, c.isDigit = false := by
  unfold tailChars
  split
  · exact head?_elim_powerChars p.power
  · rintro c hc
    obtain rfl := Option.some.inj hc
    rfl

/-- A text that begins with a digit is no word. -/
lemma map_toLower_ne {c : Char} (hc : c.isDigit = true) (cs : List Char) {word : List Char}
    (hword : word.head?.map Char.isDigit = some false) : (c :: cs).map Char.toLower ≠ word := by
  rintro rfl
  have hlower : c.toLower = c := by
    have hle : c.val ≤ '9'.val := by
      simp only [Char.isDigit, Bool.and_eq_true, decide_eq_true_eq] at hc
      exact hc.2
    unfold Char.toLower
    rw [dif_neg]
    rintro ⟨hcapital, -⟩
    exact absurd (UInt32.le_trans hcapital hle) (by decide)
  rw [List.map_cons, hlower, List.head?_cons, Option.map_some, hc] at hword
  cases hword

/-- The digits of a text are put together, and its exponent is moved behind all of them. -/
lemma ofUnsigned?_chars (negative : Bool) {p : Parts} (hne : p.whole ≠ [])
    (hdigits : ∀ c ∈ p.digitChars, c.isDigit = true) :
    ofUnsigned? negative p.chars = some (ofDigits negative p.digitChars p.exponent) := by
  obtain ⟨whole, fraction, power⟩ := p
  have hwhole : ∀ c ∈ whole, c.isDigit = true := fun c hc =>
    hdigits c (List.mem_append_left _ hc)
  have hfraction : ∀ c ∈ fraction, c.isDigit = true := fun c hc =>
    hdigits c (List.mem_append_right _ hc)
  have hword : ∀ word : List Char, word.head?.map Char.isDigit = some false →
      (whole ++ tailChars ⟨whole, fraction, power⟩).map Char.toLower ≠ word := by
    obtain ⟨c, cs, rfl⟩ := List.exists_cons_of_ne_nil hne
    exact fun word => map_toLower_ne (hwhole c List.mem_cons_self) _
  unfold ofUnsigned? chars
  dsimp only
  rw [if_neg (hword _ (by decide)), if_neg (not_or.2 ⟨hword _ (by decide), hword _ (by decide)⟩),
    spanDecimal_append hwhole (head?_tailChars _)]
  dsimp only
  rw [if_neg fun h => hne h.1]
  unfold tailChars Parts.digitChars Parts.exponent
  by_cases hnone : fraction = []
  · subst hnone
    rw [if_pos rfl, List.nil_append]
    cases power with
    | none => rfl
    | some power => exact congrArg (Option.map _) (exponent?_powerChars power)
  · rw [if_neg hnone]
    simp only [List.cons_append, spanDecimal_append hfraction (head?_elim_powerChars power),
      exponent?_elim, Option.map_some]

/-! ## The text of a finite number -/

/-- The digits of a magnitude's text are rounded to the magnitude. -/
lemma ofDigits_of_spells (negative : Bool) {tie : Tie} {m : Magnitude} {p : Parts} {zeros : Nat}
    (hspells : p.Spells (m.shortest tie) zeros) :
    ofDigits negative p.digitChars p.exponent = .finite negative m := by
  have hdigits : digitsValue p.digitChars = (m.shortest tie).digits * 10 ^ zeros := by
    rw [digitsValue_eq hspells.isDigit, hspells.value]
  unfold ofDigits
  by_cases hzero : m.significand = 0
  · obtain rfl := Magnitude.eq_zero hzero
    have hnone : digitsValue p.digitChars = 0 := by
      rw [hdigits, Magnitude.shortest, if_pos hzero, Nat.zero_mul]
    rw [if_pos (.inl hnone)]
  · have hinside := Magnitude.shortest_inside tie hzero
    have hlength := length_digitChars_le hinside.digits_lt
    have hlow := hinside.le_exponent
    have hhigh := hinside.exponent_le
    have hpos : digitsValue p.digitChars ≠ 0 := by
      rw [hdigits]
      exact (Nat.mul_pos hinside.digits_pos (by positivity)).ne'
    have hpower : -345 ≤ p.power.getD 0 ∧ p.power.getD 0 ≤ 325 := by
      have hcount := length_digitChars_pos (m.shortest tie)
      rcases hspells.power with h | h
      · omega
      · rw [h, Style.leadingExponent]
        omega
    have hfits : ¬ p.exponent + p.digitChars.length < -400 := by
      rw [Parts.exponent, Parts.digitChars, List.length_append]
      omega
    have hsmall : ¬ 400 < p.exponent := by
      rw [Parts.exponent]
      omega
    rw [if_neg (not_or.2 ⟨hpos, hfits⟩), if_neg hsmall, hdigits, hspells.exponent_eq,
      ofDecimal_zeros, ofDecimal_shortest]

/-- The text of a finite number in any style is read back as the number. -/
theorem ofText?_render (style : Style) {x : Binary64} (hx : x.isFinite = true) :
    ofText? (x.render style) = some x := by
  obtain ⟨negative, m, rfl⟩ := isFinite_iff.1 hx
  obtain ⟨p, zeros, htext, hspells⟩ := style.exists_parts (m.shortest style.tie)
  have hread : ofUnsigned? negative (style.decimalChars (m.shortest style.tie)) =
      some (.finite negative m) := by
    rw [htext, ofUnsigned?_chars negative hspells.ne_nil hspells.isDigit,
      ofDigits_of_spells negative hspells]
  rw [ofText?, render, String.toList_ofList, renderChars]
  cases negative with
  | true => exact hread
  | false =>
    obtain ⟨c, cs, hcs, hc⟩ := style.decimalChars_eq_cons (m.shortest style.tie)
    rw [if_neg (by decide), List.nil_append]
    rw [hcs] at hread ⊢
    split
    · rename_i heq
      obtain rfl := (List.cons.inj heq).1
      cases hc
    · rename_i heq
      obtain rfl := (List.cons.inj heq).1
      cases hc
    · exact hread

/-- Different finite numbers have different texts. -/
theorem renderChars_injective (style : Style) {x y : Binary64} (hx : x.isFinite = true)
    (hy : y.isFinite = true) (h : x.renderChars style = y.renderChars style) : x = y := by
  have hread := ofText?_render style hx
  rw [render, h, ← render, ofText?_render style hy] at hread
  exact (Option.some.inj hread).symm

end Binary64

end WorkflowCanvas
