import Mathlib.Tactic.Linarith
import Mathlib.Tactic.Ring
import WorkflowCanvas.Decimal.Shortest
import WorkflowCanvas.Binary64.Rounding

/-!
# Rounding to the nearest number

`roundHalfEven_eq` says which whole number a quotient is rounded to, and `roundHalfEven_mono` that a
greater quotient is not rounded to less.  For `Binary64.ofUnits`, which rounds once, this gives

* `ofUnits_of_covers`: every quotient in the interval of a magnitude is rounded to that magnitude,
  the ends of the interval included exactly when the significand is even;
* `ofUnits_eq_finite`: a quotient below the middle between the greatest magnitude and the next power
  of two is rounded to a finite number;
* `roundedUnits_mono` and `roundedUnits_of_bits`: a greater quotient is not rounded to less, and
  what needs no more than 53 bits is kept as it is.
-/

namespace WorkflowCanvas

/-! ## Whole quotients -/

lemma roundHalfEven_bounds (num : Nat) {den : Nat} (hden : 0 < den) :
    2 * roundHalfEven num den * den ≤ 2 * num + den ∧
      2 * num ≤ (2 * roundHalfEven num den + 1) * den := by
  have hdiv : den * (num / den) + num % den = num := Nat.div_add_mod num den
  have hmod : num % den < den := Nat.mod_lt num hden
  unfold roundHalfEven
  split
  · have hlow : 2 * (num / den + 1) * den = 2 * (den * (num / den)) + 2 * den := by ring
    have hhigh : (2 * (num / den + 1) + 1) * den = 2 * (den * (num / den)) + 3 * den := by ring
    omega
  · have hlow : 2 * (num / den) * den = 2 * (den * (num / den)) := by ring
    have hhigh : (2 * (num / den) + 1) * den = 2 * (den * (num / den)) + den := by ring
    omega

/-- A whole number at most half away is the rounded quotient, if it is even when it is exactly half
away. -/
lemma roundHalfEven_eq {num den r : Nat} (hden : 0 < den) (hlow : 2 * r * den ≤ 2 * num + den)
    (hhigh : 2 * num ≤ (2 * r + 1) * den)
    (htie : 2 * r * den = 2 * num + den ∨ 2 * num = (2 * r + 1) * den → r % 2 = 0) :
    roundHalfEven num den = r := by
  have hdiv : den * (num / den) + num % den = num := Nat.div_add_mod num den
  have hmod : num % den < den := Nat.mod_lt num hden
  set q := num / den with hq
  set rest := num % den with hrest
  have hle : q ≤ r := by
    by_contra hlt
    have hstep : r + 1 ≤ q := by omega
    have hmul : den * (r + 1) ≤ den * q := Nat.mul_le_mul_left den hstep
    nlinarith
  have hge : r ≤ q + 1 := by
    by_contra hlt
    have hstep : q + 2 ≤ r := by omega
    have hmul : den * (q + 2) ≤ den * r := Nat.mul_le_mul_left den hstep
    nlinarith
  unfold roundHalfEven
  rw [← hq, ← hrest]
  obtain rfl | rfl : r = q ∨ r = q + 1 := by omega
  · have hhalf : 2 * rest ≤ den := by nlinarith
    rw [if_neg]
    rintro (hlt | ⟨heq, hodd⟩)
    · omega
    · have heven := htie (.inr (by nlinarith))
      omega
  · have hhalf : den ≤ 2 * rest := by nlinarith
    rw [if_pos]
    by_cases heq : 2 * rest = den
    · have heven := htie (.inl (by nlinarith))
      exact .inr ⟨heq, by omega⟩
    · exact .inl (by omega)

lemma roundHalfEven_mono {num num' den : Nat} (hden : 0 < den) (hle : num ≤ num') :
    roundHalfEven num den ≤ roundHalfEven num' den := by
  by_contra hlt
  have hstep : roundHalfEven num' den + 1 ≤ roundHalfEven num den := by omega
  have hlow := (roundHalfEven_bounds num hden).1
  have hhigh := (roundHalfEven_bounds num' hden).2
  have hmul : den * (roundHalfEven num' den + 1) ≤ den * roundHalfEven num den :=
    Nat.mul_le_mul_left den hstep
  -- The two bounds leave room for one quotient only.
  have heq : num = num' := by nlinarith
  rw [heq] at hlt
  exact hlt (Nat.le_refl _)

lemma roundHalfEven_mul {r den : Nat} (hden : 0 < den) : roundHalfEven (r * den) den = r := by
  refine roundHalfEven_eq hden (by nlinarith) (by nlinarith) ?_
  rintro (h | h)
  · exfalso
    nlinarith
  · exfalso
    nlinarith

/-- A common factor does not change the rounded quotient. -/
lemma roundHalfEven_mul_mul (num den : Nat) {factor : Nat} (hfactor : 0 < factor) :
    roundHalfEven (num * factor) (den * factor) = roundHalfEven num den := by
  have hdiv : num * factor / (den * factor) = num / den := Nat.mul_div_mul_right _ _ hfactor
  have hmod : num * factor % (den * factor) = num % den * factor := Nat.mul_mod_mul_right ..
  have hassoc : 2 * (num % den * factor) = 2 * (num % den) * factor := (Nat.mul_assoc ..).symm
  unfold roundHalfEven
  rw [hdiv, hmod, hassoc]
  simp only [Nat.mul_lt_mul_right hfactor, Nat.mul_left_inj hfactor.ne']

/-! ## Quotients of units -/

/-- The shift under which a quotient has 53 significant bits, or none if it has fewer. -/
def roundingShift (num den : Nat) : Nat := (num / den).log2 - 52

/-- The quotient in steps of that shift. -/
def roundedSignificand (num den : Nat) : Nat := roundHalfEven num (den * 2 ^ roundingShift num den)

lemma roundedSignificand_le (num : Nat) {den : Nat} (hden : 0 < den) :
    roundedSignificand num den ≤ 2 ^ 53 := by
  have hstep : 0 < den * 2 ^ roundingShift num den := by positivity
  have hbounds := (roundHalfEven_bounds num hstep).1
  have hlog : (num / den).log2 + 1 ≤ 53 + roundingShift num den := by
    unfold roundingShift
    omega
  have hdiv : num / den < 2 ^ (53 + roundingShift num den) :=
    lt_of_lt_of_le Nat.lt_log2_self (Nat.pow_le_pow_right (by decide) hlog)
  have hnum : num < 2 ^ (53 + roundingShift num den) * den :=
    (Nat.div_lt_iff_lt_mul hden).1 hdiv
  have hpow : 2 ^ (53 + roundingShift num den) * den =
      2 ^ 53 * (den * 2 ^ roundingShift num den) := by
    rw [pow_add]
    ring
  change 2 * roundedSignificand num den * (den * 2 ^ roundingShift num den) ≤ _ at hbounds
  by_contra hlt
  have hmul : (2 ^ 53 + 1) * (den * 2 ^ roundingShift num den) ≤
      roundedSignificand num den * (den * 2 ^ roundingShift num den) :=
    Nat.mul_le_mul_right _ (by omega)
  rw [hpow] at hnum
  nlinarith

lemma le_roundedSignificand {num den : Nat} (hden : 0 < den) (hshift : 0 < roundingShift num den) :
    2 ^ 52 ≤ roundedSignificand num den := by
  have hstep : 0 < den * 2 ^ roundingShift num den := by positivity
  have hbounds := (roundHalfEven_bounds num hstep).2
  have hlog : (num / den).log2 = 52 + roundingShift num den := by
    unfold roundingShift at hshift ⊢
    omega
  have hne : num / den ≠ 0 := by
    intro h
    rw [h, Nat.log2_zero] at hlog
    omega
  have hdiv : 2 ^ (52 + roundingShift num den) ≤ num / den := by
    rw [← hlog]
    exact Nat.log2_self_le hne
  have hnum : 2 ^ (52 + roundingShift num den) * den ≤ num :=
    (Nat.le_div_iff_mul_le hden).1 hdiv
  have hpow : 2 ^ (52 + roundingShift num den) * den =
      2 ^ 52 * (den * 2 ^ roundingShift num den) := by
    rw [pow_add]
    ring
  change _ ≤ (2 * roundedSignificand num den + 1) * (den * 2 ^ roundingShift num den) at hbounds
  by_contra hlt
  have hmul : (roundedSignificand num den + 1) * (den * 2 ^ roundingShift num den) ≤
      2 ^ 52 * (den * 2 ^ roundingShift num den) :=
    Nat.mul_le_mul_right _ (by omega)
  rw [hpow] at hnum
  nlinarith

namespace Binary64

lemma ofUnits_eq (negative : Bool) (num den : Nat) :
    ofUnits negative num den =
      if roundedSignificand num den = 2 ^ 53 then
        ofParts negative (2 ^ 52) (roundingShift num den + 1)
      else ofParts negative (roundedSignificand num den) (roundingShift num den) :=
  rfl

lemma ofUnits_mul_mul (negative : Bool) (num den : Nat) {factor : Nat} (hfactor : 0 < factor) :
    ofUnits negative (num * factor) (den * factor) = ofUnits negative num den := by
  have hdiv : num * factor / (den * factor) = num / den := Nat.mul_div_mul_right _ _ hfactor
  have hshift : roundingShift (num * factor) (den * factor) = roundingShift num den := by
    rw [roundingShift, hdiv, roundingShift]
  have hsignificand : roundedSignificand (num * factor) (den * factor) =
      roundedSignificand num den := by
    rw [roundedSignificand, hshift, Nat.mul_right_comm, roundHalfEven_mul_mul _ _ hfactor,
      roundedSignificand]
  rw [ofUnits_eq, ofUnits_eq, hshift, hsignificand]

/-- Zeros that are taken from the exponent leave the number as it is. -/
lemma ofDecimal_zeros (negative : Bool) (digits : Nat) (exponent : Int) (zeros : Nat) :
    ofDecimal negative (digits * 10 ^ zeros) (exponent - zeros) =
      ofDecimal negative digits exponent := by
  -- the zeros that are not digits before the point are digits behind it
  obtain ⟨behind, hbefore, hbehind⟩ : ∃ behind,
      zeros + (exponent - zeros).toNat = exponent.toNat + behind ∧
        (-(exponent - zeros)).toNat = (-exponent).toNat + behind :=
    ⟨(-(exponent - zeros)).toNat - (-exponent).toNat, by omega, by omega⟩
  unfold ofDecimal ofQuotient
  calc ofUnits negative (digits * 10 ^ zeros * 10 ^ (exponent - zeros).toNat * unitsPerOne)
        (10 ^ (-(exponent - zeros)).toNat)
      = ofUnits negative (digits * 10 ^ exponent.toNat * unitsPerOne * 10 ^ behind)
          (10 ^ (-exponent).toNat * 10 ^ behind) := by
        rw [hbehind, Nat.mul_assoc digits, ← Nat.pow_add, hbefore, Nat.pow_add, Nat.pow_add]
        congr 1
        ring
    _ = ofUnits negative (digits * 10 ^ exponent.toNat * unitsPerOne) (10 ^ (-exponent).toNat) :=
      ofUnits_mul_mul negative _ _ (by positivity)

lemma ofParts_eq_finite {negative : Bool} {m : Magnitude} :
    ofParts negative m.significand m.shift = .finite negative m := by
  rw [ofParts, Magnitude.of?, dif_pos ⟨m.significand_lt, m.shift_le, m.normal⟩]

lemma roundingShift_le {num den shift : Nat} (hden : 0 < den)
    (hlt : num < 2 ^ 53 * (den * 2 ^ shift)) : roundingShift num den ≤ shift := by
  unfold roundingShift
  by_cases hzero : num / den = 0
  · rw [hzero, Nat.log2_zero]
    omega
  · have hpow : 2 ^ 53 * (den * 2 ^ shift) = 2 ^ (53 + shift) * den := by
      rw [pow_add]
      ring
    have hdiv : num / den < 2 ^ (53 + shift) := by
      rw [Nat.div_lt_iff_lt_mul hden, ← hpow]
      exact hlt
    have hlog : (num / den).log2 < 53 + shift := (Nat.log2_lt hzero).2 hdiv
    omega

lemma le_roundingShift {num den shift : Nat} (hden : 0 < den)
    (hle : 2 ^ 52 * (den * 2 ^ shift) ≤ num) : shift ≤ roundingShift num den := by
  unfold roundingShift
  have hpow : 2 ^ 52 * (den * 2 ^ shift) = 2 ^ (52 + shift) * den := by
    rw [pow_add]
    ring
  have hdiv : 2 ^ (52 + shift) ≤ num / den := by
    rw [Nat.le_div_iff_mul_le hden, ← hpow]
    exact hle
  have hne : num / den ≠ 0 := by
    have hpos : 0 < 2 ^ (52 + shift) := by positivity
    omega
  have hlog : 52 + shift ≤ (num / den).log2 := (Nat.le_log2 hne).2 hdiv
  omega

/-- At the greatest shift the rounding does not carry below the middle between the greatest
magnitude and the next power of two. -/
lemma roundedSignificand_lt {num den : Nat} (hden : 0 < den)
    (hlt : num < (2 ^ 54 - 1) * 2 ^ 2044 * den) (hshift : roundingShift num den = 2045) :
    roundedSignificand num den < 2 ^ 53 := by
  have hstep : 0 < den * 2 ^ 2045 := by positivity
  have hbounds := (roundHalfEven_bounds num hstep).1
  rw [← hshift] at hbounds
  change 2 * roundedSignificand num den * (den * 2 ^ roundingShift num den) ≤ _ at hbounds
  rw [hshift] at hbounds
  have hpow : (2 : Nat) ^ 2045 = 2 * 2 ^ 2044 := by rw [← pow_succ']
  rw [hpow] at hbounds
  generalize (2 : Nat) ^ 2044 = step at hbounds hlt
  by_contra hge
  have hmul : 2 ^ 53 * (step * den) ≤ roundedSignificand num den * (step * den) :=
    Nat.mul_le_mul_right _ (by omega)
  have hleft : 2 * roundedSignificand num den * (den * (2 * step)) =
      4 * (roundedSignificand num den * (step * den)) := by ring
  have hright : den * (2 * step) = 2 * (step * den) := by ring
  rw [hleft, hright] at hbounds
  rw [Nat.mul_assoc] at hlt
  omega

/-- A quotient below the middle between the greatest magnitude and the next power of two is rounded
to a finite number. -/
lemma ofUnits_eq_finite (negative : Bool) {num den : Nat}
    (hlt : num < (2 ^ 54 - 1) * 2 ^ 2044 * den) :
    ∃ m, ofUnits negative num den = .finite negative m := by
  have hden : 0 < den := Nat.pos_of_ne_zero fun h => by rw [h] at hlt; exact absurd hlt (by omega)
  have hle := roundedSignificand_le num hden
  have hshift : roundingShift num den ≤ 2045 := by
    refine roundingShift_le hden (lt_of_lt_of_le hlt ?_)
    have hpow : (2 : Nat) ^ 2045 = 2 * 2 ^ 2044 := by rw [← pow_succ']
    have hmul : 2 ^ 53 * (den * 2 ^ 2045) = 2 ^ 54 * (2 ^ 2044 * den) := by
      rw [hpow]
      generalize (2 : Nat) ^ 2044 = step
      ring
    rw [hmul, Nat.mul_assoc]
    exact Nat.mul_le_mul_right _ (by decide)
  rw [ofUnits_eq]
  split
  · rename_i hcarry
    have hlast : roundingShift num den ≠ 2045 := fun h =>
      Nat.ne_of_lt (roundedSignificand_lt hden hlt h) hcarry
    let m : Magnitude :=
      ⟨2 ^ 52, roundingShift num den + 1, by decide, by omega, .inr (Nat.le_refl _)⟩
    exact ⟨m, ofParts_eq_finite (m := m)⟩
  · rename_i hcarry
    have hnormal : roundingShift num den = 0 ∨ 2 ^ 52 ≤ roundedSignificand num den := by
      by_cases hzero : roundingShift num den = 0
      · exact .inl hzero
      · exact .inr (le_roundedSignificand hden (by omega))
    let m : Magnitude :=
      ⟨roundedSignificand num den, roundingShift num den, by omega, hshift, hnormal⟩
    exact ⟨m, ofParts_eq_finite (m := m)⟩

/-! ## The interval of a magnitude -/

/-- What the interval of a magnitude is made of, in units. -/
lemma covers_iff (m : Magnitude) (num den : Nat) :
    m.covers (4 * num) den = true ↔
      (m.quarters - m.halfGapBelow) * den ≤ 4 * num ∧
        4 * num ≤ (m.quarters + m.halfGapAbove) * den ∧
        ((m.quarters - m.halfGapBelow) * den = 4 * num ∨
          4 * num = (m.quarters + m.halfGapAbove) * den → m.significand % 2 = 0) := by
  unfold Magnitude.covers
  by_cases heven : m.significand % 2 = 0
  · simp only [heven, if_true, decide_eq_true_eq]
    tauto
  · simp only [heven, if_false, decide_eq_true_eq]
    constructor
    · rintro ⟨hlow, hhigh⟩
      exact ⟨by omega, by omega, by omega⟩
    · rintro ⟨hlow, hhigh, htie⟩
      constructor
      · by_contra hge
        exact htie (.inl (by omega))
      · by_contra hge
        exact htie (.inr (by omega))

/-- A quotient in the binade of a magnitude that is nearest to it. -/
lemma ofUnits_of_near (negative : Bool) (m : Magnitude) {num den : Nat} (hden : 0 < den)
    (hshift : m.shift = 0 ∨ 2 ^ 52 * (den * 2 ^ m.shift) ≤ num)
    (hlow : 2 * m.significand * (den * 2 ^ m.shift) ≤ 2 * num + den * 2 ^ m.shift)
    (hhigh : 2 * num ≤ (2 * m.significand + 1) * (den * 2 ^ m.shift))
    (htie : 2 * m.significand * (den * 2 ^ m.shift) = 2 * num + den * 2 ^ m.shift ∨
      2 * num = (2 * m.significand + 1) * (den * 2 ^ m.shift) → m.significand % 2 = 0) :
    ofUnits negative num den = .finite negative m := by
  have hstep : 0 < den * 2 ^ m.shift := by positivity
  have hlt := m.significand_lt
  have hup : num < 2 ^ 53 * (den * 2 ^ m.shift) := by
    have hmul : (2 * m.significand + 1) * (den * 2 ^ m.shift) ≤
        (2 ^ 54 - 1) * (den * 2 ^ m.shift) :=
      Nat.mul_le_mul_right _ (by omega)
    omega
  have heq : roundingShift num den = m.shift := by
    refine Nat.le_antisymm (roundingShift_le hden hup) ?_
    rcases hshift with hzero | hle
    · omega
    · exact le_roundingShift hden hle
  have hround : roundedSignificand num den = m.significand := by
    unfold roundedSignificand
    rw [heq]
    exact roundHalfEven_eq hstep hlow hhigh htie
  rw [ofUnits_eq, hround, heq, if_neg (Nat.ne_of_lt hlt)]
  exact ofParts_eq_finite

/-- A quotient just below a power of two that is rounded up to it. -/
lemma ofUnits_of_carry (negative : Bool) (m : Magnitude) {num den shift : Nat} (hden : 0 < den)
    (hsignificand : m.significand = 2 ^ 52) (hshift : m.shift = shift + 1)
    (hlow : (2 ^ 54 - 1) * (den * 2 ^ shift) ≤ 2 * num)
    (hhigh : num < 2 ^ 53 * (den * 2 ^ shift)) :
    ofUnits negative num den = .finite negative m := by
  have hstep : 0 < den * 2 ^ shift := by positivity
  have heq : roundingShift num den = shift := by
    refine Nat.le_antisymm (roundingShift_le hden hhigh) (le_roundingShift hden ?_)
    omega
  have hround : roundedSignificand num den = 2 ^ 53 := by
    unfold roundedSignificand
    rw [heq]
    exact roundHalfEven_eq hstep (by omega) (by omega) fun _ => by decide
  rw [ofUnits_eq, hround, heq, if_pos rfl, ← hsignificand, ← hshift]
  exact ofParts_eq_finite

/-- Every quotient in the interval of a magnitude is rounded to that magnitude. -/
theorem ofUnits_of_covers (negative : Bool) (m : Magnitude) {num den : Nat} (hden : 0 < den)
    (hcovers : m.covers (4 * num) den = true) : ofUnits negative num den = .finite negative m := by
  obtain ⟨hlow, hhigh, htie⟩ := (covers_iff m num den).1 hcovers
  have hquarters : m.quarters * den = 4 * (m.significand * (den * 2 ^ m.shift)) := by
    rw [Magnitude.quarters, Magnitude.units]
    ring
  have habove : m.halfGapAbove * den = 2 * (den * 2 ^ m.shift) := by
    rw [Magnitude.halfGapAbove]
    ring
  rw [Nat.sub_mul, hquarters] at hlow htie
  rw [Nat.add_mul, hquarters, habove] at hhigh htie
  have hstep : 0 < den * 2 ^ m.shift := by positivity
  have hpart : 2 * m.significand * (den * 2 ^ m.shift) =
      2 * (m.significand * (den * 2 ^ m.shift)) := Nat.mul_assoc _ _ _
  have hnext : (2 * m.significand + 1) * (den * 2 ^ m.shift) =
      2 * (m.significand * (den * 2 ^ m.shift)) + den * 2 ^ m.shift := by ring
  by_cases hleast : m.significand = 2 ^ 52 ∧ 0 < m.shift
  · have hbelow : m.halfGapBelow * den = den * 2 ^ m.shift := by
      rw [Magnitude.halfGapBelow, if_pos hleast, Nat.mul_comm]
    rw [hbelow] at hlow htie
    by_cases hside : num < 2 ^ 52 * (den * 2 ^ m.shift)
    · obtain ⟨shift, hshift⟩ : ∃ shift, m.shift = shift + 1 := ⟨m.shift - 1, by omega⟩
      have hhalf : den * 2 ^ m.shift = 2 * (den * 2 ^ shift) := by
        rw [hshift, pow_succ]
        ring
      rw [hhalf, hleast.1] at hlow
      rw [hhalf] at hside
      exact ofUnits_of_carry negative m hden hleast.1 hshift (by omega) (by omega)
    · refine ofUnits_of_near negative m hden (.inr (by omega)) ?_ ?_ ?_
      · rw [hpart, hleast.1]
        omega
      · rw [hnext]
        omega
      · intro _
        rw [hleast.1]
        decide
  · have hbelow : m.halfGapBelow * den = 2 * (den * 2 ^ m.shift) := by
      rw [Magnitude.halfGapBelow, if_neg hleast]
      ring
    rw [hbelow] at hlow htie
    refine ofUnits_of_near negative m hden ?_ ?_ ?_ ?_
    · rcases m.normal with hzero | hnormal
      · exact .inl hzero
      · by_cases hzero : m.shift = 0
        · exact .inl hzero
        · have hgreater : 2 ^ 52 + 1 ≤ m.significand := by omega
          have hmul : (2 ^ 52 + 1) * (den * 2 ^ m.shift) ≤
              m.significand * (den * 2 ^ m.shift) := Nat.mul_le_mul_right _ hgreater
          exact .inr (by omega)
    · rw [hpart]
      omega
    · rw [hnext]
      omega
    · rw [hpart, hnext]
      rintro (heq | heq)
      · exact htie (.inl (by omega))
      · exact htie (.inr (by omega))

/-! ## Order and exactness -/

/-- The rounded quotient in units, whether or not it is the magnitude of a finite number. -/
def roundedUnits (num den : Nat) : Nat :=
  roundedSignificand num den * 2 ^ roundingShift num den

lemma units_of_ofParts {negative sign : Bool} {significand shift : Nat} {m : Magnitude}
    (h : ofParts negative significand shift = .finite sign m) :
    m.units = significand * 2 ^ shift := by
  rw [ofParts, Magnitude.of?] at h
  split at h
  · rename_i m' hparts
    split at hparts
    · obtain rfl := Option.some.inj hparts
      obtain ⟨-, rfl⟩ := Binary64.finite.inj h
      rfl
    · cases hparts
  · cases h

lemma units_of_ofUnits {negative sign : Bool} {num den : Nat} {m : Magnitude}
    (h : ofUnits negative num den = .finite sign m) : m.units = roundedUnits num den := by
  rw [ofUnits_eq] at h
  unfold roundedUnits
  by_cases hcarry : roundedSignificand num den = 2 ^ 53
  · rw [if_pos hcarry] at h
    rw [units_of_ofParts h, hcarry, pow_succ]
    ring
  · rw [if_neg hcarry] at h
    exact units_of_ofParts h

lemma roundingShift_mono (den : Nat) {num num' : Nat} (hle : num ≤ num') :
    roundingShift num den ≤ roundingShift num' den := by
  have hdiv : num / den ≤ num' / den := Nat.div_le_div_right hle
  unfold roundingShift
  by_cases hzero : num / den = 0
  · rw [hzero, Nat.log2_zero]
    omega
  · have hpow : 2 ^ (num / den).log2 ≤ num' / den := Nat.le_trans (Nat.log2_self_le hzero) hdiv
    have hne : num' / den ≠ 0 := by
      intro h
      rw [h] at hdiv
      exact hzero (Nat.le_zero.1 hdiv)
    have hlog : (num / den).log2 ≤ (num' / den).log2 := (Nat.le_log2 hne).2 hpow
    omega

/-- Rounding keeps the order, also across a change of the shift. -/
lemma roundedUnits_mono {num num' den : Nat} (hden : 0 < den) (hle : num ≤ num') :
    roundedUnits num den ≤ roundedUnits num' den := by
  have hshift := roundingShift_mono den hle
  unfold roundedUnits
  by_cases heq : roundingShift num den = roundingShift num' den
  · have hmono : roundedSignificand num den ≤ roundedSignificand num' den := by
      unfold roundedSignificand
      rw [heq]
      exact roundHalfEven_mono (by positivity) hle
    rw [heq]
    exact Nat.mul_le_mul_right _ hmono
  · calc roundedSignificand num den * 2 ^ roundingShift num den
        ≤ 2 ^ 53 * 2 ^ roundingShift num den :=
          Nat.mul_le_mul_right _ (roundedSignificand_le num hden)
      _ = 2 ^ 52 * 2 ^ (roundingShift num den + 1) := by
          rw [pow_succ]
          ring
      _ ≤ 2 ^ 52 * 2 ^ roundingShift num' den :=
          Nat.mul_le_mul_left _ (Nat.pow_le_pow_right (by decide) (by omega))
      _ ≤ roundedSignificand num' den * 2 ^ roundingShift num' den :=
          Nat.mul_le_mul_right _ (le_roundedSignificand hden (by omega))

/-- What needs no more than 53 bits is kept as it is. -/
lemma roundedUnits_of_bits {num den significand shift : Nat} (hden : 0 < den)
    (hnum : num = significand * 2 ^ shift * den) (hlt : significand < 2 ^ 53) :
    roundedUnits num den = significand * 2 ^ shift := by
  have hup : num < 2 ^ 53 * (den * 2 ^ shift) := by
    have hmul : significand * (den * 2 ^ shift) < 2 ^ 53 * (den * 2 ^ shift) :=
      Nat.mul_lt_mul_of_pos_right hlt (by positivity)
    rw [hnum]
    linarith
  have hle := roundingShift_le hden hup
  unfold roundedUnits roundedSignificand
  generalize roundingShift num den = finer at hle ⊢
  obtain ⟨gap, rfl⟩ := Nat.exists_eq_add_of_le hle
  have hsteps : num = significand * 2 ^ gap * (den * 2 ^ finer) := by
    rw [hnum, pow_add]
    ring
  rw [hsteps, roundHalfEven_mul (by positivity), pow_add]
  ring

end Binary64

end WorkflowCanvas
