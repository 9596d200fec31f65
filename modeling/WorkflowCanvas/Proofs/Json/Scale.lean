import WorkflowCanvas.Json.Lexeme
import WorkflowCanvas.Proofs.Decimal.Shortest

/-!
# What a written number is read as

The reader of JSON numbers rounds the digits and the power of ten on their own, and their product or
quotient once more.  `Binary64.reread` is the number that comes out when a number was written in the
shortest digits and is read in this way.  Rounding twice may miss the number by one place, so it is
not always the same number again.

* `scale_shortest`: reading the digits of a finite number never fails.  Of all products only one is
  near the end of the range; its digits are not the shortest of any number.
* `Binary64.reread_eq_self`: a number with fewer than `2 ^ 53` for its digits and a power of ten of
  at most twenty-two is read as itself, because both are exact and only one rounding is left.
-/

namespace WorkflowCanvas

namespace Decimal

/-- The decimal as the reader of its text sees it: a whole number ends in `.0`. -/
def spelled (d : Decimal) : Decimal :=
  if 0 ≤ d.exponent ∧ Style.leadingExponent d ≤ 15 then
    ⟨d.digits * 10 ^ (d.exponent.toNat + 1), -1⟩
  else
    d

/-- Digits and power of ten each rounded, and their product or quotient rounded again.  A power of
ten beyond binary64 is divided out in two parts. -/
def roundTwice (d : Decimal) : Binary64 :=
  if 0 ≤ d.exponent then
    (Binary64.ofNat d.digits).mul (.powerOfTen d.exponent.natAbs)
  else if -308 ≤ d.exponent then
    (Binary64.ofNat d.digits).div (.powerOfTen d.exponent.natAbs)
  else
    ((Binary64.ofNat d.digits).div (.powerOfTen 308)).div
      (.powerOfTen (d.exponent + 308).natAbs)

end Decimal

/-- What a number is read as when its JSON text is read. -/
def Binary64.reread : Binary64 → Binary64
  | .finite negative m =>
    let x := (m.shortest .toEven).spelled.roundTwice
    if negative then x.neg else x
  | x => x

namespace Binary64

/-! ## Exact and finite numbers -/

lemma ofNat_eq_finite {n : Nat} (hlt : n * unitsPerOne < (2 ^ 54 - 1) * 2 ^ 2044) :
    ∃ m, ofNat n = .finite false m ∧ m.units = roundedUnits (n * unitsPerOne) 1 := by
  rw [← Nat.mul_one ((2 ^ 54 - 1) * 2 ^ 2044)] at hlt
  obtain ⟨m, hm⟩ := ofUnits_eq_finite false hlt
  exact ⟨m, hm, units_of_ofUnits hm⟩

/-- The powers of ten up to this one are finite. -/
lemma power_lt : ∀ k ∈ List.range 309, 10 ^ k * unitsPerOne < (2 ^ 54 - 1) * 2 ^ 2044 := by
  decide +kernel

lemma powerOfTen_eq_finite {k : Nat} (hle : k ≤ 308) :
    ∃ m, powerOfTen k = .finite false m ∧ m.units = roundedUnits (10 ^ k * unitsPerOne) 1 :=
  ofNat_eq_finite (power_lt k (List.mem_range.2 (by omega)))

/-- A whole number of 53 bits times a power of two is exact. -/
lemma roundedUnits_whole {n : Nat} (shift : Nat) (hlt : n < 2 ^ 53) :
    roundedUnits (n * 2 ^ shift * unitsPerOne) 1 = n * 2 ^ shift * unitsPerOne := by
  obtain ⟨unit, hunit⟩ := exists_unitsPerOne_eq
  have hunits : n * 2 ^ shift * unitsPerOne = n * 2 ^ (shift + unit) := by
    rw [hunit, pow_add, Nat.mul_assoc]
  rw [hunits]
  exact roundedUnits_of_bits Nat.one_pos (Nat.mul_one _).symm hlt

lemma unitsPerOne_le_roundedUnits {n : Nat} (hpos : 0 < n) :
    unitsPerOne ≤ roundedUnits (n * unitsPerOne) 1 := by
  have hone : roundedUnits unitsPerOne 1 = unitsPerOne := by
    have hwhole := roundedUnits_whole (n := 1) 0 (by decide)
    rw [pow_zero, Nat.mul_one, Nat.one_mul] at hwhole
    exact hwhole
  calc unitsPerOne = roundedUnits unitsPerOne 1 := hone.symm
    _ ≤ roundedUnits (n * unitsPerOne) 1 :=
      roundedUnits_mono Nat.one_pos (Nat.le_mul_of_pos_left _ hpos)

/-! ## Products near the end of the range -/

/-- A bound for the digits before a power of ten that lie in the interval of a magnitude below the
greatest, eighteen at most. -/
def digitsLimit (k : Nat) : Nat := min (10 ^ 18) ((2 ^ 55 - 6) * 2 ^ 2045 / gridStep k)

lemma product_lt_of_near : ∀ k ∈ List.range' 290 19,
    roundedUnits (digitsLimit k * unitsPerOne) 1 * roundedUnits (10 ^ k * unitsPerOne) 1 <
      (2 ^ 54 - 1) * 2 ^ 2044 * unitsPerOne := by
  decide +kernel

lemma product_lt_of_far :
    roundedUnits (10 ^ 18 * unitsPerOne) 1 * roundedUnits (10 ^ 289 * unitsPerOne) 1 <
      (2 ^ 54 - 1) * 2 ^ 2044 * unitsPerOne := by
  decide +kernel

/-- The rounded product of these digits and the power of ten is still finite. -/
lemma product_lt {k : Nat} (hk : k ≤ 308) :
    roundedUnits (digitsLimit k * unitsPerOne) 1 * roundedUnits (10 ^ k * unitsPerOne) 1 <
      (2 ^ 54 - 1) * 2 ^ 2044 * unitsPerOne := by
  by_cases hnear : 290 ≤ k
  · exact product_lt_of_near k (List.mem_range'_1.2 ⟨hnear, by omega⟩)
  · have hpower : 10 ^ k * unitsPerOne ≤ 10 ^ 289 * unitsPerOne :=
      Nat.mul_le_mul_right _ (pow_le_pow_right₀ (by decide) (by omega))
    have hdigits : digitsLimit k * unitsPerOne ≤ 10 ^ 18 * unitsPerOne :=
      Nat.mul_le_mul_right _ (Nat.min_le_left _ _)
    exact Nat.lt_of_le_of_lt (Nat.mul_le_mul (roundedUnits_mono Nat.one_pos hdigits)
      (roundedUnits_mono Nat.one_pos hpower)) product_lt_of_far

lemma digits_eq_finite {digits : Nat} (hlt : digits < 10 ^ 18) :
    ∃ m, ofNat digits = .finite false m ∧ m.units = roundedUnits (digits * unitsPerOne) 1 := by
  have hmul : digits * unitsPerOne < 10 ^ 18 * unitsPerOne :=
    Nat.mul_lt_mul_of_pos_right hlt unitsPerOne_pos
  exact ofNat_eq_finite (hmul.trans (power_lt 18 (by decide)))

lemma isFinite_mul_of_le {digits k : Nat} (hlt : digits < 10 ^ 18) (hk : k ≤ 308)
    (hle : digits ≤ digitsLimit k) : ((ofNat digits).mul (.powerOfTen k)).isFinite = true := by
  obtain ⟨a, ha, hunits⟩ := digits_eq_finite hlt
  obtain ⟨b, hb, hpower⟩ := powerOfTen_eq_finite hk
  have hmono : a.units ≤ roundedUnits (digitsLimit k * unitsPerOne) 1 := by
    rw [hunits]
    exact roundedUnits_mono Nat.one_pos (Nat.mul_le_mul_right _ hle)
  have hproduct : a.units * b.units < (2 ^ 54 - 1) * 2 ^ 2044 * unitsPerOne := by
    refine Nat.lt_of_le_of_lt ?_ (product_lt hk)
    rw [hpower]
    exact Nat.mul_le_mul_right _ hmono
  obtain ⟨m, hm⟩ := ofUnits_eq_finite (false != false) hproduct
  rw [ha, hb, mul, hm]
  rfl

/-- The greatest magnitude. -/
def greatest : Magnitude := ⟨2 ^ 53 - 1, 2045, by decide, by decide, .inr (by decide)⟩

lemma isFinite_mul_greatest :
    ((ofNat (greatest.shortest .toEven).digits).mul
      (.powerOfTen (greatest.shortest .toEven).exponent.natAbs)).isFinite = true := by
  decide +kernel

lemma digits_le_limit {m : Magnitude} {d : Decimal} (hinside : m.Inside d) (hne : m ≠ greatest)
    (hexponent : 0 ≤ d.exponent) : d.digits ≤ digitsLimit d.exponent.natAbs := by
  have hparts : gridParts d.exponent = 1 := by
    have hzero : (-d.exponent).toNat = 0 := by omega
    rw [gridParts, hzero, Nat.pow_zero]
  have hhigh := (Magnitude.le_of_covers hinside.covers).2
  rw [hparts, Nat.mul_one] at hhigh
  have hend : m.quarters + m.halfGapAbove ≤ (2 ^ 55 - 6) * 2 ^ 2045 := by
    have hlt := m.significand_lt
    have hle := m.shift_le
    unfold Magnitude.quarters Magnitude.units Magnitude.halfGapAbove
    by_cases hlast : m.shift = 2045
    · rw [← hlast]
      have hless : m.significand ≤ 2 ^ 53 - 2 := by
        by_contra hgreater
        obtain ⟨significand, shift, _, _, _⟩ := m
        dsimp only at hlast hlt hgreater
        obtain rfl : significand = 2 ^ 53 - 1 := by omega
        subst hlast
        exact hne rfl
      generalize (2 : Nat) ^ m.shift = gap
      have hmul : m.significand * gap ≤ (2 ^ 53 - 2) * gap := Nat.mul_le_mul_right _ hless
      omega
    · have hpow : 2 * 2 ^ m.shift ≤ 2 ^ 2045 := by
        rw [← pow_succ']
        exact pow_le_pow_right₀ (by decide) (by omega)
      generalize (2 : Nat) ^ 2045 = gap at hpow
      have hmul : m.significand * 2 ^ m.shift ≤ 2 ^ 53 * 2 ^ m.shift :=
        Nat.mul_le_mul_right _ hlt.le
      omega
  have hcast : ((d.exponent.natAbs : Nat) : Int) = d.exponent := by omega
  refine Nat.le_min.2 ⟨hinside.digits_lt.le, ?_⟩
  rw [hcast, Nat.le_div_iff_mul_le (gridStep_pos _)]
  exact hhigh.trans hend

/-- The shortest digits times their power of ten are finite, also at the greatest magnitude. -/
lemma isFinite_mul_shortest {m : Magnitude} (hne : m.significand ≠ 0)
    (hexponent : 0 ≤ (m.shortest .toEven).exponent) :
    ((ofNat (m.shortest .toEven).digits).mul
      (.powerOfTen (m.shortest .toEven).exponent.natAbs)).isFinite = true := by
  by_cases hgreatest : m = greatest
  · rw [hgreatest]
    exact isFinite_mul_greatest
  · have hinside := Magnitude.shortest_inside .toEven hne
    have hle := hinside.exponent_le
    exact isFinite_mul_of_le hinside.digits_lt (by omega)
      (digits_le_limit hinside hgreatest hexponent)

/-! ## Exact products and quotients -/

lemma ofNat_eq_exact {n shift : Nat} (hlt : n < 2 ^ 53)
    (hfinite : n * 2 ^ shift * unitsPerOne < (2 ^ 54 - 1) * 2 ^ 2044) :
    ∃ m, ofNat (n * 2 ^ shift) = .finite false m ∧ m.units = n * 2 ^ shift * unitsPerOne := by
  obtain ⟨m, hm, hunits⟩ := ofNat_eq_finite hfinite
  exact ⟨m, hm, by rw [hunits, roundedUnits_whole shift hlt]⟩

/-- Fewer than `2 ^ 53` for the digits are exact. -/
lemma digits_eq_exact {digits : Nat} (hlt : digits < 2 ^ 53) :
    ∃ m, ofNat digits = .finite false m ∧ m.units = digits * unitsPerOne := by
  have hmul : digits * 2 ^ 0 * unitsPerOne < 10 ^ 18 * unitsPerOne :=
    Nat.mul_lt_mul_of_pos_right (by omega) unitsPerOne_pos
  obtain ⟨m, hm, hunits⟩ := ofNat_eq_exact hlt (hmul.trans (power_lt 18 (by decide)))
  rw [pow_zero, Nat.mul_one] at hm hunits
  exact ⟨m, hm, hunits⟩

/-- The powers of ten up to this one are exact. -/
lemma powerOfTen_eq_exact {k : Nat} (hk : k ≤ 22) :
    ∃ m, powerOfTen k = .finite false m ∧ m.units = 10 ^ k * unitsPerOne := by
  have hfactors : 10 ^ k = 5 ^ k * 2 ^ k := Nat.mul_pow 5 2 k
  have hlt : 5 ^ k < 2 ^ 53 :=
    Nat.lt_of_le_of_lt (Nat.pow_le_pow_right (by decide) hk) (by decide)
  have hfinite := power_lt k (List.mem_range.2 (by omega))
  rw [hfactors] at hfinite
  obtain ⟨m, hm, hunits⟩ := ofNat_eq_exact hlt hfinite
  rw [← hfactors] at hm hunits
  exact ⟨m, hm, hunits⟩

end Binary64

open Binary64

namespace Decimal

/-- If digits and power are exact, only the rounding of the product or quotient is left. -/
lemma roundTwice_eq_ofDecimal {d : Decimal} (hdigits : d.digits < 2 ^ 53)
    (hpower : d.exponent.natAbs ≤ 22) :
    d.roundTwice = .ofDecimal false d.digits d.exponent := by
  obtain ⟨a, ha, hunits⟩ := digits_eq_exact hdigits
  obtain ⟨b, hb, hpowers⟩ := powerOfTen_eq_exact hpower
  unfold roundTwice ofDecimal ofQuotient
  by_cases hsign : 0 ≤ d.exponent
  · have hup : d.exponent.toNat = d.exponent.natAbs := by omega
    have hdown : (-d.exponent).toNat = 0 := by omega
    rw [if_pos hsign, ha, hb, mul, hunits, hpowers, hup, hdown, Nat.pow_zero]
    calc ofUnits false (d.digits * unitsPerOne * (10 ^ d.exponent.natAbs * unitsPerOne)) unitsPerOne
        = ofUnits false (d.digits * 10 ^ d.exponent.natAbs * unitsPerOne * unitsPerOne)
            (1 * unitsPerOne) := by
          congr 1 <;> ring
      _ = ofUnits false (d.digits * 10 ^ d.exponent.natAbs * unitsPerOne) 1 :=
        ofUnits_mul_mul false _ _ unitsPerOne_pos
  · have hup : d.exponent.toNat = 0 := by omega
    have hdown : (-d.exponent).toNat = d.exponent.natAbs := by omega
    have hne : b.significand ≠ 0 := by
      intro hzero
      have hpos : 0 < 10 ^ d.exponent.natAbs * unitsPerOne :=
        Nat.mul_pos (by positivity) unitsPerOne_pos
      rw [← hpowers, Magnitude.units, hzero, Nat.zero_mul] at hpos
      exact Nat.lt_irrefl 0 hpos
    rw [if_neg hsign, if_pos (by omega), ha, hb, div, if_neg hne, hunits, hpowers, hup, hdown,
      Nat.pow_zero, Nat.mul_one]
    exact ofUnits_mul_mul false _ _ unitsPerOne_pos

/-- The spelling stands for the same number. -/
lemma ofDecimal_spelled (d : Decimal) :
    Binary64.ofDecimal false d.spelled.digits d.spelled.exponent =
      .ofDecimal false d.digits d.exponent := by
  unfold spelled
  split
  · have hpoint := ofDecimal_zeros false d.digits d.exponent (d.exponent.toNat + 1)
    have hexponent : d.exponent - (d.exponent.toNat + 1 : Nat) = -1 := by omega
    rw [hexponent] at hpoint
    exact hpoint
  · rfl

end Decimal

/-- A number whose digits and power of ten are exact is read as itself. -/
theorem Binary64.reread_eq_self {negative : Bool} {m : Magnitude}
    (hdigits : (m.shortest .toEven).spelled.digits < 2 ^ 53)
    (hpower : (m.shortest .toEven).spelled.exponent.natAbs ≤ 22) :
    (finite negative m).reread = .finite negative m := by
  have hread : (m.shortest .toEven).spelled.roundTwice = .finite false m := by
    rw [Decimal.roundTwice_eq_ofDecimal hdigits hpower, Decimal.ofDecimal_spelled,
      ofDecimal_shortest]
  rw [reread, hread]
  cases negative <;> rfl

namespace Json

/-! ## Reading the digits of a number -/

/-- Scaling by a power of ten, unless it leaves the range. -/
lemma scale_eq {d : Decimal} (hlow : -345 ≤ d.exponent) (hhigh : d.exponent ≤ 308)
    (hproduct : 0 ≤ d.exponent →
      ((Binary64.ofNat d.digits).mul (.powerOfTen d.exponent.natAbs)).isFinite = true)
    (hne : Binary64.ofNat d.digits ≠ .zero ∨ -308 ≤ d.exponent) :
    scale 4 (.ofNat d.digits) d.exponent = .ok d.roundTwice := by
  unfold scale Decimal.roundTwice
  by_cases hsign : 0 ≤ d.exponent
  · rw [if_pos (by omega), if_pos hsign, if_pos hsign]
    dsimp only
    rw [if_pos (hproduct hsign)]
  · by_cases hpower : -308 ≤ d.exponent
    · rw [if_pos (by omega), if_neg hsign, if_neg hsign, if_pos hpower]
    · have hnonzero : Binary64.ofNat d.digits ≠ .zero := by
        rcases hne with h | h
        · exact h
        · exact absurd h hpower
      rw [if_neg (by omega), if_neg hnonzero, if_neg hsign, if_neg hsign, if_neg hpower, scale,
        if_pos (by omega), if_neg (by omega)]

lemma ofNat_ne_zero {digits : Nat} (hpos : 0 < digits) (hlt : digits < 10 ^ 18) :
    Binary64.ofNat digits ≠ .zero := by
  intro hzero
  obtain ⟨m, hm, hunits⟩ := digits_eq_finite hlt
  obtain ⟨-, rfl⟩ := Binary64.finite.inj (hm.symm.trans hzero)
  have hle := unitsPerOne_le_roundedUnits hpos
  have hunit := unitsPerOne_pos
  rw [← hunits] at hle
  change unitsPerOne ≤ 0 * 2 ^ 0 at hle
  omega

/-- Reading the shortest digits of a magnitude succeeds, and rounds twice. -/
theorem scale_shortest (m : Magnitude) :
    scale 4 (.ofNat (m.shortest .toEven).spelled.digits)
      (m.shortest .toEven).spelled.exponent = .ok (m.shortest .toEven).spelled.roundTwice := by
  by_cases hwhole : 0 ≤ (m.shortest .toEven).exponent ∧
      Style.leadingExponent (m.shortest .toEven) ≤ 15
  · rw [Decimal.spelled, if_pos hwhole]
    refine scale_eq (show -345 ≤ (-1 : Int) by decide) (show (-1 : Int) ≤ 308 by decide) ?_
      (.inr (show -308 ≤ (-1 : Int) by decide))
    intro hnonneg
    exact absurd hnonneg (show ¬ 0 ≤ (-1 : Int) by decide)
  · have hne : m.significand ≠ 0 := by
      intro hzero
      rw [Magnitude.shortest, if_pos hzero] at hwhole
      exact hwhole (by decide)
    have hinside := Magnitude.shortest_inside .toEven hne
    rw [Decimal.spelled, if_neg hwhole]
    exact scale_eq hinside.le_exponent hinside.exponent_le (isFinite_mul_shortest hne)
      (.inl (ofNat_ne_zero hinside.digits_pos hinside.digits_lt))

end Json

end WorkflowCanvas
