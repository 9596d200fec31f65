import WorkflowCanvas.Proofs.Binary64.Rounding

/-!
# The shortest decimal reads back

`Magnitude.shortest` looks for a decimal in the interval of a magnitude, going down from a power of
ten that is read off the magnitude's logarithm in base two.

* The search ends with a hit: `exists_onGrid` finds one on every grid that is finer than three
  quarters of the gap at the magnitude, and the last of the grids is that fine (`finest_grid`).
* The hit has at most eighteen digits: the grid before it had no hit, so it was coarse
  (`digits_of_previous`), or there was none before it (`coarsest_grid`).

`Magnitude.shortest_inside` collects what follows for the decimal, and `Binary64.ofDecimal_shortest`
says that it is rounded back to the number, whichever of two equally near decimals is taken.
-/

namespace WorkflowCanvas

lemma gridStep_pos (exponent : Int) : 0 < gridStep exponent :=
  Nat.mul_pos (Nat.mul_pos (by decide) unitsPerOne_pos) (Nat.pow_pos (by decide))

lemma gridParts_pos (exponent : Int) : 0 < gridParts exponent := by
  unfold gridParts
  positivity

lemma gridStep_mono {exponent exponent' : Int} (hle : exponent ≤ exponent') :
    gridStep exponent ≤ gridStep exponent' := by
  unfold gridStep
  exact Nat.mul_le_mul_left _ (Nat.pow_le_pow_right (by decide) (by omega))

/-- The next finer grid has ten steps for one. -/
lemma grid_succ (exponent : Int) :
    gridStep (exponent + 1) * gridParts exponent =
      10 * (gridStep exponent * gridParts (exponent + 1)) := by
  unfold gridStep gridParts
  by_cases hsign : 0 ≤ exponent
  · have hnum : (exponent + 1).toNat = exponent.toNat + 1 := by omega
    have hden : (-exponent).toNat = 0 := by omega
    have hden' : (-(exponent + 1)).toNat = 0 := by omega
    rw [hnum, hden, hden', pow_succ]
    ring
  · have hnum : (exponent + 1).toNat = 0 := by omega
    have hnum' : exponent.toNat = 0 := by omega
    have hden : (-exponent).toNat = (-(exponent + 1)).toNat + 1 := by omega
    rw [hnum, hnum', hden, pow_succ]
    ring

namespace Magnitude

variable {m : Magnitude}

lemma eq_zero (h : m.significand = 0) : m = zero := by
  obtain ⟨significand, shift, hlt, hle, hnormal⟩ := m
  have hshift : shift = 0 := by
    rcases hnormal with hleast | hnormal
    · exact hleast
    · dsimp only at h
      omega
  dsimp only at h
  subst h hshift
  rfl

lemma units_pos (hne : m.significand ≠ 0) : 0 < m.units := by
  unfold units
  positivity

lemma units_lt (m : Magnitude) : m.units < 2 ^ (53 + m.shift) := by
  unfold units
  rw [pow_add]
  exact Nat.mul_lt_mul_of_pos_right m.significand_lt (by positivity)

lemma log2_units_le (hne : m.significand ≠ 0) : m.units.log2 ≤ 52 + m.shift := by
  have hlt := (Nat.log2_lt (units_pos hne).ne').2 m.units_lt
  omega

lemma halfGapBelow_le (m : Magnitude) : m.halfGapBelow ≤ 2 * 2 ^ m.shift := by
  unfold halfGapBelow
  split
  · omega
  · exact Nat.le_refl _

lemma halfGapBelow_lt_quarters (hne : m.significand ≠ 0) : m.halfGapBelow < m.quarters := by
  have hle := m.halfGapBelow_le
  have hmul : 1 * 2 ^ m.shift ≤ m.significand * 2 ^ m.shift :=
    Nat.mul_le_mul_right _ (by omega)
  have hpos : 0 < 2 ^ m.shift := by positivity
  unfold quarters units
  omega

lemma three_le_gaps (m : Magnitude) :
    3 * 2 ^ m.shift ≤ m.halfGapBelow + m.halfGapAbove := by
  unfold halfGapBelow halfGapAbove
  split <;> omega

/-- Strictly inside its interval a magnitude does not ask for the parity of its significand. -/
lemma covers_of_lt {num den : Nat} (hlow : (m.quarters - m.halfGapBelow) * den < num)
    (hhigh : num < (m.quarters + m.halfGapAbove) * den) : m.covers num den = true := by
  unfold covers
  split
  · exact decide_eq_true ⟨hlow.le, hhigh.le⟩
  · exact decide_eq_true ⟨hlow, hhigh⟩

lemma le_of_covers {num den : Nat} (h : m.covers num den = true) :
    (m.quarters - m.halfGapBelow) * den ≤ num ∧ num ≤ (m.quarters + m.halfGapAbove) * den := by
  unfold covers at h
  split at h
  · exact of_decide_eq_true h
  · have hlt := of_decide_eq_true h
    exact ⟨hlt.1.le, hlt.2.le⟩

/-! ## One grid -/

/-- What a hit on a grid is: a multiple in the interval, next to the magnitude. -/
lemma onGrid_eq_some {tie : Tie} {exponent : Int} {d : Decimal}
    (h : m.onGrid tie exponent = some d) :
    d.exponent = exponent ∧
      m.covers (d.digits * gridStep exponent) (gridParts exponent) = true ∧
      d.digits ≤ m.quarters * gridParts exponent / gridStep exponent + 1 := by
  unfold onGrid at h
  dsimp only at h
  split at h
  · rename_i hbelow habove
    obtain rfl := Option.some.inj h
    dsimp only
    split
    · exact ⟨rfl, hbelow, Nat.le_succ _⟩
    · exact ⟨rfl, habove, Nat.le_refl _⟩
  · rename_i hbelow habove
    obtain rfl := Option.some.inj h
    exact ⟨rfl, hbelow, Nat.le_succ _⟩
  · rename_i hbelow habove
    obtain rfl := Option.some.inj h
    exact ⟨rfl, habove, Nat.le_refl _⟩
  · cases h

/-- A grid with a smaller step than the interval is wide has a multiple in it. -/
lemma exists_onGrid (tie : Tie) {exponent : Int} (hne : m.significand ≠ 0)
    (hfine : gridStep exponent < 3 * 2 ^ m.shift * gridParts exponent) :
    ∃ d, m.onGrid tie exponent = some d := by
  have hparts := gridParts_pos exponent
  have hdiv : gridStep exponent * (m.quarters * gridParts exponent / gridStep exponent) +
      m.quarters * gridParts exponent % gridStep exponent = m.quarters * gridParts exponent :=
    Nat.div_add_mod _ _
  have hmod := Nat.mod_lt (m.quarters * gridParts exponent) (gridStep_pos exponent)
  have hgaps : 3 * 2 ^ m.shift * gridParts exponent ≤
      (m.halfGapBelow + m.halfGapAbove) * gridParts exponent :=
    Nat.mul_le_mul_right _ m.three_le_gaps
  have hbelow : m.halfGapBelow * gridParts exponent < m.quarters * gridParts exponent :=
    Nat.mul_lt_mul_of_pos_right (halfGapBelow_lt_quarters hne) hparts
  have habove : 0 < m.halfGapAbove * gridParts exponent := by
    unfold halfGapAbove
    positivity
  rw [Nat.add_mul] at hgaps
  have hside : m.covers (m.quarters * gridParts exponent / gridStep exponent *
        gridStep exponent) (gridParts exponent) = true ∨
      m.covers ((m.quarters * gridParts exponent / gridStep exponent + 1) *
        gridStep exponent) (gridParts exponent) = true := by
    generalize m.quarters * gridParts exponent / gridStep exponent = below at hdiv ⊢
    have hcomm : below * gridStep exponent = gridStep exponent * below := Nat.mul_comm _ _
    have hnext : (below + 1) * gridStep exponent =
        gridStep exponent * below + gridStep exponent := by ring
    by_cases hnear : m.quarters * gridParts exponent % gridStep exponent <
        m.halfGapBelow * gridParts exponent
    · refine .inl (covers_of_lt ?_ ?_)
      · rw [Nat.sub_mul, hcomm]
        omega
      · rw [Nat.add_mul, hcomm]
        omega
    · refine .inr (covers_of_lt ?_ ?_)
      · rw [Nat.sub_mul, hnext]
        omega
      · rw [hnext, Nat.add_mul]
        omega
  unfold onGrid
  dsimp only
  split
  · exact ⟨_, rfl⟩
  · exact ⟨_, rfl⟩
  · exact ⟨_, rfl⟩
  · rename_i hfalse hfalse'
    rcases hside with h | h
    · rw [h] at hfalse
      cases hfalse
    · rw [h] at hfalse'
      cases hfalse'

/-! ## The search -/

/-- If one of the grids has a hit, the search ends with the first. -/
lemma firstHit_spec {tie : Tie} :
    ∀ (grids : Nat) (exponent : Int), (∃ j < grids, ∃ d, m.onGrid tie (exponent - j) = some d) →
      ∃ j < grids, m.onGrid tie (exponent - j) = some (m.firstHit tie exponent grids) ∧
        ∀ i < j, m.onGrid tie (exponent - i) = none := by
  intro grids
  induction grids with
  | zero =>
    rintro exponent ⟨j, hj, -⟩
    exact absurd hj (Nat.not_lt_zero j)
  | succ grids ih =>
    rintro exponent ⟨j, hj, d, hd⟩
    cases hfirst : m.onGrid tie exponent with
    | some d' =>
      refine ⟨0, Nat.succ_pos grids, ?_, fun i hi => absurd hi (Nat.not_lt_zero i)⟩
      rw [firstHit, hfirst]
      simpa using hfirst
    | none =>
      have hlater : ∃ i < grids, ∃ d, m.onGrid tie (exponent - 1 - i) = some d := by
        cases j with
        | zero =>
          rw [Int.natCast_zero, Int.sub_zero, hfirst] at hd
          cases hd
        | succ i =>
          refine ⟨i, Nat.lt_of_succ_lt_succ hj, d, ?_⟩
          rw [← hd]
          congr 1
          omega
      obtain ⟨i, hi, hhit, hbefore⟩ := ih (exponent - 1) hlater
      refine ⟨i + 1, Nat.succ_lt_succ hi, ?_, ?_⟩
      · rw [firstHit, hfirst]
        rw [← hhit]
        congr 1
        omega
      · intro k hk
        cases k with
        | zero => simpa using hfirst
        | succ k =>
          rw [← hbefore k (Nat.lt_of_succ_lt_succ hk)]
          congr 1
          omega

/-- The last of the grids is finer than the gap at the magnitude. -/
lemma finest_grid : ∀ log2 ∈ List.range 2098,
    gridStep (startExponent log2 - 23) <
      3 * 2 ^ (log2 - 52) * gridParts (startExponent log2 - 23) := by
  decide +kernel

/-- On the first of the grids the magnitude has few digits. -/
lemma coarsest_grid : ∀ log2 ∈ List.range 2098,
    4 * 2 ^ (log2 + 1) * gridParts (startExponent log2) ≤
      10 ^ 17 * gridStep (startExponent log2) := by
  decide +kernel

lemma startExponent_bounds {log2 : Nat} (hlt : log2 < 2098) :
    -322 ≤ startExponent log2 ∧ startExponent log2 ≤ 310 := by
  unfold startExponent
  omega

/-! ## The decimal found -/

/-- What is known of a decimal that lies in the interval of a magnitude and is short. -/
structure Inside (m : Magnitude) (d : Decimal) : Prop where
  digits_pos : 0 < d.digits
  digits_lt : d.digits < 10 ^ 18
  le_exponent : -345 ≤ d.exponent
  exponent_le : d.exponent ≤ 308
  covers : m.covers (d.digits * gridStep d.exponent) (gridParts d.exponent) = true

lemma log2_units_lt (hne : m.significand ≠ 0) : m.units.log2 < 2098 := by
  have hle := log2_units_le hne
  have hshift := m.shift_le
  omega

/-- On the first grid a hit has few digits. -/
lemma digits_of_start {d : Decimal} (tie : Tie) (hne : m.significand ≠ 0)
    (hhit : m.onGrid tie (startExponent m.units.log2) = some d) : d.digits < 10 ^ 18 := by
  obtain ⟨-, -, hdigits⟩ := onGrid_eq_some hhit
  have hcoarse := coarsest_grid _ (List.mem_range.2 (log2_units_lt hne))
  have hlt : m.units < 2 ^ (m.units.log2 + 1) := Nat.lt_log2_self
  have hmul : m.quarters * gridParts (startExponent m.units.log2) <
      4 * 2 ^ (m.units.log2 + 1) * gridParts (startExponent m.units.log2) := by
    refine Nat.mul_lt_mul_of_pos_right ?_ (gridParts_pos _)
    unfold quarters
    omega
  have hdiv := (Nat.div_lt_iff_lt_mul (gridStep_pos _)).2 (Nat.lt_of_lt_of_le hmul hcoarse)
  omega

/-- A hit behind a grid without one has few digits, since that grid is coarse. -/
lemma digits_of_previous {d : Decimal} {exponent : Int} (tie : Tie) (hne : m.significand ≠ 0)
    (hnone : m.onGrid tie (exponent + 1) = none) (hhit : m.onGrid tie exponent = some d) :
    d.digits < 10 ^ 18 := by
  obtain ⟨-, -, hdigits⟩ := onGrid_eq_some hhit
  have hcoarse : 3 * 2 ^ m.shift * gridParts (exponent + 1) ≤ gridStep (exponent + 1) := by
    by_contra hfine
    obtain ⟨d', hd'⟩ := exists_onGrid tie hne (Nat.lt_of_not_le hfine)
    rw [hnone] at hd'
    cases hd'
  -- Both grids are compared through the product of their denominators.
  have hscaled : 3 * 2 ^ m.shift * gridParts (exponent + 1) * gridParts exponent ≤
      10 * gridStep exponent * gridParts (exponent + 1) :=
    calc 3 * 2 ^ m.shift * gridParts (exponent + 1) * gridParts exponent
        ≤ gridStep (exponent + 1) * gridParts exponent := Nat.mul_le_mul_right _ hcoarse
      _ = 10 * (gridStep exponent * gridParts (exponent + 1)) := grid_succ exponent
      _ = 10 * gridStep exponent * gridParts (exponent + 1) := by ring
  have hstep : 3 * 2 ^ m.shift * gridParts exponent ≤ 10 * gridStep exponent := by
    refine Nat.le_of_mul_le_mul_right ?_ (gridParts_pos (exponent + 1))
    calc 3 * 2 ^ m.shift * gridParts exponent * gridParts (exponent + 1)
        = 3 * 2 ^ m.shift * gridParts (exponent + 1) * gridParts exponent := by ring
      _ ≤ 10 * gridStep exponent * gridParts (exponent + 1) := hscaled
  have hnum : m.quarters * gridParts exponent < 2 * 10 ^ 17 * gridStep exponent := by
    have hlt : m.quarters * gridParts exponent <
        4 * 2 ^ 53 * (2 ^ m.shift * gridParts exponent) := by
      have hmul : m.significand * (2 ^ m.shift * gridParts exponent) <
          2 ^ 53 * (2 ^ m.shift * gridParts exponent) :=
        Nat.mul_lt_mul_of_pos_right m.significand_lt
          (Nat.mul_pos (by positivity) (gridParts_pos exponent))
      unfold quarters units
      linarith
    have hassoc : 3 * 2 ^ m.shift * gridParts exponent =
        3 * (2 ^ m.shift * gridParts exponent) := Nat.mul_assoc _ _ _
    omega
  have hdiv := (Nat.div_lt_iff_lt_mul (gridStep_pos _)).2 hnum
  omega

lemma digits_pos_of_covers {exponent : Int} {digits : Nat} (hne : m.significand ≠ 0)
    (hcovers : m.covers (digits * gridStep exponent) (gridParts exponent) = true) :
    0 < digits := by
  refine Nat.pos_of_ne_zero fun hzero => ?_
  have hlow := (le_of_covers hcovers).1
  have hgap := halfGapBelow_lt_quarters hne
  have hpos : 0 < (m.quarters - m.halfGapBelow) * gridParts exponent :=
    Nat.mul_pos (by omega) (gridParts_pos exponent)
  rw [hzero, Nat.zero_mul] at hlow
  omega

/-- The greatest magnitude is below `10 ^ 309`. -/
lemma exponent_le_of_covers {exponent : Int} {digits : Nat} (hpos : 0 < digits)
    (hcovers : m.covers (digits * gridStep exponent) (gridParts exponent) = true) :
    exponent ≤ 308 := by
  by_contra hgt
  have hparts : gridParts exponent = 1 := by
    have hzero : (-exponent).toNat = 0 := by omega
    rw [gridParts, hzero, pow_zero]
  have hhigh := (le_of_covers hcovers).2
  rw [hparts, Nat.mul_one] at hhigh
  have hstep : gridStep 309 ≤ digits * gridStep exponent :=
    calc gridStep 309 ≤ gridStep exponent := gridStep_mono (by omega)
      _ ≤ digits * gridStep exponent := Nat.le_mul_of_pos_left _ hpos
  have hpow : 2 ^ m.shift ≤ 2 ^ 2045 := pow_le_pow_right₀ (by decide) m.shift_le
  have hunits : m.units ≤ 2 ^ 53 * 2 ^ m.shift :=
    Nat.mul_le_mul_right _ m.significand_lt.le
  have hgreatest : (4 * 2 ^ 53 + 2) * 2 ^ 2045 < gridStep 309 := by decide +kernel
  unfold quarters halfGapAbove at hhigh
  generalize (2 : Nat) ^ 2045 = gap at hpow hgreatest
  omega

/-- The shortest decimal lies in the interval of its magnitude. -/
theorem shortest_inside (tie : Tie) (hne : m.significand ≠ 0) : m.Inside (m.shortest tie) := by
  have hlog := log2_units_lt hne
  have hlast : ∃ j < 24, ∃ d, m.onGrid tie (startExponent m.units.log2 - (j : Nat)) = some d := by
    refine ⟨23, by decide, exists_onGrid tie hne ?_⟩
    have hshift := log2_units_le hne
    have hpow : 2 ^ (m.units.log2 - 52) ≤ 2 ^ m.shift :=
      Nat.pow_le_pow_right (by decide) (by omega)
    refine Nat.lt_of_lt_of_le (finest_grid _ (List.mem_range.2 hlog)) ?_
    exact Nat.mul_le_mul_right _ (Nat.mul_le_mul_left _ hpow)
  obtain ⟨j, hj, hhit, hbefore⟩ := firstHit_spec 24 (startExponent m.units.log2) hlast
  have hstart := startExponent_bounds hlog
  rw [shortest, if_neg hne]
  generalize m.firstHit tie (startExponent m.units.log2) 24 = d at hhit
  obtain ⟨hexponent, hcovers, -⟩ := onGrid_eq_some hhit
  rw [← hexponent] at hcovers
  have hpos := digits_pos_of_covers hne hcovers
  refine ⟨hpos, ?_, by omega, exponent_le_of_covers hpos hcovers, hcovers⟩
  cases j with
  | zero =>
    rw [Int.natCast_zero, Int.sub_zero] at hhit
    exact digits_of_start tie hne hhit
  | succ i =>
    refine digits_of_previous tie hne ?_ hhit
    rw [← hbefore i (Nat.lt_succ_self i)]
    congr 1
    omega

end Magnitude

/-- The shortest decimal is rounded back to the number it was written for. -/
theorem Binary64.ofDecimal_shortest (negative : Bool) (tie : Tie) (m : Magnitude) :
    ofDecimal negative (m.shortest tie).digits (m.shortest tie).exponent =
      .finite negative m := by
  by_cases hzero : m.significand = 0
  · obtain rfl := Magnitude.eq_zero hzero
    cases negative <;> cases tie <;> decide +kernel
  · have hcovers := (Magnitude.shortest_inside tie hzero).covers
    have hquarters : (m.shortest tie).digits * gridStep (m.shortest tie).exponent =
        4 * ((m.shortest tie).digits * 10 ^ (m.shortest tie).exponent.toNat * unitsPerOne) := by
      unfold gridStep
      ring
    have hparts := gridParts_pos (m.shortest tie).exponent
    rw [hquarters] at hcovers
    unfold gridParts at hcovers hparts
    unfold ofDecimal ofQuotient
    exact ofUnits_of_covers negative m hparts hcovers

end WorkflowCanvas
