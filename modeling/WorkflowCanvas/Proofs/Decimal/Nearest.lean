import Mathlib.Algebra.Order.Field.Basic
import Mathlib.Algebra.Order.Field.Rat
import Mathlib.Tactic.FieldSimp
import WorkflowCanvas.Proofs.Decimal.Parts
import WorkflowCanvas.Proofs.Decimal.Shortest

/-!
# The binary64 number nearest to a decimal

`Numeral.Nearest` says of a numeral, by the rational number it stands for and without any algorithm,
which binary64 number it is rounded to: no number of 53 binary digits is nearer, and one that is as
near gives way to an even significand.  There is at most one such number (`Numeral.Nearest.unique`),
and for the text of a finite number it is that number (`nearest_of_spells`).
-/

namespace WorkflowCanvas

/-- A sign, digits and a power of ten that they are multiplied by. -/
structure Numeral where
  negative : Bool
  digits : Nat
  exponent : Int
  deriving DecidableEq

/-- The absolute value of a numeral. -/
def Numeral.abs (n : Numeral) : ℚ := n.digits * 10 ^ n.exponent

/-- The number of so many units of `2 ^ -1074`, shifted to the left. -/
def binaryValue (significand shift : Nat) : ℚ := significand * 2 ^ ((shift : ℤ) - 1074)

/-- What a magnitude stands for. -/
def Magnitude.value (m : Magnitude) : ℚ := binaryValue m.significand m.shift

/-- The magnitude is the nearest to a number, or among two of them the one with the even
significand.  The others have no upper bound, as if there were larger magnitudes: so there is none
nearest to a number that is too large. -/
structure Magnitude.Nearest (m : Magnitude) (v : ℚ) : Prop where
  le : ∀ significand shift, significand < 2 ^ 53 →
    |v - m.value| ≤ |v - binaryValue significand shift|
  tie : ∀ significand shift, significand < 2 ^ 53 →
    |v - m.value| = |v - binaryValue significand shift| →
      binaryValue significand shift = m.value ∨ m.significand % 2 = 0

/-- The binary64 number that a numeral is rounded to. -/
inductive Numeral.Nearest (n : Numeral) : Binary64 → Prop
  | finite {m : Magnitude} (nearest : m.Nearest n.abs) : Nearest n (.finite n.negative m)

/-! ## Magnitudes and their neighbours -/

lemma cast_unitsPerOne_pos : (0 : ℚ) < unitsPerOne := Nat.cast_pos.2 unitsPerOne_pos

lemma binaryValue_eq (significand shift : Nat) :
    binaryValue significand shift = ((significand * 2 ^ shift : ℕ) : ℚ) / unitsPerOne := by
  have hcast : (1074 : ℤ) = (1074 : ℕ) := rfl
  unfold binaryValue unitsPerOne
  rw [hcast]
  -- as a number the exponent is too large for the power to be left unevaluated
  generalize 1074 = k
  rw [zpow_sub₀ two_ne_zero, zpow_natCast, zpow_natCast, Nat.cast_mul, Nat.cast_pow, Nat.cast_pow,
    Nat.cast_ofNat, mul_div_assoc]

lemma binaryValue_lt_iff {significand shift significand' shift' : Nat} :
    binaryValue significand shift < binaryValue significand' shift' ↔
      significand * 2 ^ shift < significand' * 2 ^ shift' := by
  rw [binaryValue_eq, binaryValue_eq, div_lt_div_iff_of_pos_right cast_unitsPerOne_pos,
    Nat.cast_lt]

lemma binaryValue_inj {significand shift significand' shift' : Nat} :
    binaryValue significand shift = binaryValue significand' shift' ↔
      significand * 2 ^ shift = significand' * 2 ^ shift' := by
  rw [binaryValue_eq, binaryValue_eq, div_left_inj' cast_unitsPerOne_pos.ne', Nat.cast_inj]

/-- Distances in quarter units. -/
lemma abs_sub_binaryValue (v : ℚ) (significand shift : Nat) :
    |v - binaryValue significand shift| =
      |4 * (v * unitsPerOne) - (4 * (significand * 2 ^ shift) : ℕ)| / (4 * unitsPerOne) := by
  have hpos := cast_unitsPerOne_pos
  have hdiff : v - binaryValue significand shift =
      (4 * (v * unitsPerOne) - (4 * (significand * 2 ^ shift) : ℕ)) / (4 * unitsPerOne) := by
    rw [binaryValue_eq, Nat.cast_mul 4, Nat.cast_ofNat]
    field_simp
  rw [hdiff, abs_div, abs_of_pos (by positivity : (0 : ℚ) < 4 * unitsPerOne)]

/-- A number of 53 binary digits that is a multiple of a coarser unit, or lies below those that fill
it. -/
lemma dvd_or_lt {significand : Nat} (shift unit : Nat) (hlt : significand < 2 ^ 53) :
    2 ^ unit ∣ significand * 2 ^ shift ∨
      ∃ finer, unit = finer + 1 ∧ significand * 2 ^ shift < 2 ^ 53 * 2 ^ finer := by
  by_cases hle : unit ≤ shift
  · exact .inl (Dvd.dvd.mul_left (Nat.pow_dvd_pow 2 hle) significand)
  · refine .inr ⟨unit - 1, by omega, ?_⟩
    calc significand * 2 ^ shift < 2 ^ 53 * 2 ^ shift :=
          Nat.mul_lt_mul_of_pos_right hlt (by positivity)
      _ ≤ 2 ^ 53 * 2 ^ (unit - 1) :=
          Nat.mul_le_mul_left _ (Nat.pow_le_pow_right (by decide) (by omega))

/-- Between two multiples that follow each other there is no other. -/
lemma eq_of_dvd_of_lt {unit n : Nat} (count : Nat) (hdvd : unit ∣ n)
    (hlow : count * unit < n + unit) (hhigh : n < (count + 1) * unit) : n = count * unit := by
  obtain ⟨k, rfl⟩ := hdvd
  have hpos : 0 < unit := Nat.pos_of_ne_zero fun h => by simp [h] at hhigh
  have hlow' : count < k + 1 := by
    refine Nat.lt_of_mul_lt_mul_right (a := unit) ?_
    calc count * unit < unit * k + unit := hlow
      _ = (k + 1) * unit := by ring
  have hhigh' : k < count + 1 := by
    refine Nat.lt_of_mul_lt_mul_right (a := unit) ?_
    calc k * unit = unit * k := Nat.mul_comm _ _
      _ < (count + 1) * unit := hhigh
  obtain rfl : k = count := by omega
  exact Nat.mul_comm _ _

namespace Magnitude

variable {m m' : Magnitude} {significand shift : Nat}

lemma normal_of_shift {finer : Nat} (hshift : m.shift = finer + 1) : 2 ^ 52 ≤ m.significand := by
  rcases m.normal with hzero | hnormal
  · omega
  · exact hnormal

/-- The next number above a magnitude is one unit of its shift away. -/
lemma add_le_of_lt (hlt : significand < 2 ^ 53) (habove : m.units < significand * 2 ^ shift) :
    m.units + 2 ^ m.shift ≤ significand * 2 ^ shift := by
  by_contra hnear
  have hnext : (m.significand + 1) * 2 ^ m.shift = m.units + 2 ^ m.shift := by
    rw [units]
    ring
  rcases dvd_or_lt shift m.shift hlt with hdvd | ⟨finer, hshift, hbelow⟩
  · have heq := eq_of_dvd_of_lt m.significand hdvd (by unfold units at habove; omega)
      (by omega)
    unfold units at habove
    omega
  · have hunits : 2 ^ 52 * (2 * 2 ^ finer) ≤ m.units := by
      rw [units, hshift, pow_succ' 2 finer]
      exact Nat.mul_le_mul_right _ (normal_of_shift hshift)
    omega

/-- The next number below a magnitude is twice the half gap away. -/
lemma add_le_of_gt (hlt : significand < 2 ^ 53) (hbelow : significand * 2 ^ shift < m.units) :
    4 * (significand * 2 ^ shift) + 2 * m.halfGapBelow ≤ m.quarters := by
  unfold quarters
  by_cases hleast : m.significand = 2 ^ 52 ∧ 0 < m.shift
  · -- just below a power of two the unit is half as large
    obtain ⟨half, hshift⟩ : ∃ half, m.shift = half + 1 := ⟨m.shift - 1, by omega⟩
    have hunits : m.units = 2 ^ 53 * 2 ^ half := by
      rw [units, hleast.1, hshift, Nat.pow_succ]
      ring
    have hgap : m.halfGapBelow = 2 * 2 ^ half := by
      rw [halfGapBelow, if_pos hleast, hshift, Nat.pow_succ, Nat.mul_comm]
    rw [hunits] at hbelow ⊢
    rw [hgap]
    by_contra hnear
    rcases dvd_or_lt shift half hlt with hdvd | ⟨finer, rfl, hfine⟩
    · have heq := eq_of_dvd_of_lt (2 ^ 53 - 1) hdvd (by omega) (by omega)
      omega
    · rw [Nat.pow_succ] at hnear
      omega
  · have hgap : m.halfGapBelow = 2 * 2 ^ m.shift := if_neg hleast
    obtain ⟨previous, hprevious⟩ : ∃ previous, m.significand = previous + 1 := by
      refine ⟨m.significand - 1, ?_⟩
      have hne : m.significand ≠ 0 := by
        intro hzero
        rw [units, hzero, Nat.zero_mul] at hbelow
        exact absurd hbelow (Nat.not_lt_zero _)
      omega
    have hunits : m.units = previous * 2 ^ m.shift + 2 ^ m.shift := by
      rw [units, hprevious]
      ring
    have hnext : (previous + 1) * 2 ^ m.shift = m.units := by rw [units, hprevious]
    rw [hgap]
    by_contra hnear
    rcases dvd_or_lt shift m.shift hlt with hdvd | ⟨finer, hshift, hfine⟩
    · have heq := eq_of_dvd_of_lt previous hdvd (by omega) (by omega)
      omega
    · have hnormal := normal_of_shift hshift
      have hfull : 2 ^ 52 * (2 * 2 ^ finer) ≤ previous * 2 ^ m.shift := by
        rw [hshift, pow_succ' 2 finer]
        exact Nat.mul_le_mul_right _ (by omega)
      omega

/-- Different magnitudes stand for different numbers. -/
lemma eq_of_units_eq (h : m.units = m'.units) : m = m' := by
  -- the one with the larger shift would have too many digits for the other
  have hle : ∀ {m m' : Magnitude}, m.units = m'.units → m'.shift ≤ m.shift := by
    intro m m' h
    by_contra hshift
    obtain ⟨more, hmore⟩ : ∃ more, m'.shift = m.shift + more + 1 :=
      ⟨m'.shift - m.shift - 1, by omega⟩
    have hbig : 2 ^ 53 * 2 ^ m.shift ≤ m'.units := by
      calc 2 ^ 53 * 2 ^ m.shift = 2 ^ 52 * (2 ^ m.shift * 2) := by ring
        _ ≤ m'.significand * (2 ^ m.shift * 2) :=
            Nat.mul_le_mul_right _ (normal_of_shift hmore)
        _ ≤ m'.significand * 2 ^ m'.shift := by
            rw [hmore, ← Nat.pow_succ]
            exact Nat.mul_le_mul_left _ (Nat.pow_le_pow_right (by decide) (by omega))
    have hsmall : m.units < 2 ^ 53 * 2 ^ m.shift :=
      Nat.mul_lt_mul_of_pos_right m.significand_lt (by positivity)
    omega
  have hshift : m.shift = m'.shift := Nat.le_antisymm (hle h.symm) (hle h)
  have hsignificand : m.significand = m'.significand := by
    rw [units, units, hshift] at h
    exact Nat.eq_of_mul_eq_mul_right (by positivity) h
  obtain ⟨s, k, _, _, _⟩ := m
  obtain ⟨s', k', _, _, _⟩ := m'
  obtain rfl : k = k' := hshift
  obtain rfl : s = s' := hsignificand
  rfl

end Magnitude

/-! ## What is nearest -/

/-- A point within the gaps of a number on either side is not nearer to a number behind them. -/
lemma abs_sub_le_of_gaps {number above below point other : ℚ} (habove : 0 < above)
    (hbelow : 0 < below) (hlow : number - below ≤ point) (hhigh : point ≤ number + above)
    (hother : other = number ∨ number + 2 * above ≤ other ∨ other + 2 * below ≤ number) :
    |point - number| ≤ |point - other| ∧ (|point - number| = |point - other| →
      other = number ∨ point = number + above ∨ point = number - below) := by
  rcases hother with rfl | hgreater | hless
  · exact ⟨le_rfl, fun _ => .inl rfl⟩
  · rw [abs_of_nonpos (by linarith : point - other ≤ 0)]
    rcases le_total number point with hside | hside
    · rw [abs_of_nonneg (by linarith)]
      exact ⟨by linarith, fun h => .inr (.inl (by linarith))⟩
    · rw [abs_of_nonpos (by linarith)]
      exact ⟨by linarith, fun h => by linarith⟩
  · rw [abs_of_nonneg (by linarith : 0 ≤ point - other)]
    rcases le_total number point with hside | hside
    · rw [abs_of_nonneg (by linarith)]
      exact ⟨by linarith, fun h => by linarith⟩
    · rw [abs_of_nonpos (by linarith)]
      exact ⟨by linarith, fun h => .inr (.inr (by linarith))⟩

namespace Magnitude

variable {m m' : Magnitude} {v : ℚ}

lemma halfGapBelow_pos (m : Magnitude) : 0 < m.halfGapBelow := by
  unfold halfGapBelow
  split <;> positivity

/-- The interval of a magnitude, in rational numbers. -/
lemma bounds_of_covers {num den : Nat} (hne : m.significand ≠ 0) (hden : 0 < den)
    (h : m.covers num den = true) :
    (m.quarters - m.halfGapBelow : ℚ) ≤ num / den ∧ (num / den : ℚ) ≤ m.quarters + m.halfGapAbove ∧
      ((num / den : ℚ) = m.quarters + m.halfGapAbove ∨
        (num / den : ℚ) = m.quarters - m.halfGapBelow → m.significand % 2 = 0) := by
  have hpos : (0 : ℚ) < den := Nat.cast_pos.2 hden
  have hsub : (m.quarters - m.halfGapBelow : ℚ) = ((m.quarters - m.halfGapBelow : ℕ) : ℚ) :=
    (Nat.cast_sub (halfGapBelow_lt_quarters hne).le).symm
  have hadd : (m.quarters + m.halfGapAbove : ℚ) = ((m.quarters + m.halfGapAbove : ℕ) : ℚ) :=
    (Nat.cast_add _ _).symm
  obtain ⟨hlow, hhigh⟩ := le_of_covers h
  rw [hsub, hadd, le_div_iff₀ hpos, div_le_iff₀ hpos, div_eq_iff hpos.ne', div_eq_iff hpos.ne']
  refine ⟨by exact_mod_cast hlow, by exact_mod_cast hhigh, fun hends => ?_⟩
  by_contra hodd
  rw [covers, if_neg hodd] at h
  obtain ⟨hlow, hhigh⟩ := of_decide_eq_true h
  rcases hends with heq | heq
  · have heq : num = (m.quarters + m.halfGapAbove) * den := by exact_mod_cast heq
    omega
  · have heq : num = (m.quarters - m.halfGapBelow) * den := by exact_mod_cast heq
    omega

/-- A magnitude is the nearest to what its interval covers. -/
lemma nearest_of_covers {num den : Nat} (hne : m.significand ≠ 0) (hden : 0 < den)
    (hv : 4 * (v * unitsPerOne) = num / den) (h : m.covers num den = true) : m.Nearest v := by
  obtain ⟨hlow, hhigh, hends⟩ := bounds_of_covers hne hden h
  have habove : (0 : ℚ) < m.halfGapAbove := by
    unfold halfGapAbove
    positivity
  have hbelow : (0 : ℚ) < m.halfGapBelow := Nat.cast_pos.2 m.halfGapBelow_pos
  have hscale : (0 : ℚ) < 4 * unitsPerOne := mul_pos (by norm_num) cast_unitsPerOne_pos
  have hgaps : ∀ significand shift, significand < 2 ^ 53 →
      |4 * (v * unitsPerOne) - m.quarters| ≤
          |4 * (v * unitsPerOne) - (4 * (significand * 2 ^ shift) : ℕ)| ∧
        (|4 * (v * unitsPerOne) - m.quarters| =
            |4 * (v * unitsPerOne) - (4 * (significand * 2 ^ shift) : ℕ)| →
          ((4 * (significand * 2 ^ shift) : ℕ) : ℚ) = m.quarters ∨ m.significand % 2 = 0) := by
    intro significand shift hlt
    rw [hv]
    have hplace : ((4 * (significand * 2 ^ shift) : ℕ) : ℚ) = m.quarters ∨
        (m.quarters + 2 * m.halfGapAbove : ℚ) ≤ (4 * (significand * 2 ^ shift) : ℕ) ∨
          ((4 * (significand * 2 ^ shift) : ℕ) + 2 * m.halfGapBelow : ℚ) ≤ m.quarters := by
      rcases Nat.lt_trichotomy (significand * 2 ^ shift) m.units with hless | heq | hgreater
      · exact .inr (.inr (by exact_mod_cast add_le_of_gt hlt hless))
      · exact .inl (by rw [heq, quarters])
      · have hnext := add_le_of_lt hlt hgreater
        refine .inr (.inl ?_)
        unfold quarters halfGapAbove
        norm_cast
        omega
    obtain ⟨hle, htie⟩ := abs_sub_le_of_gaps habove hbelow hlow hhigh hplace
    refine ⟨hle, fun heq => ?_⟩
    rcases htie heq with hsame | hend
    · exact .inl hsame
    · exact .inr (hends hend)
  constructor
  · intro significand shift hlt
    rw [value, abs_sub_binaryValue, abs_sub_binaryValue, div_le_div_iff_of_pos_right hscale]
    exact (hgaps significand shift hlt).1
  · intro significand shift hlt heq
    rw [value, abs_sub_binaryValue, abs_sub_binaryValue, div_left_inj' hscale.ne'] at heq
    rcases (hgaps significand shift hlt).2 heq with hsame | heven
    · left
      rw [value, binaryValue_inj]
      have hquarters : 4 * (significand * 2 ^ shift) = m.quarters := by exact_mod_cast hsame
      unfold quarters units at hquarters
      omega
    · exact .inr heven

lemma nearest_zero (hzero : m.significand = 0) : m.Nearest 0 := by
  have hvalue : m.value = 0 := by rw [value, binaryValue, hzero, Nat.cast_zero, zero_mul]
  constructor
  · intro significand shift _
    rw [hvalue, sub_self, abs_zero]
    exact abs_nonneg _
  · intro significand shift _ _
    exact .inr (by rw [hzero])

/-! ## At most one -/

lemma value_lt_iff : m.value < m'.value ↔ m.units < m'.units := binaryValue_lt_iff

/-- Of two nearest magnitudes with even significands neither is greater: there would be a number
between them that is nearer, or the greater one follows the other and is odd. -/
lemma Nearest.not_lt (h : m.Nearest v) (h' : m'.Nearest v) (heven : m.significand % 2 = 0)
    (heven' : m'.significand % 2 = 0) : ¬m.units < m'.units := by
  intro hlt
  have hnext : m.significand + 1 < 2 ^ 53 := by
    have hbound := m.significand_lt
    omega
  have habove : m.units < (m.significand + 1) * 2 ^ m.shift :=
    Nat.mul_lt_mul_of_pos_right (Nat.lt_succ_self _) (by positivity)
  have hle : (m.significand + 1) * 2 ^ m.shift ≤ m'.units := by
    rw [Nat.succ_mul]
    exact add_le_of_lt m'.significand_lt hlt
  rcases hle.lt_or_eq with hbelow | heq
  · have hmid : v - m.value = m'.value - v := by
      have hdistance := le_antisymm (h.le _ _ m'.significand_lt) (h'.le _ _ m.significand_lt)
      have hvalues : m.value < m'.value := value_lt_iff.2 hlt
      rcases abs_eq_abs.1 hdistance with hsame | hopposite
      · exact absurd (sub_right_injective hsame) hvalues.ne
      · rw [hopposite, neg_sub]
        rfl
    have hlow : m.value < binaryValue (m.significand + 1) m.shift := binaryValue_lt_iff.2 habove
    have hhigh : binaryValue (m.significand + 1) m.shift < m'.value := binaryValue_lt_iff.2 hbelow
    have hnear := h.le _ m.shift hnext
    rw [abs_of_pos (by linarith : 0 < v - m.value), le_abs] at hnear
    rcases hnear with hnear | hnear <;> linarith
  · have hodd : m' = ⟨m.significand + 1, m.shift, hnext, m.shift_le,
        m.normal.imp_right Nat.le_succ_of_le⟩ := eq_of_units_eq heq.symm
    rw [hodd] at heven'
    dsimp only at heven'
    omega

lemma Nearest.unique (h : m.Nearest v) (h' : m'.Nearest v) : m = m' := by
  have hdistance := le_antisymm (h.le _ _ m'.significand_lt) (h'.le _ _ m.significand_lt)
  refine eq_of_units_eq ?_
  rcases h.tie _ _ m'.significand_lt hdistance with hsame | heven
  · exact (binaryValue_inj.1 hsame).symm
  · rcases h'.tie _ _ m.significand_lt hdistance.symm with hsame | heven'
    · exact binaryValue_inj.1 hsame
    · exact Nat.le_antisymm (Nat.le_of_not_lt (h'.not_lt h heven' heven))
        (Nat.le_of_not_lt (h.not_lt h' heven heven'))

end Magnitude

/-- A numeral is rounded to one number at most. -/
theorem Numeral.Nearest.unique {n : Numeral} {x x' : Binary64} (h : n.Nearest x)
    (h' : n.Nearest x') : x = x' := by
  obtain ⟨hm⟩ := h
  obtain ⟨hm'⟩ := h'
  rw [hm.unique hm']

/-! ## The shortest decimal -/

/-- A decimal in quarter units. -/
lemma cast_grid (digits : Nat) (exponent : Int) :
    4 * ((digits * 10 ^ exponent : ℚ) * unitsPerOne) =
      (digits * gridStep exponent : ℕ) / gridParts exponent := by
  have hpower : (10 : ℚ) ^ exponent = 10 ^ exponent.toNat / 10 ^ (-exponent).toNat := by
    rw [← zpow_natCast, ← zpow_natCast, ← zpow_sub₀ (by norm_num), Int.toNat_sub_toNat_neg]
  rw [hpower, gridStep, gridParts]
  push_cast
  ring

/-- A magnitude is the nearest to its shortest decimal. -/
lemma Magnitude.nearest_shortest (m : Magnitude) (tie : Tie) :
    m.Nearest ((m.shortest tie).digits * 10 ^ (m.shortest tie).exponent) := by
  by_cases hzero : m.significand = 0
  · rw [shortest, if_pos hzero, Nat.cast_zero, zero_mul]
    exact nearest_zero hzero
  · exact nearest_of_covers hzero (gridParts_pos _) (cast_grid _ _)
      (shortest_inside tie hzero).covers

/-- What the parts of a number's text stand for is rounded to the number. -/
theorem nearest_of_spells (negative : Bool) {m : Magnitude} {tie : Tie} {p : Decimal.Parts}
    {zeros : Nat} (h : p.Spells (m.shortest tie) zeros) :
    Numeral.Nearest ⟨negative, Nat.ofDigitChars 10 p.digitChars 0, p.exponent⟩
      (.finite negative m) := by
  refine .finite ?_
  have hvalue : ((Nat.ofDigitChars 10 p.digitChars 0 : ℚ) * 10 ^ p.exponent) =
      (m.shortest tie).digits * 10 ^ (m.shortest tie).exponent := by
    rw [h.value, h.exponent_eq, Nat.cast_mul, Nat.cast_pow, Nat.cast_ofNat, mul_assoc,
      ← zpow_natCast, ← zpow_add₀ (by norm_num), add_sub_cancel]
  rw [Numeral.abs, hvalue]
  exact m.nearest_shortest tie

end WorkflowCanvas
