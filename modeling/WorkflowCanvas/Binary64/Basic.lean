/-!
# Binary64 numbers as exact data

A finite binary64 number is a sign and a magnitude `significand * 2 ^ shift`, counted in units of
`2 ^ -1074`, the least positive magnitude.  In these units every finite magnitude is a natural
number, so comparison, rounding and decimal output are arithmetic on `Nat` and nothing rests on
machine floating point.

The side conditions of `Magnitude` make the pair unique: two finite numbers are the same bits
exactly when they are equal here, and the two zeros differ by their sign.
-/

namespace WorkflowCanvas

-- Powers of naturals are those of the core library, whatever else is imported.
attribute [local instance (high)] instPowNat

/-- A finite binary64 magnitude, `significand * 2 ^ shift` units of `2 ^ -1074`. -/
structure Magnitude where
  significand : Nat
  shift : Nat
  significand_lt : significand < 2 ^ (53 : Nat)
  shift_le : shift ≤ 2045
  /-- Only the least shift holds significands below `2 ^ 52`, so the pair is unique. -/
  normal : shift = 0 ∨ 2 ^ (52 : Nat) ≤ significand
  deriving DecidableEq

/-- A binary64 number. -/
inductive Binary64
  | nan
  | infinity (negative : Bool)
  | finite (negative : Bool) (magnitude : Magnitude)
  deriving DecidableEq

/-- The units of `2 ^ -1074` that make one. -/
@[irreducible] def unitsPerOne : Nat := 2 ^ (1074 : Nat)

theorem exists_unitsPerOne_eq : ∃ shift : Nat, unitsPerOne = 2 ^ shift := by
  unfold unitsPerOne
  exact ⟨1074, rfl⟩

theorem unitsPerOne_pos : 0 < unitsPerOne := by
  obtain ⟨shift, hshift⟩ := exists_unitsPerOne_eq
  rw [hshift]
  exact Nat.two_pow_pos shift

namespace Magnitude

/-- The magnitude in units of `2 ^ -1074`. -/
def units (m : Magnitude) : Nat := m.significand * 2 ^ m.shift

/-- The magnitude with these parts, if they are the parts of one. -/
def of? (significand shift : Nat) : Option Magnitude :=
  if h : significand < 2 ^ (53 : Nat) ∧ shift ≤ 2045 ∧
      (shift = 0 ∨ 2 ^ (52 : Nat) ≤ significand) then
    some ⟨significand, shift, h.1, h.2.1, h.2.2⟩
  else
    none

/-- The magnitude of both zeros. -/
def zero : Magnitude := ⟨0, 0, by decide, by decide, .inl rfl⟩

end Magnitude

namespace Binary64

/-- Positive zero, the default coordinate. -/
def zero : Binary64 := .finite false .zero

instance : Inhabited Binary64 := ⟨zero⟩

/-- Neither an infinity nor NaN. -/
def isFinite : Binary64 → Bool
  | .finite _ _ => true
  | _ => false

/-- The number with its sign flipped; NaN has none. -/
def neg : Binary64 → Binary64
  | .nan => .nan
  | .infinity negative => .infinity (!negative)
  | .finite negative m => .finite (!negative) m

/-- A finite number in units of `2 ^ -1074`, both zeros being `0`. -/
def units? : Binary64 → Option Int
  | .finite false m => some m.units
  | .finite true m => some (-m.units)
  | _ => none

/-- Equality of numbers: NaN equals nothing, and the two zeros are equal. -/
def sameNumber : Binary64 → Binary64 → Bool
  | .nan, _ => false
  | _, .nan => false
  | .infinity a, .infinity b => a == b
  | a, b => a.isFinite && b.isFinite && a.units? == b.units?

/-- `a ≤ x < b` for finite `a`, `b` and `x`; false if any of them is not finite. -/
def within (x a b : Binary64) : Bool :=
  match x.units?, a.units?, b.units? with
  | some x, some a, some b => decide (a ≤ x ∧ x < b)
  | _, _, _ => false

theorem isFinite_iff {x : Binary64} : x.isFinite = true ↔ ∃ negative m, x = .finite negative m := by
  cases x <;> simp [isFinite]

theorem isFinite_zero : zero.isFinite = true := rfl

end Binary64

end WorkflowCanvas
