import WorkflowCanvas.Binary64.Basic

/-!
# The shortest decimal that reads back

The reals that round to a finite binary64 number form an interval around it: half-way to each
neighbour, the ends belonging to it exactly when its significand is even.  `shortest` looks for the
coarsest power of ten that has a multiple inside that interval.  That multiple has the fewest
digits, since no two points of the interval differ by a factor of ten, and of the two multiples next
to the number the nearer one is taken.

Everything is counted in quarters of `2 ^ -1074`, in which the ends of the interval are whole.
-/

namespace WorkflowCanvas

-- Powers of naturals are those of the core library, whatever else is imported.
attribute [local instance (high)] instPowNat

/-- The decimal `digits * 10 ^ exponent`. -/
structure Decimal where
  digits : Nat
  exponent : Int
  deriving DecidableEq

/-- Which of two equally near decimals is taken. -/
inductive Tie
  | toEven
  | up
  deriving DecidableEq

/-- One step of the grid of a power of ten, in quarter units over `gridParts`. -/
def gridStep (exponent : Int) : Nat := 4 * unitsPerOne * 10 ^ exponent.toNat

/-- The denominator of the grid of a power of ten. -/
def gridParts (exponent : Int) : Nat := 10 ^ (-exponent).toNat

namespace Magnitude

/-- The number in quarter units. -/
def quarters (m : Magnitude) : Nat := 4 * m.units

/-- Half the gap to the next greater magnitude, in quarter units. -/
def halfGapAbove (m : Magnitude) : Nat := 2 * 2 ^ m.shift

/-- Half the gap to the next smaller magnitude, in quarter units.  Below a power of two the
magnitudes stand twice as close. -/
def halfGapBelow (m : Magnitude) : Nat :=
  if m.significand = 2 ^ (52 : Nat) ∧ 0 < m.shift then 2 ^ m.shift else 2 * 2 ^ m.shift

/-- Whether `num / den` quarter units round to this magnitude. -/
def covers (m : Magnitude) (num den : Nat) : Bool :=
  let low := (m.quarters - m.halfGapBelow) * den
  let high := (m.quarters + m.halfGapAbove) * den
  if m.significand % 2 = 0 then
    decide (low ≤ num ∧ num ≤ high)
  else
    decide (low < num ∧ num < high)

/-- The multiple of `10 ^ exponent` nearest to the magnitude among those that round to it. -/
def onGrid (tie : Tie) (m : Magnitude) (exponent : Int) : Option Decimal :=
  let step := gridStep exponent
  let den := gridParts exponent
  let num := m.quarters * den
  let below := num / step
  let above := below + 1
  let twice := 2 * (num % step)
  let preferBelow := twice < step ∨ (twice = step ∧ tie = .toEven ∧ below % 2 = 0)
  match m.covers (below * step) den, m.covers (above * step) den with
  | true, true => some ⟨if preferBelow then below else above, exponent⟩
  | true, false => some ⟨below, exponent⟩
  | false, true => some ⟨above, exponent⟩
  | false, false => none

/-- The first grid with a hit, going down from `exponent`. -/
def firstHit (tie : Tie) (m : Magnitude) (exponent : Int) : Nat → Decimal
  | 0 => ⟨m.units, -1074⟩
  | grids + 1 =>
    match m.onGrid tie exponent with
    | some d => d
    | none => m.firstHit tie (exponent - 1) grids

/-- A power of ten that is not below the magnitudes of a logarithm in base two: `30103 / 100000` is
just above the logarithm of two in base ten, and the added two make up for it where the logarithm is
negative. -/
def startExponent (log2 : Nat) : Int := ((log2 : Int) + 1 - 1074) * 30103 / 100000 + 2

/-- The shortest decimal that reads back as the magnitude, nearest to it among the shortest.

Seventeen digits always suffice, and the starting exponent is at most three too high. -/
def shortest (tie : Tie) (m : Magnitude) : Decimal :=
  if m.significand = 0 then ⟨0, 0⟩ else m.firstHit tie (startExponent m.units.log2) 24

end Magnitude

end WorkflowCanvas
