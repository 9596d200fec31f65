import WorkflowCanvas.Binary64.Rounding
import WorkflowCanvas.Decimal.Style

/-!
# JSON numbers

A number without fraction and exponent that fits 64 bits is kept whole; every other one is binary64.
The decimal point of a written binary64 number is kept (`50.0`), so that it is read as one again.
-/

namespace WorkflowCanvas.Json

/-- A number of a JSON text. -/
inductive Number
  /-- A whole number from `0`. -/
  | natural (n : Nat)
  /-- The negative of a whole number. -/
  | negative (n : Nat)
  | real (x : Binary64)
  deriving DecidableEq

/-- Numbers in JSON text: positional from `0.00001` up to sixteen digits before the point, with a
signed exponent beyond.  JSON has no NaN and no infinities. -/
def numberStyle : Style where
  positional := some (-5, 15)
  pointZero := true
  tie := .toEven
  nan := "null"
  infinity := "null"

/-- The text of a binary64 number, `null` if it is not finite. -/
def realChars (x : Binary64) : List Char :=
  if x.isFinite then x.renderChars numberStyle else "null".toList

namespace Number

/-- The text of a number. -/
def chars : Number → List Char
  | .natural n => Nat.toDigits 10 n
  | .negative n => '-' :: Nat.toDigits 10 n
  | .real x => realChars x

/-- The nearest binary64 number. -/
def toBinary64 : Number → Binary64
  | .natural n => .ofNat n
  | .negative n => (Binary64.ofNat n).neg
  | .real x => x

end Number

end WorkflowCanvas.Json
