import WorkflowCanvas.Binary64.Basic

/-!
# Rounding to binary64

Every arithmetic operation here is exact in `Nat` and rounds once, to the nearest binary64 number
and to the even significand on a tie.  A quotient beyond the greatest finite number becomes an
infinity, one below half the least positive number becomes a zero of its sign.
-/

namespace WorkflowCanvas

-- Powers of naturals are those of the core library, whatever else is imported.
attribute [local instance (high)] instPowNat

/-- The quotient rounded to a whole number, an exact half to the even neighbour. -/
def roundHalfEven (num den : Nat) : Nat :=
  if den < 2 * (num % den) ∨ (2 * (num % den) = den ∧ num / den % 2 = 1) then
    num / den + 1
  else
    num / den

namespace Binary64

/-- The finite number with these parts; parts past the greatest exponent are an infinity. -/
def ofParts (negative : Bool) (significand shift : Nat) : Binary64 :=
  match Magnitude.of? significand shift with
  | some m => .finite negative m
  | none => .infinity negative

/-- The number nearest to `num / den` units of `2 ^ -1074`.

The shift leaves 53 significant bits, or fewer when the shift is already zero.  Rounding may carry
into a 54th bit, which only happens at `2 ^ 53` exactly. -/
def ofUnits (negative : Bool) (num den : Nat) : Binary64 :=
  let shift := (num / den).log2 - 52
  let significand := roundHalfEven num (den * 2 ^ shift)
  if significand = 2 ^ (53 : Nat) then
    ofParts negative (2 ^ (52 : Nat)) (shift + 1)
  else
    ofParts negative significand shift

/-- The number nearest to `num / den`. -/
def ofQuotient (negative : Bool) (num den : Nat) : Binary64 :=
  ofUnits negative (num * unitsPerOne) den

/-- The number nearest to `n`. -/
def ofNat (n : Nat) : Binary64 := ofQuotient false n 1

/-- The number nearest to `10 ^ n`. -/
def powerOfTen (n : Nat) : Binary64 := ofNat (10 ^ n)

/-- The number nearest to `digits * 10 ^ exponent`. -/
def ofDecimal (negative : Bool) (digits : Nat) (exponent : Int) : Binary64 :=
  ofQuotient negative (digits * 10 ^ exponent.toNat) (10 ^ (-exponent).toNat)

/-- The rounded product. -/
def mul : Binary64 → Binary64 → Binary64
  | .finite s a, .finite t b => ofUnits (s != t) (a.units * b.units) unitsPerOne
  | .nan, _ => .nan
  | _, .nan => .nan
  | .infinity s, .infinity t => .infinity (s != t)
  | .infinity s, .finite t b => if b.significand = 0 then .nan else .infinity (s != t)
  | .finite s a, .infinity t => if a.significand = 0 then .nan else .infinity (s != t)

/-- The rounded quotient. -/
def div : Binary64 → Binary64 → Binary64
  | .finite s a, .finite t b =>
    if b.significand = 0 then
      if a.significand = 0 then .nan else .infinity (s != t)
    else
      ofUnits (s != t) (a.units * unitsPerOne) b.units
  | .nan, _ => .nan
  | _, .nan => .nan
  | .infinity _, .infinity _ => .nan
  | .infinity s, .finite t _ => .infinity (s != t)
  | .finite s _, .infinity t => .finite (s != t) .zero

end Binary64

end WorkflowCanvas
