import WorkflowCanvas.Decimal.Shortest

/-!
# Decimal text of binary64 numbers

`Style` holds the decisions that two texts of one number may differ in; `Binary64.render` writes the
shortest decimal in a style.  The styles in use are stated with the formats that use them.
-/

namespace WorkflowCanvas

/-- How a finite number is laid out, and how the others are spelled. -/
structure Style where
  /-- Leading digits of weight `10 ^ e` with `e` in these bounds are written without an exponent;
  without bounds every number is. -/
  positional : Option (Int × Int)
  /-- Whether a whole number ends in `.0`. -/
  pointZero : Bool
  /-- The choice between two shortest decimals that are equally near. -/
  tie : Tie
  nan : String
  infinity : String

namespace Style

/-- The digits of a decimal, most significant first. -/
def digitChars (d : Decimal) : List Char := Nat.toDigits 10 d.digits

/-- The weight of the leading digit as a power of ten. -/
def leadingExponent (d : Decimal) : Int := d.exponent + ((digitChars d).length : Int) - 1

/-- Digits with a decimal point, no exponent. -/
def positionalChars (style : Style) (d : Decimal) : List Char :=
  let digits := digitChars d
  let point := if style.pointZero then ['.', '0'] else []
  if 0 ≤ d.exponent then
    digits ++ List.replicate d.exponent.toNat '0' ++ point
  else
    -- The last `places` digits stand behind the point.
    let places := (-d.exponent).toNat
    if places < digits.length then
      digits.take (digits.length - places) ++ '.' :: digits.drop (digits.length - places)
    else
      '0' :: '.' :: (List.replicate (places - digits.length) '0' ++ digits)

/-- One digit before the point, and the exponent with its sign. -/
def scientificChars (d : Decimal) : List Char :=
  let exponent := leadingExponent d
  let fraction := (digitChars d).drop 1
  (digitChars d).take 1 ++ (if fraction = [] then [] else '.' :: fraction)
    ++ ['e', if exponent < 0 then '-' else '+'] ++ Nat.toDigits 10 exponent.natAbs

/-- The text of a nonnegative decimal. -/
def decimalChars (style : Style) (d : Decimal) : List Char :=
  match style.positional with
  | none => style.positionalChars d
  | some (low, high) =>
    if low ≤ leadingExponent d ∧ leadingExponent d ≤ high then
      style.positionalChars d
    else
      scientificChars d

end Style

namespace Binary64

/-- The text of a number in a style; zeros keep their sign. -/
def renderChars (style : Style) : Binary64 → List Char
  | .nan => style.nan.toList
  | .infinity negative => (if negative then ['-'] else []) ++ style.infinity.toList
  | .finite negative m =>
    (if negative then ['-'] else []) ++ style.decimalChars (m.shortest style.tie)

/-- The text of a number in a style. -/
def render (style : Style) (x : Binary64) : String := String.ofList (x.renderChars style)

/-- Numbers in messages: never an exponent, no point behind a whole number. -/
def messageStyle : Style where
  positional := none
  pointZero := false
  tie := .up
  nan := "NaN"
  infinity := "inf"

/-- The text of a number in a message. -/
def display (x : Binary64) : String := x.render messageStyle

end Binary64

end WorkflowCanvas
