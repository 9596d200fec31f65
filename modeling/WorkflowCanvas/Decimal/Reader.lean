import WorkflowCanvas.Binary64.Rounding
import WorkflowCanvas.Text.Basic

/-!
# Reading decimal text

`Binary64.ofText?` reads a decimal number, with or without sign, fraction and exponent, and rounds
it once; the words for NaN and the infinities are read in any letter case.
-/

namespace WorkflowCanvas.Binary64

/-- The digits at the head, and what follows them. -/
def spanDecimal (text : List Char) : List Char × List Char :=
  (text.takeWhile Char.isDigit, text.dropWhile Char.isDigit)

/-- The number written by decimal digits. -/
def digitsValue (digits : List Char) : Nat := Text.numberOf 10 (digits.filterMap (Text.digit? 10))

/-- Reads what follows the digits of a number: an exponent or nothing. -/
def exponent? : List Char → Option Int
  | [] => some 0
  | c :: text =>
    if c = 'e' ∨ c = 'E' then
      let (down, text) := match text with
        | '-' :: text => (true, text)
        | '+' :: text => (false, text)
        | text => (false, text)
      let (digits, rest) := spanDecimal text
      if digits = [] ∨ rest ≠ [] then none
      else some (if down then -(digitsValue digits : Int) else digitsValue digits)
    else
      none

/-- `digits * 10 ^ exponent`, without forming a power that cannot matter: beyond 400 places on
either side of the digits the number is an infinity or zero. -/
def ofDigits (negative : Bool) (digits : List Char) (exponent : Int) : Binary64 :=
  if digitsValue digits = 0 ∨ exponent + digits.length < -400 then .finite negative .zero
  else if 400 < exponent then .infinity negative
  else ofDecimal negative (digitsValue digits) exponent

/-- Reads a number behind its sign. -/
def ofUnsigned? (negative : Bool) (text : List Char) : Option Binary64 :=
  let word := text.map Char.toLower
  if word = "nan".toList then some .nan
  else if word = "inf".toList ∨ word = "infinity".toList then some (.infinity negative)
  else
    let (whole, rest) := spanDecimal text
    let (fraction, rest) := match rest with
      | '.' :: rest => spanDecimal rest
      | rest => ([], rest)
    if whole = [] ∧ fraction = [] then none
    else
      (exponent? rest).map fun exponent =>
        ofDigits negative (whole ++ fraction) (exponent - fraction.length)

/-- Reads a decimal number. -/
def ofText? (text : String) : Option Binary64 :=
  match text.toList with
  | '-' :: rest => ofUnsigned? true rest
  | '+' :: rest => ofUnsigned? false rest
  | rest => ofUnsigned? false rest

end WorkflowCanvas.Binary64
