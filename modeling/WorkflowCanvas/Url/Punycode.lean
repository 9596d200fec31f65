/-!
# Punycode

A label of a domain name in ASCII.  The ASCII characters come first; behind them the others are
inserted one after the other in the order of their numbers, each as the distance to the previous
insertion in a mixed base that adapts to the distances so far.
-/

namespace WorkflowCanvas.Url.Punycode

/-- The digits `a` to `z` and `0` to `9`. -/
def digitChar (n : Nat) : Char := Char.ofNat (if n < 26 then 97 + n else 22 + n)

/-- The value of a digit, a letter in either case. -/
def digitValue? (c : Char) : Option Nat :=
  if 'a' ≤ c ∧ c ≤ 'z' then some (c.toNat - 97)
  else if 'A' ≤ c ∧ c ≤ 'Z' then some (c.toNat - 65)
  else if '0' ≤ c ∧ c ≤ '9' then some (c.toNat - 22)
  else none

/-- The digit at a place ends a number if it is below this. -/
def threshold (place bias : Nat) : Nat := max 1 (min 26 (place - bias))

theorem threshold_bounds (place bias : Nat) :
    1 ≤ threshold place bias ∧ threshold place bias ≤ 26 := by
  unfold threshold
  omega

/-- Brings a distance down to the range of the bias. -/
def scaleDown (distance steps : Nat) : Nat × Nat :=
  if 455 < distance then scaleDown (distance / 35) (steps + 1) else (distance, steps)
termination_by distance

/-- The bias behind an insertion into a text that has `count` characters then. -/
def nextBias (distance count : Nat) (first : Bool) : Nat :=
  let halved := distance / (if first then 700 else 2)
  let (rest, steps) := scaleDown (halved + halved / count) 0
  steps * 36 + 36 * rest / (rest + 38)

/-- The digits of a number. -/
def numberDigits (bias place n : Nat) : List Char :=
  let t := threshold place bias
  if n < t then [digitChar n]
  else digitChar (t + (n - t) % (36 - t)) :: numberDigits bias (place + 36) ((n - t) / (36 - t))
termination_by n
decreasing_by
  have h := threshold_bounds place bias
  have hle := Nat.div_le_self (n - threshold place bias) (36 - threshold place bias)
  have _hlt : ¬ n < threshold place bias := by assumption
  omega

/-- What the writer has put out and where it stands. -/
structure Writer where
  output : List Char
  distance : Nat
  bias : Nat
  /-- How many characters have been written. -/
  count : Nat
  first : Bool

/-- Passes a character of the text while those with the number `n` are inserted. -/
def Writer.pass (n : Nat) (w : Writer) (c : Char) : Writer :=
  if c.toNat < n then { w with distance := w.distance + 1 }
  else if c.toNat = n then
    { output := w.output ++ numberDigits w.bias 36 w.distance
      distance := 0
      bias := nextBias w.distance (w.count + 1) w.first
      count := w.count + 1
      first := false }
  else w

/-- Inserts the characters with the given numbers, in ascending order. -/
def writeFrom (text : List Char) : List Nat → Nat → Writer → Writer
  | [], _, w => w
  | n :: ns, last, w =>
    let w := { w with distance := w.distance + (n - last) * (w.count + 1) }
    let w := text.foldl (Writer.pass n) w
    writeFrom text ns (n + 1) { w with distance := w.distance + 1 }

/-- A text in ASCII. -/
def encode (text : List Char) : List Char :=
  let basic := text.filter fun c => c.toNat < 0x80
  let others := (text.filter fun c => 0x80 ≤ c.toNat).map Char.toNat
  let numbers := (others.mergeSort (· ≤ ·)).eraseDups
  let head := if basic = [] then [] else basic ++ ['-']
  (writeFrom text numbers 0x80 ⟨head, 0, 72, basic.length, true⟩).output

/-- Reads a number: its weighted digits are added to `sum`. -/
def readDigits (bias : Nat) : List Char → Nat → Nat → Nat → Option (Nat × List Char)
  | [], _, _, _ => none
  | c :: rest, place, weight, sum =>
    match digitValue? c with
    | none => none
    | some d =>
      let t := threshold place bias
      if d < t then some (sum + d * weight, rest)
      else readDigits bias rest (place + 36) (weight * (36 - t)) (sum + d * weight)

theorem length_of_readDigits {bias : Nat} {text rest : List Char} {place weight sum n : Nat}
    (h : readDigits bias text place weight sum = some (n, rest)) : rest.length < text.length := by
  induction text generalizing place weight sum with
  | nil => simp [readDigits] at h
  | cons c text ih =>
    unfold readDigits at h
    split at h
    · cases h
    · simp only at h
      split at h
      · cases h
        simp
      · exact Nat.lt_succ_of_lt (ih h)

/-- Inserts the characters whose distances are written in the last argument. -/
def readFrom (output : List Char) (n bias sum : Nat) (first : Bool) (text : List Char) :
    Option (List Char) :=
  if text = [] then some output
  else
    match _h : readDigits bias text 36 1 sum with
    | none => none
    | some (total, rest) =>
      let count := output.length + 1
      let n := n + total / count
      if n.isValidChar then
        readFrom (output.insertIdx (total % count) (Char.ofNat n)) n
          (nextBias (total - sum) count first) (total % count + 1) false rest
      else
        none
termination_by text.length
decreasing_by exact length_of_readDigits _h

/-- The text that is written so in ASCII. -/
def decode? (text : List Char) : Option (List Char) :=
  let behind := (text.reverse.takeWhile (· ≠ '-')).reverse
  let before := text.take (text.length - behind.length - 1)
  readFrom before 0x80 72 0 true behind

end WorkflowCanvas.Url.Punycode
