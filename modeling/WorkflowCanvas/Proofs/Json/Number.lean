import WorkflowCanvas.Json.Shape.Reader
import WorkflowCanvas.Proofs.Decimal.Parts
import WorkflowCanvas.Proofs.Json.Scale

/-!
# Reading a written number

The text of a binary64 number is taken apart by the reader of JSON numbers: whole digits, a fraction
and an exponent.  `readUnsigned_parts` says what the reader makes of these parts in any layout, and
`readUnsigned_decimal` that for a decimal it arrives at the digits and the power of ten of
`Decimal.spelled`.  With the arithmetic of `scale_shortest` this gives `readNumber_realChars`: what
was written is read as `Binary64.reread`, and the reader stops behind it.
-/

namespace WorkflowCanvas.Json

open Decimal Decimal.Parts

/-! ## Runs of digits -/

/-- Nothing at the head of the input continues a run of digits. -/
def NoDigit (input : List Symbol) : Prop := ∀ s ∈ input.head?, digit? s = none

/-- Nothing at the head of the input continues a number. -/
def EndsNumber (input : List Symbol) : Prop :=
  ∀ s ∈ input.head?, digit? s = none ∧ s ≠ .char '.' ∧ s ≠ .char 'e' ∧ s ≠ .char 'E'

lemma EndsNumber.noDigit {input : List Symbol} (h : EndsNumber input) : NoDigit input :=
  fun s hs => (h s hs).1

lemma noDigit_cons {c : Char} {input : List Symbol} (h : digit? (.char c) = none) :
    NoDigit (.char c :: input) := by
  intro s hs
  obtain rfl := Option.some.inj hs
  exact h

lemma digit?_of_isDigit {c : Char} (h : c.isDigit = true) :
    digit? (.char c) = some (digitOf c) :=
  Decimal.digit?_of_isDigit h

lemma spanDigits_append {cs : List Char} {rest : List Symbol}
    (hcs : ∀ c ∈ cs, c.isDigit = true) (hrest : NoDigit rest) :
    spanDigits (cs.map .char ++ rest) = (cs.map digitOf, rest) := by
  induction cs with
  | nil =>
    cases rest with
    | nil => rfl
    | cons s rest =>
      have hs := hrest s rfl
      rw [List.map_nil, List.nil_append, spanDigits, hs]
      rfl
  | cons c cs ih =>
    have hc := digit?_of_isDigit (hcs c List.mem_cons_self)
    have hmore := ih fun x hx => hcs x (List.mem_cons_of_mem c hx)
    rw [List.map_cons, List.cons_append, spanDigits, hc]
    dsimp only
    rw [hmore]
    rfl

lemma le_ofDigitChars (cs : List Char) (whole : Nat) : whole ≤ Nat.ofDigitChars 10 cs whole := by
  rw [Nat.ofDigitChars_eq_ofDigitChars_zero]
  have hmul : whole ≤ 10 ^ cs.length * whole := Nat.le_mul_of_pos_left _ (by positivity)
  omega

/-- Digits that fit 64 bits are all taken. -/
lemma takeWhole_digits {cs : List Char} {whole : Nat}
    (hle : Nat.ofDigitChars 10 cs whole ≤ maxWhole) :
    takeWhole whole (cs.map digitOf) = (Nat.ofDigitChars 10 cs whole, []) := by
  induction cs generalizing whole with
  | nil => simp [takeWhole]
  | cons c cs ih =>
    have hstep : Nat.ofDigitChars 10 (c :: cs) whole =
        Nat.ofDigitChars 10 cs (whole * 10 + digitOf c) := by
      rw [Nat.ofDigitChars_cons, Nat.mul_comm 10 whole]
      rfl
    rw [hstep] at hle
    have hfits := Nat.le_trans (le_ofDigitChars cs _) hle
    rw [List.map_cons, takeWhole, if_pos hfits, ih hle, hstep]

lemma digitOf_eq_zero {c : Char} (h : c.isDigit = true) : digitOf c = 0 ↔ c = '0' := by
  have hrange : '0' ≤ c ∧ c ≤ '9' := by
    simpa [Char.isDigit, Char.le_def] using h
  have hle : '0'.toNat ≤ c.toNat := hrange.1
  constructor
  · intro hzero
    refine Char.toNat_inj.1 ?_
    unfold digitOf at hzero
    omega
  · rintro rfl
    rfl

lemma not_zero_cons {cs : List Char} (h : WholeDigits cs) {d : Nat} {ds : List Nat} :
    cs.map digitOf ≠ 0 :: d :: ds := by
  intro heq
  cases cs with
  | nil => cases heq
  | cons c cs =>
    have hzero : digitOf c = 0 := (List.cons.inj heq).1
    obtain rfl := (digitOf_eq_zero (h.isDigit c List.mem_cons_self)).1 hzero
    rcases h.lead with hone | hhead
    · cases cs with
      | nil => cases heq
      | cons c' cs => cases hone
    · exact hhead rfl

/-! ## The parts of a number -/

variable {negative : Bool} {rest : List Symbol}

/-- Whole digits before a point or an exponent. -/
lemma readUnsigned_digits {whole : List Char} (hwhole : WholeDigits whole)
    (hle : Nat.ofDigitChars 10 whole 0 ≤ maxWhole) {mark : Char}
    (hmark : mark = '.' ∨ mark = 'e') :
    readUnsigned negative (whole.map .char ++ .char mark :: rest) =
      if mark = '.' then readFraction negative (Nat.ofDigitChars 10 whole 0) 0 rest
      else readExponent negative (Nat.ofDigitChars 10 whole 0) 0 rest := by
  have hdigit : digit? (.char mark) = none := by
    rcases hmark with rfl | rfl <;> rfl
  have hspan : spanDigits (whole.map .char ++ .char mark :: rest) =
      (whole.map digitOf, .char mark :: rest) :=
    spanDigits_append hwhole.isDigit (noDigit_cons hdigit)
  unfold readUnsigned
  rw [hspan]
  dsimp only
  split
  · rename_i hnil
    exact absurd (List.map_eq_nil_iff.1 hnil) hwhole.ne_nil
  · rename_i hzero
    exact absurd hzero (not_zero_cons hwhole)
  · rw [takeWhole_digits hle]
    rcases hmark with rfl | rfl <;> rfl

lemma readUnsigned_point {whole : List Char} (hwhole : WholeDigits whole)
    (hle : Nat.ofDigitChars 10 whole 0 ≤ maxWhole) :
    readUnsigned negative (whole.map .char ++ .char '.' :: rest) =
      readFraction negative (Nat.ofDigitChars 10 whole 0) 0 rest :=
  readUnsigned_digits hwhole hle (.inl rfl)

lemma readUnsigned_exponent {whole : List Char} (hwhole : WholeDigits whole)
    (hle : Nat.ofDigitChars 10 whole 0 ≤ maxWhole) :
    readUnsigned negative (whole.map .char ++ .char 'e' :: rest) =
      readExponent negative (Nat.ofDigitChars 10 whole 0) 0 rest :=
  readUnsigned_digits hwhole hle (.inr rfl)

/-- The digits of a fraction go on where the whole digits stopped. -/
lemma readFraction_digits {fraction : List Char} {whole : Nat}
    (hdigits : ∀ c ∈ fraction, c.isDigit = true) (hne : fraction ≠ [])
    (hle : Nat.ofDigitChars 10 fraction whole ≤ maxWhole) (hrest : NoDigit rest) :
    readFraction negative whole 0 (fraction.map .char ++ rest) =
      readScale negative (Nat.ofDigitChars 10 fraction whole) (-fraction.length) rest := by
  have hspan := spanDigits_append hdigits hrest
  unfold readFraction
  rw [hspan]
  dsimp only
  split
  · rename_i hnil
    exact absurd (List.map_eq_nil_iff.1 hnil) hne
  · rw [takeWhole_digits hle]
    dsimp only
    congr 1
    rw [List.length_map, List.length_nil]
    omega

lemma readScale_end {whole : Nat} {exponent : Int} (hrest : EndsNumber rest) :
    readScale negative whole exponent rest =
      (realNumber negative whole exponent).map fun n => (n, rest) := by
  unfold readScale
  split
  · exact absurd rfl (hrest _ rfl).2.2.1
  · exact absurd rfl (hrest _ rfl).2.2.2
  · rfl

lemma readPower_digits {whole size : Nat} {exponent : Int} (down : Bool)
    (hrest : EndsNumber rest) (hsize : size ≤ maxExponent) :
    readPower negative whole exponent down ((Nat.toDigits 10 size).map .char ++ rest) =
      (realNumber negative whole (if down then exponent - size else exponent + size)).map
        fun n => (n, rest) := by
  have hspan := spanDigits_append (wholeDigits_toDigits size).isDigit hrest.noDigit
  have hvalue : ((Nat.toDigits 10 size).map digitOf).foldl (fun n d => n * 10 + d) 0 = size := by
    rw [foldl_digitOf, Nat.ofDigitChars_ten_toDigits]
  unfold readPower
  rw [hspan]
  dsimp only
  split
  · rename_i hnil
    exact absurd (List.map_eq_nil_iff.1 hnil) Nat.toDigits_ne_nil
  · rw [hvalue, if_neg (Nat.not_lt.2 hsize)]

/-- An exponent with its sign is counted onto the power of ten so far. -/
lemma readExponent_sign {whole : Nat} {exponent power : Int} (hrest : EndsNumber rest)
    (hpower : power.natAbs ≤ maxExponent) :
    readExponent negative whole exponent
        (.char (if power < 0 then '-' else '+') ::
          ((Nat.toDigits 10 power.natAbs).map .char ++ rest)) =
      (realNumber negative whole (exponent + power)).map fun n => (n, rest) := by
  by_cases hsign : power < 0
  · have hsum : exponent - power.natAbs = exponent + power := by omega
    rw [if_pos hsign, readExponent, readPower_digits true hrest hpower, if_pos rfl, hsum]
  · have hsum : exponent + power.natAbs = exponent + power := by omega
    rw [if_neg hsign, readExponent, readPower_digits false hrest hpower, if_neg (by decide), hsum]

/-- The reader takes parts for their digits and the power of ten of these. -/
lemma readUnsigned_parts {p : Parts} (hrest : EndsNumber rest) (hwhole : WholeDigits p.whole)
    (hdigits : ∀ c ∈ p.digitChars, c.isDigit = true) (hmark : p.fraction ≠ [] ∨ p.power ≠ none)
    (hfits : Nat.ofDigitChars 10 p.digitChars 0 ≤ maxWhole)
    (hpower : (p.power.getD 0).natAbs ≤ maxExponent) :
    readUnsigned negative (p.chars.map .char ++ rest) =
      (realNumber negative (Nat.ofDigitChars 10 p.digitChars 0) p.exponent).map
        fun n => (n, rest) := by
  obtain ⟨whole, fraction, power⟩ := p
  have hfraction : ∀ c ∈ fraction, c.isDigit = true := fun c hc =>
    hdigits c (List.mem_append_right _ hc)
  unfold Parts.digitChars at hfits ⊢
  rw [Nat.ofDigitChars_append] at hfits ⊢
  have hfront : Nat.ofDigitChars 10 whole 0 ≤ maxWhole :=
    Nat.le_trans (le_ofDigitChars fraction _) hfits
  unfold Parts.exponent
  dsimp only at hwhole ⊢
  cases power with
  | none =>
    have hne : fraction ≠ [] := hmark.resolve_right fun h => h rfl
    have htext : (chars ⟨whole, fraction, none⟩).map Symbol.char ++ rest =
        whole.map .char ++ .char '.' :: (fraction.map .char ++ rest) := by
      simp [chars, tailChars, hne]
    rw [htext, readUnsigned_point hwhole hfront,
      readFraction_digits hfraction hne hfits hrest.noDigit, readScale_end hrest, Option.getD_none,
      Int.zero_sub]
  | some power =>
    rw [Option.getD_some] at hpower ⊢
    by_cases hnone : fraction = []
    · subst hnone
      have htext : (chars ⟨whole, [], some power⟩).map Symbol.char ++ rest =
          whole.map .char ++ .char 'e' :: (.char (if power < 0 then '-' else '+') ::
            ((Nat.toDigits 10 power.natAbs).map .char ++ rest)) := by
        simp [chars, tailChars, powerChars]
      rw [htext, readUnsigned_exponent hwhole hfront, readExponent_sign hrest hpower,
        Nat.ofDigitChars_nil, List.length_nil, Int.zero_add, Int.natCast_zero,
        Int.sub_zero]
    · have htext : (chars ⟨whole, fraction, some power⟩).map Symbol.char ++ rest =
          whole.map .char ++ .char '.' :: (fraction.map .char ++ .char 'e' ::
            (.char (if power < 0 then '-' else '+') ::
              ((Nat.toDigits 10 power.natAbs).map .char ++ rest))) := by
        simp [chars, tailChars, powerChars, hnone]
      have hsum : -(fraction.length : Int) + power = power - fraction.length := by omega
      rw [htext, readUnsigned_point hwhole hfront,
        readFraction_digits hfraction hnone hfits (noDigit_cons rfl)]
      change readExponent negative _ (-fraction.length) _ = _
      rw [readExponent_sign hrest hpower, hsum]

/-! ## Decimals -/

/-- The spelling of a decimal that fits 64 bits fits them. -/
lemma spelled_digits_lt {d : Decimal} (hdigits : d.digits < 10 ^ 18) :
    d.spelled.digits < 10 ^ 18 := by
  unfold spelled
  split
  · rename_i hwhole
    have hlength : (Style.digitChars d).length + (d.exponent.toNat + 1) ≤ 17 := by
      have hle := hwhole.2
      unfold Style.leadingExponent at hle
      omega
    calc d.digits * 10 ^ (d.exponent.toNat + 1)
        < 10 ^ (Style.digitChars d).length * 10 ^ (d.exponent.toNat + 1) :=
          Nat.mul_lt_mul_of_pos_right (digits_lt_pow_length d) (by positivity)
      _ = 10 ^ ((Style.digitChars d).length + (d.exponent.toNat + 1)) := (pow_add ..).symm
      _ ≤ 10 ^ 17 := Nat.pow_le_pow_right (by decide) hlength
      _ < 10 ^ 18 := by decide
  · exact hdigits

/-- The parts of a decimal's text are those of its spelling, and no whole number is without a
point. -/
lemma exists_parts_spelled (d : Decimal) :
    ∃ (p : Parts) (zeros : Nat), numberStyle.decimalChars d = p.chars ∧ p.Spells d zeros ∧
      (p.fraction ≠ [] ∨ p.power ≠ none) ∧
      Nat.ofDigitChars 10 p.digitChars 0 = d.spelled.digits ∧
      p.exponent = d.spelled.exponent := by
  have hlength := length_digitChars_pos d
  change ∃ (p : Parts) (zeros : Nat), (if -5 ≤ Style.leadingExponent d ∧
    Style.leadingExponent d ≤ 15 then numberStyle.positionalChars d
    else Style.scientificChars d) = p.chars ∧ _
  unfold spelled
  by_cases hplain : -5 ≤ Style.leadingExponent d ∧ Style.leadingExponent d ≤ 15
  · obtain ⟨p, htext, hspells, hpoint⟩ := numberStyle.exists_parts_positional d
    have hvalue := hspells.value
    have hexponent := hspells.exponent_eq
    refine ⟨p, _, by rw [if_pos hplain, htext], hspells, .inl (hpoint rfl), ?_⟩
    unfold Style.zeros at hvalue hexponent
    by_cases hsign : 0 ≤ d.exponent
    · rw [if_pos ⟨hsign, hplain.2⟩]
      rw [if_pos hsign] at hvalue hexponent
      refine ⟨hvalue, hexponent.trans ?_⟩
      change d.exponent - (d.exponent.toNat + 1 : Nat) = -1
      omega
    · rw [if_neg fun h => hsign h.1]
      rw [if_neg hsign] at hvalue hexponent
      exact ⟨by rw [hvalue, Nat.pow_zero, Nat.mul_one], by rw [hexponent]; omega⟩
  · obtain ⟨p, htext, hspells, hpower⟩ := Style.exists_parts_scientific d
    have hspelled : ¬(0 ≤ d.exponent ∧ Style.leadingExponent d ≤ 15) := by
      unfold Style.leadingExponent at hplain ⊢
      omega
    rw [if_neg hplain, if_neg hspelled]
    exact ⟨p, 0, htext, hspells, .inr hpower,
      by rw [hspells.value, Nat.pow_zero, Nat.mul_one], by rw [hspells.exponent_eq]; omega⟩

/-- The reader takes a written decimal apart into the digits and the power of its spelling. -/
lemma readUnsigned_decimal {d : Decimal} (hrest : EndsNumber rest)
    (hlead : 0 < d.digits ∨ d.exponent = 0) (hdigits : d.digits < 10 ^ 18)
    (hlow : -345 ≤ d.exponent) (hhigh : d.exponent ≤ 308) :
    readUnsigned negative ((numberStyle.decimalChars d).map .char ++ rest) =
      (realNumber negative d.spelled.digits d.spelled.exponent).map fun n => (n, rest) := by
  obtain ⟨p, zeros, htext, hspells, hmark, hvalue, hexponent⟩ := exists_parts_spelled d
  have hfits : Nat.ofDigitChars 10 p.digitChars 0 ≤ maxWhole := by
    have hlt := spelled_digits_lt hdigits
    have hmax : maxWhole = 18446744073709551615 := rfl
    omega
  have hpower : (p.power.getD 0).natAbs ≤ maxExponent := by
    have hmax : maxExponent = 2147483647 := rfl
    have hlength := length_digitChars_le hdigits
    rcases hspells.power with h | h
    · omega
    · rw [h, Style.leadingExponent]
      omega
  rw [htext, readUnsigned_parts hrest (hspells.wholeDigits hlead) hspells.isDigit hmark hfits hpower,
    hvalue, hexponent]

/-! ## Written numbers -/

lemma realNumber_shortest (m : Magnitude) :
    realNumber negative (m.shortest .toEven).spelled.digits (m.shortest .toEven).spelled.exponent =
      .ok (.real (Binary64.finite negative m).reread) := by
  rw [realNumber, scale_shortest]
  rfl

/-- The digits of a magnitude are read as its twice rounded value. -/
lemma readUnsigned_magnitude (negative : Bool) (m : Magnitude) (hrest : EndsNumber rest) :
    readUnsigned negative
        ((numberStyle.decimalChars (m.shortest .toEven)).map .char ++ rest) =
      .ok (.real (Binary64.finite negative m).reread, rest) := by
  by_cases hzero : m.significand = 0
  · have hshortest : m.shortest .toEven = ⟨0, 0⟩ := by rw [Magnitude.shortest, if_pos hzero]
    rw [readUnsigned_decimal hrest (by rw [hshortest]; exact .inr rfl)
      (by rw [hshortest]; decide) (by rw [hshortest]; decide) (by rw [hshortest]; decide),
      realNumber_shortest]
    rfl
  · have hinside := Magnitude.shortest_inside .toEven hzero
    rw [readUnsigned_decimal hrest (.inl hinside.digits_pos) hinside.digits_lt
      hinside.le_exponent hinside.exponent_le, realNumber_shortest]
    rfl

/-- What a number's text begins with, a minus sign or a digit. -/
def startsNumber (c : Char) : Bool := c == '-' || c.isDigit

lemma realChars_eq_cons {x : Binary64} (hx : x.isFinite = true) :
    ∃ c cs, realChars x = c :: cs ∧ startsNumber c = true := by
  obtain ⟨negative, m, rfl⟩ := Binary64.isFinite_iff.1 hx
  obtain ⟨c, cs, hcs, hc⟩ := numberStyle.decimalChars_eq_cons (m.shortest .toEven)
  unfold realChars Binary64.renderChars
  rw [if_pos hx]
  change ∃ c cs, (if negative then ['-'] else []) ++
    numberStyle.decimalChars (m.shortest .toEven) = c :: cs ∧ _
  cases negative with
  | true => exact ⟨'-', _, rfl, rfl⟩
  | false => exact ⟨c, cs, hcs, by rw [startsNumber, hc, Bool.or_true]⟩

/-- A written number is read, and reading stops behind it. -/
lemma readNumber_realChars {x : Binary64} (hx : x.isFinite = true) (hrest : EndsNumber rest) :
    readNumber ((realChars x).map .char ++ rest) = .ok (.real x.reread, rest) := by
  obtain ⟨negative, m, rfl⟩ := Binary64.isFinite_iff.1 hx
  have hread := readUnsigned_magnitude negative m hrest
  have htext : realChars (.finite negative m) = (if negative then ['-'] else []) ++
      numberStyle.decimalChars (m.shortest .toEven) := if_pos hx
  rw [htext]
  cases negative with
  | true => exact hread
  | false =>
    obtain ⟨c, cs, hcs, hc⟩ := numberStyle.decimalChars_eq_cons (m.shortest .toEven)
    rw [if_neg (by decide), List.nil_append]
    rw [hcs] at hread ⊢
    unfold readNumber
    split
    · rename_i heq
      obtain rfl := Symbol.char.inj (List.cons.inj heq).1
      cases hc
    · exact hread

end WorkflowCanvas.Json
