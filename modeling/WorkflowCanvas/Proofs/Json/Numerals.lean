import WorkflowCanvas.Proofs.Json.Phrase

/-!
# Numbers by their spelling

What the reader makes of a number is settled by its characters (`numberOf`), provided that nothing
behind it continues it: the binary64 number it arrives at, or a failure if the number is out of
range.  The skipper does not ask for a value and skips every number (`Number.skipNumber_eq`).
-/

namespace WorkflowCanvas.Json

open Grammar

/-! ## Numbers -/

section Numbers

variable {negative : Bool} {rest : List Symbol}

/-- Whatever may stand behind the text, the reader makes this of it and stops there. -/
def Answers (read : List Symbol → Scan Number) (text : List Char) : Prop :=
  ∃ answer : Except Error Number, ∀ rest, EndsNumber rest →
    read (text.map .char ++ rest) = answer.map (·, rest)

lemma noDigit_power {text : List Char} {power : Int} (h : Power text power)
    (hrest : EndsNumber rest) : NoDigit (text.map .char ++ rest) := by
  cases h with
  | none => exact hrest.noDigit
  | some marked _ _ => rcases marked with rfl | rfl <;> exact noDigit_cons rfl

lemma answers_readPower {digits : List Char} (h : Digits digits) (whole : Nat) (exponent : Int)
    (down : Bool) : Answers (readPower negative whole exponent down) digits := by
  obtain ⟨c, cs, rfl⟩ := List.exists_cons_of_ne_nil h.ne_nil
  let size := ((c :: cs).map Decimal.digitOf).foldl (fun n d => n * 10 + d) 0
  refine ⟨if maxExponent < size then
      if whole ≠ 0 ∧ !down then .error .numberOutOfRange else .ok (.real (.finite negative .zero))
    else realNumber negative whole (if down then exponent - size else exponent + size),
    fun rest hrest => ?_⟩
  unfold readPower
  rw [spanDigits_append h.isDigit hrest.noDigit]
  dsimp only [List.map_cons]
  split_ifs <;> rfl

lemma answers_readExponent {sign digits : List Char}
    (signed : sign = [] ∨ sign = ['+'] ∨ sign = ['-']) (h : Digits digits) (whole : Nat)
    (exponent : Int) : Answers (readExponent negative whole exponent) (sign ++ digits) := by
  rcases signed with rfl | rfl | rfl
  · have hpower : Answers (readPower negative whole exponent false) digits :=
      answers_readPower h whole exponent false
    obtain ⟨answer, hanswer⟩ := hpower
    refine ⟨answer, fun rest hrest => ?_⟩
    rw [List.nil_append, ← hanswer rest hrest]
    obtain ⟨c, cs, rfl⟩ := List.exists_cons_of_ne_nil h.ne_nil
    have hc := isSign_of_isDigit (h.isDigit c List.mem_cons_self)
    unfold readExponent
    split
    · rename_i heq
      obtain rfl := Symbol.char.inj (List.cons.inj heq).1
      cases hc
    · rename_i heq
      obtain rfl := Symbol.char.inj (List.cons.inj heq).1
      cases hc
    · rfl
  · exact answers_readPower h whole exponent false
  · exact answers_readPower h whole exponent true

lemma answers_readScale {text : List Char} {power : Int} (h : Power text power) (whole : Nat)
    (exponent : Int) : Answers (readScale negative whole exponent) text := by
  cases h with
  | none => exact ⟨_, fun rest hrest => readScale_end hrest⟩
  | some marked signed all =>
    rcases marked with rfl | rfl <;> exact answers_readExponent signed all whole exponent

lemma answers_readFraction {digits text : List Char} {power : Int} (h : Digits digits)
    (hpower : Power text power) (whole : Nat) (exponent : Int) :
    Answers (readFraction negative whole exponent) (digits ++ text) := by
  obtain ⟨c, cs, rfl⟩ := List.exists_cons_of_ne_nil h.ne_nil
  let taken := takeWhole whole ((c :: cs).map Decimal.digitOf)
  have hscale : Answers (readScale negative taken.1
      (exponent - (((c :: cs).map Decimal.digitOf).length - taken.2.length))) text :=
    answers_readScale hpower _ _
  obtain ⟨answer, hanswer⟩ := hscale
  refine ⟨answer, fun rest hrest => ?_⟩
  rw [← hanswer rest hrest, List.map_append, List.append_assoc]
  unfold readFraction
  rw [spanDigits_append h.isDigit (noDigit_power hpower hrest)]
  rfl

/-- Reads what stands behind the whole digits of a number. -/
def readBehind (negative : Bool) (digits : List Nat) (input : List Symbol) : Scan Number :=
  match input with
  | .char '.' :: rest =>
    readFraction negative (takeWhole 0 digits).1 (takeWhole 0 digits).2.length rest
  | .char 'e' :: _ | .char 'E' :: _ =>
    readScale negative (takeWhole 0 digits).1 (takeWhole 0 digits).2.length input
  | _ =>
    if (takeWhole 0 digits).2 = [] then .ok (wholeNumber negative (takeWhole 0 digits).1, input)
    else readScale negative (takeWhole 0 digits).1 (takeWhole 0 digits).2.length input

lemma readUnsigned_append {whole : List Char} (h : Decimal.WholeDigits whole)
    (hrest : NoDigit rest) : readUnsigned negative (whole.map .char ++ rest) =
      readBehind negative (whole.map Decimal.digitOf) rest := by
  unfold readUnsigned
  rw [spanDigits_append h.isDigit hrest]
  dsimp only
  split
  · rename_i hnil
    exact absurd (List.map_eq_nil_iff.1 hnil) h.ne_nil
  · rename_i hzero
    exact absurd hzero (not_zero_cons h)
  · rfl

lemma readBehind_end (digits : List Nat) (hrest : EndsNumber rest) :
    readBehind negative digits rest =
      (if (takeWhole 0 digits).2 = [] then .ok (wholeNumber negative (takeWhole 0 digits).1)
        else realNumber negative (takeWhole 0 digits).1 (takeWhole 0 digits).2.length).map
          fun n => (n, rest) := by
  unfold readBehind
  split
  · exact absurd rfl (hrest _ rfl).2.1
  · exact absurd rfl (hrest _ rfl).2.2.1
  · exact absurd rfl (hrest _ rfl).2.2.2
  · split
    · rfl
    · exact readScale_end hrest

lemma answers_readBehind {fractionText fraction powerText : List Char} {power : Int}
    (hfraction : Fraction fractionText fraction) (hpower : Power powerText power)
    (digits : List Nat) : Answers (readBehind negative digits) (fractionText ++ powerText) := by
  cases hfraction with
  | some all => exact answers_readFraction all hpower _ _
  | none =>
    cases hpower with
    | none => exact ⟨_, fun rest hrest => readBehind_end digits hrest⟩
    | some marked signed all =>
      rcases marked with rfl | rfl <;> exact answers_readExponent signed all _ _

lemma noDigit_fraction {fractionText fraction powerText : List Char} {power : Int}
    (hfraction : Fraction fractionText fraction) (hpower : Power powerText power)
    (hrest : EndsNumber rest) : NoDigit ((fractionText ++ powerText).map .char ++ rest) := by
  cases hfraction with
  | none => exact noDigit_power hpower hrest
  | some => exact noDigit_cons rfl

lemma answers_readUnsigned {whole fractionText fraction powerText : List Char} {power : Int}
    (hwhole : Decimal.WholeDigits whole) (hfraction : Fraction fractionText fraction)
    (hpower : Power powerText power) :
    Answers (readUnsigned negative) (whole ++ (fractionText ++ powerText)) := by
  have hbehind : Answers (readBehind negative (whole.map Decimal.digitOf)) _ :=
    answers_readBehind hfraction hpower _
  obtain ⟨answer, hanswer⟩ := hbehind
  refine ⟨answer, fun rest hrest => ?_⟩
  rw [List.map_append, List.append_assoc,
    readUnsigned_append hwhole (noDigit_fraction hfraction hpower hrest), hanswer rest hrest]

/-- What is made of a number does not depend on what stands behind it. -/
lemma answers_readNumber {cs : List Char} {numeral : Numeral} (h : Grammar.Number cs numeral) :
    Answers readNumber cs := by
  obtain ⟨signed, hwhole, hfraction, hpower⟩ := h
  rcases signed with rfl | rfl
  · obtain ⟨answer, hanswer⟩ := answers_readUnsigned hwhole hfraction hpower
    refine ⟨answer, fun rest hrest => ?_⟩
    rw [List.nil_append, ← hanswer rest hrest]
    obtain ⟨c, cs, rfl⟩ := List.exists_cons_of_ne_nil hwhole.ne_nil
    have hc := hwhole.isDigit c List.mem_cons_self
    unfold readNumber
    split
    · rename_i heq
      obtain rfl := Symbol.char.inj (List.cons.inj heq).1
      cases hc
    · rfl
  · have hunsigned : Answers (readUnsigned true) _ :=
      answers_readUnsigned hwhole hfraction hpower
    obtain ⟨answer, hanswer⟩ := hunsigned
    exact ⟨answer, hanswer⟩

/-- A number as binary64, if it is in range. -/
def numberOf (cs : List Char) : Option Binary64 :=
  (readNumber (cs.map .char)).toOption.map (·.1.toBinary64)

lemma Grammar.Number.readNumber_eq {cs : List Char} {numeral : Numeral}
    (h : Grammar.Number cs numeral) (hrest : EndsNumber rest) :
    ((readNumber (cs.map .char ++ rest)).map fun p => (p.1.toBinary64, p.2)).toOption =
      (numberOf cs).map (·, rest) := by
  obtain ⟨answer, hanswer⟩ := answers_readNumber h
  have halone := hanswer [] fun s hs => nomatch hs
  rw [List.append_nil] at halone
  rw [numberOf, halone, hanswer rest hrest]
  cases answer <;> rfl

end Numbers

/-! ## Skipped numbers -/

section Skipped

variable {rest : List Symbol}

/-- The symbols behind a sign, if there is one. -/
def afterSign (input : List Symbol) : List Symbol :=
  match input with
  | .char '+' :: rest | .char '-' :: rest => rest
  | _ => input

lemma afterSign_digits {sign digits : List Char}
    (signed : sign = [] ∨ sign = ['+'] ∨ sign = ['-']) (h : Digits digits) :
    afterSign ((sign ++ digits).map .char ++ rest) = digits.map .char ++ rest := by
  rcases signed with rfl | rfl | rfl
  · obtain ⟨c, cs, rfl⟩ := List.exists_cons_of_ne_nil h.ne_nil
    have hc := isSign_of_isDigit (h.isDigit c List.mem_cons_self)
    unfold afterSign
    split
    · rename_i heq
      obtain rfl := Symbol.char.inj (List.cons.inj heq).1
      cases hc
    · rename_i heq
      obtain rfl := Symbol.char.inj (List.cons.inj heq).1
      cases hc
    · rfl
  · rfl
  · rfl

/-- Skips digits, one at least. -/
def skipDigits (input : List Symbol) : Except Error (List Symbol) :=
  match spanDigits input with
  | ([], _) => .error .badNumber
  | (_, rest) => .ok rest

lemma skipDigits_append {digits : List Char} (h : Digits digits) (hrest : NoDigit rest) :
    skipDigits (digits.map .char ++ rest) = .ok rest := by
  obtain ⟨c, cs, rfl⟩ := List.exists_cons_of_ne_nil h.ne_nil
  rw [skipDigits, spanDigits_append h.isDigit hrest]
  rfl

lemma skipScale_end (hrest : EndsNumber rest) : skipScale rest = .ok rest := by
  unfold skipScale
  split
  · exact absurd rfl (hrest _ rfl).2.2.1
  · exact absurd rfl (hrest _ rfl).2.2.2
  · rfl

lemma skipScale_power {text : List Char} {power : Int} (h : Power text power)
    (hrest : EndsNumber rest) : skipScale (text.map .char ++ rest) = .ok rest := by
  cases h with
  | none => exact skipScale_end hrest
  | some marked signed all =>
    -- the power itself is skipped as its sign and its digits
    have hskip := (congrArg skipDigits (afterSign_digits signed all)).trans
      (skipDigits_append all hrest.noDigit)
    rcases marked with rfl | rfl <;> exact hskip

/-- Skips what stands behind the whole digits of a number. -/
def skipBehind (input : List Symbol) : Except Error (List Symbol) :=
  match input with
  | .char '.' :: rest => skipDigits rest >>= skipScale
  | _ => skipScale input

lemma skipBehind_of_ne {input : List Symbol} (h : ∀ rest, input ≠ .char '.' :: rest) :
    skipBehind input = skipScale input := by
  unfold skipBehind
  split
  · exact absurd rfl (h _)
  · rfl

lemma skipBehind_eq {fractionText fraction powerText : List Char} {power : Int}
    (hfraction : Fraction fractionText fraction) (hpower : Power powerText power)
    (hrest : EndsNumber rest) :
    skipBehind ((fractionText ++ powerText).map .char ++ rest) = .ok rest := by
  cases hfraction with
  | some all =>
    have hdigits := skipDigits_append all (noDigit_power hpower hrest)
    rw [List.map_append, List.append_assoc, List.map_cons, List.cons_append]
    change Except.bind (skipDigits (_ ++ _)) skipScale = _
    rw [hdigits]
    exact skipScale_power hpower hrest
  | none =>
    refine (skipBehind_of_ne fun more heq => ?_).trans (skipScale_power hpower hrest)
    cases hpower with
    | none => exact (hrest (.char '.') (congrArg List.head? heq)).2.1 rfl
    | some marked _ _ => rcases marked with rfl | rfl <;> cases (List.cons.inj heq).1

lemma skipUnsigned_append {whole : List Char} (h : Decimal.WholeDigits whole)
    (hrest : NoDigit rest) : skipUnsigned (whole.map .char ++ rest) = skipBehind rest := by
  unfold skipUnsigned
  rw [spanDigits_append h.isDigit hrest]
  split
  · rename_i heq
    exact absurd (List.map_eq_nil_iff.1 (Prod.mk.inj heq).1) h.ne_nil
  · rename_i heq
    exact absurd (Prod.mk.inj heq).1 (not_zero_cons h)
  · rename_i heq
    obtain ⟨-, rfl⟩ := Prod.mk.inj heq
    change _ = Except.bind (skipDigits _) skipScale
    unfold skipDigits
    cases spanDigits _ with | mk digits rest => cases digits <;> rfl
  · rename_i hpoint heq
    obtain ⟨-, rfl⟩ := Prod.mk.inj heq
    exact (skipBehind_of_ne hpoint).symm

/-- Every number is skipped, also one that is out of range. -/
lemma Grammar.Number.skipNumber_eq {cs : List Char} {numeral : Numeral}
    (h : Grammar.Number cs numeral) (hrest : EndsNumber rest) :
    skipNumber (cs.map .char ++ rest) = .ok rest := by
  obtain ⟨signed, hwhole, hfraction, hpower⟩ := h
  have hunsigned := (skipUnsigned_append hwhole (noDigit_fraction hfraction hpower hrest)).trans
    (skipBehind_eq hfraction hpower hrest)
  rw [← List.append_assoc, ← List.map_append] at hunsigned
  rcases signed with rfl | rfl
  · obtain ⟨c, cs, rfl⟩ := List.exists_cons_of_ne_nil hwhole.ne_nil
    have hc := hwhole.isDigit c List.mem_cons_self
    unfold skipNumber
    split
    · rename_i heq
      obtain rfl := Symbol.char.inj (List.cons.inj heq).1
      cases hc
    · exact hunsigned
  · exact hunsigned

end Skipped

end WorkflowCanvas.Json
