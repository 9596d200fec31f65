import WorkflowCanvas.Proofs.Json.Determined
import WorkflowCanvas.Proofs.Json.Grammar

/-!
# A text says one thing

The rules of the JSON grammar are unambiguous: a text says one thing at most
(`Grammar.Element.unique`).  So there are readers that follow the grammar (`Grammar.exists_follows`)
and all of them make the same of a text.

Inside a longer text each thing is settled, which means that it is what its characters say and that
it ends in one place (`Grammar.Settled`).  Space, digits and numbers end where another sort of
characters begins, a text between quotes ends at its quote, and the first character of a value tells
which rule it is by.
-/

namespace WorkflowCanvas.Json

/-- A fact about all values, by recursion into lists and objects. -/
theorem Datum.induct {motive : Datum → Prop} (null : motive .null)
    (flag : ∀ value, motive (.flag value)) (number : ∀ numeral, motive (.number numeral))
    (text : ∀ value, motive (.text value))
    (list : ∀ items, (∀ d ∈ items, motive d) → motive (.list items))
    (object : ∀ members, (∀ m ∈ members, motive m.2) → motive (.object members)) :
    ∀ d, motive d
  | .null => null
  | .flag value => flag value
  | .number numeral => number numeral
  | .text value => text value
  | .list items => list items fun d _ => induct null flag number text list object d
  | .object members => object members fun m hm => by
    have hlt := List.sizeOf_lt_of_mem hm
    have hmember : sizeOf m = 1 + sizeOf m.1 + sizeOf m.2 := rfl
    exact induct null flag number text list object m.2

namespace Grammar

/-! ## Where tokens end -/

/-- The text does not begin with such a character. -/
def Stops (p : Char → Bool) (rest : List Char) : Prop := ∀ c ∈ rest.head?, p c = false

section Spans

variable {p : Char → Bool} {cs cs' rest rest' : List Char}

lemma stops_nil (p : Char → Bool) : Stops p [] := fun _ hc => nomatch hc

lemma stops_cons {c : Char} (hc : p c = false) (cs : List Char) : Stops p (c :: cs) := by
  intro c' hc'
  obtain rfl := Option.some.inj hc'
  exact hc

lemma takeWhile_of_stops (hcs : ∀ c ∈ cs, p c = true) (hrest : Stops p rest) :
    (cs ++ rest).takeWhile p = cs := by
  rw [List.takeWhile_append_of_pos hcs]
  cases rest with
  | nil => exact List.append_nil cs
  | cons c rest => rw [List.takeWhile_cons_of_neg (by simp [hrest c rfl]), List.append_nil]

/-- A run of characters ends where none follows. -/
lemma span_inj (hcs : ∀ c ∈ cs, p c = true) (hcs' : ∀ c ∈ cs', p c = true) (hrest : Stops p rest)
    (hrest' : Stops p rest') (h : cs ++ rest = cs' ++ rest') : cs = cs' ∧ rest = rest' := by
  have heq : cs = cs' := by
    rw [← takeWhile_of_stops hcs hrest, h, takeWhile_of_stops hcs' hrest']
  subst heq
  exact ⟨rfl, List.append_cancel_left h⟩

lemma Blank.stops {blank : List Char} (hblank : Blank blank)
    (hp : ∀ c, isBlank c = true → p c = false) (hrest : Stops p rest) :
    Stops p (blank ++ rest) := by
  cases blank with
  | nil => exact hrest
  | cons c blank => exact stops_cons (hp c (hblank c List.mem_cons_self)) _

/-- Space ends where a token begins. -/
lemma blank_inj {blank blank' : List Char} (hblank : Blank blank) (hblank' : Blank blank')
    (hrest : Stops isBlank rest) (hrest' : Stops isBlank rest')
    (h : blank ++ rest = blank' ++ rest') : rest = rest' :=
  (span_inj hblank hblank' hrest hrest' h).2

end Spans

/-! ## Texts say one thing -/

variable {rest rest' : List Char}

lemma CodeUnit.unique {digits digits' : List Char} {value value' : Nat}
    (h : CodeUnit digits value) (h' : CodeUnit digits' value')
    (heq : digits ++ rest = digits' ++ rest') : value = value' ∧ rest = rest' := by
  obtain ⟨rfl, hends⟩ := List.append_inj heq (h.1.trans h'.1.symm)
  exact ⟨Option.some.inj (h.2.symm.trans h'.2), hends⟩

/-- No character is a surrogate. -/
lemma not_surrogate (c : Char) {high : Nat} (hlt : high < 0x400) : c.toNat ≠ 0xD800 + high := by
  have hvalid : c.toNat < 0xD800 ∨ 0xDFFF < c.toNat ∧ c.toNat < 0x110000 := c.valid
  omega

/-- An escape of four digits is none of a letter, and a leading surrogate is no character. -/
lemma Escape.unique {cs cs' : List Char} {c c' : Char} (h : Escape cs c) (h' : Escape cs' c')
    (heq : cs ++ rest = cs' ++ rest') : c = c' ∧ rest = rest' := by
  have hfunction : ∀ e ∈ shortEscapes, ∀ e' ∈ shortEscapes, e.1 = e'.1 → e.2 = e'.2 := by
    decide
  have hletter : ∀ e ∈ shortEscapes, e.1 ≠ 'u' := by
    decide
  cases h with
  | short hlisted =>
    cases h' with
    | short hlisted' =>
      exact ⟨hfunction _ hlisted _ hlisted' (List.cons.inj heq).1, (List.cons.inj heq).2⟩
    | _ => exact absurd (List.cons.inj heq).1 (hletter _ hlisted)
  | unit hcodes =>
    cases h' with
    | short hlisted' => exact absurd (List.cons.inj heq).1.symm (hletter _ hlisted')
    | unit hcodes' =>
      obtain ⟨hvalue, hends⟩ := hcodes.unique hcodes' (List.cons.inj heq).2
      exact ⟨Char.toNat_inj.1 hvalue, hends⟩
    | pair hleads' hhigh' _ _ _ =>
      rw [List.cons_append, List.cons_append, List.append_assoc] at heq
      exact absurd (hcodes.unique hleads' (List.cons.inj heq).2).1 (not_surrogate c hhigh')
  | pair hleads hhigh htrails _ hvalue =>
    cases h' with
    | short hlisted' => exact absurd (List.cons.inj heq).1.symm (hletter _ hlisted')
    | unit hcodes' =>
      rw [List.cons_append, List.cons_append, List.append_assoc] at heq
      exact absurd (hleads.unique hcodes' (List.cons.inj heq).2).1.symm (not_surrogate c' hhigh)
    | pair hleads' _ htrails' _ hvalue' =>
      rw [List.cons_append, List.cons_append, List.append_assoc, List.append_assoc] at heq
      obtain ⟨hhigh, hmore⟩ := hleads.unique hleads' (List.cons.inj heq).2
      obtain ⟨hlow, hends⟩ := htrails.unique htrails' (List.cons.inj (List.cons.inj hmore).2).2
      refine ⟨Char.toNat_inj.1 ?_, hends⟩
      omega

lemma Piece.unique {piece piece' : List Char} {c c' : Char} (h : Piece piece c)
    (h' : Piece piece' c') (heq : piece ++ rest = piece' ++ rest') : c = c' ∧ rest = rest' := by
  obtain ⟨hhead, hmore⟩ :
      piece.head? = piece'.head? ∧ piece.tail ++ rest = piece'.tail ++ rest' := by
    cases h <;> cases h' <;> exact ⟨congrArg some (List.cons.inj heq).1, (List.cons.inj heq).2⟩
  cases h with
  | plain _ _ hne =>
    cases h' with
    | plain => exact ⟨Option.some.inj hhead, hmore⟩
    | escape => exact absurd (Option.some.inj hhead) hne
  | escape behind =>
    cases h' with
    | plain _ _ hne => exact absurd (Option.some.inj hhead).symm hne
    | escape behind' => exact behind.unique behind' hmore

lemma Piece.ne_quote {piece : List Char} {c : Char} (h : Piece piece c) :
    piece ++ rest ≠ '"' :: rest' := by
  intro heq
  cases h with
  | plain _ hne _ => exact hne (List.cons.inj heq).1
  | escape => cases (List.cons.inj heq).1

lemma Spelling.unique {cs cs' characters characters' : List Char} (h : Spelling cs characters)
    (h' : Spelling cs' characters') (heq : cs ++ '"' :: rest = cs' ++ '"' :: rest') :
    characters = characters' ∧ rest = rest' := by
  induction h generalizing cs' characters' with
  | nil =>
    cases h' with
    | nil => exact ⟨rfl, (List.cons.inj heq).2⟩
    | cons first' _ =>
      rw [List.append_assoc] at heq
      exact absurd heq.symm first'.ne_quote
  | cons first _ ih =>
    cases h' with
    | nil =>
      rw [List.append_assoc] at heq
      exact absurd heq first.ne_quote
    | cons first' others' =>
      rw [List.append_assoc, List.append_assoc] at heq
      obtain ⟨rfl, hmore⟩ := first.unique first' heq
      obtain ⟨rfl, hends⟩ := ih others' hmore
      exact ⟨rfl, hends⟩

lemma quoted_unique {cs cs' : List Char} {s s' : String} (h : Spelling cs s.toList)
    (h' : Spelling cs' s'.toList) (heq : quoted cs ++ rest = quoted cs' ++ rest') :
    s = s' ∧ rest = rest' := by
  have hinside : cs ++ '"' :: rest = cs' ++ '"' :: rest' := by
    simpa [quoted] using heq
  obtain ⟨hcharacters, hends⟩ := h.unique h' hinside
  exact ⟨String.toList_inj.1 hcharacters, hends⟩

/-! ## Numbers say one thing -/

/-- The characters that a number consists of. -/
def isNumeric (c : Char) : Bool :=
  c.isDigit || c == '-' || c == '+' || c == '.' || c == 'e' || c == 'E'

/-- What can be a sign. -/
def isSign (c : Char) : Bool := c == '-' || c == '+'

lemma isNumeric_of_isDigit {c : Char} (h : c.isDigit = true) : isNumeric c = true := by
  simp [isNumeric, h]

lemma isNumeric_of_isSign {c : Char} (h : isSign c = true) : isNumeric c = true := by
  have hcases : c = '-' ∨ c = '+' := by simpa [isSign] using h
  rcases hcases with rfl | rfl <;> rfl

lemma isSign_of_isDigit {c : Char} (h : c.isDigit = true) : isSign c = false := by
  have hminus : c ≠ '-' := by
    rintro rfl
    cases h
  have hplus : c ≠ '+' := by
    rintro rfl
    cases h
  simp [isSign, hminus, hplus]

lemma stops_isSign {digits : List Char} (h : ∀ c ∈ digits, c.isDigit = true) (hne : digits ≠ [])
    (rest : List Char) : Stops isSign (digits ++ rest) := by
  obtain ⟨c, cs, rfl⟩ := List.exists_cons_of_ne_nil hne
  exact stops_cons (isSign_of_isDigit (h c List.mem_cons_self)) _

lemma all_isSign {sign : List Char} (h : sign = [] ∨ sign = ['+'] ∨ sign = ['-']) :
    ∀ c ∈ sign, isSign c = true := by
  rcases h with rfl | rfl | rfl
  · exact List.forall_mem_nil _
  · exact List.forall_mem_singleton.2 rfl
  · exact List.forall_mem_singleton.2 rfl

lemma Power.stops_isDigit {cs : List Char} {power : Int} (h : Power cs power) :
    Stops Char.isDigit cs := by
  cases h with
  | none => exact stops_nil _
  | some marked _ _ => rcases marked with rfl | rfl <;> exact stops_cons rfl _

lemma Power.ne_point {cs more : List Char} {power : Int} (h : Power cs power) :
    cs ≠ '.' :: more := by
  intro heq
  cases h with
  | none => cases heq
  | some marked _ _ => rcases marked with rfl | rfl <;> cases (List.cons.inj heq).1

lemma Power.unique {cs : List Char} {power power' : Int} (h : Power cs power)
    (h' : Power cs power') : power = power' := by
  generalize heq : cs = cs' at h'
  cases h with
  | none =>
    cases h' with
    | none => rfl
    | some => cases heq
  | @some mark sign digits _ signed all =>
    cases h' with
    | none => cases heq
    | @some mark' sign' digits' _ signed' all' =>
      have hsigns := stops_isSign all.isDigit all.ne_nil []
      have hsigns' := stops_isSign all'.isDigit all'.ne_nil []
      rw [List.append_nil] at hsigns hsigns'
      obtain ⟨rfl, rfl⟩ := span_inj (all_isSign signed) (all_isSign signed') hsigns hsigns'
        (List.cons.inj heq).2
      rfl

/-- A fraction ends where its digits end, and without one a number goes on with no point. -/
lemma Fraction.unique {cs cs' digits digits' powerText powerText' : List Char}
    {power power' : Int} (h : Fraction cs digits) (h' : Fraction cs' digits')
    (hpower : Power powerText power) (hpower' : Power powerText' power')
    (heq : cs ++ powerText = cs' ++ powerText') :
    digits = digits' ∧ powerText = powerText' := by
  cases h with
  | none =>
    cases h' with
    | none => exact ⟨rfl, heq⟩
    | some => exact absurd heq hpower.ne_point
  | some all =>
    cases h' with
    | none => exact absurd heq.symm hpower'.ne_point
    | some all' =>
      exact span_inj all.isDigit all'.isDigit hpower.stops_isDigit hpower'.stops_isDigit
        (List.cons.inj heq).2

lemma Fraction.stops_isDigit {cs digits powerText : List Char} {power : Int}
    (h : Fraction cs digits) (hpower : Power powerText power) :
    Stops Char.isDigit (cs ++ powerText) := by
  cases h with
  | none => exact hpower.stops_isDigit
  | some => exact stops_cons rfl _

lemma Number.isNumeric {cs : List Char} {numeral : Numeral} (h : Number cs numeral) :
    ∀ c ∈ cs, isNumeric c = true := by
  obtain ⟨signed, digits, behindPoint, behindLetter⟩ := h
  refine List.forall_mem_append.2
    ⟨fun c hc => isNumeric_of_isSign (all_isSign (signed.imp_right .inr) c hc), ?_⟩
  refine List.forall_mem_append.2 ⟨fun c hc => isNumeric_of_isDigit (digits.isDigit c hc), ?_⟩
  refine List.forall_mem_append.2 ⟨?_, ?_⟩
  · cases behindPoint with
    | none => exact List.forall_mem_nil _
    | some all =>
      exact List.forall_mem_cons.2 ⟨rfl, fun c hc => isNumeric_of_isDigit (all.isDigit c hc)⟩
  · cases behindLetter with
    | none => exact List.forall_mem_nil _
    | some marked signed' all =>
      refine List.forall_mem_cons.2 ⟨by rcases marked with rfl | rfl <;> rfl, ?_⟩
      exact List.forall_mem_append.2
        ⟨fun c hc => isNumeric_of_isSign (all_isSign signed' c hc),
          fun c hc => isNumeric_of_isDigit (all.isDigit c hc)⟩

lemma Number.exists_cons {cs : List Char} {numeral : Numeral} (h : Number cs numeral) :
    ∃ c more, cs = c :: more ∧ startsNumber c = true := by
  obtain ⟨signed, digits, -, -⟩ := h
  rcases signed with rfl | rfl
  · obtain ⟨c, more, hwhole⟩ := List.exists_cons_of_ne_nil digits.ne_nil
    have hc := digits.isDigit c (by rw [hwhole]; exact List.mem_cons_self)
    exact ⟨c, _, by rw [hwhole]; rfl, by rw [startsNumber, hc, Bool.or_true]⟩
  · exact ⟨'-', _, rfl, rfl⟩

/-- A number ends where none of its characters follows, and its parts end where another sort of
characters begins. -/
lemma Number.unique {cs cs' : List Char} {numeral numeral' : Numeral} (h : Number cs numeral)
    (h' : Number cs' numeral') (hrest : Stops Grammar.isNumeric rest)
    (hrest' : Stops Grammar.isNumeric rest') (heq : cs ++ rest = cs' ++ rest') :
    numeral = numeral' ∧ rest = rest' := by
  obtain ⟨hcs, hends⟩ := span_inj h.isNumeric h'.isNumeric hrest hrest' heq
  refine ⟨?_, hends⟩
  obtain ⟨signed, digits, behindPoint, behindLetter⟩ := h
  obtain ⟨signed', digits', behindPoint', behindLetter'⟩ := h'
  obtain ⟨rfl, hunsigned⟩ := span_inj (all_isSign (signed.imp_right .inr))
    (all_isSign (signed'.imp_right .inr)) (stops_isSign digits.isDigit digits.ne_nil _)
    (stops_isSign digits'.isDigit digits'.ne_nil _) hcs
  obtain ⟨rfl, hmore⟩ := span_inj digits.isDigit digits'.isDigit
    (behindPoint.stops_isDigit behindLetter) (behindPoint'.stops_isDigit behindLetter') hunsigned
  obtain ⟨rfl, rfl⟩ := behindPoint.unique behindPoint' behindLetter behindLetter' hmore
  rw [behindLetter.unique behindLetter']

/-! ## Values say one thing -/

/-- The opening of a value. -/
def opening : Datum → Opening
  | .null => .null
  | .flag _ => .flag
  | .number _ => .number
  | .text _ => .text
  | .list _ => .list
  | .object _ => .object

/-- The brackets that close a list or an object. -/
def isBracket (c : Char) : Bool := c == ']' || c == '\x7d'

lemma isBlank_of_startsNumber {c : Char} (h : startsNumber c = true) : isBlank c = false := by
  have hne := ne_of_startsNumber h
  simp [isBlank, hne ' ' rfl, hne '\t' rfl, hne '\n' rfl, hne '\r' rfl]

lemma isBracket_of_startsNumber {c : Char} (h : startsNumber c = true) : isBracket c = false := by
  have hne := ne_of_startsNumber h
  simp [isBracket, hne ']' rfl, hne '\x7d' rfl]

lemma Enclosed.exists_cons {α : Type} {left right : Char} {Item : List Char → α → Prop}
    {cs : List Char} {xs : List α} (h : Enclosed left right Item cs xs) :
    ∃ more, cs = left :: more := by
  cases h <;> exact ⟨_, rfl⟩

/-- The first character of a value tells its opening. -/
lemma Value.exists_cons {cs : List Char} {d : Datum} (h : Value cs d) :
    ∃ c more, cs = c :: more ∧ openingOf c = opening d ∧ isBlank c = false ∧
      isBracket c = false := by
  cases h with
  | number digits =>
    obtain ⟨c, more, rfl, hc⟩ := digits.exists_cons
    exact ⟨c, more, rfl, openingOf_of_startsNumber hc, isBlank_of_startsNumber hc,
      isBracket_of_startsNumber hc⟩
  | list enclosed =>
    obtain ⟨more, rfl⟩ := enclosed.exists_cons
    exact ⟨'[', more, rfl, rfl, rfl, rfl⟩
  | object enclosed =>
    obtain ⟨more, rfl⟩ := enclosed.exists_cons
    exact ⟨'\x7b', more, rfl, rfl, rfl, rfl⟩
  | _ => exact ⟨_, _, rfl, rfl, rfl, rfl⟩

lemma Value.opening_eq {cs cs' : List Char} {d d' : Datum} (h : Value cs d) (h' : Value cs' d')
    (heq : cs ++ rest = cs' ++ rest') : opening d = opening d' := by
  obtain ⟨c, more, rfl, hc, -, -⟩ := h.exists_cons
  obtain ⟨c', more', rfl, hc', -, -⟩ := h'.exists_cons
  rw [← hc, ← hc', (List.cons.inj heq).1]

/-- Behind a value with the space around it stands the end, a comma or a bracket. -/
structure Closes (rest : List Char) : Prop where
  blank : Stops isBlank rest
  numeric : Stops Grammar.isNumeric rest

lemma closes_nil : Closes [] := ⟨stops_nil _, stops_nil _⟩

lemma closes_comma (rest : List Char) : Closes (',' :: rest) := ⟨stops_cons rfl _, stops_cons rfl _⟩

lemma closes_bracket {c : Char} (h : isBracket c = true) (rest : List Char) :
    Closes (c :: rest) := by
  have hcases : c = ']' ∨ c = '\x7d' := by simpa [isBracket] using h
  rcases hcases with rfl | rfl <;> exact ⟨stops_cons rfl _, stops_cons rfl _⟩

/-- Behind space the text begins with a character that closes nothing. -/
def Begins (cs : List Char) : Prop :=
  ∃ before c more, cs = before ++ c :: more ∧ Blank before ∧ isBlank c = false ∧
    isBracket c = false

lemma Begins.append {cs : List Char} (h : Begins cs) (rest : List Char) : Begins (cs ++ rest) := by
  obtain ⟨before, c, more, rfl, hbefore⟩ := h
  exact ⟨before, c, more ++ rest, List.append_assoc .., hbefore⟩

lemma Begins.ne_blank {cs blank : List Char} {right : Char} (h : Begins cs) (hblank : Blank blank)
    (hright : isBracket right = true) : blank ++ right :: rest ≠ cs ++ rest' := by
  obtain ⟨before, c, more, rfl, hbefore, hc, hplain⟩ := h
  intro heq
  rw [List.append_assoc] at heq
  have hends := blank_inj hblank hbefore (closes_bracket hright _).blank (stops_cons hc _) heq
  obtain rfl := (List.cons.inj hends).1
  rw [hright] at hplain
  cases hplain

lemma Element.begins {cs : List Char} {d : Datum} (h : Element cs d) : Begins cs := by
  obtain ⟨blankBefore, value, -⟩ := h
  obtain ⟨c, more, rfl, -, hc⟩ := value.exists_cons
  exact ⟨_, c, _, rfl, blankBefore, hc⟩

lemma Member.begins {cs : List Char} {m : String × Datum} (h : Member cs m) : Begins cs := by
  obtain ⟨blankBefore, -, -, -⟩ := h
  exact ⟨_, '"', _, rfl, blankBefore, rfl, rfl⟩

/-- Inside a longer text whose rest is as it may be, the thing is what is said and its end is in one
place. -/
def Settled {α : Type} (Said : List Char → α → Prop) (Rest : List Char → Prop) (x : α) : Prop :=
  ∀ ⦃cs cs' : List Char⦄ ⦃x' : α⦄ ⦃rest rest' : List Char⦄, Said cs x → Said cs' x' →
    Rest rest → Rest rest' → cs ++ rest = cs' ++ rest' → x = x' ∧ rest = rest'

lemma Blank.stops_isNumeric {blank : List Char} (h : Blank blank) (hrest : Closes rest) :
    Stops Grammar.isNumeric (blank ++ rest) := by
  refine h.stops ?_ hrest.numeric
  intro c hc
  have hcases : ((c = ' ' ∨ c = '\t') ∨ c = '\n') ∨ c = '\r' := by simpa [isBlank] using hc
  rcases hcases with ((rfl | rfl) | rfl) | rfl <;> rfl

lemma Value.stops_isBlank {cs : List Char} {d : Datum} (h : Value cs d) (rest : List Char) :
    Stops isBlank (cs ++ rest) := by
  obtain ⟨c, cs, rfl, -, hc, -⟩ := h.exists_cons
  exact stops_cons hc _

lemma settled_element {d : Datum} (hd : Settled Value (Stops Grammar.isNumeric) d) :
    Settled Element Closes d := by
  intro cs cs' d' rest rest' h h' hrest hrest' heq
  obtain ⟨blankBefore, value, blankAfter⟩ := h
  obtain ⟨blankBefore', value', blankAfter'⟩ := h'
  simp only [List.append_assoc] at heq
  have hvalues := blank_inj blankBefore blankBefore' (value.stops_isBlank _)
    (value'.stops_isBlank _) heq
  obtain ⟨rfl, hafter⟩ := hd value value' (blankAfter.stops_isNumeric hrest)
    (blankAfter'.stops_isNumeric hrest') hvalues
  exact ⟨rfl, blank_inj blankAfter blankAfter' hrest.blank hrest'.blank hafter⟩

lemma settled_member {m : String × Datum} (hd : Settled Value (Stops Grammar.isNumeric) m.2) :
    Settled Member Closes m := by
  intro cs cs' m' rest rest' h h' hrest hrest' heq
  obtain ⟨blankBefore, spelling, blankAfter, element⟩ := h
  obtain ⟨blankBefore', spelling', blankAfter', element'⟩ := h'
  simp only [List.append_assoc] at heq
  have hkeys := blank_inj blankBefore blankBefore' (stops_cons rfl _) (stops_cons rfl _) heq
  obtain ⟨rfl, hafter⟩ := quoted_unique spelling spelling' hkeys
  have hcolon := blank_inj blankAfter blankAfter' (stops_cons rfl _) (stops_cons rfl _) hafter
  obtain ⟨rfl, hends⟩ :=
    settled_element hd element element' hrest hrest' (List.cons.inj hcolon).2
  exact ⟨rfl, hends⟩

/-- The rest of a text from a bracket on. -/
def FromBracket (close : Char) (rest : List Char) : Prop := ∃ behind, rest = close :: behind

lemma FromBracket.closes {close : Char} {rest : List Char} (h : FromBracket close rest)
    (hclose : isBracket close = true) : Closes rest := by
  obtain ⟨behind, rfl⟩ := h
  exact closes_bracket hclose behind

lemma FromBracket.ne_comma {close : Char} {rest : List Char} (h : FromBracket close rest)
    (hclose : isBracket close = true) {behind : List Char} : rest ≠ ',' :: behind := by
  obtain ⟨_, rfl⟩ := h
  intro heq
  obtain rfl := (List.cons.inj heq).1
  cases hclose

section Enclosed

variable {α : Type} {left right : Char} {Item : List Char → α → Prop} {xs : List α}

/-- Things between commas end at the bracket that closes them. -/
lemma settled_separated (hright : isBracket right = true) (hxs : ∀ x ∈ xs, Settled Item Closes x) :
    Settled (Separated Item) (FromBracket right) xs := by
  induction xs with
  | nil =>
    intro cs cs' xs' rest rest' h
    cases h
  | cons x xs ih =>
    obtain ⟨hx, hothers⟩ := List.forall_mem_cons.1 hxs
    intro cs cs' xs' rest rest' h h' hrest hrest' heq
    cases h with
    | one item =>
      cases h' with
      | one item' =>
        obtain ⟨rfl, hends⟩ := hx item item' (hrest.closes hright) (hrest'.closes hright) heq
        exact ⟨rfl, hends⟩
      | more item' _ =>
        rw [List.append_assoc] at heq
        obtain ⟨-, hends⟩ := hx item item' (hrest.closes hright) (closes_comma _) heq
        exact absurd hends (hrest.ne_comma hright)
    | more item behind =>
      rw [List.append_assoc] at heq
      cases h' with
      | one item' =>
        obtain ⟨-, hends⟩ := hx item item' (closes_comma _) (hrest'.closes hright) heq
        exact absurd hends.symm (hrest'.ne_comma hright)
      | more item' behind' =>
        rw [List.append_assoc] at heq
        obtain ⟨rfl, hmore⟩ := hx item item' (closes_comma _) (closes_comma _) heq
        obtain ⟨rfl, hends⟩ := ih hothers behind behind' hrest hrest' (List.cons.inj hmore).2
        exact ⟨rfl, hends⟩

lemma Separated.begins (hitem : ∀ {cs x}, Item cs x → Begins cs) {cs : List Char}
    (h : Separated Item cs xs) : Begins cs := by
  cases h with
  | one item => exact hitem item
  | more item _ => exact (hitem item).append _

/-- Space before a bracket is told from things that begin with no bracket. -/
lemma settled_enclosed (hright : isBracket right = true)
    (hitem : ∀ {cs x}, Item cs x → Begins cs) (hxs : ∀ x ∈ xs, Settled Item Closes x) :
    Settled (Enclosed left right Item) (fun _ => True) xs := by
  have hinside : ∀ {cs cs' rest rest' : List Char},
      left :: (cs ++ [right]) ++ rest = left :: (cs' ++ [right]) ++ rest' →
      cs ++ right :: rest = cs' ++ right :: rest' := by
    intro cs cs' rest rest' heq
    simpa using heq
  intro cs cs' xs' rest rest' h h' _ _ heq
  cases h with
  | empty space =>
    cases h' with
    | empty space' =>
      have hends := blank_inj space space' (closes_bracket hright _).blank
        (closes_bracket hright _).blank (hinside heq)
      exact ⟨rfl, (List.cons.inj hends).2⟩
    | items inside' =>
      exact absurd (hinside heq) ((inside'.begins hitem).ne_blank space hright)
  | items inside =>
    cases h' with
    | empty space' =>
      exact absurd (hinside heq).symm ((inside.begins hitem).ne_blank space' hright)
    | items inside' =>
      obtain ⟨rfl, hends⟩ := settled_separated hright hxs inside inside' ⟨_, rfl⟩ ⟨_, rfl⟩
        (hinside heq)
      exact ⟨rfl, (List.cons.inj hends).2⟩

end Enclosed

/-- Inside a longer text a value says one thing and ends in one place. -/
theorem settled_value (d : Datum) : Settled Value (Stops Grammar.isNumeric) d := by
  induction d using Datum.induct with
  | null =>
    intro cs cs' d' rest rest' h h' _ _ heq
    have hopening := h.opening_eq h' heq
    cases h
    cases h' with
    | null => exact ⟨rfl, List.append_cancel_left heq⟩
    | _ => cases hopening
  | flag value =>
    intro cs cs' d' rest rest' h h' _ _ heq
    have hopening := h.opening_eq h' heq
    cases h with
    | yes =>
      cases h' with
      | yes => exact ⟨rfl, List.append_cancel_left heq⟩
      | no => cases (List.cons.inj heq).1
      | _ => cases hopening
    | no =>
      cases h' with
      | yes => cases (List.cons.inj heq).1
      | no => exact ⟨rfl, List.append_cancel_left heq⟩
      | _ => cases hopening
  | number numeral =>
    intro cs cs' d' rest rest' h h' hrest hrest' heq
    have hopening := h.opening_eq h' heq
    cases h with | number digits =>
    cases h' with
    | number digits' =>
      obtain ⟨rfl, hends⟩ := digits.unique digits' hrest hrest' heq
      exact ⟨rfl, hends⟩
    | _ => cases hopening
  | text value =>
    intro cs cs' d' rest rest' h h' _ _ heq
    have hopening := h.opening_eq h' heq
    cases h with | text spelling =>
    cases h' with
    | text spelling' =>
      obtain ⟨rfl, hends⟩ := quoted_unique spelling spelling' heq
      exact ⟨rfl, hends⟩
    | _ => cases hopening
  | list items hitems =>
    intro cs cs' d' rest rest' h h' _ _ heq
    have hopening := h.opening_eq h' heq
    cases h with | list enclosed =>
    cases h' with
    | list enclosed' =>
      obtain ⟨rfl, hends⟩ := settled_enclosed rfl Element.begins
        (fun d hd => settled_element (hitems d hd)) enclosed enclosed' trivial trivial heq
      exact ⟨rfl, hends⟩
    | _ => cases hopening
  | object members hmembers =>
    intro cs cs' d' rest rest' h h' _ _ heq
    have hopening := h.opening_eq h' heq
    cases h with | object enclosed =>
    cases h' with
    | object enclosed' =>
      obtain ⟨rfl, hends⟩ := settled_enclosed rfl Member.begins
        (fun m hm => settled_member (hmembers m hm)) enclosed enclosed' trivial trivial heq
      exact ⟨rfl, hends⟩
    | _ => cases hopening

/-- A whole text says one thing at most. -/
theorem Element.unique {cs : List Char} {d d' : Datum} (h : Element cs d) (h' : Element cs d') :
    d = d' :=
  (settled_element (settled_value d) h h' closes_nil closes_nil rfl).1

/-- There are readers that follow the grammar, since no text says two things. -/
theorem exists_follows : ∃ read, Follows read := by
  classical
  refine ⟨fun cs => if h : ∃ d, Element cs d then some h.choose else none, ?_⟩
  intro cs d h
  have hsaid : ∃ d, Element cs d := ⟨d, h⟩
  exact (dif_pos hsaid).trans (congrArg some (hsaid.choose_spec.unique h))

end Grammar

end WorkflowCanvas.Json
