import WorkflowCanvas.Proofs.Json.Unambiguous

/-!
# Phrases

A `Phrase` is a JSON value as it is spelled.  Numbers, texts and keys keep their characters and only
the space between tokens is left out, so two texts of one phrase differ in nothing but that space.
The rules are those of the grammar, with one case more: between quotes a code unit may be half of a
pair without the other half.  Such a text means nothing, yet it may stand where nobody asks for its
meaning.  All texts of the grammar spell phrases (`exists_of_element`).

A reader goes over the inside of a list or an object in a loop and looks for the next thing behind
the one before it.  `Course` cuts the inside up in the same way, and `course_of_enclosed` finds the
course of what is enclosed in brackets by the rules.
-/

namespace WorkflowCanvas.Json

open Grammar

/-- A JSON value as it is spelled. -/
inductive Phrase
  | null
  | flag (value : Bool)
  | number (numeral : List Char)
  /-- A text, by what stands between its quotes. -/
  | text (strokes : List Char)
  | list (items : List Phrase)
  | object (members : List (List Char × Phrase))

namespace Grammar

/-- What stands between quotes for a character, or for half of one. -/
inductive Stroke : List Char → Prop
  | plain {c : Char} (printable : 0x20 ≤ c.toNat) (ne_quote : c ≠ '"')
    (ne_backslash : c ≠ '\\') : Stroke [c]
  | short {letter c : Char} (listed : (letter, c) ∈ shortEscapes) : Stroke ['\\', letter]
  | unit {digits : List Char} {value : Nat} (codes : CodeUnit digits value) :
    Stroke ('\\' :: 'u' :: digits)

/-- What stands between quotes. -/
inductive Strokes : List Char → Prop
  | nil : Strokes []
  | cons {stroke cs : List Char} (first : Stroke stroke) (others : Strokes cs) :
    Strokes (stroke ++ cs)

end Grammar

namespace Phrase

mutual

/-- The text spells the phrase, without space around it. -/
inductive Value : List Char → Phrase → Prop
  | null : Value ['n', 'u', 'l', 'l'] .null
  | yes : Value ['t', 'r', 'u', 'e'] (.flag true)
  | no : Value ['f', 'a', 'l', 's', 'e'] (.flag false)
  | number {cs : List Char} {numeral : Numeral} (digits : Grammar.Number cs numeral) :
    Value cs (.number cs)
  | text {cs : List Char} (strokes : Strokes cs) : Value (quoted cs) (.text cs)
  | list {cs : List Char} {items : List Phrase} (enclosed : Enclosed '[' ']' Element cs items) :
    Value cs (.list items)
  | object {cs : List Char} {members : List (List Char × Phrase)}
    (enclosed : Enclosed '\x7b' '\x7d' Member cs members) : Value cs (.object members)

/-- The text spells the phrase, with the space around it. -/
inductive Element : List Char → Phrase → Prop
  | mk {before cs after : List Char} {p : Phrase} (blankBefore : Blank before) (value : Value cs p)
    (blankAfter : Blank after) : Element (before ++ (cs ++ after)) p

/-- The text spells the member of an object, with the space around it. -/
inductive Member : List Char → List Char × Phrase → Prop
  | mk {before key after cs : List Char} {p : Phrase} (blankBefore : Blank before)
    (strokes : Strokes key) (blankAfter : Blank after) (value : Element cs p) :
    Member (before ++ (quoted key ++ (after ++ ':' :: cs))) (key, p)

end

/-- A fact about all phrases, by recursion into lists and objects. -/
theorem induct {motive : Phrase → Prop} (null : motive .null)
    (flag : ∀ value, motive (.flag value)) (number : ∀ numeral, motive (.number numeral))
    (text : ∀ strokes, motive (.text strokes))
    (list : ∀ items, (∀ p ∈ items, motive p) → motive (.list items))
    (object : ∀ members, (∀ m ∈ members, motive m.2) → motive (.object members)) :
    ∀ p, motive p
  | .null => null
  | .flag value => flag value
  | .number numeral => number numeral
  | .text strokes => text strokes
  | .list items => list items fun p _ => induct null flag number text list object p
  | .object members => object members fun m hm => by
    have hlt := List.sizeOf_lt_of_mem hm
    have hmember : sizeOf m = 1 + sizeOf m.1 + sizeOf m.2 := rfl
    exact induct null flag number text list object m.2

/-! ## Phrases of the grammar -/

section Meaning

lemma strokes_of_spelling {cs characters : List Char} (h : Spelling cs characters) :
    Strokes cs := by
  have hpair : ∀ {leading trailing cs : List Char} {high low : Nat}, CodeUnit leading high →
      CodeUnit trailing low → Strokes cs →
      Strokes ('\\' :: 'u' :: (leading ++ '\\' :: 'u' :: trailing) ++ cs) :=
    fun leads trails hcs => by
      have hstrokes := Strokes.cons (.unit leads) (.cons (.unit trails) hcs)
      simpa only [List.append_assoc, List.cons_append] using hstrokes
  induction h with
  | nil => exact .nil
  | cons first _ ih =>
    cases first with
    | plain printable ne_quote ne_backslash =>
      exact .cons (.plain printable ne_quote ne_backslash) ih
    | escape behind =>
      cases behind with
      | short listed => exact .cons (.short listed) ih
      | unit codes => exact .cons (.unit codes) ih
      | pair leads _ trails _ _ => exact hpair leads trails ih

variable {α β : Type} {Item : List Char → α → Prop} {Item' : List Char → β → Prop}

/-- Things in brackets that are also things of another kind. -/
lemma exists_enclosed {left right : Char} {cs : List Char} {xs : List α}
    (h : Enclosed left right Item cs xs)
    (hitem : ∀ x ∈ xs, ∀ cs, Item cs x → ∃ y, Item' cs y) :
    ∃ ys, Enclosed left right Item' cs ys := by
  cases h with
  | empty space => exact ⟨[], .empty space⟩
  | items inside =>
    suffices hinside : ∃ ys, Separated Item' _ ys by
      obtain ⟨ys, hys⟩ := hinside
      exact ⟨ys, .items hys⟩
    induction inside with
    | one item =>
      obtain ⟨y, hy⟩ := hitem _ List.mem_cons_self _ item
      exact ⟨[y], .one hy⟩
    | more item _ ih =>
      obtain ⟨y, hy⟩ := hitem _ List.mem_cons_self _ item
      obtain ⟨ys, hys⟩ := ih fun x hx => hitem x (List.mem_cons_of_mem _ hx)
      exact ⟨y :: ys, .more hy hys⟩

lemma exists_of_value (d : Datum) {cs : List Char} (h : Grammar.Value cs d) :
    ∃ p, Value cs p := by
  induction d using Datum.induct generalizing cs with
  | null => cases h; exact ⟨_, .null⟩
  | flag value =>
    cases h
    · exact ⟨_, .yes⟩
    · exact ⟨_, .no⟩
  | number numeral => cases h with | number digits => exact ⟨_, .number digits⟩
  | text value => cases h with | text spelling => exact ⟨_, .text (strokes_of_spelling spelling)⟩
  | list items ih =>
    cases h with | list enclosed =>
    have helement : ∀ d ∈ items, ∀ cs, Grammar.Element cs d → ∃ p, Element cs p := by
      rintro d hd _ ⟨blankBefore, value, blankAfter⟩
      obtain ⟨p, hp⟩ := ih d hd value
      exact ⟨p, .mk blankBefore hp blankAfter⟩
    obtain ⟨ps, hps⟩ := exists_enclosed enclosed helement
    exact ⟨_, .list hps⟩
  | object members ih =>
    cases h with | object enclosed =>
    have hmember : ∀ m ∈ members, ∀ cs, Grammar.Member cs m → ∃ n, Member cs n := by
      rintro m hm _ ⟨blankBefore, spelling, blankAfter, ⟨valueBefore, value, valueAfter⟩⟩
      obtain ⟨p, hp⟩ := ih _ hm value
      exact ⟨_, .mk blankBefore (strokes_of_spelling spelling) blankAfter
        (.mk valueBefore hp valueAfter)⟩
    obtain ⟨ms, hms⟩ := exists_enclosed enclosed hmember
    exact ⟨_, .object hms⟩

/-- Every text that says something spells a phrase. -/
theorem exists_of_element {cs : List Char} {d : Datum} (h : Grammar.Element cs d) :
    ∃ p, Element cs p := by
  cases h with | mk blankBefore value blankAfter =>
  obtain ⟨p, hp⟩ := exists_of_value d value
  exact ⟨p, .mk blankBefore hp blankAfter⟩

end Meaning

/-! ## Courses -/

/-- What stands before a thing: nothing before the first one, and before any other one the space
behind the thing before it and a comma. -/
inductive Lead : Bool → List Char → Prop
  | first : Lead true []
  | later {blank : List Char} (space : Blank blank) : Lead false (blank ++ [','])

/-- The inside of a list or an object up to its closing bracket, cut up as a loop goes over it.  The
space behind a thing counts to what follows. -/
inductive Course {α : Type} (right : Char) (Item : List Char → α → Prop) :
    Bool → List Char → List α → Prop
  | done {first : Bool} {blank : List Char} (space : Blank blank) :
    Course right Item first (blank ++ [right]) []
  | next {first : Bool} {lead before cs more : List Char} {x : α} {xs : List α}
    (leads : Lead first lead) (space : Blank before) (item : Item cs x)
    (others : Course right Item false more xs) :
    Course right Item first (lead ++ (before ++ (cs ++ more))) (x :: xs)

/-- What stands behind a key, up to the end of the value. -/
inductive Behind : List Char → Phrase → Prop
  | mk {after before cs : List Char} {p : Phrase} (blankAfter : Blank after)
    (blankBefore : Blank before) (value : Value cs p) : Behind (after ++ ':' :: (before ++ cs)) p

/-- A member of an object from its key to the end of its value. -/
inductive Entry : List Char → List Char × Phrase → Prop
  | mk {key cs : List Char} {p : Phrase} (strokes : Strokes key) (behind : Behind cs p) :
    Entry (quoted key ++ cs) (key, p)

section Courses

variable {α : Type} {left right : Char} {Outer Inner : List Char → α → Prop}

/-- With the space around a thing, it is that space and the thing. -/
def Pads (Outer Inner : List Char → α → Prop) : Prop :=
  ∀ ⦃cs x⦄, Outer cs x → ∃ before inner after, cs = before ++ (inner ++ after) ∧ Blank before ∧
    Inner inner x ∧ Blank after

lemma pads_element : Pads Element Value := by
  rintro _ _ ⟨blankBefore, value, blankAfter⟩
  exact ⟨_, _, _, rfl, blankBefore, value, blankAfter⟩

lemma pads_member : Pads Member Entry := by
  rintro _ _ ⟨blankBefore, strokes, blankAfter, ⟨valueBefore, value, valueAfter⟩⟩
  exact ⟨_, _, _, by simp only [List.append_assoc, List.cons_append], blankBefore,
    .mk strokes (.mk blankAfter valueBefore value), valueAfter⟩

lemma Course.length_pos {first : Bool} {text : List Char} {xs : List α}
    (h : Course right Inner first text xs) : 0 < text.length := by
  induction h with
  | done => simp
  | next _ _ _ _ ih =>
    simp only [List.length_append]
    omega

lemma course_of_separated (hpads : Pads Outer Inner) {cs : List Char} {xs : List α}
    (h : Separated Outer cs xs) : ∀ {first : Bool} {lead : List Char}, Lead first lead →
      Course right Inner first (lead ++ (cs ++ [right])) xs := by
  induction h with
  | one item =>
    intro first lead leads
    obtain ⟨before, inner, after, rfl, space, hinner, hafter⟩ := hpads item
    have hcourse : Course right Inner first _ _ := .next leads space hinner (.done hafter)
    simpa only [List.append_assoc] using hcourse
  | more item _ ih =>
    intro first lead leads
    obtain ⟨before, inner, after, rfl, space, hinner, hafter⟩ := hpads item
    have hcourse := Course.next leads space hinner (ih (.later hafter))
    simpa only [List.append_assoc, List.cons_append, List.nil_append] using hcourse

/-- What is enclosed in brackets takes its course behind the opening one. -/
lemma course_of_enclosed (hpads : Pads Outer Inner) {cs : List Char} {xs : List α}
    (h : Enclosed left right Outer cs xs) :
    ∃ text, cs = left :: text ∧ Course right Inner true text xs := by
  cases h with
  | empty space => exact ⟨_, rfl, .done space⟩
  | items inside => exact ⟨_, rfl, course_of_separated hpads inside .first⟩

end Courses

/-! ## How a reader sees them -/

section Readers

variable {blank cs : List Char} {input rest : List Symbol}

lemma isSpace_of_isBlank {c : Char} (h : isBlank c = true) : isSpace (.char c) = true := by
  have hcases : ((c = ' ' ∨ c = '\t') ∨ c = '\n') ∨ c = '\r' := by simpa [isBlank] using h
  rcases hcases with ((rfl | rfl) | rfl) | rfl <;> rfl

/-- Space between tokens is passed over. -/
lemma afterSpace_blank (h : Blank blank) :
    afterSpace (blank.map .char ++ input) = afterSpace input := by
  induction blank with
  | nil => rfl
  | cons c blank ih =>
    obtain ⟨hc, hblank⟩ := List.forall_mem_cons.1 h
    rw [← ih hblank]
    exact List.dropWhile_cons_of_pos (isSpace_of_isBlank hc)

lemma endsNumber_blank (h : Blank blank) (hrest : EndsNumber rest) :
    EndsNumber (blank.map .char ++ rest) := by
  cases blank with
  | nil => exact hrest
  | cons c blank =>
    have hc : isBlank c = true := h c List.mem_cons_self
    have hcases : ((c = ' ' ∨ c = '\t') ∨ c = '\n') ∨ c = '\r' := by simpa [isBlank] using hc
    rcases hcases with ((rfl | rfl) | rfl) | rfl <;>
      exact endsNumber_cons ⟨by decide, by decide, by decide, by decide⟩

/-- The opening of a phrase. -/
def opening : Phrase → Opening
  | .null => .null
  | .flag _ => .flag
  | .number _ => .number
  | .text _ => .text
  | .list _ => .list
  | .object _ => .object

/-- The first character of a value tells its opening. -/
lemma Value.exists_cons {p : Phrase} (h : Value cs p) :
    ∃ c more, cs = c :: more ∧ opensValue c = true ∧ openingOf c = p.opening := by
  cases h with
  | number digits =>
    obtain ⟨c, more, rfl, hc⟩ := digits.exists_cons
    exact ⟨c, more, rfl, by rw [opensValue, hc, Bool.or_true], openingOf_of_startsNumber hc⟩
  | list enclosed =>
    obtain ⟨more, rfl⟩ := enclosed.exists_cons
    exact ⟨'[', more, rfl, rfl, rfl⟩
  | object enclosed =>
    obtain ⟨more, rfl⟩ := enclosed.exists_cons
    exact ⟨'\x7b', more, rfl, rfl, rfl⟩
  | _ => exact ⟨_, _, rfl, rfl, rfl⟩

lemma Value.opens {p : Phrase} (h : Value cs p) : Opens cs := by
  obtain ⟨c, more, rfl, hc, -⟩ := h.exists_cons
  exact ⟨c, more, rfl, hc⟩

lemma Entry.opens {m : List Char × Phrase} (h : Entry cs m) : Opens cs := by
  cases h
  exact ⟨'"', _, rfl, rfl⟩

/-- Behind a thing stands space, a comma or a bracket, and none of these continues a number. -/
lemma Course.endsNumber {α : Type} {right : Char} {Inner : List Char → α → Prop} {xs : List α}
    (hright : isBracket right = true) (h : Course right Inner false cs xs) (rest : List Symbol) :
    EndsNumber (cs.map .char ++ rest) := by
  cases h with
  | done space =>
    have hcases : right = ']' ∨ right = '\x7d' := by simpa [isBracket] using hright
    rw [List.map_append, List.append_assoc]
    refine endsNumber_blank space ?_
    rcases hcases with rfl | rfl <;>
      exact endsNumber_cons ⟨by decide, by decide, by decide, by decide⟩
  | next leads _ _ _ =>
    cases leads with | later space =>
    rw [List.append_assoc, List.map_append, List.append_assoc]
    exact endsNumber_blank space
      (endsNumber_cons ⟨by decide, by decide, by decide, by decide⟩)

end Readers

end Phrase

end WorkflowCanvas.Json
