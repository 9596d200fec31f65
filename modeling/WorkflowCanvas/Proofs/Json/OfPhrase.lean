import WorkflowCanvas.Proofs.Json.Numerals
import WorkflowCanvas.Proofs.Json.Strokes

/-!
# What a shape makes of a phrase

`Shape.ofPhrase` is reading without a text: it takes a value apart that is known as a whole.  For
the object of a record it goes along the fields, not along the members.  Each field takes the
members of its key (`occurring`), so it is plain that neither the order of the members matters nor
any member of another key.

The reader goes along the members and fills slots.  Member by member it comes to the same
(`Fields.foldlM_put`): a key that comes twice finds its slot filled, and a field is only missed at
the end.
-/

namespace WorkflowCanvas.Json

/-! ## Phrases of one form -/

namespace Phrase

/-- Whether the phrase is `null`. -/
def isNull : Phrase → Bool
  | .null => true
  | _ => false

lemma eq_null {p : Phrase} (h : p.isNull = true) : p = .null := by
  cases p with
  | null => rfl
  | _ => cases h

lemma opening_ne_null {p : Phrase} (h : p.isNull = false) : p.opening ≠ .null := by
  cases p with
  | null => cases h
  | _ => rintro ⟨⟩

/-- The text, if the phrase is one that means something. -/
def asText : Phrase → Option String
  | .text strokes => textOf strokes
  | _ => none

/-- The number, if the phrase is one in range. -/
def asNumber : Phrase → Option Binary64
  | .number numeral => numberOf numeral
  | _ => none

/-- The flag, if the phrase is one. -/
def asFlag : Phrase → Option Bool
  | .flag value => some value
  | _ => none

/-- The word, alone or as the only key of an object with `null` behind it. -/
def asWord (choices : List String) : Phrase → Option (Fin choices.length)
  | .text strokes => (textOf strokes).bind (choices.finIdxOf? ·)
  | .object [(key, p)] => if p.isNull then (textOf key).bind (choices.finIdxOf? ·) else none
  | _ => none

/-- No item if the phrase is `null`. -/
def asMaybe {α : Type} (item : Phrase → Option α) (p : Phrase) : Option (Option α) :=
  if p.isNull then some none else (item p).map some

/-- The items, if the phrase is a list. -/
def asList {α : Type} (item : Phrase → Option α) : Phrase → Option (List α)
  | .list items => items.mapM item
  | _ => none

/-- The members by their keys, if each key means something. -/
def named (members : List (List Char × Phrase)) : Option (List (String × Phrase)) :=
  members.mapM fun m => (textOf m.1).map (·, m.2)

lemma named_cons (key : List Char) (p : Phrase) (members : List (List Char × Phrase)) :
    named ((key, p) :: members) =
      (textOf key).bind fun name => (named members).map ((name, p) :: ·) := by
  rw [named, List.mapM_cons]
  cases textOf key with
  | none => rfl
  | some name =>
    change (named members).bind _ = _
    cases named members <;> rfl

/-- Goes over the members by their keys, from one state to the next. -/
def foldNamed {σ : Type} (step : σ → String × Phrase → Option σ) (s : σ)
    (members : List (List Char × Phrase)) : Option σ :=
  (named members).bind fun ms => ms.foldlM step s

lemma foldNamed_cons {σ : Type} (step : σ → String × Phrase → Option σ) (s : σ)
    (key : List Char) (p : Phrase) (members : List (List Char × Phrase)) :
    foldNamed step s ((key, p) :: members) =
      (textOf key).bind fun name => (step s (name, p)).bind fun s' =>
        foldNamed step s' members := by
  rw [foldNamed, named_cons]
  cases textOf key with
  | none => rfl
  | some name =>
    unfold foldNamed
    cases named members with
    | none => simp
    | some ms => rfl

/-- Puts an entry into a table, in place of one with the same key. -/
def enter {α : Type} (item : Phrase → Option α) (table : Table α) (m : String × Phrase) :
    Option (Table α) :=
  (item m.2).map (table.insert m.1)

/-- The entries, if the phrase is an object. -/
def asTable {α : Type} (item : Phrase → Option α) : Phrase → Option (Table α)
  | .object members => foldNamed (enter item) .empty members
  | _ => none

/-- What becomes of a field by the members of its key: without one it is absent, and two are an
error. -/
def occurring {α : Type} (absent : Option α) (item : Phrase → Option α) :
    List (String × Phrase) → Option α
  | [] => absent
  | [m] => item m.2
  | _ => none

end Phrase

open Phrase

mutual

/-- What a phrase is as a value of the shape, if it is one. -/
def Shape.ofPhrase : (shape : Shape) → Phrase → Option shape.Value
  | .text, p => p.asText
  | .number, p => p.asNumber
  | .flag, p => p.asFlag
  | .word choices, p => p.asWord choices
  | .maybe item, p => p.asMaybe item.ofPhrase
  | .list item, p => p.asList item.ofPhrase
  | .table item, p => p.asTable item.ofPhrase
  | .record _ fields, p =>
    match p with
    | .object members => (named members).bind (Fields.ofObject fields)
    | .list items => Fields.ofList fields items
    | _ => none

/-- The values of a record's members, each by the members of its key. -/
def Fields.ofObject : (fields : Fields) → List (String × Phrase) → Option (Fields.Values fields)
  | [], _ => some ()
  | (key, presence, shape) :: fields, members =>
    (occurring (presence.absent shape) shape.ofPhrase (members.filter (·.1 = key))).bind fun x =>
      (Fields.ofObject fields (members.filter (·.1 ≠ key))).map (x, ·)

/-- The values of a record's members by their place in a list. -/
def Fields.ofList : (fields : Fields) → List Phrase → Option (Fields.Values fields)
  | [], [] => some ()
  | [], _ :: _ => none
  | (_, presence, shape) :: fields, [] =>
    (presence.absent shape).bind fun x => (Fields.ofList fields []).map (x, ·)
  | (_, _, shape) :: fields, p :: items =>
    (shape.ofPhrase p).bind fun x => (Fields.ofList fields items).map (x, ·)

end

/-! ## Records, member by member -/

namespace Fields

/-- Puts a member into a slot that is still empty. -/
def fill {α : Type} (item : Phrase → Option α) (slot : Option α) (m : String × Phrase) :
    Option (Option α) :=
  match slot with
  | some _ => none
  | none => (item m.2).map some

/-- Puts a member into the slot of its key; without such a slot it is passed over. -/
def put : (fields : Fields) → Slots fields → String × Phrase → Option (Slots fields)
  | [], (), _ => some ()
  | (key, _, shape) :: fields, (slot, slots), m =>
    if m.1 = key then (fill shape.ofPhrase slot m).map (·, slots)
    else (put fields slots m).map (slot, ·)

/-- The members of the first key go to the first slot, and the others to the other slots. -/
lemma foldlM_put_cons (key : String) (presence : Presence) (shape : Shape) (fields : Fields)
    (members : List (String × Phrase)) (slot : Option shape.Value) (slots : Slots fields) :
    members.foldlM (put ((key, presence, shape) :: fields)) (slot, slots) =
      ((members.filter (·.1 = key)).foldlM (fill shape.ofPhrase) slot).bind fun filled =>
        ((members.filter (·.1 ≠ key)).foldlM (put fields) slots).map (filled, ·) := by
  induction members generalizing slot slots with
  | nil => rfl
  | cons m members ih =>
    rw [List.foldlM_cons]
    by_cases hkey : m.1 = key
    · have hput : put ((key, presence, shape) :: fields) (slot, slots) m =
          (fill shape.ofPhrase slot m).map (·, slots) := if_pos hkey
      rw [List.filter_cons_of_pos (by simpa using hkey),
        List.filter_cons_of_neg (by simpa using hkey), List.foldlM_cons, hput]
      cases fill shape.ofPhrase slot m with
      | none => rfl
      | some filled => exact ih filled slots
    · have hput : put ((key, presence, shape) :: fields) (slot, slots) m =
          (put fields slots m).map (slot, ·) := if_neg hkey
      rw [List.filter_cons_of_neg (by simpa using hkey),
        List.filter_cons_of_pos (by simpa using hkey), List.foldlM_cons, hput]
      cases put fields slots m with
      | none => simp
      | some slots => exact ih slot slots

/-- A slot that was empty before all members of its key, with its value by default. -/
lemma foldlM_fill {α : Type} (absent : Option α) (item : Phrase → Option α)
    (members : List (String × Phrase)) :
    ((members.foldlM (fill item) none).bind fun slot => slot.or absent) =
      occurring absent item members := by
  match members with
  | [] => rfl
  | [m] =>
    change (((item m.2).map some).bind fun slot => some slot).bind (·.or absent) = item m.2
    cases item m.2 <;> rfl
  | m :: m' :: members =>
    rw [List.foldlM_cons]
    change (((item m.2).map some).bind fun slot => (m' :: members).foldlM (fill item) slot).bind
      (·.or absent) = none
    cases item m.2 <;> rfl

lemma foldlM_put_nil (members : List (String × Phrase)) :
    members.foldlM (put []) () = some () := by
  induction members with
  | nil => rfl
  | cons m members ih => exact ih

lemma toOption_complete (key : String) (presence : Presence) (shape : Shape) (fields : Fields)
    (slot : Option shape.Value) (slots : Slots fields) :
    (complete ((key, presence, shape) :: fields) (slot, slots)).toOption =
      (slot.or (presence.absent shape)).bind fun x =>
        (complete fields slots).toOption.map (x, ·) := by
  rw [complete]
  cases slot.or (presence.absent shape) with
  | none => rfl
  | some x => cases complete fields slots <;> rfl

/-- Member by member a record comes to what its fields take. -/
theorem foldlM_put (fields : Fields) (members : List (String × Phrase)) :
    ((members.foldlM (put fields) (noSlots fields)).bind fun slots =>
      (complete fields slots).toOption) = ofObject fields members := by
  induction fields generalizing members with
  | nil =>
    change (members.foldlM (put []) ()).bind _ = _
    rw [foldlM_put_nil]
    rfl
  | cons field fields ih =>
    obtain ⟨key, presence, shape⟩ := field
    change (members.foldlM (put ((key, presence, shape) :: fields)) (none, noSlots fields)).bind _ =
      _
    rw [ofObject, ← ih, ← foldlM_fill, foldlM_put_cons]
    cases (members.filter (·.1 = key)).foldlM (fill shape.ofPhrase) none with
    | none => rfl
    | some slot =>
      cases (members.filter (·.1 ≠ key)).foldlM (put fields) (noSlots fields) with
      | none => simp
      | some slots => exact toOption_complete key presence shape fields slot slots

end Fields

end WorkflowCanvas.Json
