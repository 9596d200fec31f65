import WorkflowCanvas.Json.Form
import WorkflowCanvas.Proofs.Json.Decoded
import WorkflowCanvas.Proofs.Json.Places

/-!
# What a shape does not look at

Three relations between phrases, for every shape.

* `Phrase.Variant`: the members of records are in another order, or there are more of them under
  keys that no field has.  Both phrases come to the same (`Phrase.Variant.ofPhrase_eq`).
* `Phrase.LeavesOut`: one member of one record is left out, and the field has a value in its
  absence.  That value is what it comes to (`Phrase.LeavesOut.ofPhrase_eq_some`).
* `Phrase.Faulty`: a record has a member twice, or lacks one that is required.  It comes to nothing
  (`Phrase.Faulty.ofPhrase_eq_none`).

All three are about one object, which may stand anywhere in the phrase where the shape has a record
(`Phrase.Spot`): behind a member, in a list, or where there might be `null`.  What stands around it
is a frame that the record goes into (`Phrase.Spot.ofPhrase_plug`), so nothing but the record itself
has to be looked at.  A table has no spots, since no program type has a table of records.

A program type is read by its shape, so what the relations say of phrases holds of the texts that
spell them (`tolerant`).
-/

namespace WorkflowCanvas.Json

namespace Phrase

open Grammar Fields ValueFrame

/-! ## Keys -/

/-- All members have keys, and none of them is this one, however it is spelled. -/
def Lacks (key : String) (members : List (List Char × Phrase)) : Prop :=
  ∀ m ∈ members, Strokes m.1 ∧ ¬Spelling m.1 key.toList

section Keys

variable {key : String} {cs : List Char} {p : Phrase}
  {members members' before after : List (List Char × Phrase)}

lemma named_cons_eq_some {ms : List (String × Phrase)} :
    named ((cs, p) :: members) = some ms ↔
      ∃ name rest, textOf cs = some name ∧ named members = some rest ∧ (name, p) :: rest = ms := by
  rw [named_cons]
  simp only [Option.bind_eq_some_iff, Option.map_eq_some_iff]
  constructor
  · rintro ⟨name, hname, rest, hrest, heq⟩
    exact ⟨name, rest, hname, hrest, heq⟩
  · rintro ⟨name, rest, hname, hrest, heq⟩
    exact ⟨name, hname, rest, hrest, heq⟩

/-- Members in another order have their names in that order. -/
lemma named_perm (h : members.Perm members') {ms : List (String × Phrase)}
    (hnamed : named members = some ms) : ∃ ms', named members' = some ms' ∧ ms.Perm ms' := by
  induction h generalizing ms with
  | nil => exact ⟨ms, hnamed, .rfl⟩
  | cons m _ ih =>
    obtain ⟨name, rest, hname, hrest, rfl⟩ := named_cons_eq_some.1 hnamed
    obtain ⟨rest', hrest', hperm⟩ := ih hrest
    exact ⟨_, named_cons_eq_some.2 ⟨name, rest', hname, hrest', rfl⟩, hperm.cons _⟩
  | swap m m' members =>
    obtain ⟨name', rest', hname', hrest', rfl⟩ := named_cons_eq_some.1 hnamed
    obtain ⟨name, rest, hname, hrest, rfl⟩ := named_cons_eq_some.1 hrest'
    exact ⟨_, named_cons_eq_some.2 ⟨name, _, hname,
      named_cons_eq_some.2 ⟨name', rest, hname', hrest, rfl⟩, rfl⟩, .swap ..⟩
  | trans _ _ ih ih' =>
    obtain ⟨ms', hmembers', hperm⟩ := ih hnamed
    obtain ⟨ms'', hmembers'', hperm'⟩ := ih' hmembers'
    exact ⟨ms'', hmembers'', hperm.trans hperm'⟩

lemma named_append (members members' : List (List Char × Phrase)) :
    named (members ++ members') =
      (named members).bind fun ms => (named members').map (ms ++ ·) := by
  rw [named, List.mapM_append]
  change (named members).bind (fun ms => (named members').bind fun ms' => some (ms ++ ms')) = _
  cases named members <;> cases named members' <;> rfl

/-- A key is found by its name between the members around it. -/
lemma named_around (spelling : Spelling cs key.toList) :
    named (before ++ (cs, p) :: after) =
      (named before).bind fun b => (named after).map fun a => b ++ (key, p) :: a := by
  rw [named_append, named_cons, textOf_spelling spelling]
  cases named before <;> cases named after <;> rfl

lemma Lacks.filter_eq_nil (h : Lacks key members) {ms : List (String × Phrase)}
    (hnamed : named members = some ms) : ms.filter (·.1 = key) = [] := by
  induction members generalizing ms with
  | nil =>
    cases hnamed
    rfl
  | cons m members ih =>
    obtain ⟨⟨strokes, hne⟩, hothers⟩ := List.forall_mem_cons.1 h
    obtain ⟨name, rest, hname, hrest, rfl⟩ := named_cons_eq_some.1 hnamed
    have hname' : name ≠ key := by
      rintro rfl
      exact hne (strokes.textOf_eq_some_iff.1 hname)
    rw [List.filter_cons_of_neg (by simpa using hname'), ih hothers hrest]

end Keys

/-! ## Objects -/

section Objects

variable {key : String} {presence : Presence} {shape : Shape} {fields : Fields} {cs : List Char}
  {p : Phrase} {members members' before after : List (List Char × Phrase)}

/-- The record that the members make. -/
def ofMembers (fields : Fields) (members : List (List Char × Phrase)) : Option (Values fields) :=
  (named members).bind (ofObject fields)

lemma ofPhrase_object (name : String) (fields : Fields) (members : List (List Char × Phrase)) :
    (Shape.record name fields).ofPhrase (.object members) = ofMembers fields members := by
  rw [Shape.ofPhrase, ofMembers]

lemma ofMembers_perm (fields : Fields) (h : members.Perm members') :
    ofMembers fields members = ofMembers fields members' := by
  rw [ofMembers, ofMembers]
  cases hnamed : named members with
  | some ms =>
    obtain ⟨ms', hnamed', hperm⟩ := named_perm h hnamed
    rw [hnamed']
    exact ofObject_perm fields hperm
  | none =>
    cases hnamed' : named members' with
    | none => rfl
    | some ms' =>
      obtain ⟨ms, hfound, -⟩ := named_perm h.symm hnamed'
      cases hnamed.symm.trans hfound

lemma ofMembers_unknown (spelling : Spelling cs key.toList) (h : key ∉ fields.map (·.1))
    (p : Phrase) (members : List (List Char × Phrase)) :
    ofMembers fields ((cs, p) :: members) = ofMembers fields members := by
  rw [ofMembers, ofMembers, named_cons, textOf_spelling spelling]
  cases named members with
  | none => rfl
  | some ms => exact ofObject_unknown h ms

/-- The record by the value of one member; it may be left out if it is the only one of its key. -/
lemma ofMembers_around (place : Place key presence shape fields)
    (spelling : Spelling cs key.toList) (before after : List (List Char × Phrase)) :
    ∃ frame : Option (ValueFrame place.modify),
      (∀ p, ofMembers fields (before ++ (cs, p) :: after) = around frame (shape.ofPhrase p)) ∧
      (Lacks key (before ++ after) →
        ofMembers fields (before ++ after) = around frame (presence.absent shape)) := by
  simp only [ofMembers, named_around spelling]
  rw [named_append]
  cases hb : named before with
  | none => exact ⟨none, fun _ => rfl, fun _ => rfl⟩
  | some b =>
    cases ha : named after with
    | none => exact ⟨none, fun _ => rfl, fun _ => rfl⟩
    | some a =>
      obtain ⟨frame, hframe, hleft⟩ := ofObject_around place b a
      have hnamed : named (before ++ after) = some (b ++ a) := by rw [named_append, hb, ha]; rfl
      exact ⟨frame, hframe, fun h => hleft (h.filter_eq_nil hnamed)⟩

lemma ofMembers_repeated (place : Place key presence shape fields) {cs' : List Char}
    (spelling : Spelling cs key.toList) (again : Spelling cs' key.toList)
    (before between after : List (List Char × Phrase)) (p q : Phrase) :
    ofMembers fields (before ++ (cs, p) :: (between ++ (cs', q) :: after)) = none := by
  rw [ofMembers, named_around spelling, named_around again]
  cases named before with
  | none => rfl
  | some b =>
    cases named between with
    | none => rfl
    | some c =>
      cases named after with
      | none => rfl
      | some a =>
        refine ofObject_repeated place ?_
        rw [List.filter_append, List.filter_cons_of_pos (by simp), List.filter_append,
          List.filter_cons_of_pos (by simp)]
        simp only [List.length_append, List.length_cons]
        omega

/-- Each field without a member has its value by default. -/
def Defaulted (members : List (List Char × Phrase)) : (fields : Fields) → Values fields → Prop
  | [], _ => True
  | (key, presence, shape) :: fields, (x, rest) =>
    (Lacks key members → presence.absent shape = some x) ∧ Defaulted members fields rest

lemma Defaulted.absent (place : Place key presence shape fields) {v : Values fields}
    (h : Defaulted members fields v) (hlacks : Lacks key members) :
    ∃ x, presence.absent shape = some x := by
  induction place with
  | here => exact ⟨_, h.1 hlacks⟩
  | there _ _ ih => exact ih h.2

/-- A record has for each field a member or the value by default. -/
theorem defaulted_of_ofMembers {v : Values fields} (h : ofMembers fields members = some v) :
    Defaulted members fields v := by
  obtain ⟨ms, hnamed, hv⟩ := Option.bind_eq_some_iff.1 h
  have hlacks : ∀ key, Lacks key members → ms.filter (·.1 = key) = [] :=
    fun key h => h.filter_eq_nil hnamed
  clear h hnamed
  -- the members shrink from field to field, and what they lack they still lack
  induction fields generalizing ms with
  | nil => trivial
  | cons field fields ih =>
    obtain ⟨key, presence, shape⟩ := field
    rw [ofObject] at hv
    obtain ⟨x, hx, hmap⟩ := Option.bind_eq_some_iff.1 hv
    obtain ⟨rest, hrest, rfl⟩ := Option.map_eq_some_iff.1 hmap
    refine ⟨fun h => ?_, ih _ hrest fun key' h => ?_⟩
    · rwa [hlacks key h] at hx
    · rw [List.filter_comm, hlacks key' h, List.filter_nil]

lemma defaulted_of_ofPhrase {name : String} {v : Values fields}
    (h : (Shape.record name fields).ofPhrase (.object members) = some v) :
    Defaulted members fields v :=
  defaulted_of_ofMembers ((ofPhrase_object name fields members).symm.trans h)

lemma ofMembers_missing (place : Place key presence shape fields)
    (required : presence.absent shape = none) (h : Lacks key members) :
    ofMembers fields members = none := by
  cases hv : ofMembers fields members with
  | none => rfl
  | some v =>
    obtain ⟨x, hx⟩ := (defaulted_of_ofMembers hv).absent place h
    cases required.symm.trans hx

end Objects

/-! ## Spots -/

/-- A spot in a phrase where the object of a record stands, with all that stands around it. -/
inductive Spot (fields : Fields) : Shape → Type
  | here {name : String} : Spot fields (.record name fields)
  | maybe {item : Shape} (spot : Spot fields item) : Spot fields (.maybe item)
  | item {item : Shape} (before after : List Phrase) (spot : Spot fields item) :
    Spot fields (.list item)
  /-- Behind the key of a field. -/
  | behind {name key : String} {presence : Presence} {shape : Shape} {around : Fields}
    (place : Place key presence shape around) {cs : List Char} (spelling : Spelling cs key.toList)
    (before after : List (List Char × Phrase)) (spot : Spot fields shape) :
    Spot fields (.record name around)
  /-- In a record that is written as the list of its members. -/
  | inOrder {name key : String} {presence : Presence} {shape : Shape} {around : Fields}
    (place : Place key presence shape around) (before after : List Phrase)
    (index : before.length = place.index) (spot : Spot fields shape) :
    Spot fields (.record name around)

namespace Spot

variable {fields : Fields} {shape : Shape}

/-- The phrase with these members in the object at the spot. -/
def plug (members : List (List Char × Phrase)) : {shape : Shape} → Spot fields shape → Phrase
  | _, .here => .object members
  | _, .maybe spot => spot.plug members
  | _, .item before after spot => .list (before ++ spot.plug members :: after)
  | _, @behind _ _ _ _ _ _ _ cs _ before after spot =>
    .object (before ++ (cs, spot.plug members) :: after)
  | _, .inOrder _ before after _ spot => .list (before ++ spot.plug members :: after)

/-- The value with the record at the spot changed. -/
def modify : {shape : Shape} → Spot fields shape → (Values fields → Values fields) →
    shape.Value → shape.Value
  | _, .here, f, x => f x
  | _, .maybe spot, f, x => x.map (spot.modify f)
  | _, .item before _ spot, f, xs => xs.modify before.length (spot.modify f)
  | _, .behind place _ _ _ spot, f, x => place.modify (spot.modify f) x
  | _, .inOrder place _ _ _ spot, f, x => place.modify (spot.modify f) x

lemma isNull_plug (members : List (List Char × Phrase)) (spot : Spot fields shape) :
    (spot.plug members).isNull = false := by
  induction spot with
  | maybe _ ih => exact ih
  | _ => rfl

/-- The other items of a list make a frame. -/
lemma exists_frame_mapM {α : Type} (item : Phrase → Option α) (before after : List Phrase) :
    ∃ frame : Option (ValueFrame fun f (xs : List α) => xs.modify before.length f), ∀ p,
      (before ++ p :: after).mapM item = around frame (item p) := by
  have hcons : ∀ (p : Phrase) items, (p :: items).mapM item =
      (item p).bind fun x => (items.mapM item).map (x :: ·) := fun p items => by
    rw [List.mapM_cons]
    cases item p <;> cases items.mapM item <;> rfl
  induction before with
  | nil =>
    refine ⟨(after.mapM item).map fun xs => ⟨(· :: xs), fun _ _ => rfl⟩, fun p => ?_⟩
    rw [List.nil_append, hcons]
    cases item p <;> cases after.mapM item <;> rfl
  | cons q before ih =>
    obtain ⟨frame, hframe⟩ := ih
    refine ⟨(item q).bind fun y => frame.map fun frame => ⟨fun x => y :: frame.fill x,
      fun f x => congrArg (y :: ·) (frame.modify_fill f x)⟩, fun p => ?_⟩
    rw [List.cons_append, hcons, hframe]
    cases item q with
    | none => rfl
    | some y =>
      cases frame with
      | none => rfl
      | some frame => exact Option.map_map ..

/-- What stands around the object of a record makes a frame for the record. -/
theorem ofPhrase_plug (spot : Spot fields shape) :
    ∃ frame : Option (ValueFrame spot.modify), ∀ members,
      shape.ofPhrase (spot.plug members) = around frame (ofMembers fields members) := by
  induction spot with
  | @here name =>
    refine ⟨some ⟨id, fun _ _ => rfl⟩, fun members => ?_⟩
    exact (ofPhrase_object name fields members).trans Option.map_id_apply.symm
  | @maybe item spot ih =>
    obtain ⟨frame, hframe⟩ := ih
    refine ⟨frame.map fun frame => ⟨fun x => some (frame.fill x),
      fun f x => congrArg some (frame.modify_fill f x)⟩, fun members => ?_⟩
    rw [plug, Shape.ofPhrase, asMaybe, isNull_plug, hframe]
    cases frame with
    | none => rfl
    | some frame => exact Option.map_map ..
  | @item item before after spot ih =>
    obtain ⟨frame, hframe⟩ := ih
    obtain ⟨list, hlist⟩ := exists_frame_mapM item.ofPhrase before after
    refine ⟨list.bind fun list => frame.map list.comp, fun members => ?_⟩
    rw [plug, Shape.ofPhrase, asList, hlist, hframe, around_around]
    rfl
  | @behind name key presence shape around place cs spelling before after spot ih =>
    obtain ⟨frame, hframe⟩ := ih
    obtain ⟨record, hrecord, -⟩ := ofMembers_around place spelling before after
    refine ⟨record.bind fun record => frame.map record.comp, fun members => ?_⟩
    rw [plug, ofPhrase_object, hrecord, hframe, around_around]
    rfl
  | @inOrder name key presence shape around place before after index spot ih =>
    obtain ⟨frame, hframe⟩ := ih
    obtain ⟨record, hrecord⟩ := ofList_place place before after index
    refine ⟨record.bind fun record => frame.map record.comp, fun members => ?_⟩
    rw [plug, Shape.ofPhrase, hrecord, hframe, around_around]
    rfl

end Spot

/-! ## The relations -/

/-- Phrases that differ, as values of the shape, in the order of members and in members under keys
that no field has. -/
inductive Variant (shape : Shape) : Phrase → Phrase → Prop
  | refl (p : Phrase) : Variant shape p p
  | symm {p q : Phrase} (h : Variant shape p q) : Variant shape q p
  | trans {p q r : Phrase} (h : Variant shape p q) (h' : Variant shape q r) : Variant shape p r
  | order {fields : Fields} (spot : Spot fields shape)
    {members members' : List (List Char × Phrase)}
    (perm : members.Perm members') : Variant shape (spot.plug members) (spot.plug members')
  /-- The value of the further member is any value at all. -/
  | further {fields : Fields} (spot : Spot fields shape) {key : String} {cs : List Char}
    (spelling : Spelling cs key.toList) (unknown : key ∉ fields.map (·.1)) (p : Phrase)
    (members : List (List Char × Phrase)) :
    Variant shape (spot.plug members) (spot.plug ((cs, p) :: members))

/-- The second phrase is the first one but for one member of a record, whose field has a value in
its absence; the last argument puts that value into the field. -/
inductive LeavesOut (shape : Shape) : Phrase → Phrase → (shape.Value → shape.Value) → Prop
  | mk {fields : Fields} (spot : Spot fields shape) {key : String} {presence : Presence}
    {field : Shape} (place : Place key presence field fields) {x : field.Value}
    (absent : presence.absent field = some x) {cs : List Char} (spelling : Spelling cs key.toList)
    {before after : List (List Char × Phrase)} (others : Lacks key (before ++ after)) (p : Phrase) :
    LeavesOut shape (spot.plug (before ++ (cs, p) :: after)) (spot.plug (before ++ after))
      (spot.modify (place.modify fun _ => x))

/-- A record has two members for one field, or none for one that is required. -/
inductive Faulty (shape : Shape) : Phrase → Prop
  | repeated {fields : Fields} (spot : Spot fields shape) {key : String} {presence : Presence}
    {field : Shape} (place : Place key presence field fields) {cs cs' : List Char}
    (spelling : Spelling cs key.toList) (again : Spelling cs' key.toList)
    (before between after : List (List Char × Phrase)) (p q : Phrase) :
    Faulty shape (spot.plug (before ++ (cs, p) :: (between ++ (cs', q) :: after)))
  | missing {fields : Fields} (spot : Spot fields shape) {key : String} {presence : Presence}
    {field : Shape} (place : Place key presence field fields)
    (required : presence.absent field = none) {members : List (List Char × Phrase)}
    (lacks : Lacks key members) : Faulty shape (spot.plug members)

section Relations

variable {shape : Shape} {p q : Phrase}

/-- Variants come to the same. -/
theorem Variant.ofPhrase_eq (h : Variant shape p q) : shape.ofPhrase p = shape.ofPhrase q := by
  induction h with
  | refl => rfl
  | symm _ ih => exact ih.symm
  | trans _ _ ih ih' => exact ih.trans ih'
  | order spot perm =>
    obtain ⟨frame, hframe⟩ := spot.ofPhrase_plug
    rw [hframe, hframe, ofMembers_perm _ perm]
  | further spot spelling unknown p members =>
    obtain ⟨frame, hframe⟩ := spot.ofPhrase_plug
    rw [hframe, hframe, ofMembers_unknown spelling unknown]

/-- Without the member it comes to the same but for the field, which has its value by default. -/
theorem LeavesOut.ofPhrase_eq_some {put : shape.Value → shape.Value} (h : LeavesOut shape p q put) :
    (∀ v, shape.ofPhrase p = some v → shape.ofPhrase q = some (put v)) ∧
      ∀ v, shape.ofPhrase q = some v → put v = v := by
  obtain @⟨_, spot, _, _, _, place, x, absent, _, spelling, _, _, others, p⟩ := h
  obtain ⟨outer, houter⟩ := spot.ofPhrase_plug
  obtain ⟨record, hrecord, hleft⟩ := ofMembers_around place spelling _ _
  rw [houter, houter, hrecord, hleft others, absent, around_around, around_around]
  have hput := map_around (outer.bind fun outer => record.map outer.comp)
  constructor
  · intro v hv
    cases hp : Shape.ofPhrase _ p with
    | none =>
      rw [hp, around_none] at hv
      cases hv
    | some y =>
      rw [hp] at hv
      exact (hput (some y) fun _ => x).symm.trans (congrArg (Option.map _) hv)
  · intro v hv
    have hmap := hput (some x) fun _ => x
    rw [Option.map_some, hv] at hmap
    exact Option.some.inj hmap

/-- A record with a fault comes to nothing. -/
theorem Faulty.ofPhrase_eq_none (h : Faulty shape p) : shape.ofPhrase p = none := by
  cases h with
  | repeated spot place spelling again before between after p q =>
    obtain ⟨frame, hframe⟩ := spot.ofPhrase_plug
    rw [hframe, ofMembers_repeated place spelling again, around_none]
  | missing spot place required lacks =>
    obtain ⟨frame, hframe⟩ := spot.ofPhrase_plug
    rw [hframe, ofMembers_missing place required lacks, around_none]

end Relations

end Phrase

/-! ## Program types -/

section Forms

open Phrase

/-- The text holds one value, spelled as the phrase, with any space between its tokens. -/
def Spells (text : String) (p : Phrase) : Prop := Phrase.Element text.toList p

/-- What reading a program type makes of texts that differ. -/
structure Tolerant (α : Type) [Form α] : Prop where
  /-- Space between tokens, the order of members and members under unknown keys make no
  difference: both texts are read as the same value, or neither is read. -/
  variants : ∀ {s t : String} {p q : Phrase}, Spells s p → Spells t q →
    Variant (Form.shape α) p q → ∀ a : α, read s = .ok a ↔ read t = .ok a
  /-- With a member left out that need not be there, its field has the value by default, and all
  else is as it was. -/
  leftOut : ∀ {s t : String} {p q : Phrase} {put : (Form.shape α).Value → (Form.shape α).Value},
    Spells s p → Spells t q → LeavesOut (Form.shape α) p q put →
    (∀ a : α, read s = .ok a → read t = .ok (Form.ofValue (put (Form.toValue a)) : α)) ∧
    ∀ a : α, read t = .ok a → Form.ofValue (put (Form.toValue a)) = a
  /-- With a known member twice, or without a required one, the text is not read. -/
  faulty : ∀ {s : String} {p : Phrase}, Spells s p → Faulty (Form.shape α) p →
    ∀ a : α, read s ≠ .ok a

variable {α : Type} [Form α] {s t : String} {p q : Phrase}

lemma read_eq_ok_iff (h : Spells s p) {a : α} :
    read s = .ok a ↔ (Form.shape α).ofPhrase p = some (Form.toValue a) := by
  have hread := (Form.shape α).read_phrase h
  rw [read, readSymbols, Symbol.ofText, ← hread]
  cases (Form.shape α).read (s.toList.map .char) with
  | error e => constructor <;> rintro ⟨⟩
  | ok v =>
    constructor
    · rintro ⟨⟩
      exact congrArg some (Form.toValue_ofValue v).symm
    · intro hv
      rw [Option.some.inj hv]
      exact congrArg Except.ok (Form.ofValue_toValue a)

/-- Every program type is read with this tolerance. -/
theorem tolerant (α : Type) [Form α] : Tolerant α where
  variants hs ht h a := by rw [read_eq_ok_iff hs, read_eq_ok_iff ht, h.ofPhrase_eq]
  leftOut hs ht h := by
    refine ⟨fun a ha => ?_, fun a ha => ?_⟩
    · rw [read_eq_ok_iff ht, Form.toValue_ofValue]
      exact h.ofPhrase_eq_some.1 _ ((read_eq_ok_iff hs).1 ha)
    · rw [h.ofPhrase_eq_some.2 _ ((read_eq_ok_iff ht).1 ha), Form.ofValue_toValue]
  faulty hs h a ha := by
    have hsome := (read_eq_ok_iff hs).1 ha
    rw [h.ofPhrase_eq_none] at hsome
    cases hsome

end Forms

end WorkflowCanvas.Json
