import WorkflowCanvas.Proofs.Json.OfPhrase

/-!
# One field of a record

A field has a place among the fields of its record.  What the object of a record comes to depends on
the members of the field's key in one way only: the other members make a frame (`ValueFrame`), and
the field's value goes into it (`ofObject_place`).  The same holds of a record that is written as a
list (`ofList_place`).

The order of the members does not matter (`ofObject_perm`), and neither does a member of a key that
no field has (`ofObject_unknown`).
-/

namespace WorkflowCanvas.Json

open Phrase

/-! ## Frames -/

section Frames

variable {α β γ : Type} {modify : (α → α) → β → β} {modify' : (β → β) → γ → γ}

/-- A whole but for a part of it; `modify` changes that part in the whole. -/
structure ValueFrame (modify : (α → α) → β → β) where
  fill : α → β
  modify_fill : ∀ f x, modify f (fill x) = fill (f x)

namespace ValueFrame

/-- A frame in a frame. -/
def comp (outer : ValueFrame modify') (inner : ValueFrame modify) :
    ValueFrame fun f => modify' (modify f) where
  fill x := outer.fill (inner.fill x)
  modify_fill f x := by rw [outer.modify_fill, inner.modify_fill]

/-- The whole with this part, if there are both. -/
def around (frame : Option (ValueFrame modify)) (part : Option α) : Option β :=
  frame.bind fun frame => part.map frame.fill

@[simp] lemma around_none (frame : Option (ValueFrame modify)) : around frame none = none := by
  cases frame <;> rfl

/-- To change the part in the whole is to change it before. -/
lemma map_around (frame : Option (ValueFrame modify)) (part : Option α) (f : α → α) :
    (around frame part).map (modify f) = around frame (part.map f) := by
  cases frame with
  | none => rfl
  | some frame =>
    cases part with
    | none => rfl
    | some x => exact congrArg some (frame.modify_fill f x)

lemma around_around (outer : Option (ValueFrame modify')) (inner : Option (ValueFrame modify))
    (part : Option α) : around outer (around inner part) =
      around (outer.bind fun outer => inner.map outer.comp) part := by
  cases outer with
  | none => rfl
  | some outer =>
    cases inner with
    | none => rfl
    | some inner => exact Option.map_map ..

end ValueFrame

end Frames

open ValueFrame

namespace Fields

/-! ## Places -/

/-- The place of a field in a record: the first one of its key. -/
inductive Place (key : String) (presence : Presence) (shape : Shape) : Fields → Type
  | here {fields : Fields} : Place key presence shape ((key, presence, shape) :: fields)
  | there {key' : String} {presence' : Presence} {shape' : Shape} {fields : Fields}
    (ne : key' ≠ key) (place : Place key presence shape fields) :
    Place key presence shape ((key', presence', shape') :: fields)

variable {fields : Fields} {key : String} {presence : Presence} {shape : Shape}

namespace Place

/-- How many fields stand before it. -/
def index : {fields : Fields} → Place key presence shape fields → Nat
  | _, .here => 0
  | _, .there _ place => place.index + 1

/-- The record with the value of this field changed. -/
def modify : {fields : Fields} → Place key presence shape fields → (shape.Value → shape.Value) →
    Values fields → Values fields
  | _, .here, f, (x, rest) => (f x, rest)
  | _, .there _ place, f, (x, rest) => (x, place.modify f rest)

/-- A record but for its first field. -/
def first (rest : Values fields) :
    ValueFrame (here : Place key presence shape ((key, presence, shape) :: fields)).modify where
  fill x := (x, rest)
  modify_fill _ _ := rfl

/-- A record but for a field behind its first one. -/
def behind {key' : String} {presence' : Presence} {shape' : Shape} (ne : key' ≠ key)
    {place : Place key presence shape fields} (y : shape'.Value) (frame : ValueFrame place.modify) :
    ValueFrame (place.there ne : Place key presence shape
      ((key', presence', shape') :: fields)).modify where
  fill x := (y, frame.fill x)
  modify_fill f x := Prod.ext rfl (frame.modify_fill f x)

end Place

/-- Among the members of other keys are all those of one of these. -/
lemma filter_ne_filter_eq {key' : String} (ne : key' ≠ key) (members : List (String × Phrase)) :
    (members.filter (·.1 ≠ key)).filter (·.1 = key') = members.filter (·.1 = key') := by
  rw [List.filter_filter]
  refine List.filter_congr fun m _ => ?_
  by_cases hm : m.1 = key' <;> simp [hm, ne]

/-- The members of other keys make a frame, and those of the field's key make its value. -/
theorem ofObject_place (place : Place key presence shape fields)
    (others : List (String × Phrase)) :
    ∃ frame : Option (ValueFrame place.modify), ∀ members, members.filter (·.1 ≠ key) = others →
      ofObject fields members = around frame
        (occurring (presence.absent shape) shape.ofPhrase (members.filter (·.1 = key))) := by
  induction place generalizing others with
  | @here fields =>
    refine ⟨(ofObject fields others).map Place.first, fun members hothers => ?_⟩
    rw [ofObject, hothers]
    cases occurring (presence.absent shape) shape.ofPhrase (members.filter (·.1 = key)) <;>
      cases ofObject fields others <;> rfl
  | @there key' presence' shape' fields ne place ih =>
    -- the first field takes its members from the others
    obtain ⟨frame, hframe⟩ := ih (others.filter (·.1 ≠ key'))
    refine ⟨(occurring (presence'.absent shape') shape'.ofPhrase
      (others.filter (·.1 = key'))).bind fun y => frame.map (Place.behind ne y), ?_⟩
    rintro members rfl
    have hothers : (members.filter (·.1 ≠ key')).filter (·.1 ≠ key) =
        (members.filter (·.1 ≠ key)).filter (·.1 ≠ key') := List.filter_comm ..
    rw [ofObject, hframe _ hothers, filter_ne_filter_eq ne.symm, filter_ne_filter_eq ne]
    cases occurring (presence'.absent shape') shape'.ofPhrase (members.filter (·.1 = key')) with
    | none => rfl
    | some y =>
      cases frame with
      | none => rfl
      | some frame => exact Option.map_map ..

lemma occurring_eq_none {α : Type} {absent : Option α} {item : Phrase → Option α}
    {members : List (String × Phrase)} (h : 2 ≤ members.length) :
    occurring absent item members = none := by
  match members with
  | _ :: _ :: _ => rfl

/-- With two members for one field there is no record. -/
lemma ofObject_repeated (place : Place key presence shape fields)
    {members : List (String × Phrase)} (h : 2 ≤ (members.filter (·.1 = key)).length) :
    ofObject fields members = none := by
  obtain ⟨frame, hframe⟩ := ofObject_place place (members.filter (·.1 ≠ key))
  rw [hframe members rfl, occurring_eq_none h, around_none]

/-- With one member taken out, a record is a frame for the value of that member; if there is no
other one of its key, the member may be left out. -/
lemma ofObject_around (place : Place key presence shape fields)
    (before after : List (String × Phrase)) :
    ∃ frame : Option (ValueFrame place.modify),
      (∀ p, ofObject fields (before ++ (key, p) :: after) = around frame (shape.ofPhrase p)) ∧
      ((before ++ after).filter (·.1 = key) = [] →
        ofObject fields (before ++ after) = around frame (presence.absent shape)) := by
  have hown : ∀ p, (before ++ (key, p) :: after).filter (·.1 = key) =
      before.filter (·.1 = key) ++ (key, p) :: after.filter (·.1 = key) := fun p => by simp
  by_cases honly : (before ++ after).filter (·.1 = key) = []
  · obtain ⟨frame, hframe⟩ := ofObject_place place ((before ++ after).filter (·.1 ≠ key))
    have hnone : before.filter (·.1 = key) = [] ∧ after.filter (·.1 = key) = [] := by
      rwa [List.filter_append, List.append_eq_nil_iff] at honly
    refine ⟨frame, fun p => ?_, fun _ => ?_⟩
    · rw [hframe _ (by simp), hown, hnone.1, hnone.2]
      rfl
    · rw [hframe _ rfl, honly]
      rfl
  · refine ⟨none, fun p => ofObject_repeated place ?_, fun h => absurd h honly⟩
    have hpos := List.length_pos_iff.2 honly
    rw [List.filter_append, List.length_append] at hpos
    rw [hown, List.length_append, List.length_cons]
    omega

/-- The other items make a frame, and the field's item makes its value. -/
theorem ofList_place (place : Place key presence shape fields) (before after : List Phrase)
    (hbefore : before.length = place.index) :
    ∃ frame : Option (ValueFrame place.modify), ∀ p,
      ofList fields (before ++ p :: after) = around frame (shape.ofPhrase p) := by
  induction place generalizing before with
  | @here fields =>
    obtain rfl := List.eq_nil_of_length_eq_zero hbefore
    refine ⟨(ofList fields after).map Place.first, fun p => ?_⟩
    rw [List.nil_append, ofList]
    cases shape.ofPhrase p <;> cases ofList fields after <;> rfl
  | @there key' presence' shape' fields ne place ih =>
    obtain _ | ⟨p', before⟩ := before
    · cases hbefore
    obtain ⟨frame, hframe⟩ := ih before (Nat.succ.inj hbefore)
    refine ⟨(shape'.ofPhrase p').bind fun y => frame.map (Place.behind ne y), fun p => ?_⟩
    rw [List.cons_append, ofList, hframe p]
    cases shape'.ofPhrase p' with
    | none => rfl
    | some y =>
      cases frame with
      | none => rfl
      | some frame => exact Option.map_map ..

lemma occurring_perm {α : Type} (absent : Option α) (item : Phrase → Option α)
    {members members' : List (String × Phrase)} (h : members.Perm members') :
    occurring absent item members = occurring absent item members' := by
  match members, members', h with
  | [], _, h => rw [List.nil_perm.1 h]
  | [m], _, h => rw [List.singleton_perm.1 h]
  | _ :: _ :: _, [], h => cases h.eq_nil
  | _ :: _ :: _, [_], h => cases h.eq_singleton
  | _ :: _ :: _, _ :: _ :: _, _ => rfl

/-- The order of the members does not matter. -/
theorem ofObject_perm (fields : Fields) {members members' : List (String × Phrase)}
    (h : members.Perm members') : ofObject fields members = ofObject fields members' := by
  induction fields generalizing members members' with
  | nil => rfl
  | cons field fields ih =>
    obtain ⟨key, presence, shape⟩ := field
    rw [ofObject, ofObject, occurring_perm _ _ (h.filter _), ih (h.filter _)]

/-- A member of a key that no field has does not matter. -/
theorem ofObject_unknown {fields : Fields} {m : String × Phrase}
    (h : m.1 ∉ fields.map (·.1)) (members : List (String × Phrase)) :
    ofObject fields (m :: members) = ofObject fields members := by
  induction fields generalizing members with
  | nil => rfl
  | cons field fields ih =>
    obtain ⟨key, presence, shape⟩ := field
    obtain ⟨hne, hfields⟩ : m.1 ≠ key ∧ m.1 ∉ fields.map (·.1) := by simpa using h
    rw [ofObject, ofObject, List.filter_cons_of_neg (by simpa using hne),
      List.filter_cons_of_pos (by simpa using hne), ih hfields]

end Fields

end WorkflowCanvas.Json
