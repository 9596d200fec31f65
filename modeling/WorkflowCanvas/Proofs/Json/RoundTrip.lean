import WorkflowCanvas.Proofs.Json.Loops

/-!
# Reading what was written

`Shape.read_chars` is the law of the JSON text of all program types: what a shape writes in either
layout is read back by the shape, with every finite number replaced by what `Binary64.reread` makes
of it.  It asks of the shape only that its values can be told apart (`Shape.isUnambiguous`): the
words of a choice and the keys of a record differ, and what may be `null` is not itself the item of
such a value.  The proof follows the shape.
-/

namespace WorkflowCanvas.Json

/-! ## Records -/

mutual

/-- Whether reading can tell the values of the shape apart. -/
def Shape.isUnambiguous : Shape → Bool
  | .text | .number | .flag => true
  | .word choices => decide choices.Nodup
  | .maybe item => !item.isMaybe && item.isUnambiguous
  | .list item | .table item => item.isUnambiguous
  | .record _ fields => decide (fields.map (·.1)).Nodup && Fields.isUnambiguous fields

/-- Whether this holds of the members of a record. -/
def Fields.isUnambiguous : Fields → Bool
  | [] => true
  | (_, _, shape) :: fields => shape.isUnambiguous && Fields.isUnambiguous fields

end

namespace Fields

/-- The slots after all written members were read; those that are not written stay empty. -/
def filled : (fields : Fields) → Values fields → Slots fields
  | [], () => ()
  | (_, .omittable, .maybe _) :: fields, (none, rest) => (none, filled fields rest)
  | (_, _, shape) :: fields, (x, rest) => (some (shape.mapNumbers Binary64.reread x),
      filled fields rest)

/-- A member is either written, or absent and then has its value by default. -/
lemma written_or_omitted (key : String) (presence : Presence) (shape : Shape) (fields : Fields)
    (x : shape.Value) (rest : Values fields) :
    (toMembers ((key, presence, shape) :: fields) (x, rest) =
        (key, shape.toTree x) :: toMembers fields rest ∧
      filled ((key, presence, shape) :: fields) (x, rest) =
        (some (shape.mapNumbers Binary64.reread x), filled fields rest)) ∨
    (toMembers ((key, presence, shape) :: fields) (x, rest) = toMembers fields rest ∧
      filled ((key, presence, shape) :: fields) (x, rest) = (none, filled fields rest) ∧
      presence.absent shape = some (shape.mapNumbers Binary64.reread x)) := by
  cases presence <;> cases shape <;>
    first
    | exact .inl ⟨rfl, rfl⟩
    | cases x with
      | none => exact .inr ⟨rfl, rfl, rfl⟩
      | some x => exact .inl ⟨rfl, rfl⟩

lemma complete_filled (fields : Fields) (v : Values fields) :
    complete fields (filled fields v) = .ok (mapNumbers Binary64.reread fields v) := by
  induction fields with
  | nil => rfl
  | cons field fields ih =>
    obtain ⟨key, presence, shape⟩ := field
    obtain ⟨x, rest⟩ := v
    rcases written_or_omitted key presence shape fields x rest with ⟨-, hfilled⟩ |
      ⟨-, hfilled, habsent⟩
    · rw [hfilled, complete, Option.some_or, ih rest]
      rfl
    · rw [hfilled, complete, Option.none_or, habsent, ih rest]
      rfl

end Fields

section Shapes

variable {layout : Layout} {depth rounds : Nat}

lemma Shape.AllFinite.opens {shape : Shape} {v : shape.Value} (h : shape.AllFinite v)
    (layout : Layout) (depth : Nat) : Opens ((shape.toTree v).charsAt layout depth) := by
  obtain ⟨c, cs, hcs, hc, -⟩ := shape.charsAt_eq_cons layout depth v h
  exact ⟨c, cs, hcs, hc⟩

/-- A member whose slot is empty is read into it. -/
lemma takes_readMember {key : String} {presence : Presence} {shape : Shape} {fields : Fields}
    {text : List Char} {y : shape.Value} (slots : Fields.Slots fields) (hopens : Opens text)
    (htakes : Takes (shape.readFrom rounds) text y) :
    Takes (Fields.readMember rounds ((key, presence, shape) :: fields) key (none, slots))
      (layout.colon ++ text) (some y, slots) := by
  intro rest hrest
  obtain ⟨input, hcolon, hinput⟩ := readColon_colon layout hopens rest
  rw [Fields.readMember, if_pos rfl]
  dsimp only
  rw [hcolon]
  dsimp only
  rw [← Shape.readFrom_afterSpace, hinput, htakes rest hrest]
  rfl

lemma readMember_of_ne {key key' : String} {presence : Presence} {shape : Shape} {fields : Fields}
    (slot : Option shape.Value) (slots : Fields.Slots fields) (hne : key' ≠ key)
    (input : List Symbol) :
    Fields.readMember rounds ((key, presence, shape) :: fields) key' (slot, slots) input =
      (Fields.readMember rounds fields key' slots input).map fun p => ((slot, p.1), p.2) := by
  rw [Fields.readMember.eq_def]
  exact if_neg hne

/-- Members of other keys leave the slot of a key as it is. -/
lemma MemberChain.lift {key : String} {presence : Presence} {shape : Shape} {fields : Fields}
    (slot : Option shape.Value) {members : List (String × Tree)}
    {first last : Fields.Slots fields}
    (chain : MemberChain (Fields.readMember rounds fields) layout depth members first last)
    (hkeys : ∀ e ∈ members, e.1 ≠ key) :
    MemberChain (Fields.readMember rounds ((key, presence, shape) :: fields)) layout depth members
      (slot, first) (slot, last) := by
  induction chain with
  | nil state => exact .nil _
  | @cons key' value members first second last takes _ ih =>
    have hne : key' ≠ key := hkeys (key', value) List.mem_cons_self
    have hlifted : Takes
        (Fields.readMember rounds ((key, presence, shape) :: fields) key' (slot, first))
        (layout.colon ++ value.charsAt layout (depth + 1)) (slot, second) := by
      intro rest hrest
      rw [readMember_of_ne slot first hne, takes rest hrest]
      rfl
    exact .cons hlifted (ih fun e he => hkeys e (List.mem_cons_of_mem _ he))

lemma Fields.key_mem_of_mem_toMembers : ∀ (fields : Fields) (v : Fields.Values fields),
    ∀ e ∈ Fields.toMembers fields v, e.1 ∈ fields.map (·.1)
  | [], (), e, he => nomatch he
  | (key, presence, shape) :: fields, (x, rest), e, he => by
    have hrest := Fields.key_mem_of_mem_toMembers fields rest
    rw [List.map_cons]
    rcases Fields.written_or_omitted key presence shape fields x rest with ⟨hmembers, -⟩ |
      ⟨hmembers, -, -⟩
    · rw [hmembers] at he
      rcases List.mem_cons.1 he with rfl | he
      · exact List.mem_cons_self
      · exact List.mem_cons_of_mem _ (hrest e he)
    · rw [hmembers] at he
      exact List.mem_cons_of_mem _ (hrest e he)

/-! ## Values by their shape -/

lemma takes_text (s : String) (layout : Layout) (depth : Nat) :
    Takes (Shape.text.readFrom rounds) ((Tree.text s).charsAt layout depth) s := by
  intro rest _
  obtain ⟨input, htext, hread⟩ := readText_quoted s rest
  have hchars : (Tree.text s).charsAt layout depth = textChars s := rfl
  rw [Shape.readFrom, readTextValue, hchars, htext]
  exact hread

lemma takes_number {x : Binary64} (hx : x.isFinite = true) (layout : Layout) (depth : Nat) :
    Takes (Shape.number.readFrom rounds) ((Tree.ofBinary64 x).charsAt layout depth) x.reread := by
  intro rest hrest
  have hread := readNumber_realChars hx hrest
  obtain ⟨c, cs, hcs, hc⟩ := realChars_eq_cons hx
  have hspace : isSpace (.char c) = false :=
    isSpace_of_opensValue (by rw [opensValue, hc, Bool.or_true])
  have hchars : (Tree.ofBinary64 x).charsAt layout depth = realChars x := rfl
  rw [hcs] at hread
  rw [Shape.readFrom, readNumberValue, hchars, hcs, List.map_cons, List.cons_append,
    afterSpace_cons hspace]
  dsimp only
  rw [if_pos (symbol_of_startsNumber hc)]
  rw [List.map_cons, List.cons_append] at hread
  rw [hread]
  rfl

lemma takes_word {choices : List String} (hnodup : choices.Nodup) (i : Fin choices.length)
    (layout : Layout) (depth : Nat) :
    Takes ((Shape.word choices).readFrom rounds)
      ((Tree.text choices[i]).charsAt layout depth) i := by
  intro rest _
  obtain ⟨input, htext, hread⟩ := readText_quoted choices[i] rest
  have hchars : (Tree.text choices[i]).charsAt layout depth = textChars choices[i] := rfl
  have hfind : findWord choices choices[i] = .ok i := by
    have hplace : choices.finIdxOf? choices[i] = some i := by
      rw [List.finIdxOf?_eq_some_iff]
      refine ⟨rfl, fun j hj heq => ?_⟩
      exact List.pairwise_iff_getElem.1 hnodup j i j.2 i.2 hj heq
    rw [findWord, hplace]
  rw [Shape.readFrom, readWord, hchars, htext]
  change Except.bind (readText input) (fun p => Except.bind (findWord choices p.1)
    fun i => .ok (i, p.2)) = _
  rw [hread]
  change Except.bind (findWord choices choices[i]) (fun i => .ok (i, rest)) = _
  rw [hfind]
  rfl

lemma takes_flag (b : Bool) (layout : Layout) (depth : Nat) :
    Takes (Shape.flag.readFrom rounds) ((Tree.flag b).charsAt layout depth) b := by
  intro rest _
  cases b <;> rfl

/-- What is not `null` is read as an item. -/
lemma takes_some {item : Shape} {text : List Char} {y : item.Value}
    (hopens : ∃ c cs, text = c :: cs ∧ opensValue c = true ∧ c ≠ 'n')
    (htakes : Takes (item.readFrom rounds) text y) :
    Takes (item.maybe.readFrom rounds) text (some y) := by
  intro rest hrest
  have hread := htakes rest hrest
  obtain ⟨c, cs, rfl, hc, hne⟩ := hopens
  rw [Shape.readFrom, List.map_cons, List.cons_append,
    afterSpace_cons (isSpace_of_opensValue hc)]
  rw [List.map_cons, List.cons_append] at hread
  split
  · rename_i heq
    exact absurd (Symbol.char.inj (List.cons.inj heq).1) hne
  · rw [hread]
    rfl

lemma readFrom_record {fields : Fields} {input rest : List Symbol} {slots : Fields.Slots fields}
    {values : Fields.Values fields} (name : String)
    (hread : readMembers (Fields.readMember rounds fields) rounds true (Fields.noSlots fields)
      input = .ok (slots, rest))
    (hcomplete : Fields.complete fields slots = .ok values) :
    (Shape.record name fields).readFrom rounds (.char '\x7b' :: input) = .ok (values, rest) := by
  have hinner : (match readMembers (Fields.readMember rounds fields) rounds true
        (Fields.noSlots fields) input with
      | .error e => Except.error e
      | .ok (slots, rest) =>
        match Fields.complete fields slots with
        | .ok values => .ok (values, rest)
        | .error key => .error (.missingMember key)) = .ok (values, rest) := by
    rw [hread]
    dsimp only
    rw [hcomplete]
  exact hinner

mutual

/-- What a shape writes it takes back, by recursion on the shape. -/
theorem Shape.takes_chars (layout : Layout) (rounds : Nat) :
    ∀ (shape : Shape) (v : shape.Value) (depth : Nat), shape.isUnambiguous = true →
      shape.AllFinite v → ((shape.toTree v).charsAt layout depth).length < rounds →
      Takes (shape.readFrom rounds) ((shape.toTree v).charsAt layout depth)
        (shape.mapNumbers Binary64.reread v)
  | .text, s, depth, _, _, _ => takes_text s layout depth
  | .number, x, depth, _, hfinite, _ =>
    takes_number (hfinite x (List.mem_singleton.2 rfl)) layout depth
  | .flag, b, depth, _, _, _ => takes_flag b layout depth
  | .word choices, i, depth, hun, _, _ => takes_word (of_decide_eq_true hun) i layout depth
  | .maybe item, none, depth, _, _, _ => fun _ _ => rfl
  | .maybe item, some x, depth, hun, hfinite, hlength => by
    obtain ⟨hmaybe, hitem⟩ := Bool.and_eq_true_iff.1 hun
    have hplain : item.isMaybe = false := by simpa using hmaybe
    obtain ⟨c, cs, hcs, hc, hne⟩ := item.charsAt_eq_cons layout depth x hfinite
    exact takes_some ⟨c, cs, hcs, hc, hne hplain⟩
      (Shape.takes_chars layout rounds item x depth hitem hfinite hlength)
  | .list item, xs, depth, hun, hfinite, hlength => by
    obtain ⟨hcount, hitems⟩ := length_list layout depth (xs.map item.toTree)
    obtain ⟨text, htext⟩ := Tree.list_eq_cons layout depth (xs.map item.toTree)
    have hall : ∀ x ∈ xs, item.AllFinite x := fun x hx y hy =>
      hfinite y (List.mem_flatMap.2 ⟨x, hx, hy⟩)
    have htakes : ∀ x ∈ xs, Opens ((item.toTree x).charsAt layout (depth + 1)) ∧
        Takes (item.readFrom rounds) ((item.toTree x).charsAt layout (depth + 1))
          (item.mapNumbers Binary64.reread x) := by
      intro x hx
      have hlt := (hitems _ (List.mem_map_of_mem hx)).trans hlength
      exact ⟨(hall x hx).opens layout (depth + 1),
        Shape.takes_chars layout rounds item x (depth + 1) hun (hall x hx) hlt⟩
    rw [List.length_map] at hcount
    intro rest _
    rw [Shape.readFrom, Shape.toTree, htext, List.map_cons, List.cons_append, afterSpace_cons rfl]
    exact readItems_list rest xs rounds (hcount.trans hlength) htakes htext
  | .table item, t, depth, hun, hfinite, hlength => by
    obtain ⟨hcount, hentries⟩ :=
      length_object layout depth (t.entries.map fun e => (e.1, item.toTree e.2))
    obtain ⟨text, htext⟩ :=
      Tree.object_eq_cons layout depth (t.entries.map fun e => (e.1, item.toTree e.2))
    have hall : ∀ e ∈ t.entries, item.AllFinite e.2 := fun e he y hy =>
      hfinite y (List.mem_flatMap.2 ⟨e, he, hy⟩)
    have htakes : ∀ e ∈ t.entries, Opens ((item.toTree e.2).charsAt layout (depth + 1)) ∧
        Takes (item.readFrom rounds) ((item.toTree e.2).charsAt layout (depth + 1))
          (item.mapNumbers Binary64.reread e.2) := by
      intro e he
      have hlt := (hentries _ (List.mem_map_of_mem he)).trans hlength
      exact ⟨(hall e he).opens layout (depth + 1),
        Shape.takes_chars layout rounds item e.2 (depth + 1) hun (hall e he) hlt⟩
    have hchain := memberChain_entries (item.readFrom_afterSpace rounds) t.entries [] .empty
      (t.map (item.mapNumbers Binary64.reread)) t.ascending htakes rfl rfl
    intro rest _
    rw [Shape.readFrom, Shape.toTree, htext, List.map_cons, List.cons_append, afterSpace_cons rfl]
    refine (readEntries_eq_readMembers ..).trans ?_
    exact readMembers_object hchain rest rounds (hcount.trans hlength) htext
  | .record name fields, x, depth, hun, hfinite, hlength => by
    obtain ⟨hkeys, hfields⟩ := Bool.and_eq_true_iff.1 hun
    obtain ⟨hcount, hmembers⟩ := length_object layout depth (Fields.toMembers fields x)
    obtain ⟨text, htext⟩ := Tree.object_eq_cons layout depth (Fields.toMembers fields x)
    have hchain := Fields.memberChain layout rounds fields x depth hfields
      (of_decide_eq_true hkeys) hfinite fun e he => (hmembers e he).trans hlength
    intro rest _
    have hread := readMembers_object hchain rest rounds (hcount.trans hlength) htext
    rw [Shape.toTree, htext]
    exact readFrom_record name hread (Fields.complete_filled fields x)

/-- What the members of a record write fills their slots. -/
theorem Fields.memberChain (layout : Layout) (rounds : Nat) :
    ∀ (fields : Fields) (v : Fields.Values fields) (depth : Nat),
      Fields.isUnambiguous fields = true → (fields.map (·.1)).Nodup →
      (∀ x ∈ Fields.numbers fields v, x.isFinite = true) →
      (∀ e ∈ Fields.toMembers fields v, (e.2.charsAt layout (depth + 1)).length < rounds) →
      MemberChain (Fields.readMember rounds fields) layout depth (Fields.toMembers fields v)
        (Fields.noSlots fields) (Fields.filled fields v)
  | [], (), depth, _, _, _, _ => .nil ()
  | (key, presence, shape) :: fields, (x, rest), depth, hun, hkeys, hfinite, hlength => by
    obtain ⟨hshape, hfields⟩ := Bool.and_eq_true_iff.1 hun
    obtain ⟨hkey, hothers⟩ := List.nodup_cons.1 hkeys
    obtain ⟨hx, hrest⟩ := List.forall_mem_append.1 hfinite
    have hne : ∀ e ∈ Fields.toMembers fields rest, e.1 ≠ key := by
      rintro e he rfl
      exact hkey (Fields.key_mem_of_mem_toMembers fields rest e he)
    rcases Fields.written_or_omitted key presence shape fields x rest with
      ⟨hmembers, hfilled⟩ | ⟨hmembers, hfilled, -⟩
    · rw [hmembers] at hlength
      rw [hmembers, hfilled]
      have htakes := Shape.takes_chars layout rounds shape x (depth + 1) hshape hx
        (hlength _ List.mem_cons_self)
      have hchain := Fields.memberChain layout rounds fields rest depth hfields hothers hrest
        fun e he => hlength e (List.mem_cons_of_mem _ he)
      exact .cons (takes_readMember _ (Shape.AllFinite.opens hx layout (depth + 1)) htakes)
        (hchain.lift _ hne)
    · rw [hmembers] at hlength
      rw [hmembers, hfilled]
      exact (Fields.memberChain layout rounds fields rest depth hfields hothers hrest
        hlength).lift none hne

end

/-- Reading the text of a value gives the value back, up to what rereading makes of its numbers. -/
theorem Shape.read_chars (layout : Layout) (shape : Shape) (v : shape.Value)
    (hun : shape.isUnambiguous = true) (hfinite : shape.AllFinite v) :
    shape.read (((shape.toTree v).chars layout).map .char) =
      .ok (shape.mapNumbers Binary64.reread v) := by
  rw [Tree.chars]
  have htakes := Shape.takes_chars layout
    ((((shape.toTree v).charsAt layout 0).map Symbol.char).length + 1) shape v 0 hun hfinite
    (by rw [List.length_map]; exact Nat.lt_succ_self _) [] (fun s hs => nomatch hs)
  rw [List.append_nil] at htakes
  rw [Shape.read, htakes]
  rfl

end Shapes

end WorkflowCanvas.Json
