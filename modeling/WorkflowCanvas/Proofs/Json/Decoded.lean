import WorkflowCanvas.Proofs.Json.Courses
import WorkflowCanvas.Proofs.Json.Skipped

/-!
# Reading a phrase

Reading the text of a phrase comes to what the shape makes of the phrase (`Shape.read_phrase`): the
same value, or a failure in both cases.  So the space between tokens plays no part in it.  A reader
goes by the first character of a value, which tells one form of phrases from the others
(`yields_none`); the theorem follows the shape.
-/

namespace WorkflowCanvas.Json

open Grammar Phrase

/-! ## Values without members -/

section Scalars

variable {cs : List Char} {p : Phrase}

/-- A reader that does not go on behind such a first character makes nothing of the phrase. -/
lemma yields_none {β : Type} {read : List Symbol → Except Error (β × List Symbol)}
    (accepted : Opening → Prop) (h : Phrase.Value cs p) (hp : ¬accepted p.opening)
    (hread : ∀ c input, opensValue c = true → ¬accepted (openingOf c) →
      (read (.char c :: input)).toOption = none) : Yields read cs none := by
  obtain ⟨c, more, rfl, hc, hopening⟩ := h.exists_cons
  intro rest _
  exact hread c _ hc (by rwa [hopening])

lemma readTextValue_quoted {key : List Char} (strokes : Strokes key) (expected : String)
    (rest : List Symbol) :
    (readTextValue expected ((quoted key).map .char ++ rest)).toOption =
      (textOf key).map (·, rest) := by
  rw [map_quoted, readTextValue, afterSpace_cons rfl]
  exact strokes.readText_eq rest

lemma readTextValue_none (expected : String) {c : Char} (hc : opensValue c = true)
    (hne : openingOf c ≠ .text) (input : List Symbol) :
    (readTextValue expected (.char c :: input)).toOption = none := by
  rw [readTextValue, afterSpace_cons (isSpace_of_opensValue hc)]
  split
  · rename_i heq
    cases heq
  · rename_i heq
    obtain rfl := Symbol.char.inj (List.cons.inj heq).1
    exact absurd rfl hne
  · rfl

lemma yields_text (h : Phrase.Value cs p) (expected : String) :
    Yields (readTextValue expected) cs p.asText := by
  cases p with
  | text strokes =>
    cases h with | text strokes =>
    exact fun rest _ => readTextValue_quoted strokes expected rest
  | _ =>
    exact yields_none (· = .text) h (by rintro ⟨⟩) fun c input hc hne =>
      readTextValue_none expected hc hne input

lemma yields_number (h : Phrase.Value cs p) : Yields readNumberValue cs p.asNumber := by
  cases p with
  | number numeral =>
    cases h with | number digits =>
    intro rest hrest
    have hread := digits.readNumber_eq hrest
    obtain ⟨c, more, rfl, hc⟩ := digits.exists_cons
    have hopens : opensValue c = true := by rw [opensValue, hc, Bool.or_true]
    rw [List.map_cons, List.cons_append] at hread ⊢
    rw [readNumberValue, afterSpace_cons (isSpace_of_opensValue hopens)]
    dsimp only
    rw [if_pos (symbol_of_startsNumber hc)]
    exact hread
  | _ =>
    refine yields_none (· = .number) h (by rintro ⟨⟩) fun c input hc hne => ?_
    have hstart : startsNumber c = false := by
      rw [Bool.eq_false_iff]
      exact fun hstart => hne (openingOf_of_startsNumber hstart)
    have hcases : ((((c = '"' ∨ c = '[') ∨ c = '\x7b') ∨ c = 'n') ∨ c = 't') ∨ c = 'f' := by
      simpa [opensValue, hstart] using hc
    rcases hcases with ((((rfl | rfl) | rfl) | rfl) | rfl) | rfl <;> rfl

lemma yields_flag (h : Phrase.Value cs p) : Yields readFlag cs p.asFlag := by
  cases p with
  | flag value => cases h <;> exact fun rest _ => rfl
  | _ =>
    refine yields_none (· = .flag) h (by rintro ⟨⟩) fun c input hc hne => ?_
    rw [readFlag, afterSpace_cons (isSpace_of_opensValue hc)]
    split
    · rename_i heq
      cases heq
    · rename_i heq
      obtain rfl := Symbol.char.inj (List.cons.inj heq).1
      exact absurd rfl hne
    · rename_i heq
      obtain rfl := Symbol.char.inj (List.cons.inj heq).1
      exact absurd rfl hne
    · rfl

lemma yields_maybe {item : Shape} {rounds : Nat} {f : Phrase → Option item.Value}
    (h : Phrase.Value cs p) (hitem : Yields (item.readFrom rounds) cs (f p)) :
    Yields (item.maybe.readFrom rounds) cs (p.asMaybe f) := by
  cases hnull : p.isNull with
  | true =>
    obtain rfl := eq_null hnull
    cases h
    exact fun rest _ => rfl
  | false =>
    have hne := opening_ne_null hnull
    obtain ⟨c, more, rfl, hc, hopening⟩ := h.exists_cons
    intro rest hrest
    have hread := hitem rest hrest
    rw [List.map_cons, List.cons_append] at hread ⊢
    rw [Shape.readFrom, afterSpace_cons (isSpace_of_opensValue hc), asMaybe, hnull]
    split
    · rename_i heq
      obtain rfl := Symbol.char.inj (List.cons.inj heq).1
      exact absurd hopening.symm hne
    · rw [toOption_map, hread]
      cases f p <;> rfl

end Scalars

/-! ## Words -/

section Words

variable {cs key text : List Char} {choices : List String} {rest : List Symbol}

lemma toOption_findWord (choices : List String) (word : String) :
    (findWord choices word).toOption = choices.finIdxOf? word := by
  rw [findWord]
  cases choices.finIdxOf? word <;> rfl

lemma toOption_readWord_text (input : List Symbol) :
    (readWord choices (.char '"' :: input)).toOption =
      (readText input).toOption.bind fun r => (choices.finIdxOf? r.1).map (·, r.2) := by
  have hread : ∀ read : Except Error (String × List Symbol),
      (read >>= fun r => findWord choices r.1 >>= fun i => Except.ok (i, r.2)).toOption =
        read.toOption.bind fun r => (choices.finIdxOf? r.1).map (·, r.2) := by
    intro read
    rw [toOption_bind]
    refine congrArg (Option.bind _) (funext fun r => ?_)
    rw [toOption_bind, toOption_findWord]
    cases choices.finIdxOf? r.1 <;> rfl
  exact hread (readText input)

/-- Reads the end of an object that holds a word. -/
def readWordEnd {α : Type} (word : α) (input : List Symbol) : Except Error (α × List Symbol) :=
  match afterSpace input with
  | .char '\x7d' :: rest => .ok (word, rest)
  | [] => .error .endOfObject
  | _ => .error .noValue

lemma toOption_readWord_object (input : List Symbol) :
    (readWord choices (.char '\x7b' :: input)).toOption =
      (readTextValue (Shape.word choices).describe input).toOption.bind fun r =>
        (choices.finIdxOf? r.1).bind fun i =>
          (readColon r.2 >>= readUnit).toOption.bind fun rest => (readWordEnd i rest).toOption := by
  change (readTextValue _ input >>= fun r => findWord choices r.1 >>= fun i =>
    (readColon r.2 >>= readUnit) >>= readWordEnd i).toOption = _
  rw [toOption_bind]
  refine congrArg (Option.bind _) (funext fun r => ?_)
  rw [toOption_bind, toOption_findWord]
  refine congrArg (Option.bind _) (funext fun i => ?_)
  rw [toOption_bind]

/-- Only `null` is read behind a word. -/
lemma readUnit_behind {p : Phrase} (h : Behind cs p) (rest : List Symbol) :
    (readColon (cs.map .char ++ rest) >>= readUnit).toOption =
      if p.isNull then some rest else none := by
  cases h with | @mk after before cs p blankAfter blankBefore value =>
  have htext : (after ++ ':' :: (before ++ cs)).map Symbol.char ++ rest =
      after.map .char ++ .char ':' :: (before.map .char ++ (cs.map .char ++ rest)) := by simp
  rw [htext, readColon_blank blankAfter]
  change (readUnit (before.map .char ++ (cs.map .char ++ rest))).toOption = _
  rw [readUnit, afterSpace_blank blankBefore, value.opens.afterSpace_eq]
  cases hnull : p.isNull with
  | true =>
    obtain rfl := eq_null hnull
    cases value
    rfl
  | false =>
    have hne := opening_ne_null hnull
    obtain ⟨c, more, rfl, -, hopening⟩ := value.exists_cons
    rw [List.map_cons, List.cons_append]
    split
    · rename_i heq
      cases heq
    · rename_i heq
      obtain rfl := Symbol.char.inj (List.cons.inj heq).1
      exact absurd hopening.symm hne
    · rfl

lemma readTextValue_blank {blank : List Char} (h : Blank blank) (expected : String)
    (input : List Symbol) :
    readTextValue expected (blank.map .char ++ input) = readTextValue expected input := by
  rw [readTextValue, readTextValue, afterSpace_blank h]

/-- The object of a word ends behind its only member. -/
lemma readWordEnd_course {α : Type} {members : List (List Char × Phrase)}
    (h : Course '\x7d' Entry false text members) (word : α) (rest : List Symbol) :
    (readWordEnd word (text.map .char ++ rest)).toOption =
      if members = [] then some (word, rest) else none := by
  cases h with
  | done space =>
    rw [readWordEnd, List.map_append, List.append_assoc, afterSpace_blank space]
    rfl
  | next leads _ _ _ =>
    cases leads with | later space =>
    rw [readWordEnd, List.append_assoc, List.map_append, List.append_assoc, afterSpace_blank space]
    rfl

/-- A word as the only key of an object. -/
lemma readWord_object {members : List (List Char × Phrase)}
    (course : Course '\x7d' Entry true text members) (rest : List Symbol) :
    (readWord choices (.char '\x7b' :: (text.map .char ++ rest))).toOption =
      (asWord choices (.object members)).map (·, rest) := by
  rw [toOption_readWord_object]
  cases course with
  | done space =>
    rw [List.map_append, List.append_assoc, readTextValue_blank space]
    rfl
  | @next _ _ before _ others _ members leads space entry course =>
    cases leads
    cases entry with | @mk key cs p strokes behind =>
    have htext : ([] ++ (before ++ (quoted key ++ cs ++ others))).map Symbol.char ++ rest =
        before.map .char ++ ((quoted key).map .char ++
          (cs.map .char ++ (others.map .char ++ rest))) := by simp
    have hword : asWord choices (.object ((key, p) :: members)) =
        if p.isNull ∧ members = [] then (textOf key).bind (choices.finIdxOf? ·) else none := by
      cases members <;> simp [asWord]
    rw [htext, readTextValue_blank space, readTextValue_quoted strokes, hword]
    cases textOf key with
    | none => simp
    | some name =>
      rw [Option.map_some, Option.bind_some, Option.bind_some]
      dsimp only
      generalize choices.finIdxOf? name = place
      cases place with
      | none => simp
      | some i =>
        rw [Option.bind_some, readUnit_behind behind]
        have hend := readWordEnd_course course i rest
        cases p.isNull <;> cases members <;> simp_all

lemma yields_word {p : Phrase} (h : Phrase.Value cs p) :
    Yields (readWord choices) cs (p.asWord choices) := by
  cases p with
  | text strokes =>
    cases h with | text strokes =>
    intro rest _
    rw [map_quoted, toOption_readWord_text, strokes.readText_eq]
    change _ = ((textOf _).bind (choices.finIdxOf? ·)).map _
    cases textOf _ <;> rfl
  | object members =>
    cases h with | object enclosed =>
    obtain ⟨text, rfl, course⟩ := course_of_enclosed pads_member enclosed
    exact fun rest _ => readWord_object course rest
  | _ =>
    refine yields_none (fun o => o = .text ∨ o = .object) h (by rintro (⟨⟨⟩⟩ | ⟨⟨⟩⟩))
      fun c input hc hne => ?_
    rw [readWord, afterSpace_cons (isSpace_of_opensValue hc)]
    split
    · rename_i heq
      cases heq
    · rename_i heq
      obtain rfl := Symbol.char.inj (List.cons.inj heq).1
      exact absurd (.inl rfl) hne
    · rename_i heq
      obtain rfl := Symbol.char.inj (List.cons.inj heq).1
      exact absurd (.inr rfl) hne
    · rfl

end Words

/-! ## Values of shapes -/

section Shapes

variable {rounds : Nat} {cs text : List Char} {p : Phrase}

/-- Behind a key stand a colon and the value, with the space before each. -/
lemma readColon_behind (h : Behind cs p) :
    ∃ before value, Blank before ∧ Phrase.Value value p ∧ value.length < cs.length ∧
      ∀ rest, readColon (cs.map .char ++ rest) =
        .ok (before.map .char ++ (value.map .char ++ rest)) := by
  cases h with | @mk after before value p blankAfter blankBefore hvalue =>
  refine ⟨before, value, blankBefore, hvalue, ?_, fun rest => ?_⟩
  · simp only [List.length_append, List.length_cons]
    omega
  · have htext : (after ++ ':' :: (before ++ value)).map Symbol.char ++ rest =
        after.map .char ++ .char ':' :: (before.map .char ++ (value.map .char ++ rest)) := by simp
    rw [htext, readColon_blank blankAfter]

lemma readFrom_blank {before : List Char} (h : Blank before) (shape : Shape)
    (input : List Symbol) :
    shape.readFrom rounds (before.map .char ++ input) = shape.readFrom rounds input := by
  rw [← shape.readFrom_afterSpace, afterSpace_blank h, shape.readFrom_afterSpace]

/-- The reader of a shape makes this of every phrase whose text is short enough. -/
def Shape.Yields (shape : Shape) (rounds : Nat) : Prop :=
  ∀ cs p, Phrase.Value cs p → cs.length < rounds →
    Json.Yields (shape.readFrom rounds) cs (shape.ofPhrase p)

lemma yields_list {item : Shape} (hitem : item.Yields rounds) :
    (Shape.list item).Yields rounds := by
  intro cs p h hlength
  cases p with
  | list items =>
    cases h with | list enclosed =>
    obtain ⟨text, rfl, course⟩ := course_of_enclosed pads_element enclosed
    rw [List.length_cons] at hlength
    intro rest _
    have hread := readItems_course course rest
      (fun p _ cs value hlt => hitem cs p value (by omega)) rounds [] (by omega)
    rw [Shape.readFrom, List.map_cons, List.cons_append, afterSpace_cons rfl]
    exact hread
  | _ =>
    refine yields_none (· = .list) h (by rintro ⟨⟩) fun c input hc hne => ?_
    rw [Shape.readFrom, afterSpace_cons (isSpace_of_opensValue hc)]
    split
    · rename_i heq
      cases heq
    · rename_i heq
      obtain rfl := Symbol.char.inj (List.cons.inj heq).1
      exact absurd rfl hne
    · rfl

lemma yields_readEntry {item : Shape} (hitem : item.Yields rounds) (h : Behind cs p)
    (hlength : cs.length < rounds) (key : String) (table : Table item.Value) :
    Yields (readEntry (item.readFrom rounds) key table) cs
      (enter item.ofPhrase table (key, p)) := by
  obtain ⟨before, value, hbefore, hvalue, hlt, hcolon⟩ := readColon_behind h
  intro rest hrest
  have hread := hitem value p hvalue (by omega) rest hrest
  rw [← readFrom_blank hbefore] at hread
  have hentry : (readEntry (item.readFrom rounds) key table (cs.map .char ++ rest)).toOption =
      (item.readFrom rounds (before.map .char ++ (value.map .char ++ rest))).toOption.map
        fun r => (table.insert key r.1, r.2) := by
    rw [readEntry, hcolon]
    dsimp only
    cases item.readFrom rounds (before.map .char ++ (value.map .char ++ rest)) <;> rfl
  rw [hentry, hread, enter, Option.map_map, Option.map_map]
  rfl

lemma yields_table {item : Shape} (hitem : item.Yields rounds) :
    (Shape.table item).Yields rounds := by
  intro cs p h hlength
  cases p with
  | object members =>
    cases h with | object enclosed =>
    obtain ⟨text, rfl, course⟩ := course_of_enclosed pads_member enclosed
    rw [List.length_cons] at hlength
    intro rest _
    have hread := readMembers_course course rest
      (fun m _ cs behind hlt key table => yields_readEntry hitem behind (by omega) key table)
      rounds .empty (by omega)
    rw [Shape.readFrom, List.map_cons, List.cons_append, afterSpace_cons rfl]
    exact (congrArg Except.toOption (readEntries_eq_readMembers ..)).trans hread
  | _ =>
    refine yields_none (· = .object) h (by rintro ⟨⟩) fun c input hc hne => ?_
    rw [Shape.readFrom, afterSpace_cons (isSpace_of_opensValue hc)]
    split
    · rename_i heq
      cases heq
    · rename_i heq
      obtain rfl := Symbol.char.inj (List.cons.inj heq).1
      exact absurd rfl hne
    · rfl

/-- A member nobody asks for is passed over with its value. -/
lemma yields_unknown (h : Behind cs p) (key : String) :
    Yields (Fields.readMember rounds [] key ()) cs (Fields.put [] () (key, p)) := by
  obtain ⟨before, value, hbefore, hvalue, -, hcolon⟩ := readColon_behind h
  intro rest hrest
  change (((readColon (cs.map .char ++ rest)) >>= skipValue).map fun rest => ((), rest)).toOption =
    some ((), rest)
  rw [hcolon]
  change ((skipValue _).map fun rest => ((), rest)).toOption = _
  rw [hvalue.skipValue_eq hbefore hrest]
  rfl

lemma yields_member {key : String} {presence : Presence} {shape : Shape} {fields : Fields}
    (hshape : shape.Yields rounds) (h : Behind cs p) (hlength : cs.length < rounds) (name : String)
    (slot : Option shape.Value) (slots : Fields.Slots fields)
    (hfields : Yields (Fields.readMember rounds fields name slots) cs
      (Fields.put fields slots (name, p))) :
    Yields (Fields.readMember rounds ((key, presence, shape) :: fields) name (slot, slots)) cs
      (Fields.put ((key, presence, shape) :: fields) (slot, slots) (name, p)) := by
  obtain ⟨before, value, hbefore, hvalue, hlt, hcolon⟩ := readColon_behind h
  intro rest hrest
  by_cases hkey : name = key
  · subst hkey
    rw [Fields.put, if_pos rfl]
    cases slot with
    | some x =>
      rw [Fields.readMember, if_pos rfl]
      rfl
    | none =>
      have hread := hshape value p hvalue (by omega) rest hrest
      rw [← readFrom_blank hbefore] at hread
      rw [Fields.readMember, if_pos rfl]
      dsimp only
      rw [hcolon]
      dsimp only
      rw [toOption_map, hread, Fields.fill]
      cases shape.ofPhrase p <;> rfl
  · rw [readMember_of_ne slot slots hkey, toOption_map, hfields rest hrest, Fields.put, if_neg hkey]
    cases Fields.put fields slots (name, p) <;> rfl

/-- Reads the end of a list behind what was read of it. -/
def withListEnd {α : Type} (read : Except Error (α × List Symbol)) : Option (α × List Symbol) :=
  read.toOption.bind fun r => (readListEnd r.2).toOption.map (r.1, ·)

lemma withListEnd_map {α β : Type} (read : Except Error (α × List Symbol)) (f : α → β) :
    withListEnd (read.map fun r => (f r.1, r.2)) =
      (withListEnd read).map fun r => (f r.1, r.2) := by
  cases read with
  | error e => rfl
  | ok r =>
    change (readListEnd r.2).toOption.map _ = ((readListEnd r.2).toOption.map _).map _
    rw [Option.map_map]
    rfl

/-- The reader of a record makes this of its members and of its items. -/
structure Fields.Yields (fields : Fields) (rounds : Nat) : Prop where
  member : ∀ cs p, Behind cs p → cs.length < rounds → ∀ key slots,
    Json.Yields (Fields.readMember rounds fields key slots) cs (Fields.put fields slots (key, p))
  items : ∀ text items (index : Nat), Course ']' Phrase.Value (decide (index = 0)) text items →
    text.length ≤ rounds → ∀ expected rest,
      withListEnd (Fields.readInOrder rounds expected index fields (text.map .char ++ rest)) =
        (Fields.ofList fields items).map (·, rest)

/-- A record as an object. -/
lemma readFrom_object {name : String} {fields : Fields} (hfields : fields.Yields rounds)
    {members : List (List Char × Phrase)} (course : Course '\x7d' Entry true text members)
    (hlength : text.length < rounds) (rest : List Symbol) :
    ((Shape.record name fields).readFrom rounds
      (.char '\x7b' :: (text.map .char ++ rest))).toOption =
        ((Shape.record name fields).ofPhrase (.object members)).map (·, rest) := by
  have hread := readMembers_course course rest
    (fun m _ cs behind hlt key slots => hfields.member cs m.2 behind (by omega) key slots)
    rounds (Fields.noSlots fields) (by omega)
  have hvalue : (Shape.record name fields).ofPhrase (.object members) =
      (foldNamed (Fields.put fields) (Fields.noSlots fields) members).bind fun slots =>
        (Fields.complete fields slots).toOption := by
    rw [Shape.ofPhrase, foldNamed]
    cases named members with
    | none => rfl
    | some ms => exact (Fields.foldlM_put fields ms).symm
  rw [Shape.readFrom, afterSpace_cons rfl, hvalue]
  cases hfilled : foldNamed (Fields.put fields) (Fields.noSlots fields) members with
  | none =>
    rw [hfilled] at hread
    obtain ⟨e, hfound⟩ := exists_error hread
    simp only [hfound]
    rfl
  | some slots =>
    rw [hfilled] at hread
    simp only [eq_ok hread, Option.bind_some]
    cases Fields.complete fields slots <;> rfl

/-- A record as the list of its members. -/
lemma readFrom_inOrder {name : String} {fields : Fields} (hfields : fields.Yields rounds)
    {items : List Phrase} (course : Course ']' Phrase.Value true text items)
    (hlength : text.length < rounds) (rest : List Symbol) :
    ((Shape.record name fields).readFrom rounds
      (.char '[' :: (text.map .char ++ rest))).toOption =
        ((Shape.record name fields).ofPhrase (.list items)).map (·, rest) := by
  have hread := hfields.items text items 0 course (by omega)
    (Shape.describeMembers name fields.length) rest
  rw [Shape.readFrom, afterSpace_cons rfl]
  refine Eq.trans ?_ hread
  rw [withListEnd]
  cases hfound : Fields.readInOrder rounds (Shape.describeMembers name fields.length) 0 fields
    (text.map .char ++ rest) with
  | error e =>
    simp only [hfound]
    rfl
  | ok found =>
    simp only [hfound]
    exact toOption_map _ _

lemma yields_record {name : String} {fields : Fields} (hfields : fields.Yields rounds) :
    (Shape.record name fields).Yields rounds := by
  intro cs p h hlength
  cases p with
  | object members =>
    cases h with | object enclosed =>
    obtain ⟨text, rfl, course⟩ := course_of_enclosed pads_member enclosed
    exact fun rest _ => readFrom_object hfields course (Nat.lt_of_succ_lt hlength) rest
  | list items =>
    cases h with | list enclosed =>
    obtain ⟨text, rfl, course⟩ := course_of_enclosed pads_element enclosed
    exact fun rest _ => readFrom_inOrder hfields course (Nat.lt_of_succ_lt hlength) rest
  | _ =>
    refine yields_none (fun o => o = .object ∨ o = .list) h (by rintro (⟨⟨⟩⟩ | ⟨⟨⟩⟩))
      fun c input hc hne => ?_
    rw [Shape.readFrom, afterSpace_cons (isSpace_of_opensValue hc)]
    split
    · rename_i heq
      cases heq
    · rename_i heq
      obtain rfl := Symbol.char.inj (List.cons.inj heq).1
      exact absurd (.inl rfl) hne
    · rename_i heq
      obtain rfl := Symbol.char.inj (List.cons.inj heq).1
      exact absurd (.inr rfl) hne
    · rfl

/-- No item is left when the fields are at their end. -/
lemma yields_items_nil {items : List Phrase} {first : Bool}
    (course : Course ']' Phrase.Value first text items) (rest : List Symbol) :
    (readListEnd (text.map .char ++ rest)).toOption.map (fun rest => ((), rest)) =
      (Fields.ofList [] items).map (·, rest) := by
  cases course with
  | done space =>
    rw [readListEnd_right space]
    rfl
  | @next _ lead before cs others _ _ leads space value course =>
    have htext : (lead ++ (before ++ (cs ++ others))).map Symbol.char ++ rest =
        lead.map .char ++ (before.map .char ++ (cs.map .char ++ (others.map .char ++ rest))) := by
      simp
    have hfails : (readListEnd ((lead ++ (before ++ (cs ++ others))).map .char ++ rest)).toOption =
        none := by
      rw [htext]
      cases leads with
      | first =>
        have hspace := value.opens.afterSpace_eq (others.map .char ++ rest)
        obtain ⟨c, more, rfl, hc⟩ := value.opens
        rw [List.map_nil, List.nil_append, readListEnd, afterSpace_blank space, hspace]
        split
        · rfl
        · rename_i heq
          exact absurd (Symbol.char.inj (List.cons.inj heq).1) (ne_of_opensValue hc rfl)
        · rename_i heq
          exact absurd (Symbol.char.inj (List.cons.inj heq).1) (ne_of_opensValue hc rfl)
        · rfl
      | later hblank =>
        rw [List.map_append, List.append_assoc, readListEnd, afterSpace_blank hblank]
        split
        · rfl
        · rename_i heq
          cases heq
        · split <;> rfl
        · rfl
    rw [hfails]
    rfl

lemma yields_items_cons {key : String} {presence : Presence} {shape : Shape} {fields : Fields}
    (hshape : shape.Yields rounds) (hfields : fields.Yields rounds) {items : List Phrase}
    {index : Nat} (course : Course ']' Phrase.Value (decide (index = 0)) text items)
    (hlength : text.length ≤ rounds) (expected : String) (rest : List Symbol) :
    withListEnd (Fields.readInOrder rounds expected index ((key, presence, shape) :: fields)
      (text.map .char ++ rest)) =
        (Fields.ofList ((key, presence, shape) :: fields) items).map (·, rest) := by
  cases course with
  | @done _ blank space =>
    have hmore := hfields.items (blank ++ [']']) [] (index + 1) (.done space) hlength expected rest
    rw [Fields.readInOrder, nextItem_right space, Fields.ofList]
    dsimp only
    cases presence.absent shape with
    | none => rfl
    | some x =>
      refine (withListEnd_map _ (x, ·)).trans ?_
      rw [hmore, Option.map_map, Option.bind_some, Option.map_map]
      rfl
  | @next _ lead before cs others p items leads space value course =>
    have hitem := value.opens.length_pos
    have hothers := course.length_pos
    simp only [List.length_append] at hlength
    have htext : (lead ++ (before ++ (cs ++ others))).map Symbol.char ++ rest =
        (lead ++ (before ++ cs)).map .char ++ (others.map .char ++ rest) := by simp
    have hread := hshape cs p value (by omega) _ (course.endsNumber rfl rest)
    have hfirst : decide (index + 1 = 0) = false := by simp
    rw [← hfirst] at course
    have hmore := hfields.items others items (index + 1) course (by omega) expected rest
    rw [Fields.readInOrder, htext, nextItem_lead leads space value.opens, Fields.ofList]
    dsimp only
    cases hp : shape.ofPhrase p with
    | none =>
      rw [hp] at hread
      obtain ⟨e, hfound⟩ := exists_error hread
      rw [hfound]
      rfl
    | some x =>
      rw [hp] at hread
      rw [eq_ok hread]
      refine (withListEnd_map _ (x, ·)).trans ?_
      rw [hmore, Option.map_map, Option.bind_some, Option.map_map]
      rfl

mutual

/-- Reading the text of a phrase comes to what the shape makes of it, by recursion on the shape. -/
theorem Shape.yields (rounds : Nat) : ∀ shape : Shape, shape.Yields rounds
  | .text => fun _ _ h _ => yields_text h _
  | .number => fun _ _ h _ => yields_number h
  | .flag => fun _ _ h _ => yields_flag h
  | .word _ => fun _ _ h _ => yields_word h
  | .maybe item => fun cs p h hlength => yields_maybe h (Shape.yields rounds item cs p h hlength)
  | .list item => yields_list (Shape.yields rounds item)
  | .table item => yields_table (Shape.yields rounds item)
  | .record _ fields => yields_record (Fields.yields rounds fields)

theorem Fields.yields (rounds : Nat) : ∀ fields : Fields, fields.Yields rounds
  | [] => by
    refine ⟨fun cs p h _ key _ => yields_unknown h key,
      fun text items index course _ expected rest => ?_⟩
    exact yields_items_nil course rest
  | (key, presence, shape) :: fields => by
    have hshape := Shape.yields rounds shape
    have hfields := Fields.yields rounds fields
    refine ⟨fun cs p h hlength name s => ?_, fun text items index course hlength =>
      yields_items_cons hshape hfields course hlength⟩
    obtain ⟨slot, slots⟩ := s
    exact yields_member hshape h hlength name slot slots (hfields.member cs p h hlength name slots)

end

/-- Reading a whole text comes to what the shape makes of its phrase. -/
theorem Shape.read_phrase (shape : Shape) {text : List Char} {p : Phrase}
    (h : Phrase.Element text p) : (shape.read (text.map .char)).toOption = shape.ofPhrase p := by
  cases h with | @mk before cs after p blankBefore value blankAfter =>
  have htext : (before ++ (cs ++ after)).map Symbol.char =
      before.map .char ++ (cs.map .char ++ (after.map .char ++ [])) := by simp
  have hafter : EndsNumber (after.map Symbol.char ++ []) :=
    endsNumber_blank blankAfter fun s hs => nomatch hs
  have hspace : afterSpace (after.map Symbol.char ++ []) = [] := afterSpace_blank blankAfter
  have hread := Shape.yields (((before ++ (cs ++ after)).map Symbol.char).length + 1) shape cs p
    value (by simp only [List.length_map, List.length_append]; omega) _ hafter
  rw [← readFrom_blank blankBefore, ← htext] at hread
  rw [Shape.read]
  cases hp : shape.ofPhrase p with
  | none =>
    rw [hp] at hread
    obtain ⟨e, hfound⟩ := exists_error hread
    simp only [hfound]
    rfl
  | some x =>
    rw [hp] at hread
    simp only [eq_ok hread, if_pos hspace]
    rfl

end Shapes

end WorkflowCanvas.Json
