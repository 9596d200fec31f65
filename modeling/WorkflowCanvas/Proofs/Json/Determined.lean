import Mathlib.Data.List.Nodup
import WorkflowCanvas.Proofs.Decimal.Reader
import WorkflowCanvas.Proofs.Json.RoundTrip

/-!
# A text determines its value

The text of a JSON value whose numbers are finite can be the text of no other value, in either
layout (`Shape.chars_injective`).  Reading it back does not show this, since reading may change its
numbers.  It is shown for trees instead: inside a longer text, a value determines both itself and
where it ends (`Tree.charsAt_append_inj`).  The first character tells which constructor a value has.
A text between quotes and a number end where the reader stops; the digits of a number determine it
by `Binary64.renderChars_injective`.

A shape whose values can be told apart makes different trees of different values
(`Shape.toTree_injective`); a member that is left out is told from one that is written by its key.
-/

namespace WorkflowCanvas.Json

variable {rest rest' : List Char}

/-! ## Texts and numbers -/

lemma map_char_injective : Function.Injective (List.map Symbol.char) :=
  List.map_injective_iff.2 fun _ _ => Symbol.char.inj

lemma textChars_append_inj {s s' : String} (h : textChars s ++ rest = textChars s' ++ rest') :
    s = s' ∧ rest = rest' := by
  have hread : readText ((s.toList.flatMap escapeChar ++ ['"']).map .char ++ rest.map .char) =
      readText ((s'.toList.flatMap escapeChar ++ ['"']).map .char ++ rest'.map .char) := by
    rw [← List.map_append, ← List.map_append]
    exact congrArg (readText ∘ List.map .char) (List.cons.inj h).2
  rw [readText_textChars, readText_textChars] at hread
  obtain ⟨hs, hrest⟩ := Prod.mk.inj (Except.ok.inj hread)
  exact ⟨hs, map_char_injective hrest⟩

/-- The reader stops behind either number, so they end at the same place. -/
lemma realChars_append_inj {x x' : Binary64} (hx : x.isFinite = true) (hx' : x'.isFinite = true)
    (hrest : EndsNumber (rest.map .char)) (hrest' : EndsNumber (rest'.map .char))
    (h : realChars x ++ rest = realChars x' ++ rest') : x = x' ∧ rest = rest' := by
  have hread : readNumber ((realChars x).map .char ++ rest.map .char) =
      readNumber ((realChars x').map .char ++ rest'.map .char) := by
    rw [← List.map_append, ← List.map_append, h]
  rw [readNumber_realChars hx hrest, readNumber_realChars hx' hrest'] at hread
  obtain rfl := map_char_injective (Prod.mk.inj (Except.ok.inj hread)).2
  have hchars := List.append_cancel_right h
  rw [realChars, realChars, if_pos hx, if_pos hx'] at hchars
  exact ⟨Binary64.renderChars_injective numberStyle hx hx' hchars, rfl⟩

/-! ## Trees -/

/-- All numbers of the value are finite ones of binary64. -/
inductive Tree.IsFinite : Tree → Prop
  | null : IsFinite .null
  | flag (value : Bool) : IsFinite (.flag value)
  | number {x : Binary64} (finite : x.isFinite = true) : IsFinite (.number (.real x))
  | text (value : String) : IsFinite (.text value)
  | list {items : List Tree} (all : ∀ t ∈ items, IsFinite t) : IsFinite (.list items)
  | object {members : List (String × Tree)} (all : ∀ e ∈ members, IsFinite e.2) :
    IsFinite (.object members)

/-- What the first character of a value tells. -/
inductive Opening
  | null
  | flag
  | number
  | text
  | list
  | object

/-- The opening of a value. -/
def Tree.opening : Tree → Opening
  | .null => .null
  | .flag _ => .flag
  | .number _ => .number
  | .text _ => .text
  | .list _ => .list
  | .object _ => .object

/-- The opening that a character stands for. -/
def openingOf (c : Char) : Opening :=
  if c = 'n' then .null
  else if c = 't' ∨ c = 'f' then .flag
  else if c = '"' then .text
  else if c = '[' then .list
  else if c = '\x7b' then .object
  else .number

lemma ne_of_startsNumber {c : Char} (h : startsNumber c = true) (c' : Char)
    (h' : startsNumber c' = false) : c ≠ c' := by
  rintro rfl
  rw [h] at h'
  cases h'

lemma openingOf_of_startsNumber {c : Char} (h : startsNumber c = true) :
    openingOf c = .number := by
  have hne := ne_of_startsNumber h
  simp [openingOf, hne 'n' rfl, hne 't' rfl, hne 'f' rfl, hne '"' rfl, hne '[' rfl,
    hne '\x7b' rfl]

lemma Tree.IsFinite.charsAt_eq_cons {t : Tree} (ht : t.IsFinite) (layout : Layout) (depth : Nat) :
    ∃ c cs, t.charsAt layout depth = c :: cs ∧ openingOf c = t.opening ∧ c ≠ ']' := by
  cases ht with
  | null => exact ⟨'n', _, rfl, rfl, by decide⟩
  | flag value => cases value <;> exact ⟨_, _, rfl, rfl, by decide⟩
  | @number x finite =>
    obtain ⟨c, cs, hcs, hc⟩ := realChars_eq_cons finite
    refine ⟨c, cs, hcs, openingOf_of_startsNumber hc, ?_⟩
    rintro rfl
    cases hc
  | text value => exact ⟨'"', _, rfl, rfl, by decide⟩
  | @list items _ =>
    obtain ⟨cs, hcs⟩ := Tree.list_eq_cons layout depth items
    exact ⟨'[', cs, hcs, rfl, by decide⟩
  | @object members _ =>
    obtain ⟨cs, hcs⟩ := Tree.object_eq_cons layout depth members
    exact ⟨'\x7b', cs, hcs, rfl, by decide⟩

section Trees

variable {layout : Layout} {depth : Nat}

lemma endsNumber_items (layout : Layout) (depth : Nat) (items : List Tree) (rest : List Char) :
    EndsNumber ((Tree.moreItems layout depth items ++ rest).map .char) := by
  rw [List.map_append]
  exact endsNumber_moreItems layout depth items _

lemma endsNumber_members (layout : Layout) (depth : Nat) (members : List (String × Tree))
    (rest : List Char) : EndsNumber ((Tree.moreMembers layout depth members ++ rest).map .char) := by
  rw [List.map_append]
  exact endsNumber_moreMembers layout depth members _

/-- What begins a line is not what ends the one before. -/
lemma newline_append_ne {c c' : Char} (hc : c ≠ c') (hnewline : c' ≠ '\n') :
    layout.newline depth ++ c :: rest ≠ c' :: rest' := by
  intro h
  cases layout with
  | compact => exact hc (List.cons.inj h).1
  | indented => exact hnewline (List.cons.inj h).1.symm

/-- A list is its items behind commas, but for the first character. -/
lemma list_append_inj {items items' : List Tree} (hitems : ∀ t ∈ items, t.IsFinite)
    (hitems' : ∀ t ∈ items', t.IsFinite)
    (more : Tree.moreItems layout depth items ++ rest =
      Tree.moreItems layout depth items' ++ rest' → items = items' ∧ rest = rest')
    (h : (Tree.list items).charsAt layout depth ++ rest =
      (Tree.list items').charsAt layout depth ++ rest') : items = items' ∧ rest = rest' := by
  -- an item and its line do not begin like the end of the list
  have hne : ∀ {t : Tree} {text text' : List Char}, t.IsFinite →
      layout.newline (depth + 1) ++ (t.charsAt layout (depth + 1) ++ text) ≠ ']' :: text' := by
    intro t text text' ht
    obtain ⟨c, cs, hcs, -, hc⟩ := ht.charsAt_eq_cons layout (depth + 1)
    rw [hcs, List.cons_append]
    exact newline_append_ne hc (by decide)
  cases items with
  | nil =>
    cases items' with
    | nil => exact ⟨rfl, (List.cons.inj (List.cons.inj h).2).2⟩
    | cons t' items' =>
      rw [Tree.charsAt, Tree.charsAt, List.append_assoc, List.append_assoc] at h
      exact absurd (List.cons.inj h).2.symm (hne (hitems' t' List.mem_cons_self))
  | cons t items =>
    cases items' with
    | nil =>
      rw [Tree.charsAt, Tree.charsAt, List.append_assoc, List.append_assoc] at h
      exact absurd (List.cons.inj h).2 (hne (hitems t List.mem_cons_self))
    | cons t' items' =>
      rw [Tree.charsAt, Tree.charsAt] at h
      refine more ?_
      rw [Tree.moreItems, Tree.moreItems]
      exact congrArg (List.cons ',') (List.cons.inj h).2

lemma object_append_inj {members members' : List (String × Tree)}
    (more : Tree.moreMembers layout depth members ++ rest =
      Tree.moreMembers layout depth members' ++ rest' → members = members' ∧ rest = rest')
    (h : (Tree.object members).charsAt layout depth ++ rest =
      (Tree.object members').charsAt layout depth ++ rest') :
    members = members' ∧ rest = rest' := by
  have hne : ∀ {key : String} {text text' : List Char},
      layout.newline (depth + 1) ++ (textChars key ++ text) ≠ '\x7d' :: text' :=
    fun {_ _ _} => newline_append_ne (by decide) (by decide)
  cases members with
  | nil =>
    cases members' with
    | nil => exact ⟨rfl, (List.cons.inj (List.cons.inj h).2).2⟩
    | cons member members' =>
      rw [Tree.charsAt, Tree.charsAt, List.append_assoc, List.append_assoc, List.append_assoc,
        List.append_assoc] at h
      exact absurd (List.cons.inj h).2.symm hne
  | cons member members =>
    cases members' with
    | nil =>
      rw [Tree.charsAt, Tree.charsAt, List.append_assoc, List.append_assoc, List.append_assoc,
        List.append_assoc] at h
      exact absurd (List.cons.inj h).2 hne
    | cons member' members' =>
      rw [Tree.charsAt, Tree.charsAt] at h
      refine more ?_
      rw [Tree.moreMembers, Tree.moreMembers]
      exact congrArg (List.cons ',') (List.cons.inj h).2

lemma opening_eq {t t' : Tree} (ht : t.IsFinite) (ht' : t'.IsFinite)
    (h : t.charsAt layout depth ++ rest = t'.charsAt layout depth ++ rest') :
    t.opening = t'.opening := by
  obtain ⟨c, cs, hcs, hc, -⟩ := ht.charsAt_eq_cons layout depth
  obtain ⟨c', cs', hcs', hc', -⟩ := ht'.charsAt_eq_cons layout depth
  rw [hcs, hcs'] at h
  rw [← hc, ← hc', (List.cons.inj h).1]

end Trees

namespace Tree

mutual

/-- Inside a longer text a value determines both itself and where it ends. -/
theorem charsAt_append_inj (layout : Layout) :
    ∀ (t t' : Tree) (depth : Nat) {rest rest' : List Char}, t.IsFinite → t'.IsFinite →
      EndsNumber (rest.map .char) → EndsNumber (rest'.map .char) →
      t.charsAt layout depth ++ rest = t'.charsAt layout depth ++ rest' → t = t' ∧ rest = rest'
  | .null, t', depth, rest, rest', ht, ht', _, _, h => by
    have hopening := opening_eq ht ht' h
    cases t' with
    | null => exact ⟨rfl, List.append_cancel_left h⟩
    | _ => cases hopening
  | .flag value, t', depth, rest, rest', ht, ht', _, _, h => by
    have hopening := opening_eq ht ht' h
    cases t' with
    | flag value' =>
      cases value <;> cases value'
      · exact ⟨rfl, List.append_cancel_left h⟩
      · cases (List.cons.inj h).1
      · cases (List.cons.inj h).1
      · exact ⟨rfl, List.append_cancel_left h⟩
    | _ => cases hopening
  | .number n, t', depth, rest, rest', ht, ht', hrest, hrest', h => by
    have hopening := opening_eq ht ht' h
    cases t' with
    | number n' =>
      cases ht with | number hx =>
      cases ht' with | number hx' =>
      obtain ⟨rfl, hends⟩ := realChars_append_inj hx hx' hrest hrest' h
      exact ⟨rfl, hends⟩
    | _ => cases hopening
  | .text value, t', depth, rest, rest', ht, ht', _, _, h => by
    have hopening := opening_eq ht ht' h
    cases t' with
    | text value' =>
      obtain ⟨rfl, hends⟩ := textChars_append_inj h
      exact ⟨rfl, hends⟩
    | _ => cases hopening
  | .list items, t', depth, rest, rest', ht, ht', _, _, h => by
    have hopening := opening_eq ht ht' h
    cases t' with
    | list items' =>
      cases ht with | list hitems =>
      cases ht' with | list hitems' =>
      obtain ⟨rfl, hends⟩ := list_append_inj hitems hitems'
        (moreItems_append_inj layout items items' depth hitems hitems') h
      exact ⟨rfl, hends⟩
    | _ => cases hopening
  | .object members, t', depth, rest, rest', ht, ht', _, _, h => by
    have hopening := opening_eq ht ht' h
    cases t' with
    | object members' =>
      cases ht with | object hmembers =>
      cases ht' with | object hmembers' =>
      obtain ⟨rfl, hends⟩ := object_append_inj
        (moreMembers_append_inj layout members members' depth hmembers hmembers') h
      exact ⟨rfl, hends⟩
    | _ => cases hopening

theorem moreItems_append_inj (layout : Layout) :
    ∀ (items items' : List Tree) (depth : Nat) {rest rest' : List Char},
      (∀ t ∈ items, t.IsFinite) → (∀ t ∈ items', t.IsFinite) →
      moreItems layout depth items ++ rest = moreItems layout depth items' ++ rest' →
      items = items' ∧ rest = rest'
  | [], [], _, _, _, _, _, h => ⟨rfl, List.append_cancel_left h⟩
  | [], t' :: items', depth, rest, rest', _, _, h => by
    rw [moreItems, moreItems, List.append_assoc] at h
    exact absurd h (newline_append_ne (by decide) (by decide))
  | t :: items, [], depth, rest, rest', _, _, h => by
    rw [moreItems, moreItems, List.append_assoc (layout.newline depth)] at h
    exact absurd h.symm (newline_append_ne (by decide) (by decide))
  | t :: items, t' :: items', depth, rest, rest', hitems, hitems', h => by
    obtain ⟨ht, hothers⟩ := List.forall_mem_cons.1 hitems
    obtain ⟨ht', hothers'⟩ := List.forall_mem_cons.1 hitems'
    rw [moreItems, moreItems, List.append_assoc, List.append_assoc, List.append_assoc,
      List.append_assoc] at h
    obtain ⟨rfl, hmore⟩ := charsAt_append_inj layout t t' (depth + 1) ht ht'
      (endsNumber_items layout depth items rest) (endsNumber_items layout depth items' rest')
      (List.append_cancel_left h)
    obtain ⟨rfl, hends⟩ := moreItems_append_inj layout items items' depth hothers hothers' hmore
    exact ⟨rfl, hends⟩

theorem moreMembers_append_inj (layout : Layout) :
    ∀ (members members' : List (String × Tree)) (depth : Nat) {rest rest' : List Char},
      (∀ e ∈ members, e.2.IsFinite) → (∀ e ∈ members', e.2.IsFinite) →
      moreMembers layout depth members ++ rest = moreMembers layout depth members' ++ rest' →
      members = members' ∧ rest = rest'
  | [], [], _, _, _, _, _, h => ⟨rfl, List.append_cancel_left h⟩
  | [], (key', t') :: members', depth, rest, rest', _, _, h => by
    rw [moreMembers, moreMembers, List.append_assoc] at h
    exact absurd h (newline_append_ne (by decide) (by decide))
  | (key, t) :: members, [], depth, rest, rest', _, _, h => by
    rw [moreMembers, moreMembers, List.append_assoc (layout.newline depth)] at h
    exact absurd h.symm (newline_append_ne (by decide) (by decide))
  | (key, t) :: members, (key', t') :: members', depth, rest, rest', hmembers, hmembers', h => by
    obtain ⟨ht, hothers⟩ := List.forall_mem_cons.1 hmembers
    obtain ⟨ht', hothers'⟩ := List.forall_mem_cons.1 hmembers'
    simp only [moreMembers, List.append_assoc] at h
    obtain ⟨rfl, hcolon⟩ := textChars_append_inj (List.append_cancel_left h)
    obtain ⟨rfl, hmore⟩ := charsAt_append_inj layout t t' (depth + 1) ht ht'
      (endsNumber_members layout depth members rest)
      (endsNumber_members layout depth members' rest') (List.append_cancel_left hcolon)
    obtain ⟨rfl, hends⟩ :=
      moreMembers_append_inj layout members members' depth hothers hothers' hmore
    exact ⟨rfl, hends⟩

end

end Tree

/-! ## Values of shapes -/

mutual

/-- A value with finite numbers is written as a tree with finite numbers. -/
theorem Shape.isFinite_toTree : ∀ (shape : Shape) (v : shape.Value), shape.AllFinite v →
    (shape.toTree v).IsFinite
  | .text, s, _ => .text s
  | .number, x, h => .number (h x (List.mem_singleton.2 rfl))
  | .flag, b, _ => .flag b
  | .word choices, i, _ => .text choices[i]
  | .maybe _, none, _ => .null
  | .maybe item, some x, h => Shape.isFinite_toTree item x h
  | .list item, xs, h => by
    refine .list fun t ht => ?_
    obtain ⟨x, hx, rfl⟩ := List.mem_map.1 ht
    exact Shape.isFinite_toTree item x fun y hy => h y (List.mem_flatMap.2 ⟨x, hx, hy⟩)
  | .table item, t, h => by
    refine .object fun e he => ?_
    obtain ⟨entry, hentry, rfl⟩ := List.mem_map.1 he
    exact Shape.isFinite_toTree item entry.2 fun y hy =>
      h y (List.mem_flatMap.2 ⟨entry, hentry, hy⟩)
  | .record _ fields, x, h => .object (Fields.isFinite_toMembers fields x h)

theorem Fields.isFinite_toMembers : ∀ (fields : Fields) (v : Fields.Values fields),
    (∀ x ∈ Fields.numbers fields v, x.isFinite = true) →
    ∀ e ∈ Fields.toMembers fields v, e.2.IsFinite
  | [], (), _, e, he => nomatch he
  | (key, presence, shape) :: fields, (x, rest), h, e, he => by
    obtain ⟨hx, hrest⟩ := List.forall_mem_append.1 h
    have hothers := Fields.isFinite_toMembers fields rest hrest
    rcases Fields.written_or_omitted key presence shape fields x rest with ⟨hmembers, -⟩ |
      ⟨hmembers, -, -⟩
    · rw [hmembers] at he
      rcases List.mem_cons.1 he with rfl | he
      · exact Shape.isFinite_toTree shape x hx
      · exact hothers e he
    · rw [hmembers] at he
      exact hothers e he

end

/-- Only the absence of a value is written as `null`. -/
lemma Shape.toTree_ne_null {shape : Shape} (hplain : shape.isMaybe = false) (v : shape.Value) :
    shape.toTree v ≠ .null := by
  cases shape with
  | maybe item => cases hplain
  | _ => exact fun h => nomatch h

/-- A member is always written, or it is written exactly when it has a value. -/
lemma Fields.written_or_omittable (presence : Presence) (shape : Shape) :
    (∀ (key : String) (fields : Fields) (x : shape.Value) (rest : Values fields),
      toMembers ((key, presence, shape) :: fields) (x, rest) =
        (key, shape.toTree x) :: toMembers fields rest) ∨
    ∃ item, presence = .omittable ∧ shape = .maybe item := by
  cases presence <;> cases shape <;>
    first
    | exact .inl fun _ _ _ _ => rfl
    | exact .inr ⟨_, rfl, rfl⟩

mutual

/-- A shape whose values can be told apart makes different trees of different values. -/
theorem Shape.toTree_injective : ∀ (shape : Shape) (v v' : shape.Value),
    shape.isUnambiguous = true → shape.toTree v = shape.toTree v' → v = v'
  | .text, s, s', _, h => Tree.text.inj h
  | .number, x, x', _, h => Number.real.inj (Tree.number.inj h)
  | .flag, b, b', _, h => Tree.flag.inj h
  | .word choices, i, i', hun, h => by
    have hword : choices[i] = choices[i'] := Tree.text.inj h
    exact Fin.ext ((List.Nodup.getElem_inj_iff (of_decide_eq_true hun)).1 hword)
  | .maybe _, none, none, _, _ => rfl
  | .maybe item, none, some x', hun, h => by
    obtain ⟨hmaybe, -⟩ := Bool.and_eq_true_iff.1 hun
    exact absurd h.symm (item.toTree_ne_null (by simpa using hmaybe) x')
  | .maybe item, some x, none, hun, h => by
    obtain ⟨hmaybe, -⟩ := Bool.and_eq_true_iff.1 hun
    exact absurd h (item.toTree_ne_null (by simpa using hmaybe) x)
  | .maybe item, some x, some x', hun, h => by
    obtain ⟨-, hitem⟩ := Bool.and_eq_true_iff.1 hun
    exact congrArg some (Shape.toTree_injective item x x' hitem h)
  | .list item, xs, xs', hun, h =>
    List.map_injective_iff.2 (fun x x' => Shape.toTree_injective item x x' hun) (Tree.list.inj h)
  | .table item, t, t', hun, h => by
    have hentry : Function.Injective fun e : String × item.Value => (e.1, item.toTree e.2) :=
      fun e e' he => Prod.ext (Prod.mk.inj he).1
        (Shape.toTree_injective item e.2 e'.2 hun (Prod.mk.inj he).2)
    exact Table.ext_iff.2 (List.map_injective_iff.2 hentry (Tree.object.inj h))
  | .record _ fields, x, x', hun, h => by
    obtain ⟨hkeys, hfields⟩ := Bool.and_eq_true_iff.1 hun
    exact Fields.toMembers_injective fields x x' hfields (of_decide_eq_true hkeys)
      (Tree.object.inj h)

theorem Fields.toMembers_injective : ∀ (fields : Fields) (v v' : Fields.Values fields),
    Fields.isUnambiguous fields = true → (fields.map (·.1)).Nodup →
    Fields.toMembers fields v = Fields.toMembers fields v' → v = v'
  | [], (), (), _, _, _ => rfl
  | (key, presence, shape) :: fields, (x, rest), (x', rest'), hun, hkeys, h => by
    obtain ⟨hshape, hfields⟩ := Bool.and_eq_true_iff.1 hun
    obtain ⟨hkey, hothers⟩ := List.nodup_cons.1 hkeys
    have hvalue := Shape.toTree_injective shape x x' hshape
    have hrest := Fields.toMembers_injective fields rest rest' hfields hothers
    -- no member behind this one has its key
    have hne : ∀ {t : Tree} {members : List (String × Tree)} (values : Fields.Values fields),
        (key, t) :: members ≠ Fields.toMembers fields values := fun values heq =>
      hkey (Fields.key_mem_of_mem_toMembers fields values _ (heq ▸ List.mem_cons_self))
    rcases Fields.written_or_omittable presence shape with hwritten | ⟨item, rfl, rfl⟩
    · rw [hwritten, hwritten] at h
      obtain ⟨hmember, hmembers⟩ := List.cons.inj h
      exact Prod.ext (hvalue (Prod.mk.inj hmember).2) (hrest hmembers)
    · match x, x' with
      | none, none => exact Prod.ext rfl (hrest h)
      | none, some y' => exact absurd h.symm (hne rest)
      | some y, none => exact absurd h (hne rest')
      | some y, some y' =>
        obtain ⟨hmember, hmembers⟩ := List.cons.inj h
        exact Prod.ext (hvalue (Prod.mk.inj hmember).2) (hrest hmembers)

end

/-- In either layout, values with finite numbers have the same text only if they are the same. -/
theorem Shape.chars_injective (layout : Layout) {shape : Shape} {v v' : shape.Value}
    (hun : shape.isUnambiguous = true) (hv : shape.AllFinite v) (hv' : shape.AllFinite v')
    (h : (shape.toTree v).chars layout = (shape.toTree v').chars layout) : v = v' := by
  have hempty : EndsNumber (([] : List Char).map .char) := fun s hs => nomatch hs
  refine shape.toTree_injective v v' hun ?_
  exact ((shape.toTree v).charsAt_append_inj layout (shape.toTree v') 0
    (shape.isFinite_toTree v hv) (shape.isFinite_toTree v' hv') hempty hempty
    (congrArg (· ++ []) h)).1

end WorkflowCanvas.Json
