import WorkflowCanvas.Proofs.Json.Text
import WorkflowCanvas.Proofs.Json.Written

/-!
# Reading lists and objects that were written

The loops over items and members are followed once and for all by `readItems_moreItems` and
`readMembers_moreMembers`.  The second goes along a `MemberChain`, which records how a state, be it
a table or the slots of a record, changes from member to member.
-/

namespace WorkflowCanvas.Json

/-! ## Lists -/

lemma nextItem_first {text : List Char} (layout : Layout) (depth : Nat) (h : Opens text)
    (rest : List Symbol) :
    nextItem true ((layout.newline depth).map .char ++ (text.map .char ++ rest)) =
      .ok (some (text.map .char ++ rest)) := by
  unfold nextItem
  rw [afterSpace_newline, h.afterSpace_eq]
  obtain ⟨c, cs, rfl, hc⟩ := h
  split
  · rename_i heq
    cases heq
  · rename_i heq
    have hbracket := Symbol.char.inj (List.cons.inj heq).1
    exact absurd hbracket (ne_of_opensValue hc rfl)
  · rename_i heq
    rw [← heq]
    rfl

lemma nextItem_more {text : List Char} (layout : Layout) (depth : Nat) (h : Opens text)
    (rest : List Symbol) :
    nextItem false (.char ',' :: ((layout.newline depth).map .char ++ (text.map .char ++ rest))) =
      .ok (some (text.map .char ++ rest)) := by
  unfold nextItem
  rw [afterSpace_cons rfl]
  split
  · rename_i heq
    cases heq
  · rename_i heq
    cases heq
  · rename_i heq
    cases heq
    rw [if_neg (by simp), if_pos rfl, afterSpace_newline, h.afterSpace_eq]
    obtain ⟨c, cs, rfl, hc⟩ := h
    split
    · rename_i heq
      cases heq
    · rename_i heq
      have hbracket := Symbol.char.inj (List.cons.inj heq).1
      exact absurd hbracket (ne_of_opensValue hc rfl)
    · rfl

lemma nextItem_end (first : Bool) (layout : Layout) (depth : Nat) (rest : List Symbol) :
    nextItem first ((layout.newline depth).map .char ++ .char ']' :: rest) = .ok none := by
  unfold nextItem
  rw [afterSpace_newline]
  rfl

lemma readListEnd_newline (layout : Layout) (depth : Nat) (rest : List Symbol) :
    readListEnd ((layout.newline depth).map .char ++ .char ']' :: rest) = .ok rest := by
  unfold readListEnd
  rw [afterSpace_newline]
  rfl

section Items

variable {α β : Type} {item : List Symbol → Except Error (β × List Symbol)} {layout : Layout}
  {depth : Nat} {toTree : α → Tree} {value : α → β}

/-- The items behind the first are read one after the other. -/
lemma readItems_moreItems (rest : List Symbol) :
    ∀ (xs : List α) (rounds : Nat) (read : List β), xs.length < rounds →
      (∀ x ∈ xs, Opens ((toTree x).charsAt layout (depth + 1)) ∧
        Takes item ((toTree x).charsAt layout (depth + 1)) (value x)) →
      readItems item rounds false read
          ((Tree.moreItems layout depth (xs.map toTree)).map .char ++ rest) =
        .ok (read.reverse ++ xs.map value, rest) := by
  intro xs
  induction xs with
  | nil =>
    intro rounds read hrounds _
    obtain ⟨rounds, rfl⟩ : ∃ r, rounds = r + 1 := ⟨rounds - 1, by omega⟩
    have htext : (Tree.moreItems layout depth ([].map toTree)).map Symbol.char ++ rest =
        (layout.newline depth).map .char ++ .char ']' :: rest := by
      rw [List.map_nil, Tree.moreItems, List.map_append, List.append_assoc]
      rfl
    rw [htext, readItems, nextItem_end]
    dsimp only
    rw [readListEnd_newline, List.map_nil, List.append_nil]
    rfl
  | cons x xs ih =>
    intro rounds read hrounds hitems
    obtain ⟨rounds, rfl⟩ : ∃ r, rounds = r + 1 := ⟨rounds - 1, by omega⟩
    obtain ⟨hopens, htakes⟩ := hitems x List.mem_cons_self
    have htext : (Tree.moreItems layout depth ((x :: xs).map toTree)).map Symbol.char ++ rest =
        .char ',' :: ((layout.newline (depth + 1)).map .char ++
          (((toTree x).charsAt layout (depth + 1)).map .char ++
            ((Tree.moreItems layout depth (xs.map toTree)).map .char ++ rest))) := by
      rw [List.map_cons, Tree.moreItems]
      simp
    rw [htext, readItems, nextItem_more layout (depth + 1) hopens]
    dsimp only
    rw [htakes _ (endsNumber_moreItems layout depth _ rest)]
    dsimp only
    rw [ih rounds (value x :: read) (Nat.lt_of_succ_lt_succ hrounds)
      fun y hy => hitems y (List.mem_cons_of_mem x hy)]
    simp

/-- A written list is read item by item behind its bracket. -/
lemma readItems_list {text : List Char} (rest : List Symbol) (xs : List α) (rounds : Nat)
    (hrounds : xs.length < rounds)
    (hitems : ∀ x ∈ xs, Opens ((toTree x).charsAt layout (depth + 1)) ∧
      Takes item ((toTree x).charsAt layout (depth + 1)) (value x))
    (htext : (Tree.list (xs.map toTree)).charsAt layout depth = '[' :: text) :
    readItems item rounds true [] (text.map .char ++ rest) = .ok (xs.map value, rest) := by
  obtain ⟨rounds, rfl⟩ : ∃ r, rounds = r + 1 := ⟨rounds - 1, by omega⟩
  cases xs with
  | nil =>
    obtain rfl := (List.cons.inj htext).2
    rfl
  | cons x xs =>
    obtain ⟨hopens, htakes⟩ := hitems x List.mem_cons_self
    rw [List.map_cons, Tree.charsAt] at htext
    have htail : layout.newline (depth + 1) ++ (toTree x).charsAt layout (depth + 1) ++
        Tree.moreItems layout depth (xs.map toTree) = text := (List.cons.inj htext).2
    have hsplit : text.map Symbol.char ++ rest =
        (layout.newline (depth + 1)).map .char ++
          (((toTree x).charsAt layout (depth + 1)).map .char ++
            ((Tree.moreItems layout depth (xs.map toTree)).map .char ++ rest)) := by
      rw [← htail]
      simp
    rw [hsplit, readItems, nextItem_first layout (depth + 1) hopens]
    dsimp only
    rw [htakes _ (endsNumber_moreItems layout depth _ rest)]
    dsimp only
    rw [readItems_moreItems rest xs rounds [value x] (Nat.lt_of_succ_lt_succ hrounds)
      fun y hy => hitems y (List.mem_cons_of_mem x hy)]
    rfl

end Items

/-! ## Objects -/

lemma readText_quoted (key : String) (rest : List Symbol) :
    ∃ input, (textChars key).map .char ++ rest = .char '"' :: input ∧
      readText input = .ok (key, rest) :=
  ⟨_, rfl, readText_textChars key rest⟩

lemma nextKey_first (layout : Layout) (depth : Nat) (key : String) (rest : List Symbol) :
    nextKey true ((layout.newline depth).map .char ++ ((textChars key).map .char ++ rest)) =
      .ok (some key, rest) := by
  obtain ⟨input, htext, hread⟩ := readText_quoted key rest
  unfold nextKey
  rw [afterSpace_newline, htext]
  change (readText input).map (fun p => (some p.1, p.2)) = _
  rw [hread]
  rfl

lemma nextKey_more (layout : Layout) (depth : Nat) (key : String) (rest : List Symbol) :
    nextKey false (.char ',' :: ((layout.newline depth).map .char ++
      ((textChars key).map .char ++ rest))) = .ok (some key, rest) := by
  obtain ⟨input, htext, hread⟩ := readText_quoted key rest
  unfold nextKey
  rw [afterSpace_cons rfl]
  split
  · rename_i heq
    cases heq
  · rename_i heq
    cases heq
  · rename_i heq
    cases heq
    rw [if_neg (by simp), if_neg (by simp), afterSpace_newline, htext, afterSpace_cons rfl]
    change (readText input).map (fun p => (some p.1, p.2)) = _
    rw [hread]
    rfl

lemma nextKey_end (first : Bool) (layout : Layout) (depth : Nat) (rest : List Symbol) :
    nextKey first ((layout.newline depth).map .char ++ .char '\x7d' :: rest) =
      .ok (none, rest) := by
  unfold nextKey
  rw [afterSpace_newline]
  rfl

/-- The colon and the space behind it are passed over. -/
lemma readColon_colon {text : List Char} (layout : Layout) (h : Opens text)
    (rest : List Symbol) :
    ∃ input, readColon ((layout.colon ++ text).map .char ++ rest) = .ok input ∧
      afterSpace input = text.map .char ++ rest := by
  cases layout with
  | compact => exact ⟨text.map .char ++ rest, rfl, h.afterSpace_eq rest⟩
  | indented => exact ⟨.char ' ' :: (text.map Symbol.char ++ rest), rfl, h.afterSpace_eq rest⟩

section Members

variable {σ : Type} {member : String → σ → List Symbol → Except Error (σ × List Symbol)}
  {layout : Layout} {depth : Nat}

/-- The members, read one after the other behind their keys, lead from one state to another. -/
inductive MemberChain (member : String → σ → List Symbol → Except Error (σ × List Symbol))
    (layout : Layout) (depth : Nat) : List (String × Tree) → σ → σ → Prop
  | nil (state : σ) : MemberChain member layout depth [] state state
  | cons {key : String} {value : Tree} {members : List (String × Tree)} {first second last : σ}
    (takes : Takes (member key first)
      (layout.colon ++ value.charsAt layout (depth + 1)) second)
    (more : MemberChain member layout depth members second last) :
    MemberChain member layout depth ((key, value) :: members) first last

/-- The members behind the first are read along their chain. -/
lemma readMembers_moreMembers {members : List (String × Tree)} {first last : σ}
    (chain : MemberChain member layout depth members first last) (rest : List Symbol) :
    ∀ rounds, members.length < rounds →
      readMembers member rounds false first
          ((Tree.moreMembers layout depth members).map .char ++ rest) = .ok (last, rest) := by
  induction chain with
  | nil state =>
    intro rounds hrounds
    obtain ⟨rounds, rfl⟩ : ∃ r, rounds = r + 1 := ⟨rounds - 1, by omega⟩
    have htext : (Tree.moreMembers layout depth []).map Symbol.char ++ rest =
        (layout.newline depth).map .char ++ .char '\x7d' :: rest := by
      rw [Tree.moreMembers, List.map_append, List.append_assoc]
      rfl
    rw [htext, readMembers, nextKey_end]
  | @cons key value members first second last takes _ ih =>
    intro rounds hrounds
    obtain ⟨rounds, rfl⟩ : ∃ r, rounds = r + 1 := ⟨rounds - 1, by omega⟩
    have htext : (Tree.moreMembers layout depth ((key, value) :: members)).map Symbol.char ++
        rest = .char ',' :: ((layout.newline (depth + 1)).map .char ++
          ((textChars key).map .char ++ ((layout.colon ++ value.charsAt layout (depth + 1)).map
            .char ++ ((Tree.moreMembers layout depth members).map .char ++ rest)))) := by
      rw [Tree.moreMembers]
      simp
    rw [htext, readMembers, nextKey_more]
    dsimp only
    rw [takes _ (endsNumber_moreMembers layout depth members rest)]
    exact ih rounds (Nat.lt_of_succ_lt_succ hrounds)

/-- A written object is read member by member behind its brace. -/
lemma readMembers_object {members : List (String × Tree)} {first last : σ} {text : List Char}
    (chain : MemberChain member layout depth members first last) (rest : List Symbol)
    (rounds : Nat) (hrounds : members.length < rounds)
    (htext : (Tree.object members).charsAt layout depth = '\x7b' :: text) :
    readMembers member rounds true first (text.map .char ++ rest) = .ok (last, rest) := by
  obtain ⟨rounds, rfl⟩ : ∃ r, rounds = r + 1 := ⟨rounds - 1, by omega⟩
  cases chain with
  | nil =>
    obtain rfl := (List.cons.inj htext).2
    rfl
  | @cons key value members _ second _ takes more =>
    rw [Tree.charsAt] at htext
    have htail : layout.newline (depth + 1) ++ textChars key ++ layout.colon ++
        value.charsAt layout (depth + 1) ++ Tree.moreMembers layout depth members = text :=
      (List.cons.inj htext).2
    have hsplit : text.map Symbol.char ++ rest = (layout.newline (depth + 1)).map .char ++
        ((textChars key).map .char ++ ((layout.colon ++ value.charsAt layout (depth + 1)).map
          .char ++ ((Tree.moreMembers layout depth members).map .char ++ rest))) := by
      rw [← htail]
      simp
    rw [hsplit, readMembers, nextKey_first]
    dsimp only
    rw [takes _ (endsNumber_moreMembers layout depth members rest)]
    exact readMembers_moreMembers more rest rounds (Nat.lt_of_succ_lt_succ hrounds)

end Members

/-! ## Tables -/

lemma insertEntry_eq_append {α : Type} {key : String} {value : α} {entries : List (String × α)}
    (h : ∀ e ∈ entries, e.1 < key) :
    Table.insertEntry key value entries = entries ++ [(key, value)] := by
  induction entries with
  | nil => rfl
  | cons e entries ih =>
    obtain ⟨k, v⟩ := e
    have hlt : k < key := h (k, v) List.mem_cons_self
    have hnot : ¬key < k := fun hgt => String.lt_irrefl k (String.lt_trans hlt hgt)
    have hne : key ≠ k := fun heq => String.lt_irrefl k (heq ▸ hlt)
    rw [Table.insertEntry, if_neg hnot, if_neg hne,
      ih fun e he => h e (List.mem_cons_of_mem _ he)]
    rfl

section Entries

variable {α β : Type} {item : List Symbol → Except Error (β × List Symbol)} {layout : Layout}
  {depth : Nat} {toTree : α → Tree} {value : α → β}

/-- Reads an entry behind its key into a table. -/
def readEntry (item : List Symbol → Except Error (β × List Symbol)) (key : String)
    (table : Table β) (input : List Symbol) : Except Error (Table β × List Symbol) :=
  match readColon input with
  | .error e => .error e
  | .ok rest =>
    match item rest with
    | .error e => .error e
    | .ok (x, rest) => .ok (table.insert key x, rest)

lemma readEntries_eq_readMembers (rounds : Nat) (first : Bool) (table : Table β)
    (input : List Symbol) :
    readEntries item rounds first table input =
      readMembers (readEntry item) rounds first table input := by
  induction rounds generalizing first table input with
  | zero => rfl
  | succ rounds ih =>
    rw [readEntries, readMembers]
    cases nextKey first input with
    | error e => rfl
    | ok next =>
      obtain ⟨key?, rest⟩ := next
      cases key? with
      | none => rfl
      | some key =>
        dsimp only
        unfold readEntry
        cases readColon rest with
        | error e => rfl
        | ok rest =>
          dsimp only
          cases item rest with
          | error e => rfl
          | ok read => exact ih false _ _

/-- A reader that passes over space takes an entry behind its key. -/
lemma takes_readEntry {text : List Char} {y : β} (key : String) (table : Table β)
    (hspace : ∀ input, item (afterSpace input) = item input) (hopens : Opens text)
    (htakes : Takes item text y) :
    Takes (readEntry item key table) (layout.colon ++ text) (table.insert key y) := by
  intro rest hrest
  obtain ⟨input, hcolon, hinput⟩ := readColon_colon layout hopens rest
  unfold readEntry
  rw [hcolon]
  dsimp only
  rw [← hspace, hinput, htakes rest hrest]

/-- The entries of a table come in ascending order, so each one is put behind those before it. -/
lemma memberChain_entries (hspace : ∀ input, item (afterSpace input) = item input)
    (todo : List (String × α)) :
    ∀ (done : List (String × α)) (s t : Table β),
      (done ++ todo).Pairwise (fun a b => a.1 < b.1) →
      (∀ e ∈ todo, Opens ((toTree e.2).charsAt layout (depth + 1)) ∧
        Takes item ((toTree e.2).charsAt layout (depth + 1)) (value e.2)) →
      s.entries = done.map (fun e => (e.1, value e.2)) →
      t.entries = (done ++ todo).map (fun e => (e.1, value e.2)) →
      MemberChain (readEntry item) layout depth (todo.map fun e => (e.1, toTree e.2)) s t := by
  induction todo with
  | nil =>
    intro done s t _ _ hs ht
    rw [List.append_nil, ← hs] at ht
    obtain rfl := Table.ext_iff.2 ht
    exact .nil t
  | cons e todo ih =>
    intro done s t hascending hentries hs ht
    obtain ⟨hopens, htakes⟩ := hentries e List.mem_cons_self
    have hbefore : ∀ d ∈ s.entries, d.1 < e.1 := by
      intro d hd
      rw [hs] at hd
      obtain ⟨d', hd', rfl⟩ := List.mem_map.1 hd
      exact (List.pairwise_append.1 hascending).2.2 d' hd' e List.mem_cons_self
    have hinsert : (s.insert e.1 (value e.2)).entries =
        (done ++ [e]).map fun e => (e.1, value e.2) := by
      refine (insertEntry_eq_append hbefore).trans ?_
      rw [hs, List.map_append]
      rfl
    have hassoc : done ++ e :: todo = done ++ [e] ++ todo := by simp
    rw [hassoc] at hascending ht
    exact .cons (takes_readEntry e.1 s hspace hopens htakes)
      (ih (done ++ [e]) _ t hascending
        (fun e' he' => hentries e' (List.mem_cons_of_mem e he')) hinsert ht)

end Entries

end WorkflowCanvas.Json
