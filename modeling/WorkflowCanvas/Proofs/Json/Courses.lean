import WorkflowCanvas.Proofs.Json.OfPhrase

/-!
# Reading along a course

The loops over the items of a list and over the members of an object, followed for any reader of
items and members (`readItems_course`, `readMembers_course`).  What is said of a reader holds
whatever stands behind the text (`Yields`), so a loop can go on behind each thing it has read.
-/

namespace WorkflowCanvas.Json

open Grammar Phrase

/-- Whatever may stand behind the text, the reader makes this of it and stops there, or fails. -/
def Yields {β : Type} (read : List Symbol → Except Error (β × List Symbol)) (text : List Char)
    (outcome : Option β) : Prop :=
  ∀ rest, EndsNumber rest → (read (text.map .char ++ rest)).toOption = outcome.map (·, rest)

@[simp] lemma toOption_map {α β : Type} (e : Except Error α) (f : α → β) :
    (e.map f).toOption = e.toOption.map f := by
  cases e <;> rfl

@[simp] lemma toOption_bind {α β : Type} (e : Except Error α) (f : α → Except Error β) :
    (e >>= f).toOption = e.toOption.bind fun a => (f a).toOption := by
  cases e <;> rfl

lemma exists_error {α : Type} {e : Except Error α} (h : e.toOption = none) :
    ∃ error, e = .error error := by
  cases e with
  | error error => exact ⟨error, rfl⟩
  | ok a => cases h

lemma eq_ok {α : Type} {e : Except Error α} {a : α} (h : e.toOption = some a) : e = .ok a := by
  cases e with
  | error error => cases h
  | ok b => exact congrArg Except.ok (Option.some.inj h)

/-! ## Lists -/

section Lists

variable {first : Bool} {lead before blank cs text : List Char} {rest : List Symbol}

lemma nextItem_right (h : Blank blank) :
    nextItem first ((blank ++ [']']).map .char ++ rest) = .ok none := by
  rw [nextItem, List.map_append, List.append_assoc, afterSpace_blank h]
  rfl

lemma readListEnd_right (h : Blank blank) :
    readListEnd ((blank ++ [']']).map .char ++ rest) = .ok rest := by
  rw [readListEnd, List.map_append, List.append_assoc, afterSpace_blank h]
  rfl

/-- The next item is found behind what leads to it. -/
lemma nextItem_lead (leads : Lead first lead) (hbefore : Blank before) (hopens : Opens cs)
    (rest : List Symbol) :
    nextItem first ((lead ++ (before ++ cs)).map .char ++ rest) =
      .ok (some (cs.map .char ++ rest)) := by
  have hspace := (afterSpace_blank hbefore).trans (hopens.afterSpace_eq rest)
  obtain ⟨c, cs, rfl, hc⟩ := hopens
  have hbracket : c ≠ ']' := ne_of_opensValue hc rfl
  cases leads with
  | first =>
    rw [nextItem, List.nil_append, List.map_append, List.append_assoc, hspace]
    split
    · rename_i heq
      cases heq
    · rename_i heq
      exact absurd (Symbol.char.inj (List.cons.inj heq).1) hbracket
    · rename_i heq
      rw [← heq]
      rfl
  | later space =>
    rw [nextItem, List.append_assoc, List.map_append, List.append_assoc, afterSpace_blank space,
      List.map_append, List.append_assoc, List.map_append, List.append_assoc, List.map_singleton,
      List.singleton_append, afterSpace_cons rfl]
    split
    · rename_i heq
      cases heq
    · rename_i heq
      cases heq
    · rename_i heq
      cases heq
      rw [if_neg Bool.false_ne_true, if_pos rfl, hspace]
      split
      · rename_i heq
        cases heq
      · rename_i heq
        exact absurd (Symbol.char.inj (List.cons.inj heq).1) hbracket
      · rfl

section Items

variable {α : Type} {item : List Symbol → Except Error (α × List Symbol)}

lemma toOption_readItems {input next : List Symbol} (h : nextItem first input = .ok (some next))
    (rounds : Nat) (read : List α) :
    (readItems item (rounds + 1) first read input).toOption =
      (item next).toOption.bind fun r =>
        (readItems item rounds false (r.1 :: read) r.2).toOption := by
  rw [readItems, h]
  dsimp only
  cases item next <;> rfl

/-- Items are read along their course. -/
lemma readItems_course {f : Phrase → Option α} {items : List Phrase}
    (h : Course ']' Phrase.Value first text items) (rest : List Symbol) :
    (∀ p ∈ items, ∀ cs, Phrase.Value cs p → cs.length < text.length → Yields item cs (f p)) →
    ∀ rounds read, text.length ≤ rounds →
      (readItems item rounds first read (text.map .char ++ rest)).toOption =
        (items.mapM f).map fun xs => (read.reverse ++ xs, rest) := by
  induction h with
  | done space =>
    intro _ rounds read hrounds
    obtain ⟨rounds, rfl⟩ : ∃ r, rounds = r + 1 := ⟨rounds - 1, by simp at hrounds; omega⟩
    rw [readItems, nextItem_right space]
    dsimp only
    rw [readListEnd_right space, List.mapM_nil]
    simp [Except.map, Except.toOption]
  | @next first lead before cs others p items leads space value course ih =>
    intro hitems rounds read hrounds
    have hitem := value.opens.length_pos
    have hmore := course.length_pos
    have hlength : (lead ++ (before ++ (cs ++ others))).length =
        lead.length + before.length + cs.length + others.length := by
      simp only [List.length_append]
      omega
    rw [hlength] at hitems hrounds
    obtain ⟨hp, hothers⟩ := List.forall_mem_cons.1 hitems
    obtain ⟨rounds, rfl⟩ : ∃ r, rounds = r + 1 := ⟨rounds - 1, by omega⟩
    have hnext := nextItem_lead leads space value.opens (others.map .char ++ rest)
    have htext : (lead ++ (before ++ (cs ++ others))).map Symbol.char ++ rest =
        (lead ++ (before ++ cs)).map .char ++ (others.map .char ++ rest) := by simp
    rw [htext, toOption_readItems hnext, hp cs value (by omega) _ (course.endsNumber rfl rest),
      List.mapM_cons]
    cases f p with
    | none => rfl
    | some x =>
      have hread := ih (fun q hq cs' hcs' hlt => hothers q hq cs' hcs' (by omega)) rounds
        (x :: read) (by omega)
      refine hread.trans ?_
      cases items.mapM f <;> simp

end Items

end Lists

/-! ## Objects -/

section Objects

variable {first : Bool} {lead before blank key cs text : List Char} {rest : List Symbol}

lemma nextKey_right (h : Blank blank) :
    nextKey first ((blank ++ ['\x7d']).map .char ++ rest) = .ok (none, rest) := by
  rw [nextKey, List.map_append, List.append_assoc, afterSpace_blank h]
  rfl

/-- The next key is found behind what leads to it, if it means something. -/
lemma nextKey_lead (leads : Lead first lead) (hbefore : Blank before) (strokes : Strokes key)
    (rest : List Symbol) :
    (nextKey first ((lead ++ (before ++ quoted key)).map .char ++ rest)).toOption =
      (textOf key).map fun name => (some name, rest) := by
  have hspace : afterSpace (before.map .char ++ ((quoted key).map .char ++ rest)) =
      .char '"' :: (key.map .char ++ .char '"' :: rest) := by
    rw [afterSpace_blank hbefore, map_quoted, afterSpace_cons rfl]
  have hkey : ((readText (key.map .char ++ .char '"' :: rest)).map fun p =>
      (some p.1, p.2)).toOption = (textOf key).map fun name => (some name, rest) := by
    rw [toOption_map, strokes.readText_eq, Option.map_map]
    rfl
  rw [← hkey]
  cases leads with
  | first =>
    rw [nextKey, List.nil_append, List.map_append, List.append_assoc, hspace]
    rfl
  | later space =>
    rw [nextKey, List.append_assoc, List.map_append, List.append_assoc, afterSpace_blank space,
      List.map_append, List.append_assoc, List.map_append, List.append_assoc, List.map_singleton,
      List.singleton_append, afterSpace_cons rfl]
    split
    · rename_i heq
      cases heq
    · rename_i heq
      cases heq
    · rename_i heq
      cases heq
      rw [if_neg (by simp), if_neg (by simp), hspace]
      rfl

section Members

variable {σ : Type} {member : String → σ → List Symbol → Except Error (σ × List Symbol)}

lemma toOption_readMembers {input next : List Symbol} {key? : Option String}
    (h : (nextKey first input).toOption = key?.map fun key => (some key, next)) (rounds : Nat)
    (s : σ) :
    (readMembers member (rounds + 1) first s input).toOption =
      key?.bind fun key => (member key s next).toOption.bind fun r =>
        (readMembers member rounds false r.1 r.2).toOption := by
  rw [readMembers]
  cases key? with
  | none =>
    obtain ⟨e, hnext⟩ := exists_error h
    rw [hnext]
    rfl
  | some key =>
    rw [eq_ok h, Option.bind_some]
    dsimp only
    cases member key s next <;> rfl

/-- Members are read along their course. -/
lemma readMembers_course {step : σ → String × Phrase → Option σ}
    {members : List (List Char × Phrase)} (h : Course '\x7d' Entry first text members)
    (rest : List Symbol) :
    (∀ m ∈ members, ∀ cs, Behind cs m.2 → cs.length < text.length →
      ∀ key s, Yields (member key s) cs (step s (key, m.2))) →
    ∀ rounds s, text.length ≤ rounds →
      (readMembers member rounds first s (text.map .char ++ rest)).toOption =
        (foldNamed step s members).map (·, rest) := by
  induction h with
  | done space =>
    intro _ rounds s hrounds
    obtain ⟨rounds, rfl⟩ : ∃ r, rounds = r + 1 := ⟨rounds - 1, by simp at hrounds; omega⟩
    rw [readMembers, nextKey_right space]
    rfl
  | @next first lead before _ others _ members leads space entry course ih =>
    intro hmembers rounds s hrounds
    cases entry with | @mk key cs p strokes behind =>
    have hmore := course.length_pos
    have hlength : (lead ++ (before ++ (quoted key ++ cs ++ others))).length =
        lead.length + before.length + (key.length + 2) + cs.length + others.length := by
      simp only [quoted, List.length_append, List.length_cons, List.length_nil]
      omega
    rw [hlength] at hmembers hrounds
    obtain ⟨hm, hothers⟩ := List.forall_mem_cons.1 hmembers
    obtain ⟨rounds, rfl⟩ : ∃ r, rounds = r + 1 := ⟨rounds - 1, by omega⟩
    have hnext := nextKey_lead leads space strokes (cs.map .char ++ (others.map .char ++ rest))
    have htext : (lead ++ (before ++ (quoted key ++ cs ++ others))).map Symbol.char ++ rest =
        (lead ++ (before ++ quoted key)).map .char ++
          (cs.map .char ++ (others.map .char ++ rest)) := by simp
    rw [htext, toOption_readMembers hnext, foldNamed_cons, Option.map_bind]
    refine congrArg (Option.bind (textOf key)) (funext fun name => ?_)
    rw [hm cs behind (by omega) name s _ (course.endsNumber rfl rest)]
    dsimp only [Function.comp_apply]
    cases step s (name, p) with
    | none => rfl
    | some s' =>
      exact ih (fun m hm' cs' hcs' hlt => hothers m hm' cs' hcs' (by omega)) rounds s' (by omega)

end Members

end Objects

end WorkflowCanvas.Json
