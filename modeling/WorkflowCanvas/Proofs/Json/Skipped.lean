import WorkflowCanvas.Proofs.Json.Numerals
import WorkflowCanvas.Proofs.Json.Strokes

/-!
# Skipping a phrase

The skipper passes over every value that follows the rules, to any depth, and stops behind it
(`Phrase.Value.skipValue_eq`).  Lists and objects that are still open stand on its stack.  So what
is said of a value is said over any stack (`Skips`): the skipper gets from the value to what stands
behind it with the same stack, in no more rounds than the value has characters.  The inside of a
list or an object is passed over along its course (`skips_course`).
-/

namespace WorkflowCanvas.Json

open Grammar Phrase

/-- Over any stack the skipper gets from this value to what stands behind it. -/
def Skips (cs : List Char) : Prop :=
  ∃ rounds ≤ cs.length, ∀ more opened rest, EndsNumber rest →
    skipFrom (more + rounds) .value opened (cs.map .char ++ rest) =
      skipFrom more .separator opened rest

lemma skipFrom_blank {blank : List Char} (h : Blank blank) (rounds : Nat)
    (opened : List Enclosure) (input : List Symbol) :
    skipFrom rounds .value opened (blank.map .char ++ input) =
      skipFrom rounds .value opened input := by
  cases rounds with
  | zero => rfl
  | succ rounds => rw [skipFrom, skipFrom, afterSpace_blank h]

/-- A value that is no list and no object takes one round. -/
lemma skips_scalar {c : Char} {cs : List Char} (hopens : opensValue c = true)
    (hlist : c ≠ '[') (hobject : c ≠ '\x7b')
    (h : ∀ rest, EndsNumber rest → skipScalar ((c :: cs).map .char ++ rest) = .ok rest) :
    Skips (c :: cs) := by
  refine ⟨1, by simp, fun more opened rest hrest => ?_⟩
  have hskip := h rest hrest
  rw [List.map_cons, List.cons_append] at hskip ⊢
  rw [skipFrom, afterSpace_cons (isSpace_of_opensValue hopens)]
  split
  · rename_i heq
    exact absurd (Symbol.char.inj (List.cons.inj heq).1) hlist
  · rename_i heq
    exact absurd (Symbol.char.inj (List.cons.inj heq).1) hobject
  · rw [hskip]
    rfl

lemma skips_number {cs : List Char} {numeral : Numeral} (h : Grammar.Number cs numeral) :
    Skips cs := by
  obtain ⟨c, more, rfl, hc⟩ := h.exists_cons
  have hne := ne_of_startsNumber hc
  refine skips_scalar (by rw [opensValue, hc, Bool.or_true]) (hne '[' rfl) (hne '\x7b' rfl)
    fun rest hrest => ?_
  have hskip := h.skipNumber_eq hrest
  rw [List.map_cons, List.cons_append] at hskip ⊢
  unfold skipScalar
  split
  · rename_i heq
    exact absurd (Symbol.char.inj (List.cons.inj heq).1) (hne 'n' rfl)
  · rename_i heq
    exact absurd (Symbol.char.inj (List.cons.inj heq).1) (hne 't' rfl)
  · rename_i heq
    exact absurd (Symbol.char.inj (List.cons.inj heq).1) (hne 'f' rfl)
  · rename_i heq
    exact absurd (Symbol.char.inj (List.cons.inj heq).1) (hne '"' rfl)
  · rename_i heq
    obtain ⟨rfl, rfl⟩ := List.cons.inj heq
    rw [if_pos (symbol_of_startsNumber hc)]
    exact hskip
  · rename_i heq
    cases heq

lemma skips_text {cs : List Char} (h : Strokes cs) : Skips (quoted cs) := by
  refine skips_scalar rfl (by decide) (by decide) fun rest _ => ?_
  rw [← h.skipText_eq rest]
  exact congrArg skipScalar (map_quoted cs rest)

/-! ## Lists and objects -/

/-- The brackets of a list or an object. -/
def leftOf : Enclosure → Char
  | .list => '['
  | .object => '\x7b'

def rightOf : Enclosure → Char
  | .list => ']'
  | .object => '\x7d'

/-- Skips what stands before the value of a thing, which is the key of a member. -/
def skipLead : Enclosure → List Symbol → Except Error (List Symbol)
  | .list, input => .ok input
  | .object, input => skipKey input

/-- Skips the next thing of a list or an object. -/
def skipThing (rounds : Nat) (enclosure : Enclosure) (opened : List Enclosure)
    (input : List Symbol) : Except Error (List Symbol) :=
  skipLead enclosure input >>= skipFrom rounds .value (enclosure :: opened)

/-- Inside a list or an object, whatever it stands in, the skipper gets behind this thing. -/
def SkipsIn (enclosure : Enclosure) (cs : List Char) : Prop :=
  ∃ rounds ≤ cs.length, ∀ more opened before rest, Blank before → EndsNumber rest →
    skipThing (more + rounds) enclosure opened (before.map .char ++ (cs.map .char ++ rest)) =
      skipFrom more .separator (enclosure :: opened) rest

lemma skipsIn_value {cs : List Char} (h : Skips cs) : SkipsIn .list cs := by
  obtain ⟨rounds, hle, hskip⟩ := h
  refine ⟨rounds, hle, fun more opened before rest hbefore hrest => ?_⟩
  exact (skipFrom_blank hbefore ..).trans (hskip more (.list :: opened) rest hrest)

lemma readColon_blank {after : List Char} (h : Blank after) (rest : List Symbol) :
    readColon (after.map .char ++ .char ':' :: rest) = .ok rest := by
  rw [readColon, afterSpace_blank h]
  rfl

lemma skipsIn_entry {key after before cs : List Char} (strokes : Strokes key)
    (hafter : Blank after) (hbefore : Blank before) (h : Skips cs) :
    SkipsIn .object (quoted key ++ (after ++ ':' :: (before ++ cs))) := by
  obtain ⟨rounds, hle, hskip⟩ := h
  refine ⟨rounds, by simp only [List.length_append, List.length_cons]; omega,
    fun more opened space rest hspace hrest => ?_⟩
  have hkey : skipKey (space.map .char ++
      ((quoted key ++ (after ++ ':' :: (before ++ cs))).map .char ++ rest)) =
        .ok (before.map .char ++ (cs.map .char ++ rest)) := by
    have htext : (after ++ ':' :: (before ++ cs)).map Symbol.char ++ rest = after.map .char ++
        .char ':' :: (before.map .char ++ (cs.map .char ++ rest)) := by simp
    rw [List.map_append, List.append_assoc, map_quoted, htext, skipKey, afterSpace_blank hspace,
      afterSpace_cons rfl]
    change Except.bind (skipText _) readColon = _
    rw [strokes.skipText_eq]
    exact readColon_blank hafter _
  change Except.bind (skipKey _) _ = _
  rw [hkey]
  exact (skipFrom_blank hbefore ..).trans (hskip more (.object :: opened) rest hrest)

section Courses

variable {α : Type} {Inner : List Char → α → Prop} {text : List Char} {xs : List α}
  {enclosure : Enclosure}

lemma isBracket_rightOf (enclosure : Enclosure) : isBracket (rightOf enclosure) = true := by
  cases enclosure <;> rfl

lemma skipFrom_right {blank : List Char} (h : Blank blank) (more : Nat) (opened : List Enclosure)
    (rest : List Symbol) :
    skipFrom (more + 1) .separator (enclosure :: opened)
        ((blank ++ [rightOf enclosure]).map .char ++ rest) =
      skipFrom more .separator opened rest := by
  rw [List.map_append, List.append_assoc]
  cases enclosure <;> (rw [skipFrom, afterSpace_blank h]; rfl)

lemma skipFrom_comma {blank : List Char} (h : Blank blank) (more : Nat) (opened : List Enclosure)
    (rest : List Symbol) :
    skipFrom (more + 1) .separator (enclosure :: opened)
        ((blank ++ [',']).map .char ++ rest) = skipThing more enclosure opened rest := by
  rw [List.map_append, List.append_assoc]
  cases enclosure <;> (rw [skipFrom, afterSpace_blank h]; rfl)

/-- Behind one thing the others are passed over, up to and with the closing bracket. -/
lemma skips_course (h : Course (rightOf enclosure) Inner false text xs)
    (hitems : ∀ x ∈ xs, ∀ cs, Inner cs x → SkipsIn enclosure cs) :
    ∃ rounds ≤ text.length, ∀ more opened rest,
      skipFrom (more + rounds) .separator (enclosure :: opened) (text.map .char ++ rest) =
        skipFrom more .separator opened rest := by
  generalize hfirst : false = first at h
  induction h with
  | done space => exact ⟨1, by simp, fun more opened rest => skipFrom_right space more opened rest⟩
  | @next first lead before cs others x xs leads space item course ih =>
    obtain ⟨hx, hxs⟩ := List.forall_mem_cons.1 hitems
    obtain ⟨rounds, hle, hskip⟩ := hx cs item
    obtain ⟨roundsMore, hleMore, hskipMore⟩ := ih hxs rfl
    cases leads with
    | first => cases hfirst
    | later blank =>
      refine ⟨roundsMore + rounds + 1, ?_, fun more opened rest => ?_⟩
      · simp only [List.length_append, List.length_singleton]
        omega
      have htext := course.endsNumber (isBracket_rightOf enclosure) rest
      rw [List.map_append, List.append_assoc, ← Nat.add_assoc, skipFrom_comma blank,
        List.map_append, List.append_assoc, List.map_append, List.append_assoc, ← Nat.add_assoc,
        hskip _ opened before _ space htext, hskipMore]

lemma skipFrom_list (more : Nat) (opened : List Enclosure) (input : List Symbol) :
    skipFrom (more + 1) .value opened (.char '[' :: input) =
      match afterSpace input with
      | [] => .error .endOfList
      | .char ']' :: rest => skipFrom more .separator opened rest
      | rest => skipThing more .list opened rest := rfl

lemma skipFrom_object (more : Nat) (opened : List Enclosure) (input : List Symbol) :
    skipFrom (more + 1) .value opened (.char '\x7b' :: input) =
      match afterSpace input with
      | .char '\x7d' :: rest => skipFrom more .separator opened rest
      | rest => skipThing more .object opened rest := rfl

/-- An opening bracket puts its list or object on the stack. -/
lemma skipFrom_left {before cs : List Char} (hbefore : Blank before) (hopens : Opens cs)
    (more : Nat) (opened : List Enclosure) (rest : List Symbol) :
    skipFrom (more + 1) .value opened
        (.char (leftOf enclosure) :: (before.map .char ++ (cs.map .char ++ rest))) =
      skipThing more enclosure opened (cs.map .char ++ rest) := by
  have hspace := (afterSpace_blank hbefore).trans (hopens.afterSpace_eq rest)
  obtain ⟨c, cs, rfl, hc⟩ := hopens
  cases enclosure with
  | list =>
    rw [leftOf, skipFrom_list, hspace]
    split
    · rename_i heq
      cases heq
    · rename_i heq
      exact absurd (Symbol.char.inj (List.cons.inj heq).1) (ne_of_opensValue hc rfl)
    · rfl
  | object =>
    rw [leftOf, skipFrom_object, hspace]
    split
    · rename_i heq
      exact absurd (Symbol.char.inj (List.cons.inj heq).1) (ne_of_opensValue hc rfl)
    · rfl

/-- Empty brackets take one round. -/
lemma skips_empty {blank : List Char} (h : Blank blank) :
    Skips (leftOf enclosure :: (blank ++ [rightOf enclosure])) := by
  refine ⟨1, by simp, fun more opened rest _ => ?_⟩
  rw [List.map_cons, List.cons_append, List.map_append, List.append_assoc]
  cases enclosure with
  | list =>
    rw [leftOf, skipFrom_list, afterSpace_blank h]
    rfl
  | object =>
    rw [leftOf, skipFrom_object, afterSpace_blank h]
    rfl

/-- A list or an object is passed over along its course. -/
lemma skips_enclosed (h : Course (rightOf enclosure) Inner true text xs)
    (hopens : ∀ {cs x}, Inner cs x → Opens cs)
    (hitems : ∀ x ∈ xs, ∀ cs, Inner cs x → SkipsIn enclosure cs) :
    Skips (leftOf enclosure :: text) := by
  cases h with
  | done space => exact skips_empty space
  | @next _ _ before cs others x xs leads space item course =>
    cases leads
    obtain ⟨hx, hxs⟩ := List.forall_mem_cons.1 hitems
    obtain ⟨rounds, hle, hskip⟩ := hx cs item
    obtain ⟨roundsMore, hleMore, hskipMore⟩ := skips_course course hxs
    refine ⟨roundsMore + rounds + 1, by
      simp only [List.nil_append, List.length_append, List.length_cons]; omega,
      fun more opened rest hrest => ?_⟩
    have hnumber := course.endsNumber (isBracket_rightOf enclosure) rest
    have hthing := hskip (more + roundsMore) opened [] _ (fun _ hc => nomatch hc) hnumber
    rw [List.nil_append, List.map_cons, List.cons_append, List.map_append, List.append_assoc,
      List.map_append, List.append_assoc, ← Nat.add_assoc, skipFrom_left space (hopens item),
      ← Nat.add_assoc, ← hskipMore]
    exact hthing

end Courses

/-- Every value that follows the rules is skipped, whatever is open around it. -/
theorem Phrase.Value.skips {cs : List Char} {p : Phrase} (h : Value cs p) : Skips cs := by
  induction p using Phrase.induct generalizing cs with
  | null =>
    cases h
    exact skips_scalar rfl (by decide) (by decide) fun rest _ => rfl
  | flag value =>
    cases h <;> exact skips_scalar rfl (by decide) (by decide) fun rest _ => rfl
  | number numeral =>
    cases h with | number digits =>
    exact skips_number digits
  | text strokes =>
    cases h with | text hstrokes =>
    exact skips_text hstrokes
  | list items ih =>
    cases h with | list enclosed =>
    obtain ⟨text, rfl, hcourse⟩ := course_of_enclosed pads_element enclosed
    have hskips : Skips (leftOf .list :: text) := skips_enclosed hcourse Value.opens
      fun p hp cs hvalue => skipsIn_value (ih p hp hvalue)
    exact hskips
  | object members ih =>
    cases h with | object enclosed =>
    obtain ⟨text, rfl, hcourse⟩ := course_of_enclosed pads_member enclosed
    have hskips : Skips (leftOf .object :: text) := by
      refine skips_enclosed hcourse Entry.opens fun m hm cs hentry => ?_
      cases hentry with | mk strokes behind =>
      cases behind with | mk hafter hbefore value =>
      exact skipsIn_entry strokes hafter hbefore (ih _ hm value)
    exact hskips

/-- A value that nobody asks for is skipped with the space before it. -/
theorem Phrase.Value.skipValue_eq {before cs : List Char} {p : Phrase} {rest : List Symbol}
    (h : Value cs p) (hbefore : Blank before) (hrest : EndsNumber rest) :
    skipValue (before.map .char ++ (cs.map .char ++ rest)) = .ok rest := by
  obtain ⟨rounds, hle, hskip⟩ := h.skips
  obtain ⟨more, hmore⟩ : ∃ more,
      (before.map Symbol.char ++ (cs.map Symbol.char ++ rest)).length + 1 = more + 1 + rounds := by
    refine ⟨before.length + (cs.length - rounds) + rest.length, ?_⟩
    simp only [List.length_append, List.length_map]
    omega
  rw [skipValue, hmore, skipFrom_blank hbefore, hskip _ _ _ hrest]
  rfl

end WorkflowCanvas.Json
