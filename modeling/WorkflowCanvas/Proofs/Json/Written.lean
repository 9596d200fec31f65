import WorkflowCanvas.Proofs.Json.Number
import WorkflowCanvas.Proofs.Json.Numbers

/-!
# The form of a written value

How the text of a value begins, what may stand behind it and how long its parts are.  A reader looks
at the first symbol to decide what follows, at the symbol behind a number to see that it is over,
and it is given as many rounds as the text has symbols.
-/

namespace WorkflowCanvas.Json

/-! ## Space between tokens -/

lemma afterSpace_cons {s : Symbol} (hs : isSpace s = false) (rest : List Symbol) :
    afterSpace (s :: rest) = s :: rest := by
  rw [afterSpace, List.dropWhile_cons_of_neg]
  rw [hs]
  decide

@[simp] lemma afterSpace_afterSpace (input : List Symbol) :
    afterSpace (afterSpace input) = afterSpace input := by
  induction input with
  | nil => rfl
  | cons s rest ih =>
    by_cases hs : isSpace s = true
    · have hskip : afterSpace (s :: rest) = afterSpace rest := List.dropWhile_cons_of_pos hs
      rw [hskip, ih]
    · have hkeep := afterSpace_cons (Bool.eq_false_iff.2 hs) rest
      rw [hkeep, hkeep]

lemma afterSpace_newline (layout : Layout) (depth : Nat) (input : List Symbol) :
    afterSpace ((layout.newline depth).map .char ++ input) = afterSpace input := by
  cases layout with
  | compact => rfl
  | indented =>
    have hblank : ∀ count, afterSpace ((List.replicate count ' ').map .char ++ input) =
        afterSpace input := by
      intro count
      induction count with
      | zero => rfl
      | succ count ih => exact ih
    exact hblank (2 * depth)

/-- No reader looks at the space before its value. -/
lemma Shape.readFrom_afterSpace (rounds : Nat) (shape : Shape) (input : List Symbol) :
    shape.readFrom rounds (afterSpace input) = shape.readFrom rounds input := by
  cases shape <;>
    simp only [Shape.readFrom, readTextValue, readNumberValue, readFlag, readWord,
      afterSpace_afterSpace]

/-! ## The first symbol of a value -/

/-- The character after which a reader of values decides. -/
def opensValue (c : Char) : Bool :=
  c == '"' || c == '[' || c == '\x7b' || c == 'n' || c == 't' || c == 'f' || startsNumber c

lemma isSpace_of_opensValue {c : Char} (h : opensValue c = true) : isSpace (.char c) = false := by
  by_contra hspace
  rw [Bool.not_eq_false] at hspace
  unfold isSpace at hspace
  split at hspace
  · rename_i heq
    cases heq
    exact absurd h (by decide)
  · rename_i heq
    cases heq
    exact absurd h (by decide)
  · rename_i heq
    cases heq
    exact absurd h (by decide)
  · rename_i heq
    cases heq
    exact absurd h (by decide)
  · cases hspace

lemma ne_of_opensValue {c c' : Char} (h : opensValue c = true) (h' : opensValue c' = false) :
    c ≠ c' := by
  rintro rfl
  rw [h] at h'
  cases h'

/-- What begins a number is what the reader of numbers looks for. -/
lemma symbol_of_startsNumber {c : Char} (h : startsNumber c = true) :
    Symbol.char c = .char '-' ∨ (digit? (.char c)).isSome = true := by
  rcases Bool.or_eq_true_iff.1 h with hminus | hdigit
  · exact .inl (congrArg Symbol.char (eq_of_beq hminus))
  · exact .inr (by rw [digit?_of_isDigit hdigit]; rfl)

/-- Whether `null` is a value of the shape. -/
def Shape.isMaybe : Shape → Bool
  | .maybe _ => true
  | _ => false

lemma Tree.list_eq_cons (layout : Layout) (depth : Nat) (items : List Tree) :
    ∃ cs, (Tree.list items).charsAt layout depth = '[' :: cs := by
  cases items with
  | nil => exact ⟨_, rfl⟩
  | cons item items =>
    rw [Tree.charsAt]
    exact ⟨_, rfl⟩

lemma Tree.object_eq_cons (layout : Layout) (depth : Nat) (members : List (String × Tree)) :
    ∃ cs, (Tree.object members).charsAt layout depth = '\x7b' :: cs := by
  cases members with
  | nil => exact ⟨_, rfl⟩
  | cons member members =>
    obtain ⟨key, value⟩ := member
    rw [Tree.charsAt]
    exact ⟨_, rfl⟩

/-- A written value does not begin with space, and only `null` begins with its letter. -/
lemma Shape.charsAt_eq_cons (layout : Layout) (depth : Nat) :
    ∀ (shape : Shape) (v : shape.Value), shape.AllFinite v →
      ∃ c cs, (shape.toTree v).charsAt layout depth = c :: cs ∧ opensValue c = true ∧
        (shape.isMaybe = false → c ≠ 'n')
  | .text, s, _ => ⟨'"', _, rfl, rfl, fun _ => by decide⟩
  | .word choices, i, _ => ⟨'"', _, rfl, rfl, fun _ => by decide⟩
  | .flag, true, _ => ⟨'t', _, rfl, rfl, fun _ => by decide⟩
  | .flag, false, _ => ⟨'f', _, rfl, rfl, fun _ => by decide⟩
  | .number, x, hfinite => by
    obtain ⟨c, cs, hcs, hc⟩ := realChars_eq_cons (hfinite x (List.mem_singleton.2 rfl))
    refine ⟨c, cs, hcs, by rw [opensValue, hc, Bool.or_true], ?_⟩
    rintro - rfl
    exact absurd hc (by decide)
  | .maybe item, none, _ => ⟨'n', _, rfl, rfl, fun h => nomatch h⟩
  | .maybe item, some x, hfinite => by
    obtain ⟨c, cs, hcs, hc, -⟩ := Shape.charsAt_eq_cons layout depth item x hfinite
    exact ⟨c, cs, hcs, hc, fun h => nomatch h⟩
  | .list item, xs, _ => by
    obtain ⟨cs, hcs⟩ := Tree.list_eq_cons layout depth (xs.map item.toTree)
    exact ⟨'[', cs, hcs, rfl, fun _ => by decide⟩
  | .table item, t, _ => by
    obtain ⟨cs, hcs⟩ :=
      Tree.object_eq_cons layout depth (t.entries.map fun e => (e.1, item.toTree e.2))
    exact ⟨'\x7b', cs, hcs, rfl, fun _ => by decide⟩
  | .record _ fields, x, _ => by
    obtain ⟨cs, hcs⟩ := Tree.object_eq_cons layout depth (Fields.toMembers fields x)
    exact ⟨'\x7b', cs, hcs, rfl, fun _ => by decide⟩

/-! ## What may stand behind a value -/

lemma endsNumber_cons {c : Char} {input : List Symbol}
    (h : digit? (.char c) = none ∧ c ≠ '.' ∧ c ≠ 'e' ∧ c ≠ 'E') :
    EndsNumber (.char c :: input) := by
  intro s hs
  obtain rfl := Option.some.inj hs
  exact ⟨h.1, fun heq => h.2.1 (Symbol.char.inj heq), fun heq => h.2.2.1 (Symbol.char.inj heq),
    fun heq => h.2.2.2 (Symbol.char.inj heq)⟩

lemma endsNumber_newline {layout : Layout} {depth : Nat} {input : List Symbol}
    (h : EndsNumber input) : EndsNumber ((layout.newline depth).map .char ++ input) := by
  cases layout with
  | compact => exact h
  | indented => exact endsNumber_cons ⟨by decide, by decide, by decide, by decide⟩

lemma endsNumber_moreItems (layout : Layout) (depth : Nat) (items : List Tree)
    (rest : List Symbol) :
    EndsNumber ((Tree.moreItems layout depth items).map .char ++ rest) := by
  cases items with
  | nil =>
    rw [Tree.moreItems, List.map_append, List.append_assoc]
    exact endsNumber_newline (endsNumber_cons ⟨by decide, by decide, by decide, by decide⟩)
  | cons item items =>
    rw [Tree.moreItems]
    exact endsNumber_cons ⟨by decide, by decide, by decide, by decide⟩

lemma endsNumber_moreMembers (layout : Layout) (depth : Nat) (members : List (String × Tree))
    (rest : List Symbol) :
    EndsNumber ((Tree.moreMembers layout depth members).map .char ++ rest) := by
  cases members with
  | nil =>
    rw [Tree.moreMembers, List.map_append, List.append_assoc]
    exact endsNumber_newline (endsNumber_cons ⟨by decide, by decide, by decide, by decide⟩)
  | cons member members =>
    obtain ⟨key, value⟩ := member
    rw [Tree.moreMembers]
    exact endsNumber_cons ⟨by decide, by decide, by decide, by decide⟩

/-! ## Texts that are taken for values -/

/-- The text begins like a value. -/
def Opens (text : List Char) : Prop := ∃ c cs, text = c :: cs ∧ opensValue c = true

/-- The reader takes the text for the value and stops behind it. -/
def Takes {β : Type} (read : List Symbol → Except Error (β × List Symbol)) (text : List Char)
    (y : β) : Prop :=
  ∀ rest, EndsNumber rest → read (text.map .char ++ rest) = .ok (y, rest)

lemma Opens.afterSpace_eq {text : List Char} (h : Opens text) (rest : List Symbol) :
    afterSpace (text.map .char ++ rest) = text.map .char ++ rest := by
  obtain ⟨c, cs, rfl, hc⟩ := h
  exact afterSpace_cons (isSpace_of_opensValue hc) _

lemma Opens.length_pos {text : List Char} (h : Opens text) : 0 < text.length := by
  obtain ⟨c, cs, rfl, -⟩ := h
  exact Nat.succ_pos cs.length

/-! ## How long the parts of a text are -/

lemma length_moreItems (layout : Layout) (depth : Nat) : ∀ items : List Tree,
    items.length < (Tree.moreItems layout depth items).length ∧
      ∀ t ∈ items, (t.charsAt layout (depth + 1)).length <
        (Tree.moreItems layout depth items).length
  | [] => by simp [Tree.moreItems]
  | item :: items => by
    obtain ⟨hcount, hitems⟩ := length_moreItems layout depth items
    have hlength : (Tree.moreItems layout depth (item :: items)).length =
        1 + (layout.newline (depth + 1)).length + (item.charsAt layout (depth + 1)).length +
          (Tree.moreItems layout depth items).length := by
      rw [Tree.moreItems]
      simp
      omega
    refine ⟨by rw [List.length_cons]; omega, ?_⟩
    intro t ht
    rcases List.mem_cons.1 ht with rfl | ht
    · omega
    · have hlt := hitems t ht
      omega

lemma length_list (layout : Layout) (depth : Nat) (items : List Tree) :
    items.length < ((Tree.list items).charsAt layout depth).length ∧
      ∀ t ∈ items, (t.charsAt layout (depth + 1)).length <
        ((Tree.list items).charsAt layout depth).length := by
  cases items with
  | nil => simp [Tree.charsAt]
  | cons item items =>
    -- the first item stands behind a bracket, the others behind a comma
    have hlength : ((Tree.list (item :: items)).charsAt layout depth).length =
        (Tree.moreItems layout depth (item :: items)).length := by
      rw [Tree.charsAt, Tree.moreItems]
      simp
    rw [hlength]
    exact length_moreItems layout depth (item :: items)

lemma length_moreMembers (layout : Layout) (depth : Nat) : ∀ members : List (String × Tree),
    members.length < (Tree.moreMembers layout depth members).length ∧
      ∀ e ∈ members, (e.2.charsAt layout (depth + 1)).length <
        (Tree.moreMembers layout depth members).length
  | [] => by simp [Tree.moreMembers]
  | (key, value) :: members => by
    obtain ⟨hcount, hmembers⟩ := length_moreMembers layout depth members
    have hlength : (Tree.moreMembers layout depth ((key, value) :: members)).length =
        1 + (layout.newline (depth + 1)).length + (textChars key).length + layout.colon.length +
          (value.charsAt layout (depth + 1)).length +
            (Tree.moreMembers layout depth members).length := by
      rw [Tree.moreMembers]
      simp
      omega
    refine ⟨by rw [List.length_cons]; omega, ?_⟩
    intro e he
    rcases List.mem_cons.1 he with rfl | he
    · dsimp only
      omega
    · have hlt := hmembers e he
      omega

lemma length_object (layout : Layout) (depth : Nat) (members : List (String × Tree)) :
    members.length < ((Tree.object members).charsAt layout depth).length ∧
      ∀ e ∈ members, (e.2.charsAt layout (depth + 1)).length <
        ((Tree.object members).charsAt layout depth).length := by
  cases members with
  | nil => simp [Tree.charsAt]
  | cons member members =>
    obtain ⟨key, value⟩ := member
    have hlength : ((Tree.object ((key, value) :: members)).charsAt layout depth).length =
        (Tree.moreMembers layout depth ((key, value) :: members)).length := by
      rw [Tree.charsAt, Tree.moreMembers]
      simp
    rw [hlength]
    exact length_moreMembers layout depth ((key, value) :: members)

end WorkflowCanvas.Json
