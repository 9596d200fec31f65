import WorkflowCanvas.Json.Shape.Reader
import WorkflowCanvas.Proofs.Json.Numbers
import WorkflowCanvas.Proofs.Json.Scale

/-!
# Every number that is read is finite

JSON has no infinities, and digits that are too great are refused: `Shape.allFinite_of_read` says
that no value that was read from a text holds an infinity or NaN, whatever the text.

The number itself is followed through its parts down to `scale`, where a product is checked and a
quotient cannot grow.  The loops then only hand on what their items and members have.
-/

namespace WorkflowCanvas

lemma exists_of_map_eq_ok {ε α β : Type} {f : α → β} {x : Except ε α} {b : β}
    (h : x.map f = .ok b) : ∃ a, x = .ok a ∧ f a = b := by
  cases x with
  | error e => cases h
  | ok a => exact ⟨a, rfl, Except.ok.inj h⟩

namespace Binary64

lemma units_lt_range (m : Magnitude) : m.units < (2 ^ 54 - 1) * 2 ^ 2044 := by
  have hlt := m.significand_lt
  have hpow : 2 ^ m.shift ≤ 2 ^ 2045 := pow_le_pow_right₀ (by decide) m.shift_le
  have hdouble : (2 : Nat) ^ 2045 = 2 * 2 ^ 2044 := by rw [← pow_succ']
  have hpos : 0 < (2 : Nat) ^ 2044 := by positivity
  have hmul : m.units ≤ (2 ^ 53 - 1) * 2 ^ 2045 := Nat.mul_le_mul (by omega) hpow
  rw [hdouble] at hmul
  generalize (2 : Nat) ^ 2044 = gap at hmul hpos ⊢
  omega

/-- Dividing by a power of ten does not leave the range. -/
lemma isFinite_div_powerOfTen {x : Binary64} {k : Nat} (hx : x.isFinite = true) (hk : k ≤ 308) :
    (x.div (.powerOfTen k)).isFinite = true := by
  obtain ⟨negative, a, rfl⟩ := isFinite_iff.1 hx
  obtain ⟨b, hb, hunits⟩ := powerOfTen_eq_finite hk
  have hle : unitsPerOne ≤ b.units := by
    rw [hunits]
    exact unitsPerOne_le_roundedUnits (by positivity)
  have hne : b.significand ≠ 0 := by
    intro hzero
    have hpos := unitsPerOne_pos
    rw [Magnitude.units, hzero, Nat.zero_mul] at hle
    omega
  have hlt : a.units * unitsPerOne < (2 ^ 54 - 1) * 2 ^ 2044 * b.units :=
    Nat.mul_lt_mul_of_lt_of_le (units_lt_range a) hle (Nat.lt_of_lt_of_le unitsPerOne_pos hle)
  obtain ⟨m, hm⟩ := ofUnits_eq_finite (negative != false) hlt
  rw [hb, div, if_neg hne, hm]
  rfl

lemma isFinite_neg {x : Binary64} (hx : x.isFinite = true) : x.neg.isFinite = true := by
  obtain ⟨negative, m, rfl⟩ := isFinite_iff.1 hx
  rfl

end Binary64

namespace Json

/-! ## Numbers -/

lemma isFinite_of_scale {parts : Nat} :
    ∀ {whole x : Binary64} {exponent : Int}, whole.isFinite = true →
      scale parts whole exponent = .ok x → x.isFinite = true := by
  induction parts with
  | zero =>
    intro whole x exponent hwhole h
    obtain rfl := Except.ok.inj h
    exact hwhole
  | succ parts ih =>
    intro whole x exponent hwhole h
    unfold scale at h
    split at h
    · rename_i hpower
      split at h
      · dsimp only at h
        split at h
        · rename_i hproduct
          obtain rfl := Except.ok.inj h
          exact hproduct
        · cases h
      · obtain rfl := Except.ok.inj h
        exact Binary64.isFinite_div_powerOfTen hwhole hpower
    · split at h
      · obtain rfl := Except.ok.inj h
        exact hwhole
      · split at h
        · cases h
        · exact ih (Binary64.isFinite_div_powerOfTen hwhole (Nat.le_refl _)) h

lemma isFinite_ofNat {whole : Nat} (hle : whole ≤ maxWhole) :
    (Binary64.ofNat whole).isFinite = true := by
  have hmax : maxWhole < 10 ^ 20 := by decide
  have hmul : whole * unitsPerOne ≤ 10 ^ 20 * unitsPerOne :=
    Nat.mul_le_mul_right _ (by omega)
  obtain ⟨m, hm, -⟩ := Binary64.ofNat_eq_finite
    (Nat.lt_of_le_of_lt hmul (Binary64.power_lt 20 (by decide)))
  rw [hm]
  rfl

lemma takeWhole_le {whole : Nat} (hle : whole ≤ maxWhole) (digits : List Nat) :
    (takeWhole whole digits).1 ≤ maxWhole := by
  induction digits generalizing whole with
  | nil => exact hle
  | cons d digits ih =>
    unfold takeWhole
    split
    · rename_i hfits
      exact ih hfits
    · exact hle

/-- The number is finite. -/
def Number.IsFinite (n : Number) : Prop := n.toBinary64.isFinite = true

variable {negative : Bool} {whole : Nat} {exponent : Int} {input rest : List Symbol} {n : Number}

lemma isFinite_of_realNumber (hle : whole ≤ maxWhole)
    (h : realNumber negative whole exponent = .ok n) : n.IsFinite := by
  unfold realNumber at h
  split at h
  · rename_i x hscale
    obtain rfl := Except.ok.inj h
    have hx := isFinite_of_scale (isFinite_ofNat hle) hscale
    cases negative with
    | true => exact Binary64.isFinite_neg hx
    | false => exact hx
  · cases h

lemma isFinite_wholeNumber (hle : whole ≤ maxWhole) : (wholeNumber negative whole).IsFinite := by
  have hx := isFinite_ofNat hle
  unfold wholeNumber
  split
  · split
    · exact Binary64.isFinite_neg hx
    · exact Binary64.isFinite_neg hx
  · exact hx

lemma isFinite_of_readPower {down : Bool} (hle : whole ≤ maxWhole)
    (h : readPower negative whole exponent down input = .ok (n, rest)) : n.IsFinite := by
  unfold readPower at h
  dsimp only at h
  split at h
  · cases h
  · split at h
    · split at h
      · cases h
      · cases h
        rfl
    · obtain ⟨n', hn', heq⟩ := exists_of_map_eq_ok h
      cases heq
      exact isFinite_of_realNumber hle hn'

lemma isFinite_of_readScale (hle : whole ≤ maxWhole)
    (h : readScale negative whole exponent input = .ok (n, rest)) : n.IsFinite := by
  have hpower : ∀ input, readExponent negative whole exponent input = .ok (n, rest) →
      n.IsFinite := by
    intro input h
    unfold readExponent at h
    split at h
    · exact isFinite_of_readPower hle h
    · exact isFinite_of_readPower hle h
    · exact isFinite_of_readPower hle h
  unfold readScale at h
  split at h
  · exact hpower _ h
  · exact hpower _ h
  · obtain ⟨n', hn', heq⟩ := exists_of_map_eq_ok h
    cases heq
    exact isFinite_of_realNumber hle hn'

lemma isFinite_of_readFraction (hle : whole ≤ maxWhole)
    (h : readFraction negative whole exponent input = .ok (n, rest)) : n.IsFinite := by
  unfold readFraction at h
  dsimp only at h
  split at h
  · cases h
  · exact isFinite_of_readScale (takeWhole_le hle _) h

lemma isFinite_of_readUnsigned (h : readUnsigned negative input = .ok (n, rest)) :
    n.IsFinite := by
  have hle : ∀ digits, (takeWhole 0 digits).1 ≤ maxWhole := takeWhole_le (Nat.zero_le _)
  unfold readUnsigned at h
  dsimp only at h
  split at h
  · cases h
  · cases h
  · split at h
    · exact isFinite_of_readFraction (hle _) h
    · exact isFinite_of_readScale (hle _) h
    · exact isFinite_of_readScale (hle _) h
    · split at h
      · cases h
        exact isFinite_wholeNumber (hle _)
      · exact isFinite_of_readScale (hle _) h

lemma isFinite_of_readNumber (h : readNumber input = .ok (n, rest)) : n.IsFinite := by
  unfold readNumber at h
  split at h
  · exact isFinite_of_readUnsigned h
  · exact isFinite_of_readUnsigned h

lemma isFinite_of_readNumberValue {x : Binary64}
    (h : readNumberValue input = .ok (x, rest)) : x.isFinite = true := by
  unfold readNumberValue at h
  split at h
  · cases h
  · split at h
    · obtain ⟨read, hread, heq⟩ := exists_of_map_eq_ok h
      obtain ⟨n, rest'⟩ := read
      cases heq
      exact isFinite_of_readNumber hread
    · cases h

/-! ## Loops -/

/-- What holds of every item holds of the items of a list. -/
lemma readItems_forall {α : Type} {P : α → Prop}
    {item : List Symbol → Except Error (α × List Symbol)}
    (hitem : ∀ input x rest, item input = .ok (x, rest) → P x) (rounds : Nat) :
    ∀ {first : Bool} {read xs : List α} {input rest : List Symbol}, (∀ x ∈ read, P x) →
      readItems item rounds first read input = .ok (xs, rest) → ∀ x ∈ xs, P x := by
  induction rounds with
  | zero =>
    intro first read xs input rest _ h
    cases h
  | succ rounds ih =>
    intro first read xs input rest hread h
    unfold readItems at h
    split at h
    · cases h
    · obtain ⟨rest', -, heq⟩ := exists_of_map_eq_ok h
      cases heq
      intro x hx
      exact hread x (List.mem_reverse.1 hx)
    · split at h
      · cases h
      · rename_i y rest' hy
        refine ih (fun x hx => ?_) h
        rcases List.mem_cons.1 hx with rfl | hx
        · exact hitem _ _ _ hy
        · exact hread x hx

/-- What holds of every value read holds of the values of a table. -/
lemma readEntries_forall {α : Type} {P : α → Prop}
    {item : List Symbol → Except Error (α × List Symbol)}
    (hitem : ∀ input x rest, item input = .ok (x, rest) → P x) (rounds : Nat) :
    ∀ {first : Bool} {read table : Table α} {input rest : List Symbol},
      (∀ e ∈ read.entries, P e.2) →
      readEntries item rounds first read input = .ok (table, rest) →
      ∀ e ∈ table.entries, P e.2 := by
  induction rounds with
  | zero =>
    intro first read table input rest _ h
    cases h
  | succ rounds ih =>
    intro first read table input rest hread h
    unfold readEntries at h
    split at h
    · cases h
    · cases h
      exact hread
    · split at h
      · cases h
      · split at h
        · cases h
        · rename_i hy
          refine ih (fun e he => ?_) h
          rcases Table.mem_insertEntry he with rfl | he
          · exact hitem _ _ _ hy
          · exact hread e he

/-- What every member preserves holds when all members are read. -/
lemma readMembers_invariant {σ : Type} {P : σ → Prop}
    {member : String → σ → List Symbol → Except Error (σ × List Symbol)}
    (hmember : ∀ key s input s' rest, P s → member key s input = .ok (s', rest) → P s')
    (rounds : Nat) :
    ∀ {first : Bool} {s s' : σ} {input rest : List Symbol}, P s →
      readMembers member rounds first s input = .ok (s', rest) → P s' := by
  induction rounds with
  | zero =>
    intro first s s' input rest _ h
    cases h
  | succ rounds ih =>
    intro first s s' input rest hs h
    unfold readMembers at h
    split at h
    · cases h
    · cases h
      exact hs
    · split at h
      · cases h
      · rename_i hy
        exact ih (hmember _ _ _ _ _ hs hy) h

/-! ## Shapes -/

/-- All numbers in the slots are finite. -/
def Fields.SlotsFinite : (fields : Fields) → Fields.Slots fields → Prop
  | [], () => True
  | (_, _, shape) :: fields, (slot, slots) =>
    (∀ v ∈ slot, shape.AllFinite v) ∧ Fields.SlotsFinite fields slots

lemma Fields.slotsFinite_noSlots : ∀ fields : Fields, fields.SlotsFinite fields.noSlots
  | [] => trivial
  | (_, _, _) :: fields => ⟨fun _ h => (nomatch h), Fields.slotsFinite_noSlots fields⟩

/-- The value of an absent member holds no number. -/
lemma allFinite_of_absent {presence : Presence} {shape : Shape} {v : shape.Value}
    (h : presence.absent shape = some v) : shape.AllFinite v := by
  have hnone : shape.numbers v = [] := by
    cases presence <;> cases shape <;>
      first
      | cases h; rfl
      | cases h
  intro x hx
  rw [hnone] at hx
  cases hx

lemma Fields.allFinite_of_complete : ∀ {fields : Fields} {slots : Fields.Slots fields}
    {values : Fields.Values fields}, fields.SlotsFinite slots →
      Fields.complete fields slots = .ok values →
      ∀ x ∈ Fields.numbers fields values, x.isFinite = true
  | [], (), (), _, _ => fun _ hx => nomatch hx
  | (key, presence, shape) :: fields, (slot, slots), values, hslots, h => by
    unfold Fields.complete at h
    split at h
    · rename_i v hv
      obtain ⟨rest, hrest, rfl⟩ := exists_of_map_eq_ok h
      have hfirst : shape.AllFinite v := by
        cases slot with
        | some w =>
          obtain rfl := Option.some.inj hv
          exact hslots.1 _ rfl
        | none => exact allFinite_of_absent hv
      exact List.forall_mem_append.2
        ⟨hfirst, Fields.allFinite_of_complete hslots.2 hrest⟩
    · cases h

mutual

/-- Every number in a value that was read is finite, by recursion on its shape. -/
theorem Shape.allFinite_of_readFrom (rounds : Nat) :
    ∀ (shape : Shape) (input rest : List Symbol) (v : shape.Value),
      shape.readFrom rounds input = .ok (v, rest) → shape.AllFinite v
  | .text, _, _, _, _ | .flag, _, _, _, _ | .word _, _, _, _, _ => fun _ hx => nomatch hx
  | .number, input, rest, x, h => by
    intro y hy
    obtain rfl := List.mem_singleton.1 hy
    exact isFinite_of_readNumberValue h
  | .maybe item, input, rest, v, h => by
    rw [Shape.readFrom] at h
    split at h
    · obtain ⟨_, -, heq⟩ := exists_of_map_eq_ok h
      cases heq
      exact fun _ hx => nomatch hx
    · obtain ⟨read, hread, heq⟩ := exists_of_map_eq_ok h
      cases heq
      exact Shape.allFinite_of_readFrom rounds item _ _ _ hread
  | .list item, input, rest, xs, h => by
    have hitem := Shape.allFinite_of_readFrom rounds item
    rw [Shape.readFrom] at h
    split at h
    · cases h
    · exact List.forall_mem_flatMap.2
        (readItems_forall (fun input x rest => hitem input rest x) rounds
          (fun _ hx => absurd hx List.not_mem_nil) h)
    · cases h
  | .table item, input, rest, t, h => by
    have hitem := Shape.allFinite_of_readFrom rounds item
    rw [Shape.readFrom] at h
    split at h
    · cases h
    · exact List.forall_mem_flatMap.2
        (readEntries_forall (fun input x rest => hitem input rest x) rounds
          (fun _ hx => absurd hx List.not_mem_nil) h)
    · cases h
  | .record name fields, input, rest, v, h => by
    rw [Shape.readFrom] at h
    split at h
    · cases h
    · split at h
      · cases h
      · rename_i hslots
        split at h
        · rename_i hcomplete
          cases h
          exact Fields.allFinite_of_complete
            (readMembers_invariant (Fields.slotsFinite_of_readMember rounds fields) rounds
              (Fields.slotsFinite_noSlots fields) hslots) hcomplete
        · cases h
    · split at h
      · cases h
      · rename_i hvalues
        obtain ⟨_, -, heq⟩ := exists_of_map_eq_ok h
        cases heq
        exact Fields.allFinite_of_readInOrder rounds _ _ fields _ _ _ hvalues
    · cases h

/-- Reading a member keeps the numbers in the slots finite. -/
theorem Fields.slotsFinite_of_readMember (rounds : Nat) :
    ∀ (fields : Fields) (key : String) (slots : Fields.Slots fields) (input : List Symbol)
      (slots' : Fields.Slots fields) (rest : List Symbol), fields.SlotsFinite slots →
      Fields.readMember rounds fields key slots input = .ok (slots', rest) →
      fields.SlotsFinite slots'
  | [], _, (), _, (), _, _, _ => trivial
  | (k, _, shape) :: fields, key, (slot, slots), input, slots', rest, hslots, h => by
    rw [Fields.readMember.eq_def] at h
    dsimp only at h
    split at h
    · split at h
      · cases h
      · split at h
        · cases h
        · obtain ⟨read, hread, heq⟩ := exists_of_map_eq_ok h
          cases heq
          refine ⟨fun v hv => ?_, hslots.2⟩
          obtain rfl := Option.some.inj hv
          exact Shape.allFinite_of_readFrom rounds shape _ _ _ hread
    · obtain ⟨read, hread, heq⟩ := exists_of_map_eq_ok h
      cases heq
      exact ⟨hslots.1,
        Fields.slotsFinite_of_readMember rounds fields key slots _ _ _ hslots.2 hread⟩

/-- Every number in members that were read in order is finite. -/
theorem Fields.allFinite_of_readInOrder (rounds : Nat) (expected : String) (index : Nat) :
    ∀ (fields : Fields) (input rest : List Symbol) (values : Fields.Values fields),
      Fields.readInOrder rounds expected index fields input = .ok (values, rest) →
      ∀ x ∈ Fields.numbers fields values, x.isFinite = true
  | [], _, _, (), _ => fun _ hx => nomatch hx
  | (_, presence, shape) :: fields, input, rest, values, h => by
    rw [Fields.readInOrder] at h
    split at h
    · cases h
    · split at h
      · cases h
      · rename_i habsent
        obtain ⟨read, hread, heq⟩ := exists_of_map_eq_ok h
        cases heq
        exact List.forall_mem_append.2 ⟨allFinite_of_absent habsent,
          Fields.allFinite_of_readInOrder rounds expected (index + 1) fields _ _ _ hread⟩
    · split at h
      · cases h
      · rename_i hfirst
        obtain ⟨read, hread, heq⟩ := exists_of_map_eq_ok h
        cases heq
        exact List.forall_mem_append.2 ⟨Shape.allFinite_of_readFrom rounds shape _ _ _ hfirst,
          Fields.allFinite_of_readInOrder rounds expected (index + 1) fields _ _ _ hread⟩

end

/-- No text is read as a value with an infinity or NaN in it. -/
theorem Shape.allFinite_of_read {shape : Shape} {input : List Symbol} {v : shape.Value}
    (h : shape.read input = .ok v) : shape.AllFinite v := by
  unfold Shape.read at h
  split at h
  · cases h
  · rename_i hread
    split at h
    · cases h
      exact Shape.allFinite_of_readFrom _ shape _ _ _ hread
    · cases h

end Json

end WorkflowCanvas
