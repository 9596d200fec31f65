import WorkflowCanvas.Json.Form
import WorkflowCanvas.Proofs.Json.RoundTrip

/-!
# Program values on the wire

Only numbers can change when a value is written and read again.  So a program type whose shape has
no place for a number (`Shape.isNumberless`) gets every value back, whatever text it holds and in
whichever layout it was written (`read_written`).
-/

namespace WorkflowCanvas.Json

mutual

/-- Whether the values of the shape hold no number. -/
def Shape.isNumberless : Shape → Bool
  | .text | .flag | .word _ => true
  | .number => false
  | .maybe item | .list item | .table item => item.isNumberless
  | .record _ fields => Fields.isNumberless fields

/-- Whether this holds of the members of a record. -/
def Fields.isNumberless : Fields → Bool
  | [] => true
  | (_, _, shape) :: fields => shape.isNumberless && Fields.isNumberless fields

end

mutual

lemma Shape.numbers_eq_nil : ∀ (shape : Shape) (v : shape.Value), shape.isNumberless = true →
    shape.numbers v = []
  | .text, _, _ | .flag, _, _ | .word _, _, _ => by simp [Shape.numbers]
  | .maybe _, none, _ => by simp [Shape.numbers]
  | .maybe item, some x, h => by
    rw [Shape.numbers]
    exact Shape.numbers_eq_nil item x h
  | .list item, xs, h => by
    rw [Shape.numbers, List.flatMap_eq_nil_iff]
    exact fun x _ => Shape.numbers_eq_nil item x h
  | .table item, t, h => by
    rw [Shape.numbers, List.flatMap_eq_nil_iff]
    exact fun e _ => Shape.numbers_eq_nil item e.2 h
  | .record _ fields, x, h => by
    rw [Shape.numbers]
    exact Fields.numbers_eq_nil fields x h

lemma Fields.numbers_eq_nil : ∀ (fields : Fields) (v : Fields.Values fields),
    Fields.isNumberless fields = true → Fields.numbers fields v = []
  | [], (), _ => rfl
  | (_, _, shape) :: fields, (x, rest), h => by
    obtain ⟨hshape, hfields⟩ := Bool.and_eq_true_iff.1 h
    rw [Fields.numbers, Shape.numbers_eq_nil shape x hshape,
      Fields.numbers_eq_nil fields rest hfields, List.append_nil]

end

variable {α : Type} [Form α]

/-- A value without numbers is read back from its text in either layout. -/
theorem read_written (hun : (Form.shape α).isUnambiguous = true)
    (hnumbers : (Form.shape α).isNumberless = true) (layout : Layout) (a : α) :
    read (String.ofList ((toTree a).chars layout)) = .ok a := by
  have hnone : (Form.shape α).numbers (Form.toValue a) = [] :=
    (Form.shape α).numbers_eq_nil _ hnumbers
  have hfinite : (Form.shape α).AllFinite (Form.toValue a) := by
    rw [Shape.AllFinite, hnone]
    exact List.forall_mem_nil _
  have hsame : (Form.shape α).mapNumbers Binary64.reread (Form.toValue a) = Form.toValue a := by
    rw [Shape.mapNumbers_eq_self_iff, hnone]
    exact List.forall_mem_nil _
  rw [read, readSymbols, Symbol.ofText, String.toList_ofList, toTree,
    Shape.read_chars layout _ _ hun hfinite, hsame]
  exact congrArg Except.ok (Form.ofValue_toValue a)

end WorkflowCanvas.Json
