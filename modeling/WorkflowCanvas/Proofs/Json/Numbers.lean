import Mathlib.Tactic.Common
import WorkflowCanvas.Json.Shape

/-!
# The numbers in a value

A value of a shape holds numbers in places that the shape knows.  `Shape.numbers` lists them and
`Shape.mapNumbers` replaces each; a replacement that changes none of them leaves the value as it is,
and no other does (`Shape.mapNumbers_eq_self_iff`).
-/

namespace WorkflowCanvas

namespace Table

variable {α β : Type}

/-- The table with every value replaced. -/
def map (f : α → β) (table : Table α) : Table β where
  entries := table.entries.map fun e => (e.1, f e.2)
  ascending := List.pairwise_map.2 table.ascending

lemma ext_iff {s t : Table α} : s = t ↔ s.entries = t.entries := by
  refine ⟨fun h => h ▸ rfl, fun h => ?_⟩
  cases s
  cases t
  cases h
  rfl

end Table

namespace Json

lemma map_eq_self_iff {α : Type} {f : α → α} {xs : List α} :
    xs.map f = xs ↔ ∀ x ∈ xs, f x = x := by
  induction xs with
  | nil => simp
  | cons x xs ih => rw [List.map_cons, List.cons.injEq, ih, List.forall_mem_cons]

mutual

/-- The numbers of a value from left to right. -/
def Shape.numbers : (shape : Shape) → shape.Value → List Binary64
  | .text, _ | .flag, _ | .word _, _ => []
  | .number, x => [x]
  | .maybe _, none => []
  | .maybe item, some x => item.numbers x
  | .list item, xs => xs.flatMap item.numbers
  | .table item, t => t.entries.flatMap fun e => item.numbers e.2
  | .record _ fields, x => Fields.numbers fields x

/-- The numbers in the members of a record. -/
def Fields.numbers : (fields : Fields) → Fields.Values fields → List Binary64
  | [], () => []
  | (_, _, shape) :: fields, (x, rest) => shape.numbers x ++ Fields.numbers fields rest

end

/-- All numbers of the value are finite, so that they can be written. -/
def Shape.AllFinite (shape : Shape) (v : shape.Value) : Prop :=
  ∀ x ∈ shape.numbers v, x.isFinite = true

mutual

/-- The value with every number replaced. -/
def Shape.mapNumbers (f : Binary64 → Binary64) : (shape : Shape) → shape.Value → shape.Value
  | .text, s => s
  | .number, x => f x
  | .flag, b => b
  | .word _, i => i
  | .maybe _, none => none
  | .maybe item, some x => some (item.mapNumbers f x)
  | .list item, xs => xs.map (item.mapNumbers f)
  | .table item, t => t.map (item.mapNumbers f)
  | .record _ fields, x => Fields.mapNumbers f fields x

/-- The members of a record with every number replaced. -/
def Fields.mapNumbers (f : Binary64 → Binary64) :
    (fields : Fields) → Fields.Values fields → Fields.Values fields
  | [], () => ()
  | (_, _, shape) :: fields, (x, rest) => (shape.mapNumbers f x, Fields.mapNumbers f fields rest)

end

mutual

/-- A replacement leaves a value as it is exactly when it changes none of its numbers. -/
theorem Shape.mapNumbers_eq_self_iff (f : Binary64 → Binary64) :
    ∀ (shape : Shape) (v : shape.Value),
      shape.mapNumbers f v = v ↔ ∀ x ∈ shape.numbers v, f x = x
  | .text, _ | .flag, _ | .word _, _ => by simp [Shape.mapNumbers, Shape.numbers]
  | .number, x => by simp [Shape.mapNumbers, Shape.numbers]
  | .maybe _, none => by simp [Shape.mapNumbers, Shape.numbers]
  | .maybe item, some x => by
    rw [Shape.mapNumbers, Shape.numbers, Option.some.injEq]
    exact Shape.mapNumbers_eq_self_iff f item x
  | .list item, xs => by
    rw [Shape.mapNumbers, Shape.numbers, map_eq_self_iff, List.forall_mem_flatMap]
    exact forall₂_congr fun x _ => Shape.mapNumbers_eq_self_iff f item x
  | .table item, t => by
    have hentry : ∀ e : String × item.Value, (e.1, item.mapNumbers f e.2) = e ↔
        ∀ x ∈ item.numbers e.2, f x = x := by
      intro e
      rw [Prod.ext_iff, eq_self_iff_true, true_and]
      exact Shape.mapNumbers_eq_self_iff f item e.2
    rw [Shape.mapNumbers, Shape.numbers, List.forall_mem_flatMap, Table.ext_iff, Table.map,
      map_eq_self_iff]
    exact forall₂_congr fun e _ => hentry e
  | .record _ fields, x => by
    rw [Shape.mapNumbers, Shape.numbers]
    exact Fields.mapNumbers_eq_self_iff f fields x

theorem Fields.mapNumbers_eq_self_iff (f : Binary64 → Binary64) :
    ∀ (fields : Fields) (v : Fields.Values fields),
      Fields.mapNumbers f fields v = v ↔ ∀ x ∈ Fields.numbers fields v, f x = x
  | [], () => by simp [Fields.mapNumbers, Fields.numbers]
  | (_, _, shape) :: fields, (x, rest) => by
    rw [Fields.mapNumbers, Fields.numbers, Prod.mk.injEq, List.forall_mem_append,
      Shape.mapNumbers_eq_self_iff f shape x, Fields.mapNumbers_eq_self_iff f fields rest]

end

end Json

end WorkflowCanvas
