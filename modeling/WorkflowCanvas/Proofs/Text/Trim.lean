import Mathlib.Data.List.DropRight
import WorkflowCanvas.Text.Basic

/-!
# Trimming

What trimming leaves of a text begins where the text without its leading white space begins
(`trim_prefix`), and a text that has no white space at either end is left as it is
(`trim_eq_self`).
-/

namespace WorkflowCanvas.Text

variable {text : List Char}

lemma isBlank_of_isDigit {c : Char} (h : c.isDigit = true) : isBlank c = false := by
  have hrange : '0' ≤ c ∧ c ≤ '9' := by
    simpa [Char.isDigit, Char.le_def] using h
  have hlow : 48 ≤ c.toNat := hrange.1
  have hhigh : c.toNat ≤ 57 := hrange.2
  simp only [isBlank, Bool.or_eq_false_iff, Bool.and_eq_false_iff, decide_eq_false_iff_not,
    beq_eq_false_iff_ne, ne_eq]
  omega

lemma trimStart_eq_self (h : ∀ c ∈ text.head?, isBlank c = false) : trimStart text = text := by
  cases text with
  | nil => rfl
  | cons c text => exact trimStart_cons_of_not_isBlank (h c rfl)

lemma head?_trimStart (text : List Char) : ∀ c ∈ (trimStart text).head?, isBlank c = false := by
  intro c hc
  have hfirst : (text.dropWhile isBlank).head? = some c := hc
  have hnot := List.head?_dropWhile_not isBlank text
  rwa [hfirst] at hnot

lemma trim_prefix (text : List Char) : trim text <+: trimStart text :=
  List.rdropWhile_prefix isBlank (trimStart text)

/-- What is trimmed does not begin with white space. -/
lemma trimStart_trim (text : List Char) : trimStart (trim text) = trim text := by
  refine trimStart_eq_self fun c hc => head?_trimStart text c ?_
  obtain ⟨rest, hrest⟩ := trim_prefix text
  obtain ⟨more, hmore⟩ := List.head?_eq_some_iff.1 hc
  simp [← hrest, hmore]

lemma trim_eq_self (hfirst : ∀ c ∈ text.head?, isBlank c = false)
    (hlast : ∀ c ∈ text.getLast?, isBlank c = false) : trim text = text := by
  rw [trim, trimStart_eq_self hfirst, trimStart_eq_self (by simpa using hlast),
    List.reverse_reverse]

end WorkflowCanvas.Text
