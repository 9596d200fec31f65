import Mathlib.Data.List.Forall2

/-!
# ASCII letter case

Texts that differ only in the case of ASCII letters, said of the characters one by one; they are the
texts that are the same in small letters (`sameButForCase_iff`).  A letter outside ASCII is only the
same as itself, however much it looks like another one.
-/

namespace WorkflowCanvas

/-- The first character is an ASCII capital, and the second is its small letter. -/
def IsCapitalOf (c d : Char) : Prop := 65 ≤ c.toNat ∧ c.toNat ≤ 90 ∧ d.toNat = c.toNat + 32

/-- The characters are the same but for the case of an ASCII letter. -/
def SameLetter (c d : Char) : Prop := c = d ∨ IsCapitalOf c d ∨ IsCapitalOf d c

/-- The texts are the same but for the case of ASCII letters. -/
def SameButForCase (s t : String) : Prop := List.Forall₂ SameLetter s.toList t.toList

lemma toNat_toLower (c : Char) :
    c.toLower.toNat = if 65 ≤ c.toNat ∧ c.toNat ≤ 90 then c.toNat + 32 else c.toNat := by
  have hrange : (c.val ≥ 'A'.val ∧ c.val ≤ 'Z'.val) ↔ 65 ≤ c.toNat ∧ c.toNat ≤ 90 := Iff.rfl
  unfold Char.toLower
  split
  · next hcapital =>
    rw [if_pos (hrange.mp hcapital)]
    have hhigh : c.val.toNat ≤ 90 := hcapital.2
    change (c.val + 32).toNat = c.val.toNat + 32
    rw [UInt32.toNat_add]
    change (c.val.toNat + 32) % 4294967296 = _
    omega
  · next hother => rw [if_neg (mt hrange.mpr hother)]

lemma eq_or_capital_of_toLower_eq {c d : Char} (h : c.toLower = d) :
    c = d ∨ (c.toNat + 32 = d.toNat ∧ 65 ≤ c.toNat ∧ c.toNat ≤ 90) := by
  subst h
  rw [← Char.toNat_inj, toNat_toLower]
  split <;> omega

/-- A character that no capital is the form of. -/
lemma eq_of_toLower_eq {c d : Char} (h : c.toLower = d) (hd : d.toNat < 97) : c = d := by
  obtain rfl | ⟨hnumber, hlow, -⟩ := eq_or_capital_of_toLower_eq h
  · rfl
  · omega

lemma sameLetter_iff {c d : Char} : SameLetter c d ↔ c.toLower = d.toLower := by
  rw [SameLetter, IsCapitalOf, IsCapitalOf, ← Char.toNat_inj, ← Char.toNat_inj, toNat_toLower,
    toNat_toLower]
  split <;> split <;> omega

/-- Texts are the same but for case if they are the same in small letters. -/
lemma sameButForCase_iff {s t : String} :
    SameButForCase s t ↔ s.toList.map Char.toLower = t.toList.map Char.toLower := by
  have hletters : SameLetter = fun c d => c.toLower = d.toLower := by
    funext c d
    exact propext sameLetter_iff
  rw [SameButForCase, hletters, ← List.forall₂_eq_eq_eq, List.forall₂_map_left_iff,
    List.forall₂_map_right_iff]

end WorkflowCanvas
