import WorkflowCanvas.Proofs.Json.Unambiguous

/-!
# What a written value says

By the rules of the JSON grammar the text of a value says what the value is (`Tree.element_chars`),
in either layout: the same lists, the same members in the same order, the same texts character by
character, and for each number a numeral that is rounded to it and to no other number
(`Binary64.nearest_numeral`).  A number that is not finite is written as `null`, so there is no
value without a text (`Tree.element_said`).
-/

namespace WorkflowCanvas

/-- What the text of a finite number says. -/
def Binary64.numeral : Binary64 → Numeral
  | .finite negative m =>
    ⟨negative, (m.shortest .toEven).spelled.digits, (m.shortest .toEven).spelled.exponent⟩
  | _ => ⟨false, 0, 0⟩

namespace Json

open Grammar

/-! ## Numbers -/

lemma fraction_text {fraction : List Char} (h : ∀ c ∈ fraction, c.isDigit = true) :
    Fraction (if fraction = [] then [] else '.' :: fraction) fraction := by
  by_cases hnone : fraction = []
  · rw [if_pos hnone, hnone]
    exact .none
  · rw [if_neg hnone]
    exact .some ⟨h, hnone⟩

lemma power_powerChars (power : Int) : Power (Decimal.Parts.powerChars power) power := by
  have hdigits : Digits (Nat.toDigits 10 power.natAbs) :=
    ⟨(Decimal.wholeDigits_toDigits _).isDigit, Nat.toDigits_ne_nil⟩
  have hvalue : Nat.ofDigitChars 10 (Nat.toDigits 10 power.natAbs) 0 = power.natAbs :=
    Nat.ofDigitChars_ten_toDigits
  unfold Decimal.Parts.powerChars
  by_cases hsign : power < 0
  · have hpower : Power ('e' :: (['-'] ++ Nat.toDigits 10 power.natAbs)) _ :=
      .some (.inl rfl) (.inr (.inr rfl)) hdigits
    rw [if_pos rfl, hvalue] at hpower
    have hnegative : -(power.natAbs : Int) = power := by omega
    rw [hnegative] at hpower
    rw [if_pos hsign]
    exact hpower
  · have hpower : Power ('e' :: (['+'] ++ Nat.toDigits 10 power.natAbs)) _ :=
      .some (.inl rfl) (.inr (.inl rfl)) hdigits
    rw [if_neg (by decide), hvalue] at hpower
    have hpositive : (power.natAbs : Int) = power := by omega
    rw [hpositive] at hpower
    rw [if_neg hsign]
    exact hpower

/-- The parts of a number's text are a number of the grammar. -/
lemma number_parts (negative : Bool) {p : Decimal.Parts} (hwhole : Decimal.WholeDigits p.whole)
    (hdigits : ∀ c ∈ p.digitChars, c.isDigit = true) :
    Grammar.Number ((if negative then ['-'] else []) ++ p.chars)
      ⟨negative, Nat.ofDigitChars 10 p.digitChars 0, p.exponent⟩ := by
  have hfraction := fraction_text fun c hc => hdigits c (List.mem_append_right p.whole hc)
  have hpower : Power (p.power.elim [] Decimal.Parts.powerChars) (p.power.getD 0) := by
    cases p.power with
    | none => exact .none
    | some power => exact power_powerChars power
  cases negative with
  | true => exact .mk (.inr rfl) hwhole hfraction hpower
  | false => exact .mk (.inl rfl) hwhole hfraction hpower

lemma wholeDigits_shortest {m : Magnitude} {tie : Tie} {p : Decimal.Parts} {zeros : Nat}
    (h : p.Spells (m.shortest tie) zeros) : Decimal.WholeDigits p.whole := by
  refine h.wholeDigits ?_
  by_cases hzero : m.significand = 0
  · rw [Magnitude.shortest, if_pos hzero]
    exact .inr rfl
  · exact .inl (Magnitude.shortest_inside tie hzero).digits_pos

end Json

namespace Binary64

variable {x : Binary64}

/-- The parts of a finite number's text. -/
lemma exists_parts_numeral (negative : Bool) (m : Magnitude) :
    ∃ (p : Decimal.Parts) (zeros : Nat),
      Json.realChars (.finite negative m) = (if negative then ['-'] else []) ++ p.chars ∧
      p.Spells (m.shortest .toEven) zeros ∧
      numeral (.finite negative m) =
        ⟨negative, Nat.ofDigitChars 10 p.digitChars 0, p.exponent⟩ := by
  obtain ⟨p, zeros, htext, hspells, -, hdigits, hexponent⟩ :=
    Json.exists_parts_spelled (m.shortest .toEven)
  refine ⟨p, zeros, ?_, hspells, by rw [numeral, hdigits, hexponent]⟩
  rw [← htext]
  rfl

lemma number_realChars (hx : x.isFinite = true) :
    Json.Grammar.Number (Json.realChars x) x.numeral := by
  obtain ⟨negative, m, rfl⟩ := isFinite_iff.1 hx
  obtain ⟨p, zeros, htext, hspells, hnumeral⟩ := exists_parts_numeral negative m
  rw [htext, hnumeral]
  exact Json.number_parts negative (Json.wholeDigits_shortest hspells) hspells.isDigit

/-- What the text of a number says is rounded to the number and to no other. -/
theorem nearest_numeral (hx : x.isFinite = true) (y : Binary64) : x.numeral.Nearest y ↔ y = x := by
  have hnearest : x.numeral.Nearest x := by
    obtain ⟨negative, m, rfl⟩ := isFinite_iff.1 hx
    obtain ⟨p, zeros, -, hspells, hnumeral⟩ := exists_parts_numeral negative m
    rw [hnumeral]
    exact nearest_of_spells negative hspells
  constructor
  · intro h
    exact h.unique hnearest
  · rintro rfl
    exact hnearest

end Binary64

namespace Json

open Grammar

/-! ## Texts -/

/-- The four digits of a control character. -/
lemma codeUnit_control {high low : Nat} (hhigh : high < 16) (hlow : low < 16) :
    CodeUnit ['0', '0', Nat.digitChar high, Nat.digitChar low] (high * 16 + low) := by
  have hdigit : ∀ {n : Nat}, n < 16 → Text.digit? 16 (Nat.digitChar n) = some n :=
    hexDigit?_digitChar
  have hzero : Text.digit? 16 '0' = some 0 := hdigit (by decide : 0 < 16)
  refine ⟨rfl, ?_⟩
  simp [Text.number?, Text.numberOf, hzero, hdigit hhigh, hdigit hlow]

lemma piece_escapeChar (c : Char) : Piece (escapeChar c) c := by
  unfold escapeChar
  split
  · exact .escape (.short (by decide))
  · exact .escape (.short (by decide))
  · exact .escape (.short (by decide))
  · exact .escape (.short (by decide))
  · exact .escape (.short (by decide))
  · exact .escape (.short (by decide))
  · exact .escape (.short (by decide))
  · rename_i hquote hbackslash _ _ _ _ _
    split
    · rename_i hcontrol
      have hvalue : c.toNat / 16 * 16 + c.toNat % 16 = c.toNat := by omega
      have hcodes := codeUnit_control (by omega : c.toNat / 16 < 16) (by omega : c.toNat % 16 < 16)
      rw [hvalue] at hcodes
      exact .escape (.unit hcodes)
    · rename_i hplain
      exact .plain (Nat.le_of_not_lt hplain) hquote hbackslash

lemma spelling_flatMap (cs : List Char) : Spelling (cs.flatMap escapeChar) cs := by
  induction cs with
  | nil => exact .nil
  | cons c cs ih => exact .cons (piece_escapeChar c) ih

/-! ## Lists and objects -/

/-- What the text of a number says. -/
def Number.numeral : Number → Numeral
  | .natural n => ⟨false, n, 0⟩
  | .negative n => ⟨true, n, 0⟩
  | .real x => x.numeral

/-- A member's value is smaller than the object. -/
lemma Tree.sizeOf_lt_of_mem {members : List (String × Tree)} {m : String × Tree}
    (hm : m ∈ members) : sizeOf m.2 < sizeOf (Tree.object members) := by
  have hlt := List.sizeOf_lt_of_mem hm
  have hmember : sizeOf m = 1 + sizeOf m.1 + sizeOf m.2 := rfl
  simp only [Tree.object.sizeOf_spec]
  omega

/-- What the text of a value with finite numbers says. -/
def Tree.datum : Tree → Datum
  | .null => .null
  | .flag value => .flag value
  | .number n => .number n.numeral
  | .text value => .text value
  | .list items => .list (items.map datum)
  | .object members => .object (members.map fun m => (m.1, m.2.datum))
decreasing_by
  · decreasing_tactic
  · exact Tree.sizeOf_lt_of_mem ‹_›

/-- What the text of a number says; one that is not finite is written as `null`. -/
def Number.said : Number → Datum
  | .natural n => .number ⟨false, n, 0⟩
  | .negative n => .number ⟨true, n, 0⟩
  | .real x => if x.isFinite then .number x.numeral else .null

/-- What the text of a value says, whatever its numbers. -/
def Tree.said : Tree → Datum
  | .null => .null
  | .flag value => .flag value
  | .number n => n.said
  | .text value => .text value
  | .list items => .list (items.map said)
  | .object members => .object (members.map fun m => (m.1, m.2.said))
decreasing_by
  · decreasing_tactic
  · exact Tree.sizeOf_lt_of_mem ‹_›

lemma number_whole {sign : List Char} (signed : sign = [] ∨ sign = ['-']) (n : Nat) :
    Grammar.Number (sign ++ Nat.toDigits 10 n) ⟨sign = ['-'], n, 0⟩ := by
  have hnumber := Grammar.Number.mk signed (Decimal.wholeDigits_toDigits n) .none .none
  simp only [List.append_nil, Nat.ofDigitChars_ten_toDigits] at hnumber
  exact hnumber

lemma value_number (n : Number) : Value n.chars n.said := by
  cases n with
  | natural n => exact .number (number_whole (.inl rfl) n)
  | negative n => exact .number (number_whole (.inr rfl) n)
  | real x =>
    rw [Number.chars, Number.said]
    by_cases hx : x.isFinite = true
    · rw [if_pos hx]
      exact .number (Binary64.number_realChars hx)
    · rw [if_neg hx, realChars, if_neg hx]
      exact .null

lemma blank_nil : Blank [] := fun _ hc => nomatch hc

lemma blank_newline (layout : Layout) (depth : Nat) : Blank (layout.newline depth) := by
  cases layout with
  | compact => exact blank_nil
  | indented =>
    refine List.forall_mem_cons.2 ⟨rfl, fun c hc => ?_⟩
    rw [(List.mem_replicate.1 hc).2]
    rfl

/-- Things that are written with a comma before each but the first. -/
lemma separated_flatMap {α β : Type} {Item : List Char → α → Prop} {text : β → List Char}
    (said : β → α) {last : List Char} (hlast : Blank last) : ∀ (x : β) (xs : List β),
      (∀ y ∈ x :: xs, ∀ after, Blank after → Item (text y ++ after) (said y)) →
      Separated Item (text x ++ (xs.flatMap (fun y => ',' :: text y) ++ last)) ((x :: xs).map said)
  | x, [], h => .one (h x List.mem_cons_self last hlast)
  | x, y :: ys, h => by
    obtain ⟨hx, hothers⟩ := List.forall_mem_cons.1 h
    have hmore := Separated.more (hx [] blank_nil) (separated_flatMap said hlast y ys hothers)
    rw [List.append_nil] at hmore
    rw [List.flatMap_cons, List.cons_append, List.cons_append, List.append_assoc]
    exact hmore

section Layouts

variable (layout : Layout) (depth : Nat)

/-- An item and the line it begins. -/
def itemChars (item : Tree) : List Char :=
  layout.newline (depth + 1) ++ item.charsAt layout (depth + 1)

/-- A member and the line it begins. -/
def memberChars (member : String × Tree) : List Char :=
  layout.newline (depth + 1) ++ (textChars member.1 ++ (layout.colon ++
    member.2.charsAt layout (depth + 1)))

lemma moreItems_eq_flatMap (items : List Tree) : Tree.moreItems layout depth items =
    items.flatMap (fun t => ',' :: itemChars layout depth t) ++
      (layout.newline depth ++ [']']) := by
  induction items with
  | nil => rfl
  | cons item items ih =>
    rw [Tree.moreItems, ih, List.flatMap_cons, itemChars]
    simp only [List.append_assoc, List.cons_append]

lemma moreMembers_eq_flatMap (members : List (String × Tree)) :
    Tree.moreMembers layout depth members =
      members.flatMap (fun m => ',' :: memberChars layout depth m) ++
        (layout.newline depth ++ ['\x7d']) := by
  induction members with
  | nil => rfl
  | cons member members ih =>
    rw [Tree.moreMembers, ih, List.flatMap_cons, memberChars]
    simp only [List.append_assoc, List.cons_append]

variable {layout depth}

lemma element_itemChars {item : Tree} {said : Datum}
    (h : Value (item.charsAt layout (depth + 1)) said) {after : List Char} (hafter : Blank after) :
    Element (itemChars layout depth item ++ after) said := by
  rw [itemChars, List.append_assoc]
  exact .mk (blank_newline layout _) h hafter

lemma member_memberChars {m : String × Tree} {said : Datum}
    (h : Value (m.2.charsAt layout (depth + 1)) said) {after : List Char}
    (hafter : Blank after) : Member (memberChars layout depth m ++ after) (m.1, said) := by
  have hspelling : Spelling (m.1.toList.flatMap escapeChar) m.1.toList := spelling_flatMap _
  have hspace : ∃ space, layout.colon = ':' :: space ∧ Blank space := by
    cases layout with
    | compact => exact ⟨[], rfl, blank_nil⟩
    | indented => exact ⟨[' '], rfl, List.forall_mem_singleton.2 rfl⟩
  obtain ⟨space, hcolon, hblank⟩ := hspace
  have hmember := Member.mk (blank_newline layout (depth + 1)) hspelling blank_nil
    (.mk hblank h hafter)
  rw [memberChars, hcolon]
  simp only [List.append_assoc]
  exact hmember

variable (layout depth)

lemma value_list {said : Tree → Datum} {items : List Tree}
    (h : ∀ t ∈ items, Value (t.charsAt layout (depth + 1)) (said t)) :
    Value ((Tree.list items).charsAt layout depth) (.list (items.map said)) := by
  refine .list ?_
  cases items with
  | nil => exact .empty blank_nil
  | cons item items =>
    have hitems := separated_flatMap said (blank_newline layout depth) item items
      fun t ht _ hafter => element_itemChars (h t ht) hafter
    rw [Tree.charsAt, moreItems_eq_flatMap]
    convert Enclosed.items hitems using 1
    rw [itemChars]
    simp only [List.append_assoc, List.cons_append]

lemma value_object {said : Tree → Datum} {members : List (String × Tree)}
    (h : ∀ m ∈ members, Value (m.2.charsAt layout (depth + 1)) (said m.2)) :
    Value ((Tree.object members).charsAt layout depth)
      (.object (members.map fun m => (m.1, said m.2))) := by
  refine .object ?_
  cases members with
  | nil => exact .empty blank_nil
  | cons member members =>
    have hmembers := separated_flatMap (fun m : String × Tree => (m.1, said m.2))
      (blank_newline layout depth) member members
      fun m hm _ hafter => member_memberChars (h m hm) hafter
    rw [Tree.charsAt, moreMembers_eq_flatMap]
    convert Enclosed.items hmembers using 1
    rw [memberChars]
    simp only [List.append_assoc, List.cons_append]

end Layouts

/-- Writing does not fail: whatever the value is, its text says something. -/
lemma Tree.value_said (t : Tree) (layout : Layout) (depth : Nat) :
    Value (t.charsAt layout depth) t.said := by
  induction t using Tree.said.induct generalizing depth with
  | case1 =>
    rw [Tree.said]
    exact .null
  | case2 value =>
    rw [Tree.said]
    cases value with
    | true => exact .yes
    | false => exact .no
  | case3 n =>
    rw [Tree.said]
    exact value_number n
  | case4 value =>
    rw [Tree.said]
    exact .text (spelling_flatMap value.toList)
  | case5 items ih =>
    rw [Tree.said]
    exact value_list layout depth fun t ht => ih t ht (depth + 1)
  | case6 members ih =>
    rw [Tree.said]
    exact value_object layout depth fun m hm => ih m hm (depth + 1)

/-- By the grammar the whole text of a value says one thing. -/
theorem Tree.element_said (t : Tree) (layout : Layout) (d : Datum) :
    Element (t.chars layout) d ↔ d = t.said := by
  have hwritten : Element (t.chars layout) t.said := by
    have helement := Element.mk blank_nil (t.value_said layout 0) blank_nil
    rw [List.nil_append, List.append_nil] at helement
    exact helement
  constructor
  · intro h
    exact h.unique hwritten
  · rintro rfl
    exact hwritten

/-- What the text of a value with finite numbers says is the value. -/
lemma Tree.IsFinite.said_eq {t : Tree} (ht : t.IsFinite) : t.said = t.datum := by
  induction ht with
  | null => rw [Tree.said, Tree.datum]
  | flag value => rw [Tree.said, Tree.datum]
  | number finite => rw [Tree.said, Tree.datum, Number.said, if_pos finite, Number.numeral]
  | text value => rw [Tree.said, Tree.datum]
  | list _ ih =>
    rw [Tree.said, Tree.datum, List.map_congr_left ih]
  | object _ ih =>
    rw [Tree.said, Tree.datum, List.map_congr_left fun m hm => by rw [ih m hm]]

/-- By the grammar a whole text says the value that was written and no other. -/
theorem Tree.element_chars {t : Tree} (ht : t.IsFinite) (layout : Layout) (d : Datum) :
    Element (t.chars layout) d ↔ d = t.datum := by
  rw [← ht.said_eq]
  exact t.element_said layout d

end Json

end WorkflowCanvas
