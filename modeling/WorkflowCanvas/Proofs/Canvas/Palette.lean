import WorkflowCanvas.Proofs.Canvas.Editor
import WorkflowCanvas.Proofs.Decimal.Nearest
import WorkflowCanvas.Proofs.Graph.Passing
import WorkflowCanvas.Proofs.Json.Scale
import WorkflowCanvas.Proofs.Text.LetterCase

/-!
# Palette buttons

A palette button carries a text, and the text is read as the kind whose name it is in any ASCII
letter case (`Kind.ofName_eq_ok_iff`).  Pressing the button adds exactly one node, if that kind is
on the palette: under an id that was never given out, within the drop area, and with nothing else
on the canvas changed.  Any other text, and the boundary kinds in whatever case, add nothing, and no
id is used up (`paletteButtons`).
-/

namespace WorkflowCanvas

/-! ## Names of kinds -/

namespace Kind

lemma map_toLower_wire (kind : Kind) : kind.wire.toList.map Char.toLower = kind.wire.toList := by
  cases kind <;> decide

/-- The first kind of a name is the only one. -/
lemma find?_wire (kind : Kind) :
    all.find? (fun other => other.wire.toList == kind.wire.toList) = some kind := by
  cases kind <;> decide

lemma ofName?_eq_some_iff {text : String} {kind : Kind} :
    ofName? text = some kind ↔ SameButForCase text kind.wire := by
  rw [sameButForCase_iff, map_toLower_wire, ofName?]
  constructor
  · intro hfound
    have hname := List.find?_some hfound
    exact (eq_of_beq hname).symm
  · intro hname
    rw [hname]
    exact kind.find?_wire

/-- A text is read as the kind whose name it is but for case. -/
lemma ofName_eq_ok_iff {text : String} {kind : Kind} :
    ofName text = .ok kind ↔ SameButForCase text kind.wire := by
  rw [← ofName?_eq_some_iff, ofName]
  cases ofName? text <;> simp

/-- A text that is the name of no kind is refused, and the refusal carries it as it is. -/
lemma ofName_eq_error_iff {text : String} {error : GraphError} :
    ofName text = .error error ↔
      error = .unknownKind text ∧ ∀ kind : Kind, ¬ SameButForCase text kind.wire := by
  simp only [← ofName?_eq_some_iff, ofName]
  cases hname : ofName? text with
  | none => simp [eq_comm]
  | some kind => simp

lemma mem_palette_iff {kind : Kind} : kind ∈ palette ↔ kind.isBoundary = false := by
  cases kind <;> decide

end Kind

/-! ## The drop area -/

/-- The coordinate is a number between two others, of which the upper one is excluded. -/
def Binary64.LiesIn (x : Binary64) (low high : ℚ) : Prop :=
  ∃ m, x = .finite false m ∧ low ≤ m.value ∧ m.value < high

lemma Magnitude.value_eq (m : Magnitude) : m.value = (m.units : ℚ) / unitsPerOne :=
  binaryValue_eq m.significand m.shift

/-- Between whole numbers above zero lie numbers without a sign. -/
lemma Binary64.within_iff {x : Binary64} {low high : Nat} (hpos : 0 < low) (hlow : low < 2 ^ 53)
    (hhigh : high < 2 ^ 53) :
    x.within (.ofNat low) (.ofNat high) = true ↔ x.LiesIn low high := by
  obtain ⟨a, ha, haunits⟩ := digits_eq_exact hlow
  obtain ⟨b, hb, hbunits⟩ := digits_eq_exact hhigh
  have hunits := unitsPerOne_pos
  rw [within, ha, hb, LiesIn]
  simp only [units?, haunits, hbunits]
  cases x with
  | nan => simp
  | infinity negative => simp
  | finite negative m =>
    cases negative with
    | true =>
      have hbelow : 0 < low * unitsPerOne := Nat.mul_pos hpos hunits
      simp only [decide_eq_true_eq, finite.injEq, Bool.true_eq_false, false_and,
        exists_false, iff_false]
      omega
    | false =>
      simp only [decide_eq_true_eq, finite.injEq, true_and, exists_eq_left', Magnitude.value_eq]
      rw [le_div_iff₀ cast_unitsPerOne_pos, div_lt_iff₀ cast_unitsPerOne_pos]
      norm_cast

namespace Canvas

/-- The drop area in numbers. -/
lemma inDropArea_iff {p : Position} :
    inDropArea p = true ↔ p.x.LiesIn 100 500 ∧ p.y.LiesIn 100 400 := by
  rw [inDropArea, Bool.and_eq_true,
    Binary64.within_iff (by decide) (by decide) (by decide),
    Binary64.within_iff (by decide) (by decide) (by decide)]
  rfl

end Canvas

/-! ## Pressing a button -/

namespace Gesture

/-- The node that is shown for a gesture, none if it added none. -/
def shownNode? : Option Edit.Outcome → Option Node
  | some (.created node) => some node
  | _ => none

lemma paletteKind?_eq_some_iff {label : String} {kind : Kind} :
    paletteKind? label = some kind ↔ kind ∈ Kind.palette ∧ Kind.ofName label = .ok kind := by
  rw [paletteKind?, Option.filter_eq_some_iff, Bool.not_eq_true', ← Kind.mem_palette_iff,
    Kind.ofName_eq_ok_iff, ← Kind.ofName?_eq_some_iff, and_comm]

/-- A button has no kind behind it if its label is no name or that of a boundary kind. -/
lemma paletteKind?_eq_none_iff {label : String} :
    paletteKind? label = none ↔ (∀ kind : Kind, ¬ SameButForCase label kind.wire) ∨
      SameButForCase label Kind.start.wire ∨ SameButForCase label Kind.finish.wire := by
  simp only [← Kind.ofName?_eq_some_iff, paletteKind?]
  cases hname : Kind.ofName? label with
  | none => simp
  | some kind => cases kind <;> simp [Option.filter, Kind.isBoundary]

end Gesture

namespace Canvas

variable {c : Canvas} {label : String}

lemma perform_addNamed_of_none (h : Gesture.paletteKind? label = none) (spot : Position) :
    c.perform (.addNamed label spot) = (none, c) := by
  simp [perform, Gesture.edit?, h]

/-- A button with a kind behind it creates a node at the spot. -/
lemma perform_addNamed_of_some {kind : Kind} (h : Gesture.paletteKind? label = some kind)
    (spot : Position) :
    c.perform (.addNamed label spot) =
      (some (.created (c.graph.create kind spot).1),
        { c with graph := (c.graph.create kind spot).2 }) := by
  have hedit : (Gesture.addNamed label spot).edit? = some (.create kind spot) := by
    simp [Gesture.edit?, h]
  rw [perform_of_edit? hedit]
  rfl

end Canvas

/-- All ids that were given out in a session with these events, those of the starting canvas
included. -/
def issuedIn (events : List Event) : List String :=
  (Graph.empty.history Graph.starterEdits).issuedIds ++
    (Graph.starter.history ((gestures events).filterMap Gesture.edit?)).issuedIds

lemma nextId_not_mem_issuedIn (events : List Event) :
    (Session.fresh.run events).canvas.graph.nextId ∉ issuedIn events := by
  rw [Session.canvas_run, Canvas.edited, Canvas.graph_performAll]
  exact Graph.Origin.starter.nextId_not_issued _

/-- A node as a palette button adds it to a graph, given the ids that are used up. -/
structure Node.IsNew (node : Node) (g : Graph) (used : List String) (kind : Kind) : Prop where
  /-- It has the next id, and no node ever had that. -/
  id_eq : node.id = g.nextId
  unused : node.id ∉ used
  kind_eq : node.kind = kind
  label_eq : node.label = kind.label
  fields_eq : node.fields = .empty
  /-- It lies in the drop area. -/
  x_liesIn : node.position.x.LiesIn 100 500
  y_liesIn : node.position.y.LiesIn 100 400

/-- A node that is created in the drop area is new, and it stays where it was put. -/
lemma isNew_create (events : List Event) (kind : Kind) {spot : Position}
    (inside : Canvas.inDropArea spot = true) :
    ((Session.fresh.run events).canvas.graph.create kind spot).1.IsNew
      (Session.fresh.run events).canvas.graph (issuedIn events) kind := by
  have harea := Canvas.inDropArea_iff.mp inside
  have hfinite : spot.isFinite = true := by
    obtain ⟨⟨x, hx, -⟩, ⟨y, hy, -⟩⟩ := harea
    simp [Position.isFinite, hx, hy, Binary64.isFinite]
  have hplace : ((Session.fresh.run events).canvas.graph.create kind spot).1.position = spot :=
    Position.orOrigin_eq_self hfinite
  constructor
  case unused => exact nextId_not_mem_issuedIn events
  case x_liesIn => rw [hplace]; exact harea.1
  case y_liesIn => rw [hplace]; exact harea.2
  all_goals rfl

/-- What comes of a palette button: the canvas before and after it is pressed and the node that is
shown, `spot` being the place that was drawn for it and `used` the ids that were ever given out. -/
structure Pressed (label : String) (spot : Position) (used : List String) (before after : Canvas)
    (shown : Option Node) : Prop where
  /-- A node is shown exactly for the kinds of the palette. -/
  shown_iff : shown.isSome = true ↔ ∃ kind ∈ Kind.palette, Kind.ofName label = .ok kind
  /-- It is added behind the others, and nothing else changes. -/
  adds : Canvas.inDropArea spot = true → ∀ kind ∈ Kind.palette, Kind.ofName label = .ok kind →
    ∃ node, shown = some node ∧ node.IsNew before.graph used kind ∧
      after.graph.nodes = before.graph.nodes ++ [node] ∧ after.graph.edges = before.graph.edges ∧
      after.graph.created = before.graph.created + 1 ∧ after.name = before.name
  /-- None is shown for an unknown text and for the boundary kinds, in any case of letters. -/
  none_iff : shown = none ↔ (∀ kind : Kind, ¬ SameButForCase label kind.wire) ∨
    SameButForCase label Kind.start.wire ∨ SameButForCase label Kind.finish.wire
  /-- Then the canvas is as before, and the next node gets the id that it would have had. -/
  ignores : shown = none → after = before

/-- A text is read as the kind whose name it is in any case of ASCII letters, and refused as it is
if there is none; and whatever the events before, gestures and tasks mixed, pressing a palette
button adds the one new node of that kind if it is on the palette, and otherwise changes nothing. -/
theorem paletteButtons :
    (∀ text kind, Kind.ofName text = .ok kind ↔ SameButForCase text kind.wire) ∧
      (∀ text error, Kind.ofName text = .error error ↔
        error = .unknownKind text ∧ ∀ kind : Kind, ¬ SameButForCase text kind.wire) ∧
      ∀ events label spot,
        let s := Session.fresh.run events
        let answer := (s.canvas.perform (.addNamed label spot)).1
        Pressed label spot (issuedIn events) s.canvas
          (s.step (.gesture (.addNamed label spot))).1.canvas (Gesture.shownNode? answer) := by
  refine ⟨fun _ _ => Kind.ofName_eq_ok_iff, fun _ _ => Kind.ofName_eq_error_iff, ?_⟩
  intro events label spot
  have hcanvas : ((Session.fresh.run events).step (.gesture (.addNamed label spot))).1.canvas =
      ((Session.fresh.run events).canvas.perform (.addNamed label spot)).2 := rfl
  dsimp only
  rw [hcanvas]
  cases hkind : Gesture.paletteKind? label with
  | none =>
    rw [Canvas.perform_addNamed_of_none hkind]
    have hnot : ¬∃ kind ∈ Kind.palette, Kind.ofName label = .ok kind := by
      rintro ⟨kind, hkind'⟩
      rw [Gesture.paletteKind?_eq_some_iff.mpr hkind'] at hkind
      cases hkind
    constructor
    case shown_iff => simp [Gesture.shownNode?, hnot]
    case adds => exact fun _ kind hmem hname => absurd ⟨kind, hmem, hname⟩ hnot
    case none_iff => exact iff_of_true rfl (Gesture.paletteKind?_eq_none_iff.mp hkind)
    case ignores => exact fun _ => rfl
  | some kind =>
    rw [Canvas.perform_addNamed_of_some hkind]
    have hpalette := Gesture.paletteKind?_eq_some_iff.mp hkind
    have hsome : Gesture.paletteKind? label ≠ none := by simp [hkind]
    constructor
    case shown_iff => exact iff_of_true rfl ⟨kind, hpalette⟩
    case adds =>
      intro inside other _ hname
      obtain rfl : kind = other := Except.ok.inj (hpalette.2.symm.trans hname)
      exact ⟨_, rfl, isNew_create events kind inside, rfl, rfl, rfl, rfl⟩
    case none_iff => exact iff_of_false nofun (mt Gesture.paletteKind?_eq_none_iff.mpr hsome)
    case ignores => exact nofun

/-- A label in mixed case behind a removal, one with a look-alike of its letters and a boundary kind
in capitals. -/
example :
    let s := Session.fresh.run [.gesture (.delete "2"), .start .upload]
    let press := fun label => Gesture.shownNode?
      (s.canvas.perform (.addNamed label ⟨.ofNat 100, .ofNat 399⟩)).1
    press "cLiCK" = some ⟨"4", .click, "Click Node", ⟨.ofNat 100, .ofNat 399⟩, .empty⟩ ∧
      press "clic\u212A" = none ∧ press "START" = none := by
  decide +kernel

end WorkflowCanvas
