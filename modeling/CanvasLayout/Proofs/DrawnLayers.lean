import CanvasLayout.Drawing.Screen
import CanvasLayout.Proofs.Classification
import CanvasLayout.Proofs.WholeNumbers

/-!
# The layers of a drawing

What is known of a screen because it comes from a drawing: the canvas has an area, and the frame of
every layer is the frame that was drawn, in whole pixels none of which is negative
(`screen_eq_ok`).
-/

namespace CanvasLayout

open Binary64 (Has)

/-- A frame in whole pixels, none of them negative. -/
def Frame.IsWhole {s : Space} (f : Frame s Float) : Prop :=
  ∀ a, (∃ n : ℕ, Has (f.start a) n) ∧ ∃ n : ℕ, Has (f.extent a) n

namespace Drawing

open Xml (Node Tag)
open Logged (bind_eq_ok)

theorem isFinite_of_measure? {raw : String} {x : Float} (h : Decimal.measure? raw = some x) :
    x.isFinite := by
  unfold Decimal.measure? at h
  exact (Option.filter_eq_some_iff.1 h).2

/-- A component of a frame is the one that a layer tells: the text under the name, its own or else
that of the override entry, spells a number that is not negative, and the component is the nearest
whole number, a half going up. -/
def Measures (own : Bag) (entry : Option Bag) (name : String) (x : Float) : Prop :=
  ∃ raw y q, ownText? own entry name = some raw ∧ Decimal.measure? raw = some y ∧ Has y q ∧
    Has x ⌊q + 1 / 2⌋₊

theorem measures_of_component {id : String} {own : Bag} {entry : Option Bag} {name : String}
    {x : Float} (h : component id own entry name = .ok x) : Measures own entry name x := by
  unfold component at h
  split at h
  · cases h
  · rename_i raw told
    split at h
    · rename_i y hy
      obtain ⟨measured, nonneg⟩ := Option.filter_eq_some_iff.1 hy
      cases h
      obtain ⟨q, value, rounded⟩ := Binary64.exists_has_roundHalfAway
        (isFinite_of_measure? measured) (of_decide_eq_true nonneg)
      exact ⟨raw, y, q, told, measured, value, rounded⟩
    · cases h

/-- The frame of a layer is the one that the layer tells. -/
structure MeasuresFrame (own : Bag) (entry : Option Bag) (f : PixelFrame Float) : Prop where
  x : Measures own entry "x" f.x
  y : Measures own entry "y" f.y
  width : Measures own entry "width" f.width
  height : Measures own entry "height" f.height

theorem measuresFrame_of_frame {id : String} {own : Bag} {entry : Option Bag}
    {f : PixelFrame Float} (h : frame id own entry = .ok f) : MeasuresFrame own entry f := by
  obtain ⟨x, hx, h⟩ := Outcome.bind_eq_ok.1 h
  obtain ⟨y, hy, h⟩ := Outcome.bind_eq_ok.1 h
  obtain ⟨width, hw, h⟩ := Outcome.bind_eq_ok.1 h
  obtain ⟨height, hh, h⟩ := Outcome.bind_eq_ok.1 h
  cases h
  exact ⟨measures_of_component hx, measures_of_component hy, measures_of_component hw,
    measures_of_component hh⟩

theorem Measures.exists_has {own : Bag} {entry : Option Bag} {name : String} {x : Float}
    (h : Measures own entry name x) : ∃ n : ℕ, Has x n := by
  obtain ⟨raw, y, q, -, -, -, rounded⟩ := h
  exact ⟨_, rounded⟩

theorem MeasuresFrame.isWhole {own : Bag} {entry : Option Bag} {f : PixelFrame Float}
    (h : MeasuresFrame own entry f) : f.IsWhole := by
  intro a
  cases a with
  | horizontal => exact ⟨h.x.exists_has, h.width.exists_has⟩
  | vertical => exact ⟨h.y.exists_has, h.height.exists_has⟩

theorem isWhole_of_draft {overrides : Overrides} {tag : Tag} {content : List Node} {d : Draft}
    (h : draft overrides tag content = .ok d) : d.frame.IsWhole := by
  unfold draft at h
  split at h
  · cases h
  · obtain ⟨f, hf, h⟩ := Outcome.bind_eq_ok.1 h
    cases h
    exact (measuresFrame_of_frame hf).isWhole

theorem isWhole_of_layer? {overrides : Overrides} {ancestor : Bag} {n : Node} {e : Element}
    (h : (layer? overrides ancestor n).outcome = .ok (some e)) : e.frame.IsWhole := by
  unfold layer? at h
  split at h
  · split at h
    · cases h
    · obtain ⟨d, hd, h⟩ := bind_eq_ok.1 h
      obtain ⟨p, hp, h⟩ := bind_eq_ok.1 h
      have whole : p.draft.frame.IsWhole := by
        rw [Draft.frame_prepare hp]
        exact isWhole_of_draft hd
      dsimp only at h
      split at h
      all_goals
        obtain ⟨children, -, h⟩ := bind_eq_ok.1 h
        obtain ⟨built, hb, h⟩ := bind_eq_ok.1 h
        cases h
        rwa [Prepared.frame_build hb]
  · cases h

theorem isWhole_of_layersIn {overrides : Overrides} {ancestor : Bag} {ns : List Node}
    {es : List Element} (h : (layersIn overrides ancestor ns).outcome = .ok es) :
    ∀ e ∈ es, e.frame.IsWhole := by
  induction ns generalizing es with
  | nil =>
    unfold layersIn at h
    cases h
    simp
  | cons n ns ih =>
    unfold layersIn at h
    obtain ⟨e, he, h⟩ := bind_eq_ok.1 h
    obtain ⟨es', hes, h⟩ := bind_eq_ok.1 h
    cases h
    intro x hx
    rcases List.mem_append.1 hx with hx | hx
    · rw [Option.mem_toList] at hx
      rw [hx] at he
      exact isWhole_of_layer? he
    · exact ih hes x hx

theorem pos_of_dimension {root : Tag} {name : String} {n : UInt32}
    (h : dimension root name = .ok n) : 0 < n.toNat := by
  unfold dimension at h
  split at h
  · cases h
  · split at h
    · rename_i m hm
      cases h
      unfold dimension? Decimal.count? at hm
      obtain ⟨k, hk, rfl⟩ := Option.map_eq_some_iff.1 hm
      obtain ⟨hk, pos⟩ := Option.filter_eq_some_iff.1 hk
      have lt := (Option.filter_eq_some_iff.1 hk).2
      rw [decide_eq_true_eq] at pos lt
      rwa [UInt32.toNat_ofNat_of_lt' lt]
    · cases h

theorem pos_of_canvas {root page artboard : Tag} {c : Canvas}
    (h : (canvas root page artboard).outcome = .ok c) : 0 < c.width.toNat ∧ 0 < c.height.toNat := by
  obtain ⟨width, hw, h⟩ := bind_eq_ok.1 h
  obtain ⟨height, hh, h⟩ := bind_eq_ok.1 h
  obtain ⟨background, -, h⟩ := bind_eq_ok.1 h
  obtain ⟨-, -, h⟩ := bind_eq_ok.1 h
  rw [Logged.outcome_lift] at hw hh
  cases h
  exact ⟨pos_of_dimension hw, pos_of_dimension hh⟩

/-- The parts of the artboard that a drawing is read for. -/
def artboardParts (path : String) (name : Option String) (drawing : String) :
    Outcome (List Node) := do
  let (_, content) ← root path drawing
  let (_, content) ← page path content
  let (_, content) ← artboard path name content
  return content

/-- What the layers of the artboard that a drawing is read for inherit. -/
def artboardBag (path : String) (name : Option String) (drawing : String) : Outcome Bag := do
  let (_, content) ← root path drawing
  let (page, content) ← page path content
  let (artboard, _) ← artboard path name content
  return inherited artboard page

section Boards

variable {path drawing : String} {name : Option String} {root page board : Tag × List Node}
  (hroot : Drawing.root path drawing = .ok root) (hpage : Drawing.page path root.2 = .ok page)
  (hboard : artboard path name page.2 = .ok board)

include hroot hpage hboard

/-- The parts are those of the artboard that is found on the page of the root. -/
theorem artboardParts_of_found : artboardParts path name drawing = .ok board.2 :=
  Outcome.bind_eq_ok.2 ⟨root, hroot, Outcome.bind_eq_ok.2 ⟨page, hpage,
    Outcome.bind_eq_ok.2 ⟨board, hboard, rfl⟩⟩⟩

/-- Layers inherit from that artboard and from its page. -/
theorem artboardBag_of_found : artboardBag path name drawing = .ok (inherited board.1 page.1) :=
  Outcome.bind_eq_ok.2 ⟨root, hroot, Outcome.bind_eq_ok.2 ⟨page, hpage,
    Outcome.bind_eq_ok.2 ⟨board, hboard, rfl⟩⟩⟩

end Boards

/-- The canvas of a drawing and the elements on it, in the order of the document. -/
def drawnElements (path : String) (overrides : Overrides) (name : Option String)
    (drawing : String) : Outcome (Canvas × List Element) := do
  let (root, content) ← root path drawing
  let (page, content) ← page path content
  let (artboard, content) ← artboard path name content
  let canvas ← (canvas root page artboard).outcome
  let elements ← (layersIn overrides (inherited artboard page) content).outcome
  return (canvas, elements)

/-- The log aside, a screen is what its elements make on its canvas. -/
theorem outcome_screen (path : String) (overrides : Overrides) (name : Option String)
    (drawing : String) : (screen path overrides name drawing).outcome =
      (drawnElements path overrides name drawing).map fun d => .ofElements d.1 d.2 := by
  show _ = (fun d : Canvas × List Element => Screen.ofElements d.1 d.2) <$> drawnElements ..
  unfold screen drawnElements
  simp only [map_bind, map_pure, Logged.outcome_bind, Logged.outcome_lift, Logged.outcome_notes,
    Logged.outcome_pure]
  rfl

/-- A screen that is drawn is made of the layers of the artboard, on a canvas with an area. -/
theorem screen_eq_layersIn {path : String} {overrides : Overrides} {name : Option String}
    {drawing : String} {s : Screen} (h : (screen path overrides name drawing).outcome = .ok s) :
    ∃ content ancestor es, artboardParts path name drawing = .ok content ∧
      artboardBag path name drawing = .ok ancestor ∧
      (layersIn overrides ancestor content).outcome = .ok es ∧ s = .ofElements s.canvas es ∧
      0 < s.canvas.width.toNat ∧ 0 < s.canvas.height.toNat := by
  obtain ⟨root, hroot, h⟩ := bind_eq_ok.1 h
  obtain ⟨page, hpage, h⟩ := bind_eq_ok.1 h
  obtain ⟨board, hboard, h⟩ := bind_eq_ok.1 h
  obtain ⟨c, hc, h⟩ := bind_eq_ok.1 h
  obtain ⟨es, hes, h⟩ := bind_eq_ok.1 h
  obtain ⟨-, -, h⟩ := bind_eq_ok.1 h
  rw [Logged.outcome_lift] at hroot hpage hboard
  cases h
  exact ⟨board.2, inherited board.1 page.1, es, artboardParts_of_found hroot hpage hboard,
    artboardBag_of_found hroot hpage hboard, hes, rfl, pos_of_canvas hc⟩

/-- A screen that is drawn is made of whole frames on a canvas with an area. -/
theorem screen_eq_ok {path : String} {overrides : Overrides} {name : Option String}
    {drawing : String} {s : Screen} (h : (screen path overrides name drawing).outcome = .ok s) :
    ∃ c es, s = .ofElements c es ∧ 0 < c.width.toNat ∧ 0 < c.height.toNat ∧
      ∀ e ∈ es, e.frame.IsWhole := by
  obtain ⟨content, ancestor, es, -, -, hes, same, width, height⟩ := screen_eq_layersIn h
  exact ⟨s.canvas, es, same, width, height, isWhole_of_layersIn hes⟩

end Drawing

end CanvasLayout
