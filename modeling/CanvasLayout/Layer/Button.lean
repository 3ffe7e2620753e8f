import CanvasLayout.Layer.Draft

/-!
# Buttons

A button is made of one text label and at most one background shape. Both may stand inside
plain containers, however deep; other layers among the parts are ignored. The shape gives
the button its border, and a button without one draws nothing itself.
-/

namespace CanvasLayout

namespace Element

/-- The parts that an element contributes to a button: those of its children if it is a
container, else the element itself. -/
def parts (e : Element) : List Element :=
  match _ : e.layer with
  | .container c => c.children.attach.flatMap fun ⟨x, _⟩ => x.parts
  | _ => [e]
termination_by sizeOf e
decreasing_by
  exact sizeOf_lt_of_mem_children (by simp_all [children, Layer.children])

theorem parts_of_container {e : Element} {c : Container Element} (h : e.layer = .container c) :
    e.parts = c.children.flatMap parts := by
  rw [parts]
  split
  · rename_i c' h'
    obtain rfl : c' = c := by simpa [h] using h'.symm
    simp [List.flatMap]
  · simp_all

theorem parts_of_not_container {e : Element} (h : e.layer.role? = none) : e.parts = [e] := by
  rw [parts]
  split
  · simp_all [Layer.role?]
  · rfl

end Element

namespace Button

/-- The style of a button that is drawn by `shape`: the border is the shape's where the shape
has one. Without a shape there is neither fill nor stroke. -/
def style (own : Style) : Option Element → Style
  | some shape =>
    { own with
      borderRadius := shape.style.borderRadius.or own.borderRadius
      strokeColor := shape.style.strokeColor.or own.strokeColor
      strokeWidth := shape.style.strokeWidth.or own.strokeWidth }
  | none => { own with fill := none, strokeColor := none, strokeWidth := none }

/-- The button with the given label and background. -/
def make (d : Draft) (label : Element) (frameShape : Option Element) : Element :=
  let own := Style.ofBag d.attributes
  let text := label.layer.label?
  { d.element <| .button
      { title := (text.map TextLabel.text).getD ""
        titleColor := (text.bind TextLabel.ownFill).or own.fill
        frameShape
        label } with
    style := style own frameShape }

/-- A part that is neither label nor shape is passed over. -/
def note (part : Element) : Option Line :=
  match part.kind with
  | .shape | .text => none
  | _ => some ⟨.debug, s!"button part '{part.id}' is neither shape nor text; ignored"⟩

/-- The button that a draft and its built children make. -/
def build (d : Draft) (children : List Element) : Logged Element := do
  let parts := children.flatMap Element.parts
  Logged.notes (parts.filterMap note)
  let labels := parts.filter (·.kind = .text)
  let shapes := parts.filter (·.kind = .shape)
  if 1 < labels.length then d.violates (.tooManyLabels labels.length)
  else if 1 < shapes.length then d.violates (.tooManyShapes shapes.length)
  else match labels.head? with
    | none => d.violates .noLabel
    | some label => return make d label shapes.head?

end Button

end CanvasLayout
