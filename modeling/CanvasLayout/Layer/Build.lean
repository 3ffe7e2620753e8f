import CanvasLayout.Layer.Button
import CanvasLayout.Layer.List
import CanvasLayout.Layer.Slider

/-!
# Classification

A prepared draft and its built children become an element of the declared kind. For a whole
tree of drafts, each draft is prepared before its children are built, so its own faults win
over theirs, and it is built after them, so the rules on children see finished elements.
-/

namespace CanvasLayout

namespace Draft

/-- The primitive that a draft draws: the one its kind names, else the one its tag names. -/
def shapeKind (d : Draft) : ShapeKind :=
  if d.kind = "UIImageView" then .image
  else ((ShapeKind.ofTag? d.kind).or (ShapeKind.ofTag? d.tag)).getD .rect

/-- The point where a label is positioned: half the sum of origin and size on each axis. -/
def labelPoint (f : PixelFrame Float) : Point .pixel Float :=
  ⟨(f.x + f.width) / 2, (f.y + f.height) / 2⟩

/-- A child of a node that can have none is passed over. -/
def childless (d : Draft) (children : List Element) : Logged Unit :=
  Logged.notes <| children.map fun c =>
    ⟨.debug, s!"'{d.id}' cannot hold children; ignoring '{c.id}'"⟩

end Draft

/-- The element that a prepared draft and its built children make. -/
def Prepared.build (p : Prepared) (children : List Element) : Logged Element :=
  let d := p.draft
  match p.declared with
  | .shape => do
    d.childless children
    return d.element (.shape d.shapeKind)
  | .text => do
    d.childless children
    return d.element (.text ⟨d.text, Draft.labelPoint d.frame, p.ownFill⟩)
  | .button => Button.build d children
  | .group => Group.build d children
  | .list kind => ListView.build d kind children
  | .slider => Slider.build d children
  | .container role => return d.element (.container ⟨role, children⟩)

mutual

/-- The element that a tree of drafts makes below a parent with the given attributes. A
draft's own attributes, as written, are what its children inherit. -/
def Draft.build (d : Draft) (ancestor : Bag) (overrides : Overrides) : Logged Element :=
  match d with
  | ⟨id, kind, tag, frame, attributes, runs, children⟩ => do
    let d : Draft := ⟨id, kind, tag, frame, attributes, runs, children⟩
    let prepared ← Logged.lift (d.prepare ancestor overrides)
    let built ← Draft.buildAll children attributes overrides
    prepared.build built

/-- The elements that trees of drafts under one parent make. -/
def Draft.buildAll (ds : List Draft) (ancestor : Bag) (overrides : Overrides) :
    Logged (List Element) :=
  match ds with
  | [] => pure []
  | d :: ds => do
    let e ← d.build ancestor overrides
    let es ← Draft.buildAll ds ancestor overrides
    return e :: es

end

theorem Draft.build_eq (d : Draft) (ancestor : Bag) (overrides : Overrides) :
    d.build ancestor overrides = (do
      let prepared ← Logged.lift (d.prepare ancestor overrides)
      let built ← Draft.buildAll d.children d.attributes overrides
      prepared.build built) := by
  cases d
  rw [Draft.build]

end CanvasLayout
