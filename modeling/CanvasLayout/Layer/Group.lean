import CanvasLayout.Layer.Draft
import CanvasLayout.Layer.Name

/-!
# Sections

A section of a list has one rectangle that bounds it, at least one cell and at most one
header; other children are ignored. Cells are put in order from top to bottom, but which
cell stands for a type of cells is decided by the order they were drawn in.
-/

namespace CanvasLayout

namespace Element

/-- The order from top to bottom; elements at one height keep their order when sorted. -/
def notBelow (a b : Element) : Bool := Scalar.rankLE a.frame.y b.frame.y

/-- Elements from top to bottom. -/
def topDown (es : List Element) : List Element := es.mergeSort notBelow

theorem notBelow_total (a b : Element) : notBelow a b || notBelow b a :=
  Scalar.rankLE_float_total a.frame.y b.frame.y

theorem notBelow_trans (a b c : Element) (h : notBelow a b) (h' : notBelow b c) : notBelow a c :=
  Scalar.rankLE_float_trans h h'

@[simp] theorem mem_topDown {e : Element} {es : List Element} : e ∈ topDown es ↔ e ∈ es :=
  List.mem_mergeSort

theorem pairwise_topDown (es : List Element) :
    (topDown es).Pairwise fun a b => Scalar.rankLE a.frame.y b.frame.y :=
  List.pairwise_mergeSort notBelow_trans notBelow_total es

end Element

namespace Group

/-- What the children seen so far contribute to a section. -/
structure Parts where
  header : Option Element := none
  bound : Option Element := none
  cells : List Element := []

/-- The parts with one more child. -/
def Parts.add (d : Draft) (p : Parts) (child : Element) : Logged Parts :=
  match child.layer.role? with
  | some .header =>
    if p.header.isSome then d.violates .secondHeader
    else pure { p with header := some child }
  | some .cell => pure { p with cells := p.cells ++ [child] }
  | _ =>
    if Layer.isBoundName child.id then
      if p.bound.isSome then d.violates .secondSectionBound
      else pure { p with bound := some child }
    else do
      Logged.note .debug s!"section '{d.id}' ignores child '{child.id}'"
      return p

/-- The first of the cells that share each derived name. -/
def cellNames (cells : List Element) : NameMap String :=
  NameMap.firstOf (cells.map fun c => (Layer.derivedName c.id "cell", c.id))

/-- The section that a draft and its built children make. -/
def build (d : Draft) (children : List Element) : Logged Element := do
  let parts ← children.foldlM (Parts.add d) {}
  if parts.cells.isEmpty then d.violates .noCells
  else match parts.bound with
    | none => d.violates .noSectionBound
    | some bound =>
      return d.element <| .group
        { header := parts.header
          cells := Element.topDown parts.cells
          customCells := cellNames parts.cells
          bound
          separator := []
          tableSeparate := false }

end Group

end CanvasLayout
