import CanvasLayout.Layer.Group

/-!
# Tables and collections

A list shows its sections from top to bottom and gives each the spacing of its cells. The
name of a collection may end in the direction in which it scrolls, after a colon.
-/

namespace CanvasLayout

namespace ListKind

/-- The spacing of cells: for a table the gap between the first two, for a collection the
gap between the first two in a row and then the gap to the first cell further down. -/
def cellSpacing : ListKind → List Element → List Float
  | .table, a :: b :: _ => [a.frame.spacing b.frame .vertical]
  | .collection, a :: b :: rest =>
    let below := (a :: b :: rest).find? fun c => Scalar.lt a.frame.y c.frame.y
    a.frame.spacing b.frame .horizontal ::
      (below.map fun c => a.frame.spacing c.frame .vertical).toList
  | _, _ => []

end ListKind

namespace Group

/-- The section with the spacing that a list of the given kind finds in it. -/
def spaced (kind : ListKind) (g : Group Element) : Group Element :=
  let separator := kind.cellSpacing g.cells
  { g with
    separator
    tableSeparate := kind = .table && separator.head?.any fun gap => Scalar.lt 0 gap }

end Group

namespace ListView

/-- The section element with its cell spacing filled in. -/
def space (kind : ListKind) (e : Element) : Element :=
  match e.layer with
  | .group g => { e with layer := .group (g.spaced kind) }
  | _ => e

/-- A name and the scroll direction that follows it after the first colon. -/
def scrollSuffix (id : String) : Outcome (String × Option ScrollDirection) :=
  match Text.cutAt ':' id.toList with
  | none => .ok (id, none)
  | some (base, suffix) =>
    let suffix := String.ofList suffix
    if Text.mentions "horizontal" suffix then .ok (.ofList base, some .horizontal)
    else if Text.mentions "vertical" suffix then .ok (.ofList base, some .vertical)
    else .error (.format (.unknownScrollSuffix id suffix))

/-- The name and the scroll direction of a list; only collections have a direction. -/
def identity (kind : ListKind) (id : String) : Outcome (String × Option ScrollDirection) :=
  match kind with
  | .collection => scrollSuffix id
  | .table => .ok (id, none)

/-- What the children seen so far contribute to a list. -/
structure Parts where
  sections : List Element := []
  bound : Option Element := none

/-- The parts with one more child. -/
def Parts.add (d : Draft) (p : Parts) (child : Element) : Logged Parts :=
  if child.layer.group?.isSome then pure { p with sections := p.sections ++ [child] }
  else if Layer.isBoundName child.id then
    if p.bound.isSome then d.violates .secondListBound
    else pure { p with bound := some child }
  else do
    Logged.note .debug s!"list '{d.id}' ignores child '{child.id}'"
    return p

/-- The gap between the first two sections. -/
def sectionSpacing : List Element → List Float
  | a :: b :: _ => [a.frame.spacing b.frame .vertical]
  | _ => []

/-- The first of the headers that share each derived name. -/
def headerNames (sections : List Element) : NameMap String :=
  let headers := sections.filterMap fun s => s.layer.group?.bind (·.header)
  NameMap.firstOf (headers.map fun h => (Layer.derivedName h.id "header", h.id))

/-- The list that a draft and its built children make. -/
def build (d : Draft) (kind : ListKind) (children : List Element) : Logged Element := do
  let (id, scroll) ← Logged.lift (identity kind d.id)
  let parts ← children.foldlM (Parts.add d) {}
  if parts.sections.isEmpty then d.violates .noSections
  else
    let sections := (Element.topDown parts.sections).map (space kind)
    return { d.element <| .list
        { kind
          scroll
          sections
          separator := sectionSpacing sections
          customHeaders := headerNames sections
          bound := parts.bound } with
      id }

end ListView

end CanvasLayout
