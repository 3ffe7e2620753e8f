import CanvasLayout.Attribute.Cascade
import CanvasLayout.Attribute.Overrides
import CanvasLayout.Layer.Element

/-!
# Drafts

A draft is a node of a drawing before it is classified: its identity, the tag that draws
it, the kind it declares, its frame, its attributes and its children. `Draft.prepare` runs
the checks that concern a draft alone, resolution and the declared kind, and is where the
one look at inheritance happens; what it returns waits for the built children.
-/

namespace CanvasLayout

/-- A node of a drawing that is not classified yet. -/
structure Draft where
  id : String
  /-- The declared kind: the `type` attribute, or the tag without one. -/
  kind : String
  /-- The name of the element that draws the node. -/
  tag : String
  frame : PixelFrame Float
  attributes : Bag
  /-- The pieces of character data, in order. -/
  runs : List String
  children : List Draft

/-- A resolved draft of a known kind that waits for its built children. -/
structure Prepared where
  draft : Draft
  declared : DeclaredKind
  /-- The fill set on a label or in its override entry, nothing inherited. -/
  ownFill : Option Rgb

namespace Draft

/-- The pieces of character data that are not blank, one after the other. -/
def text (d : Draft) : String :=
  String.join (d.runs.filter fun run => !Text.isBlankText run)

/-- The draft with its recognized attributes resolved. -/
def resolve (d : Draft) (ancestor : Bag) (overrides : Overrides) : Outcome Draft := do
  return { d with attributes := ← d.attributes.resolve d.id ancestor (overrides.get? d.id) }

/-- The kind that the draft declares. -/
def declaredKind (d : Draft) : Outcome DeclaredKind :=
  match DeclaredKind.parse? d.kind with
  | some declared => .ok declared
  | none => .error (.structural d.id (.unrecognizedKind d.kind))

/-- The fill of the draft when nothing is inherited. -/
def ownFill (d : Draft) (overrides : Overrides) : Outcome (Option Rgb) := do
  return (Style.ofBag (← d.resolve .empty overrides).attributes).fill

/-- The checks that concern the draft alone. -/
def prepare (d : Draft) (ancestor : Bag) (overrides : Overrides) : Outcome Prepared := do
  let resolved ← d.resolve ancestor overrides
  let declared ← resolved.declaredKind
  let fill ← if declared = .text then d.ownFill overrides else pure none
  return ⟨resolved, declared, fill⟩

/-- The element that a resolved draft becomes as a given layer. -/
def element (d : Draft) (layer : Layer Element) : Element where
  id := d.id
  style := Style.ofBag d.attributes
  frame := d.frame
  layer := layer

/-- The end of an operation by a rule that the draft violates. -/
def violates {α : Type} (d : Draft) (rule : StructuralRule) : Logged α :=
  .fail (.structural d.id rule)

end Draft

end CanvasLayout
