import CanvasLayout.Decimal.Binary
import CanvasLayout.Layer.Build
import CanvasLayout.Xml.Tree

/-!
# The layers of a drawing

Every element below the artboard is a layer, metadata aside. It is drafted from its
attributes and from the override entry under its id, checked in full before its children
are looked at, and classified once they are built. Below a `text` element there are no
layers, only character data.
-/

namespace CanvasLayout.Drawing

open Xml (Node Tag)

/-- The elements that are never layers. -/
def metadataTags : List String := ["title", "desc", "defs", "metadata"]

/-- The attribute that declares a layer's kind. -/
def kindAttribute : String := "type"

/-- The raw text of an attribute of a layer: its own, else that of its override entry. -/
def ownText? (own : Bag) (entry : Option Bag) (name : String) : Option String :=
  (own.rawText? name).or (entry.bind (·.rawText? name))

/-- A component of a layer's frame, in whole pixels. -/
def component (id : String) (own : Bag) (entry : Option Bag) (name : String) : Outcome Float :=
  match ownText? own entry name with
  | none => .error (.format (.missingGeometry id name))
  | some raw =>
    match (Decimal.measure? raw).filter Scalar.nonneg with
    | some x => .ok (Decimal.roundHalfAway x)
    | none => .error (.format (.invalidGeometry id name raw))

/-- The frame of a layer. -/
def frame (id : String) (own : Bag) (entry : Option Bag) : Outcome (PixelFrame Float) := do
  let x ← component id own entry "x"
  let y ← component id own entry "y"
  let width ← component id own entry "width"
  let height ← component id own entry "height"
  return ⟨x, y, width, height⟩

/-- An element of a drawing as a draft without children. -/
def draft (overrides : Overrides) (tag : Tag) (content : List Node) : Outcome Draft :=
  match tag.attribute? "id" with
  | none => .error (.format (.missingId tag.name tag.offset))
  | some id => do
    let own := Bag.ofRaw tag.attributes
    let entry := overrides.get? id
    let frame ← frame id own entry
    return {
      id
      kind := (ownText? own entry kindAttribute).getD tag.name
      tag := tag.name
      frame
      attributes := own
      runs := if tag.name = "text" then Node.textsOf content else []
      children := [] }

mutual

/-- The element that a part of a drawing makes below a parent with the given attributes, if
it is a layer. -/
def layer? (overrides : Overrides) (ancestor : Bag) : Node → Logged (Option Element)
  | .element tag content =>
    if tag.name ∈ metadataTags then return none
    else do
      let draft ← Logged.lift (draft overrides tag content)
      let prepared ← Logged.lift (draft.prepare ancestor overrides)
      let children ←
        if tag.name = "text" then pure [] else layersIn overrides draft.attributes content
      return some (← prepared.build children)
  | _ => return none

/-- The elements that the parts of a drawing make below one parent. -/
def layersIn (overrides : Overrides) (ancestor : Bag) : List Node → Logged (List Element)
  | [] => return []
  | n :: ns => do
    let e ← layer? overrides ancestor n
    let es ← layersIn overrides ancestor ns
    return e.toList ++ es

end

end CanvasLayout.Drawing
