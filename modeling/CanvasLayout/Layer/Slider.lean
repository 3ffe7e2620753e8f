import CanvasLayout.Layer.Draft
import CanvasLayout.Layer.Name

/-!
# Sliders

A slider has a strip of options and a block of content. The content block becomes a
collection of one section with one cell, which holds what the block held, so its pages can
be handled like the cells of any collection.
-/

namespace CanvasLayout

namespace Slider

/-- What the children seen so far contribute to a slider. -/
structure Parts where
  options : Option Element := none
  content : Option Element := none
  bound : Option Element := none

/-- Puts a child into a slot that is still free. -/
def fill (d : Draft) (slot : Option Element) (child : Element) : Logged (Option Element) :=
  if slot.isSome then d.violates (.repeatedBlock child.id) else pure (some child)

/-- The parts with one more child. -/
def Parts.add (d : Draft) (p : Parts) (child : Element) : Logged Parts :=
  match child.layer.role? with
  | some .sliderOptions => return { p with options := ← fill d p.options child }
  | some .sliderContent => return { p with content := ← fill d p.content child }
  | _ =>
    if Layer.isBoundName child.id then return { p with bound := ← fill d p.bound child }
    else do
      Logged.note .debug s!"slider '{d.id}' ignores child '{child.id}'"
      return p

/-- The elements that a container holds. -/
def held (e : Element) : List Element :=
  match e.layer with
  | .container c => c.children
  | _ => []

/-- The pages of a slider as a collection of one cell. -/
def paged (id : String) (content : Element) : Element :=
  let list := id ++ "CollectionView"
  let cellName := Text.upperFirst list ++ "Cell"
  let cell : Element :=
    { content with
      id := Text.lowerFirst cellName
      layer := .container ⟨.cell, held content⟩ }
  let bound : Element := ⟨list ++ "Bound", {}, content.frame, .shape .rect⟩
  let group : Group Element :=
    { header := none
      cells := [cell]
      customCells := NameMap.firstOf [(cellName, cell.id)]
      bound
      separator := [0]
      tableSeparate := false }
  { content with
    id := list
    layer := .list
      { kind := .collection
        scroll := none
        sections := [⟨list ++ "Section", {}, content.frame, .group group⟩]
        separator := [0]
        customHeaders := .empty
        bound := none } }

/-- The slider that a draft and its built children make. -/
def build (d : Draft) (children : List Element) : Logged Element := do
  let parts ← children.foldlM (Parts.add d) {}
  match parts.options, parts.content with
  | none, _ => d.violates .noOptions
  | _, none => d.violates .noContent
  | some options, some content =>
    return d.element (.slider ⟨options, paged d.id content, parts.bound⟩)

end Slider

end CanvasLayout
