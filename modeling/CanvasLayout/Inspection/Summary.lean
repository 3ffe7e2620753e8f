import CanvasLayout.Screen

/-!
# Summaries of screens

How many layers of each kind a screen has and how many elements in all, and where each layer
is anchored.
-/

namespace CanvasLayout

/-- The anchor of a layer along an axis, as a summary lists it. -/
structure AnchorEntry where
  /-- Absent at the edge of the canvas. -/
  reference : Option String
  distance : Float

/-- A layer as a summary lists it. -/
structure LayerEntry where
  id : String
  kind : LayerKind
  vertical : AnchorEntry
  horizontal : AnchorEntry

/-- What is told of a screen. -/
structure Summary where
  canvas : Canvas
  /-- The number of layers. -/
  layers : Nat
  /-- The number of elements at any depth, layers included. -/
  elements : Nat
  /-- The number of layers of each kind. -/
  kinds : List (LayerKind × Nat)
  /-- The layers in order. -/
  entries : List LayerEntry

/-- The anchor as a summary lists it. -/
def Anchor.entry (a : Anchor Float) : AnchorEntry := ⟨a.reference, a.distance⟩

namespace Placed

/-- The layer's variant. -/
def kind (p : PlacedLayer) : LayerKind := p.content.layer.kind

/-- The layer as a summary lists it. -/
def entry (p : PlacedLayer) : LayerEntry := ⟨p.id, p.kind, p.vertical.entry, p.horizontal.entry⟩

/-- The elements nested in a layer at any depth. -/
def nested (p : PlacedLayer) : List Element := p.content.layer.children.flatMap Element.descendants

end Placed

/-- The summary of a screen. -/
def Screen.summary (s : Screen) : Summary where
  canvas := s.canvas
  layers := s.layers.length
  elements := s.layers.length + (s.layers.flatMap Placed.nested).length
  kinds := LayerKind.all.map fun k => (k, s.layers.countP (·.kind = k))
  entries := s.layers.map Placed.entry

end CanvasLayout
