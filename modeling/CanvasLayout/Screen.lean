import CanvasLayout.Layer.Element
import CanvasLayout.Logged
import CanvasLayout.Placement

/-!
# Screens

A screen is a canvas and the layers on it in reading order, each in its place. It is what a
drawing is turned into and what layout code is made from.
-/

namespace CanvasLayout

/-- The canvas of a screen. -/
structure Canvas where
  width : UInt32
  height : UInt32
  background : Rgb
  /-- The name of the page around the artboard. -/
  page : String
  artboard : String
  deriving DecidableEq

/-- The size of the canvas in pixels. -/
def Canvas.extent {α : Type} [Scalar α] (c : Canvas) : Extent α :=
  ⟨Scalar.ofNat c.width.toNat, Scalar.ofNat c.height.toNat⟩

/-- What a layer shows. -/
structure Content where
  style : Style
  layer : Layer Element

/-- A layer in its place on the canvas. -/
abbrev PlacedLayer := Placed Float Content

/-- A canvas and its layers in reading order. -/
structure Screen where
  canvas : Canvas
  layers : List PlacedLayer

namespace Element

/-- The element as something to be placed. -/
def block (e : Element) : Block Float Content := ⟨e.id, e.frame, ⟨e.style, e.layer⟩⟩

end Element

/-- The layer as an element that is not anchored. -/
def Placed.element (p : PlacedLayer) : Element :=
  ⟨p.id, p.content.style, p.pixelFrame, p.content.layer⟩

namespace Screen

/-- The screen that elements make on a canvas. -/
def ofElements (canvas : Canvas) (es : List Element) : Screen :=
  ⟨canvas, Block.placeAll canvas.extent (es.map Element.block)⟩

/-- The log lines that tell where each layer is anchored. -/
def anchorLines (s : Screen) : List Line :=
  s.layers.map fun p => ⟨.debug, p.describe⟩

end Screen

end CanvasLayout
