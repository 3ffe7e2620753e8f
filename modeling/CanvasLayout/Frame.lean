import CanvasLayout.Scalar
import CanvasLayout.Decimal.Style

/-!
# Frames

A frame is a top-left corner and a size. Its type says whether it is measured in canvas
pixels or in fractions of the canvas, so the two cannot be mixed up. Layers are put in
reading order by `readingKey`, the sum of a pixel frame's four components.
-/

namespace CanvasLayout

/-- What a coordinate is measured in: canvas pixels, or fractions of the canvas. -/
inductive Space where
  | pixel
  | normalized

/-- A corner and a size. -/
@[ext] structure Frame (s : Space) (α : Type) where
  x : α
  y : α
  width : α
  height : α

/-- A frame in canvas pixels. -/
abbrev PixelFrame := Frame .pixel

/-- A frame in fractions of the canvas. -/
abbrev NormalizedFrame := Frame .normalized

/-- A point on the canvas. -/
@[ext] structure Point (s : Space) (α : Type) where
  x : α
  y : α

/-- A sum to sort by. The sum of opposite infinities is undefined in a way of its own and
comes before all others. -/
structure ReadingKey (α : Type) where
  sum : α
  opposed : Bool

variable {s : Space} {α : Type} [Scalar α]

namespace ReadingKey

/-- The order of reading keys. -/
def le (a b : ReadingKey α) : Bool :=
  a.opposed || (!b.opposed && Scalar.rankLE a.sum b.sum)

end ReadingKey

namespace Frame

/-- The right edge. -/
def right (f : Frame s α) : α := f.x + f.width

/-- The bottom edge. -/
def bottom (f : Frame s α) : α := f.y + f.height

/-- All four components are finite. -/
def isFinite (f : Frame s α) : Bool :=
  Scalar.isFinite f.x && Scalar.isFinite f.y && Scalar.isFinite f.width && Scalar.isFinite f.height

/-- The top-left corner. -/
def corner (f : Frame s α) : Point s α := ⟨f.x, f.y⟩

/-- The sum of the components; the smaller it is, the nearer the frame lies to the top left. -/
def positionalKey (f : PixelFrame α) : α := f.x + f.y + f.width + f.height

/-- The sum of the components as a key to sort by. -/
def readingKey (f : PixelFrame α) : ReadingKey α where
  sum := f.positionalKey
  opposed := Scalar.opposed f.x f.y || Scalar.opposed (f.x + f.y) f.width ||
    Scalar.opposed (f.x + f.y + f.width) f.height

/-- The frame in fractions of a canvas. -/
def normalize (f : PixelFrame α) (width height : α) : NormalizedFrame α :=
  ⟨f.x / width, f.y / height, f.width / width, f.height / height⟩

/-- The frame in pixels of a canvas. -/
def toPixel (f : NormalizedFrame α) (width height : α) : PixelFrame α :=
  ⟨f.x * width, f.y * height, f.width * width, f.height * height⟩

/-- The corner lies in `[0, 1)` and the size in `(0, 1]` on both axes. -/
def isWithinUnit (f : NormalizedFrame α) : Bool :=
  let zero : α := Scalar.ofNat 0
  let one : α := Scalar.ofNat 1
  Scalar.le zero f.x && Scalar.lt f.x one && Scalar.le zero f.y && Scalar.lt f.y one &&
    Scalar.lt zero f.width && Scalar.le f.width one &&
    Scalar.lt zero f.height && Scalar.le f.height one

/-- The frame agrees with another within the tolerance. -/
def close (f g : PixelFrame α) : Bool :=
  Scalar.close f.x g.x && Scalar.close f.y g.y && Scalar.close f.width g.width &&
    Scalar.close f.height g.height

/-- The frame's structure as text. -/
def describe (f : Frame s Float) : String :=
  let n := Decimal.Style.structural.show
  "Rect \x7b x: " ++ n f.x ++ ", y: " ++ n f.y ++ ", width: " ++ n f.width ++
    ", height: " ++ n f.height ++ " \x7d"

end Frame

namespace Point

/-- Both components are finite. -/
def isFinite (p : Point s α) : Bool := Scalar.isFinite p.x && Scalar.isFinite p.y

/-- The point in fractions of a canvas. -/
def normalize (p : Point .pixel α) (width height : α) : Point .normalized α :=
  ⟨p.x / width, p.y / height⟩

/-- The point's structure as text. -/
def describe (p : Point s Float) : String :=
  let n := Decimal.Style.structural.show
  "Coord \x7b x: " ++ n p.x ++ ", y: " ++ n p.y ++ " \x7d"

end Point

end CanvasLayout
