import CanvasLayout.Frame

/-!
# Adjacent frames

When one frame can hang off another. Below (`up`) or to the right (`left`) of a frame means
that it ends before the other starts on that axis and that the two share a stretch of
positive length on the other axis; the gap is the distance between the facing edges.
-/

namespace CanvasLayout

/-- A canvas axis. -/
inductive Axis where
  | horizontal
  | vertical
  deriving DecidableEq, Repr

/-- Which edge of an element an anchor holds. -/
inductive Direction where
  | up
  | left
  deriving DecidableEq, Repr

namespace Direction

/-- All directions. -/
def all : List Direction := [up, left]

/-- The direction's name. -/
def name : Direction → String
  | up => "up"
  | left => "left"

/-- The axis along which the distance to the reference is measured. -/
def axis : Direction → Axis
  | up => .vertical
  | left => .horizontal

end Direction

variable {s : Space} {α : Type} [Scalar α]

namespace Axis

/-- The axis's name. -/
def name : Axis → String
  | horizontal => "horizontal"
  | vertical => "vertical"

/-- The other axis. -/
def other : Axis → Axis
  | horizontal => vertical
  | vertical => horizontal

/-- The direction of anchors along the axis. -/
def direction : Axis → Direction
  | horizontal => .left
  | vertical => .up

end Axis

namespace Frame

/-- Where the frame starts along an axis. -/
def start (f : Frame s α) : Axis → α
  | .horizontal => f.x
  | .vertical => f.y

/-- How long the frame is along an axis. -/
def extent (f : Frame s α) : Axis → α
  | .horizontal => f.width
  | .vertical => f.height

/-- Where the frame ends along an axis. -/
def finish (f : Frame s α) (a : Axis) : α := f.start a + f.extent a

/-- The projections of two frames onto an axis share a stretch of positive length. -/
def overlaps (f g : Frame s α) (a : Axis) : Bool :=
  Scalar.lt (Scalar.max (f.start a) (g.start a)) (Scalar.min (f.finish a) (g.finish a))

/-- The signed distance from the end of `f` to the start of `g` along an axis. -/
def spacing (f g : Frame s α) (a : Axis) : α := g.start a - f.start a - f.extent a

/-- The distance from `f` to `g` when `g` can hang off `f`. -/
def gap (f g : PixelFrame α) (d : Direction) : Option α :=
  if Scalar.le (f.finish d.axis) (g.start d.axis) && f.overlaps g d.axis.other then
    some (f.spacing g d.axis)
  else none

theorem gap_eq_some_iff {f g : PixelFrame α} {d : Direction} {a : α} :
    f.gap g d = some a ↔
      (Scalar.le (f.finish d.axis) (g.start d.axis) = true ∧ f.overlaps g d.axis.other = true) ∧
        f.spacing g d.axis = a := by
  unfold gap
  split <;> simp_all

end Frame

end CanvasLayout
