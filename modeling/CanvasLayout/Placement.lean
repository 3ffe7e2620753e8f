import CanvasLayout.Adjacency
import CanvasLayout.Text.Quoted

/-!
# Placement

Blocks are put in reading order and each is anchored once per axis, to an earlier block that
it can hang off or else to the edge of the canvas. One scan back over the placed blocks serves
both axes and stops once both are settled, so of several blocks the one latest in reading
order is taken, whether or not another lies closer. References therefore point backwards, and
frames and distances are written as fractions of the canvas.
-/

namespace CanvasLayout

/-- The size of a canvas. -/
structure Extent (α : Type) where
  width : α
  height : α

/-- The size along an axis. -/
def Extent.along {α : Type} (e : Extent α) : Axis → α
  | .horizontal => e.width
  | .vertical => e.height

/-- The distance of an element from an earlier one or, without a reference, from the edge of
the canvas, as a fraction of the canvas. -/
structure Anchor (α : Type) where
  direction : Direction
  reference : Option String
  distance : α

/-- Something to be placed: a name, a frame, and what the frame holds. -/
structure Block (α γ : Type) where
  id : String
  frame : PixelFrame α
  content : γ

/-- A block in its place. -/
structure Placed (α γ : Type) where
  id : String
  content : γ
  frame : NormalizedFrame α
  pixelFrame : PixelFrame α
  vertical : Anchor α
  horizontal : Anchor α

variable {α γ : Type}

namespace Placed

/-- The block that was placed. -/
def block (p : Placed α γ) : Block α γ := ⟨p.id, p.pixelFrame, p.content⟩

/-- The anchor along an axis. -/
def anchor (p : Placed α γ) : Axis → Anchor α
  | .horizontal => p.horizontal
  | .vertical => p.vertical

end Placed

/-- For each axis the name of something to hang off and its distance, once found. -/
structure Supports (α : Type) where
  vertical : Option (String × α) := none
  horizontal : Option (String × α) := none

namespace Supports

/-- What was found along an axis. -/
def along (s : Supports α) : Axis → Option (String × α)
  | .horizontal => s.horizontal
  | .vertical => s.vertical

/-- Something was found along both axes. -/
def isComplete (s : Supports α) : Bool := s.vertical.isSome && s.horizontal.isSome

end Supports

variable [Scalar α]

/-- The name of a placed block and its distance when a frame can hang off it. -/
def Placed.support? (p : Placed α γ) (f : PixelFrame α) (d : Direction) : Option (String × α) :=
  (p.pixelFrame.gap f d).map (p.id, ·)

namespace Supports

/-- What is known after one more candidate; what was found before it stays. -/
def consider (f : PixelFrame α) (s : Supports α) (p : Placed α γ) : Supports α where
  vertical := s.vertical.or (p.support? f .up)
  horizontal := s.horizontal.or (p.support? f .left)

/-- Considers candidates in order until something is found along both axes. -/
def scan (f : PixelFrame α) (s : Supports α) : List (Placed α γ) → Supports α
  | [] => s
  | p :: ps =>
    let next := s.consider f p
    if next.isComplete then next else scan f next ps

end Supports

namespace Block

/-- The order in which blocks are placed. -/
def reads (a b : Block α γ) : Bool := a.frame.readingKey.le b.frame.readingKey

/-- The anchor of a block along an axis, given what it can hang off there. -/
def anchor (canvas : Extent α) (b : Block α γ) (a : Axis) : Option (String × α) → Anchor α
  | some (id, distance) => ⟨a.direction, some id, distance / canvas.along a⟩
  | none => ⟨a.direction, none, b.frame.start a / canvas.along a⟩

/-- The block in its place after earlier ones, the latest of them coming first. -/
def place (canvas : Extent α) (earlier : List (Placed α γ)) (b : Block α γ) : Placed α γ :=
  let s := Supports.scan b.frame {} earlier
  { id := b.id
    content := b.content
    frame := b.frame.normalize canvas.width canvas.height
    pixelFrame := b.frame
    vertical := b.anchor canvas .vertical (s.along .vertical)
    horizontal := b.anchor canvas .horizontal (s.along .horizontal) }

/-- Blocks in reading order in their places after earlier ones. -/
def placeAfter (canvas : Extent α) (earlier : List (Placed α γ)) :
    List (Block α γ) → List (Placed α γ)
  | [] => []
  | b :: bs =>
    let p := b.place canvas earlier
    p :: placeAfter canvas (p :: earlier) bs

/-- Blocks put in reading order and in their places; blocks with equal keys keep their order. -/
def placeAll (canvas : Extent α) (bs : List (Block α γ)) : List (Placed α γ) :=
  placeAfter canvas [] (bs.mergeSort reads)

end Block

/-- An anchor as the log shows it. -/
def Anchor.describe (a : Anchor Float) : String :=
  let reference := match a.reference with
    | some id => "Some(" ++ Text.quoted id ++ ")"
    | none => "None"
  a.direction.name ++ " " ++ reference ++ " " ++ Decimal.fixed 4 a.distance

/-- A block's anchors as the log shows them. -/
def Placed.describe (p : Placed Float γ) : String :=
  s!"anchored '{p.id}': vertical " ++ p.vertical.describe ++ ", horizontal " ++
    p.horizontal.describe

end CanvasLayout
