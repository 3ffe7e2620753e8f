import CanvasLayout.Json.Value
import CanvasLayout.Placement

/-!
# Issues

What can be wrong with a screen, as causes: which rule is broken, by which layer or anchor,
and by which values. An error keeps a screen from being used, a warning does not.
-/

namespace CanvasLayout

/-- Something wrong with a screen, over the numbers of its frames. -/
inductive Issue (α : Type) where
  /-- The canvas has no area. -/
  | emptyCanvas (width height : UInt32)
  /-- A layer has the name of an earlier one. -/
  | duplicateId (id : String) (first : Nat)
  /-- An anchor has a name that no layer has. -/
  | unknownReference (id : String) (axis : Axis) (reference : String)
  /-- An anchor refers to a layer that does not come before its own. -/
  | forwardReference (id : String) (axis : Axis) (reference : String) (position index : Nat)
  /-- The distance of an anchor is negative or not finite. -/
  | invalidDistance (id : String) (axis : Axis) (distance : α)
  /-- The direction of an anchor is that of the other axis. -/
  | wrongDirection (id : String) (axis : Axis) (direction : Direction)
  /-- A frame has a component that is not finite. -/
  | notFinite (id : String) (frame : NormalizedFrame α) (pixelFrame : PixelFrame α)
  /-- The frame in fractions of the canvas lies outside of it. -/
  | outsideUnit (id : String) (frame : NormalizedFrame α)
  /-- The frame in pixels lies outside of the canvas. -/
  | outsideCanvas (id : String) (pixelFrame : PixelFrame α) (width height : UInt32)
  /-- The two frames of a layer do not agree. -/
  | frameMismatch (id : String)

/-- The kinds of issues. -/
inductive IssueCode where
  | emptyCanvas
  | duplicateId
  | unknownReference
  | forwardReference
  | invalidDistance
  | wrongDirection
  | notFinite
  | outsideUnit
  | outsideCanvas
  | frameMismatch
  deriving DecidableEq, Repr

/-- How much an issue matters. -/
inductive Severity where
  | warning
  | error
  deriving DecidableEq, Repr

/-- Where an issue is. -/
inductive IssueContext where
  | canvas
  | layer (id : String)
  | anchor (id : String) (axis : Axis)
  deriving DecidableEq, Repr

namespace IssueCode

/-- All kinds of issues in the order in which they are listed. -/
def all : List IssueCode :=
  [emptyCanvas, duplicateId, unknownReference, forwardReference, invalidDistance, wrongDirection,
    notFinite, outsideUnit, outsideCanvas, frameMismatch]

/-- The name of a kind of issue. -/
def name : IssueCode → String
  | emptyCanvas => "InvalidCanvasDimensions"
  | duplicateId => "DuplicateLayerId"
  | unknownReference => "UnknownAnchorRef"
  | forwardReference => "ForwardAnchorRef"
  | invalidDistance => "InvalidAnchorDistance"
  | wrongDirection => "WrongAnchorAxis"
  | notFinite => "FrameNotFinite"
  | outsideUnit => "FrameOutOfUnit"
  | outsideCanvas => "LayerOutOfCanvas"
  | frameMismatch => "FrameMismatch"

/-- How much a kind of issue matters. -/
def severity : IssueCode → Severity
  | outsideUnit | outsideCanvas | frameMismatch => .warning
  | _ => .error

end IssueCode

namespace Severity

/-- The severity's name. -/
def name : Severity → String
  | warning => "Warning"
  | error => "Error"

/-- The severity as it stands in a report, five characters wide. -/
def label : Severity → String
  | warning => "WARN "
  | error => "ERROR"

end Severity

namespace IssueContext

/-- The place in words. -/
def describe : IssueContext → String
  | canvas => "canvas"
  | layer id => "layer '" ++ id ++ "'"
  | anchor id axis => axis.name ++ " anchor of '" ++ id ++ "'"

/-- The place as a JSON value. -/
def json : IssueContext → Json
  | canvas => .object [("kind", .string "canvas")]
  | layer id => .object [("id", .string id), ("kind", .string "layer")]
  | anchor id axis =>
    .object [("axis", .string axis.name), ("id", .string id), ("kind", .string "anchor")]

end IssueContext

namespace Issue

variable {α : Type}

/-- The kind of an issue. -/
def code : Issue α → IssueCode
  | emptyCanvas .. => .emptyCanvas
  | duplicateId .. => .duplicateId
  | unknownReference .. => .unknownReference
  | forwardReference .. => .forwardReference
  | invalidDistance .. => .invalidDistance
  | wrongDirection .. => .wrongDirection
  | notFinite .. => .notFinite
  | outsideUnit .. => .outsideUnit
  | outsideCanvas .. => .outsideCanvas
  | frameMismatch .. => .frameMismatch

/-- How much an issue matters. -/
def severity (i : Issue α) : Severity := i.code.severity

/-- Where an issue is. -/
def context : Issue α → IssueContext
  | emptyCanvas .. => .canvas
  | duplicateId id _ => .layer id
  | unknownReference id axis _ => .anchor id axis
  | forwardReference id axis .. => .anchor id axis
  | invalidDistance id axis _ => .anchor id axis
  | wrongDirection id axis _ => .anchor id axis
  | notFinite id .. => .layer id
  | outsideUnit id _ => .layer id
  | outsideCanvas id .. => .layer id
  | frameMismatch id => .layer id

/-- The components of a frame between commas. -/
def components {s : Space} (number : Float → String) (f : Frame s Float) : String :=
  ", ".intercalate [number f.x, number f.y, number f.width, number f.height]

/-- The issue in words. -/
def message : Issue Float → String
  | emptyCanvas width height => s!"Invalid dimensions {width}x{height} (must be positive)"
  | duplicateId _ first => s!"Duplicate layer id (first seen at index {first})"
  | unknownReference _ _ reference => s!"References unknown layer '{reference}'"
  | forwardReference _ _ reference position index =>
    s!"References '{reference}' at index {position}, which is not before index {index}"
  | invalidDistance _ _ distance =>
    "Distance " ++ Decimal.Style.plain.show distance ++ " (must be finite and non-negative)"
  | wrongDirection _ axis direction =>
    "Direction '" ++ direction.name ++ "' on the " ++ axis.name ++ " axis"
  | notFinite _ frame pixelFrame =>
    "Frame has non-finite components: normalized " ++ frame.describe ++ ", pixel " ++
      pixelFrame.describe
  | outsideUnit _ frame =>
    "Normalized frame (" ++ components (Decimal.fixed 4) frame ++ ") is outside the unit square"
  | outsideCanvas _ pixelFrame width height =>
    "Frame (" ++ components Decimal.Style.plain.show pixelFrame ++
      s!") extends outside the {width}x{height} canvas"
  | frameMismatch _ => "Normalized frame does not match the pixel frame"

/-- The issue as a line of a report. -/
def describe (i : Issue Float) : String :=
  "[" ++ i.severity.label ++ "] " ++ i.code.name ++ " in " ++ i.context.describe ++ ": " ++ i.message

/-- The issue as a JSON value. -/
def json (i : Issue Float) : Json :=
  .object
    [("code", .string i.code.name), ("context", i.context.json), ("message", .string i.message),
      ("severity", .string i.severity.name)]

end Issue

end CanvasLayout
