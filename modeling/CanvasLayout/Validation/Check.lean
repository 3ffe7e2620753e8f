import CanvasLayout.Screen
import CanvasLayout.Validation.Issue

/-!
# Checking a screen

All that is wrong with a screen, in a fixed order: the canvas, repeated names, and then for
each layer its two anchors and its frames. A name stands for the first layer that has it.
-/

namespace CanvasLayout.Validation

variable {α γ : Type} [Scalar α]

/-- The canvas has an area. -/
def hasArea (c : Canvas) : Bool := c.width != 0 && c.height != 0

/-- What is wrong with the canvas. -/
def canvasIssues (c : Canvas) : List (Issue α) :=
  if hasArea c then [] else [.emptyCanvas c.width c.height]

/-- The place of the first layer with a name. -/
def position? (layers : List (Placed α γ)) (id : String) : Option Nat :=
  layers.findIdx? fun p => p.id = id

/-- Whether the name of the layer at `index` is repeated. -/
def nameIssues (layers : List (Placed α γ)) (index : Nat) (p : Placed α γ) : List (Issue α) :=
  match position? layers p.id with
  | some first => if first < index then [.duplicateId p.id first] else []
  | none => []

/-- What is wrong with the reference of an anchor of the layer at `index`. -/
def referenceIssues (layers : List (Placed α γ)) (index : Nat) (id : String) (axis : Axis) :
    Option String → List (Issue α)
  | none => []
  | some reference =>
    match position? layers reference with
    | none => [.unknownReference id axis reference]
    | some position =>
      if index ≤ position then [.forwardReference id axis reference position index] else []

/-- What is wrong with the anchor of the layer at `index` along an axis. -/
def anchorIssues (layers : List (Placed α γ)) (index : Nat) (p : Placed α γ) (axis : Axis) :
    List (Issue α) :=
  let a := p.anchor axis
  (if a.direction = axis.direction then [] else [.wrongDirection p.id axis a.direction]) ++
    (if Scalar.isFinite a.distance && !Scalar.negative a.distance then []
      else [.invalidDistance p.id axis a.distance]) ++
    referenceIssues layers index p.id axis a.reference

/-- A frame in pixels lies on the canvas. -/
def isOnCanvas (c : Canvas) (f : PixelFrame α) : Bool :=
  let size : Extent α := c.extent
  !(Scalar.negative f.x || Scalar.negative f.y || Scalar.lt size.width f.right ||
    Scalar.lt size.height f.bottom)

/-- The two frames of a layer agree. -/
def framesAgree (c : Canvas) (p : Placed α γ) : Bool :=
  let size : Extent α := c.extent
  (p.frame.toPixel size.width size.height).close p.pixelFrame

/-- What is wrong with the frames of a layer. -/
def frameIssues (c : Canvas) (p : Placed α γ) : List (Issue α) :=
  if !(p.frame.isFinite && p.pixelFrame.isFinite) then [.notFinite p.id p.frame p.pixelFrame]
  else
    (if p.frame.isWithinUnit then [] else [.outsideUnit p.id p.frame]) ++
      if hasArea c then
        (if isOnCanvas c p.pixelFrame then []
          else [.outsideCanvas p.id p.pixelFrame c.width c.height]) ++
          if framesAgree c p then [] else [.frameMismatch p.id]
      else []

/-- What is wrong with the layer at `index`, repeated names aside. -/
def layerIssues (c : Canvas) (layers : List (Placed α γ)) (index : Nat) (p : Placed α γ) :
    List (Issue α) :=
  anchorIssues layers index p .vertical ++ anchorIssues layers index p .horizontal ++ frameIssues c p

/-- All that is wrong with layers on a canvas. -/
def issues (c : Canvas) (layers : List (Placed α γ)) : List (Issue α) :=
  canvasIssues c ++
    (layers.zipIdx.flatMap fun (p, index) => nameIssues layers index p) ++
    layers.zipIdx.flatMap fun (p, index) => layerIssues c layers index p

end CanvasLayout.Validation
