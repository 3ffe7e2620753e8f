import CanvasLayout.Decimal.Numeral
import CanvasLayout.Screen
import CanvasLayout.Xml.Scope

/-!
# The canvas of a drawing

The root of a drawing gives the size of the canvas, in whole pixels with an optional unit,
and a style in which the background color is the first word that starts with a hash mark.
-/

namespace CanvasLayout.Drawing

open Xml (Tag)

/-- A positive number of pixels with white space and a unit of letters after it. -/
def dimension? (s : String) : Option UInt32 :=
  let digits := Text.trimChars (Text.dropEndWhile Char.isAlpha (Text.trimChars s.toList))
  ((Decimal.count? UInt32.size digits).filter (0 < ·)).map UInt32.ofNat

/-- The size of the canvas along one axis. -/
def dimension (root : Tag) (name : String) : Outcome UInt32 :=
  match root.attribute? name with
  | none => .error (.format (.missingDimension name))
  | some raw =>
    match dimension? raw with
    | some n => .ok n
    | none => .error (.format (.invalidDimension name raw))

/-- The first word of a style that starts with a hash mark, without semicolons at its end. -/
def colorWord? (style : String) : Option String :=
  let words := Text.pieces (fun c => Text.isBlank c || c == ':') style.toList
  (words.find? fun w => w.head? = some '#').map fun w =>
    .ofList (Text.dropEndWhile (· == ';') w)

/-- The background color; white without a style or without a color in it. -/
def background (root : Tag) : Logged Rgb :=
  match root.attribute? "style" with
  | none => do
    Logged.note .warn "canvas has no style attribute; using a white background"
    return .white
  | some style =>
    match colorWord? style with
    | none => do
      Logged.note .warn s!"canvas style '{style}' has no color; using a white background"
      return .white
    | some hex =>
      match Rgb.ofHex? hex with
      | some c => return c
      | none => .fail (.format (.invalidBackground hex))

/-- The canvas of a drawing with the given page and artboard. -/
def canvas (root page artboard : Tag) : Logged Canvas := do
  let width ← Logged.lift (dimension root "width")
  let height ← Logged.lift (dimension root "height")
  let background ← background root
  let page := (page.attribute? "id").getD ""
  let artboard := (artboard.attribute? "id").getD ""
  Logged.note .debug s!"canvas {width}x{height} page '{page}' artboard '{artboard}'"
  return ⟨width, height, background, page, artboard⟩

end CanvasLayout.Drawing
