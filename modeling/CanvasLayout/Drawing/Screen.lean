import CanvasLayout.Drawing.Canvas
import CanvasLayout.Drawing.Layers

/-!
# Screens from drawings

A drawing is an `svg` element with a page group that holds artboard groups. The elements of
one artboard, the first or the one asked for, are the layers of a screen; they inherit the
attributes of the artboard and, where it has none, of the page.
-/

namespace CanvasLayout.Drawing

open Xml (Node Tag)

/-- The groups among parts of a drawing, each with its content. -/
def groups (ns : List Node) : List (Tag × List Node) :=
  ns.filterMap fun
    | .element tag content => if tag.name = "g" then some (tag, content) else none
    | _ => none

/-- The root of a drawing and its content. -/
def root (path : String) (drawing : String) : Outcome (Tag × List Node) :=
  match Node.parse? drawing with
  | some (.element tag content) =>
    if tag.name = "svg" then .ok (tag, content) else .error (.canvas path .noRoot)
  | _ => .error (.canvas path .malformed)

/-- The page of a drawing: the first group of its root. -/
def page (path : String) (content : List Node) : Outcome (Tag × List Node) :=
  match (groups content).head? with
  | some page => .ok page
  | none => .error (.canvas path .noPage)

/-- The artboard of a page: its first group, or the first with the given id. -/
def artboard (path : String) (name : Option String) (content : List Node) :
    Outcome (Tag × List Node) :=
  match name with
  | none =>
    match (groups content).head? with
    | some artboard => .ok artboard
    | none => .error (.canvas path .noArtboard)
  | some name =>
    match (groups content).find? fun g => g.1.attribute? "id" = some name with
    | some artboard => .ok artboard
    | none => .error (.canvas path (.noArtboardNamed name))

/-- The attributes that the layers of an artboard inherit. -/
def inherited (artboard page : Tag) : Bag :=
  (Bag.ofRaw artboard.attributes).fillFrom (Bag.ofRaw page.attributes)

/-- The screen of a drawing that is found at a path. -/
def screen (path : String) (overrides : Overrides) (name : Option String) (drawing : String) :
    Logged Screen := do
  let (root, content) ← Logged.lift (root path drawing)
  let (page, content) ← Logged.lift (page path content)
  let (artboard, content) ← Logged.lift (artboard path name content)
  let canvas ← canvas root page artboard
  let elements ← layersIn overrides (inherited artboard page) content
  let screen := Screen.ofElements canvas elements
  Logged.notes screen.anchorLines
  return screen

/-- The screen of a drawing in bytes that is found at a path. -/
def screenOfBytes (path : String) (overrides : Overrides) (name : Option String)
    (bytes : List UInt8) : Logged Screen :=
  match Text.Utf8.decode bytes with
  | .ok drawing => screen path overrides name drawing
  | .error fault => .fail (.canvas path (.notUtf8 fault))

end CanvasLayout.Drawing
