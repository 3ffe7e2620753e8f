import CanvasLayout.Interchange.Content
import CanvasLayout.Json.Printer
import CanvasLayout.Json.Reader

/-!
# Screens as text

Writing a screen in the interchange format and reading one back.
-/

namespace CanvasLayout

open Json (Form Fault Raw RawText)

namespace Element

/-- The element as a JSON value. -/
def json (e : Element) : Json := Form.write Interchange.fields (.record .element) e.datum

/-- The element that a JSON text holds. -/
def read (r : Raw) : Except Fault Element := do
  Json.orMismatch (ofDatum? (← Form.read Interchange.fields 0 (.record .element) r))

end Element

/-- The style as a JSON value. -/
def Style.json (s : Style) : Json := Form.write Interchange.fields (.record .style) s.datum

/-- The canvas as a JSON value. -/
def Canvas.json (c : Canvas) : Json := Form.write Interchange.fields (.record .canvas) c.datum

namespace Screen

/-- The screen as a JSON value. -/
def json (s : Screen) : Json := Form.write Interchange.fields (.record .screen) s.datum

/-- The screen as a text of indented lines. -/
def text (s : Screen) : String := s.json.pretty

/-- The screen that a JSON text holds. -/
def read (t : RawText) : Except Fault Screen :=
  t.read fun r => do
    Json.orMismatch (ofDatum? (← Form.read Interchange.fields 0 (.record .screen) r))

/-- The screen that a text holds. -/
def ofText (s : String) : Except Fault Screen := read (RawText.ofString s)

/-- The screen that bytes hold. -/
def ofBytes (bytes : List UInt8) : Except Fault Screen := read (RawText.ofBytes bytes)

end Screen

end CanvasLayout
