import CanvasLayout.Text.Blank
import CanvasLayout.Text.Ascii

/-!
# Text alignment

The five alignments of a text and the words for them, those of style sheets as well as
those of text anchors.
-/

namespace CanvasLayout

/-- How a text is aligned. -/
inductive Alignment where
  | left
  | center
  | right
  | justified
  | natural
  deriving DecidableEq, Repr

namespace Alignment

/-- The alignment that a word names, ignoring case and white space around it. -/
def parse? (s : String) : Option Alignment :=
  match Text.lowercase (Text.trim s) with
  | "left" | "start" => some left
  | "center" | "middle" => some center
  | "right" | "end" => some right
  | "justify" | "justified" => some justified
  | "natural" => some natural
  | _ => none

/-- The alignment's name. -/
def name : Alignment → String
  | left => "left"
  | center => "center"
  | right => "right"
  | justified => "justified"
  | natural => "natural"

/-- All alignments. -/
def all : List Alignment := [left, center, right, justified, natural]

theorem parse?_name (a : Alignment) : parse? a.name = some a := by
  cases a <;> decide +kernel

end Alignment

end CanvasLayout
