import CanvasLayout.Inspection.Summary

/-!
# Summaries as text

A summary in three boxes: the canvas, a bar for each kind of layer that there is, and a
table of anchors. Lines are filled up to one width, longer ones are left as they are, and
names that are too long for their column end in an ellipsis.
-/

namespace CanvasLayout.Inspection

/-- The width of a box inside its borders. -/
def boxWidth : Nat := 59

/-- The width of a bar when none is asked for. -/
def defaultBarWidth : Nat := 16

/-- `n` times the same character. -/
def times (n : Nat) (c : Char) : String := .ofList (List.replicate n c)

/-- The text with blanks after it up to a width. -/
def padRight (width : Nat) (s : String) : String := s ++ times (width - s.length) ' '

/-- The text with blanks before it up to a width. -/
def padLeft (width : Nat) (s : String) : String := times (width - s.length) ' ' ++ s

/-- A line of a box. -/
def boxLine (s : String) : String := "│ " ++ padRight (boxWidth - 1) s ++ "│\n"

/-- A box of lines, with an empty one before and after them. -/
def box (title : String) (lines : List String) : String :=
  "┌─ " ++ title ++ " " ++ times (boxWidth - (title.length + 3)) '─' ++ "┐\n" ++
    String.join (([""] ++ lines ++ [""]).map boxLine) ++
    "└" ++ times boxWidth '─' ++ "┘\n"

/-- The text, if it has at most `n` characters, else its beginning and an ellipsis. -/
def truncate (n : Nat) (s : String) : String :=
  if s.length ≤ n then s else .ofList (s.toList.take (n - 1)) ++ "…"

/-- Digits with a comma between groups of three, from the last digit on. -/
def groupDigits : List Char → List Char
  | a :: b :: c :: d :: ds => a :: b :: c :: ',' :: groupDigits (d :: ds)
  | ds => ds

/-- A count with its digits in groups of three. -/
def countText (n : Nat) : String := .ofList (groupDigits (Decimal.digitsOf n).reverse).reverse

/-- A share in percent with one decimal place. -/
def percentText (part whole : Nat) : String :=
  if whole = 0 then "n/a"
  else Decimal.fixed 1 (Float.ofNat part / Float.ofNat whole * 100) ++ "%"

/-- A bar whose filled part shows `n` in proportion to `top`. -/
def bar (n top width : Nat) : String :=
  if top = 0 ∨ width = 0 then ""
  else
    let filled := min (n * width / top) width
    times filled '█' ++ times (width - filled) '░'

/-- An anchor in a column of the table. -/
def anchorText (a : AnchorEntry) : String :=
  (a.reference.map (truncate 10)).getD "edge" ++ " " ++ Decimal.fixed 4 a.distance

/-- The lines on the canvas. -/
def canvasLines (s : Summary) : List String :=
  ["  Page:          " ++ truncate 40 s.canvas.page,
    "  Artboard:      " ++ truncate 40 s.canvas.artboard,
    s!"  Size (px):     {s.canvas.width} x {s.canvas.height}",
    "  Background:    " ++ s.canvas.background.toHex,
    "",
    "  Layers:        " ++ padLeft 8 (countText s.layers),
    "  Elements:      " ++ padLeft 8 (countText s.elements)]

/-- The lines on the kinds of layers. -/
def kindLines (barWidth : Nat) (s : Summary) : List String :=
  let total := (s.kinds.map Prod.snd).foldl (· + ·) 0
  let top := (s.kinds.map Prod.snd).foldl max 0
  if total = 0 then ["  No layers found."]
  else (s.kinds.filter (0 < ·.2)).map fun (kind, n) =>
    "  " ++ padRight 22 kind.name ++ " " ++ padLeft 5 (countText n) ++ " " ++
      padLeft 6 (percentText n total) ++ "  " ++ bar n top barWidth

/-- A row of the table of anchors. -/
def row (layer vertical horizontal : String) : String :=
  "  " ++ padRight 17 layer ++ " " ++ padRight 18 vertical ++ " " ++ padRight 18 horizontal

/-- The lines on the anchors. -/
def anchorLines (s : Summary) : List String :=
  if s.entries.isEmpty then ["  No layers to anchor."]
  else row "layer" "vertical" "horizontal" :: s.entries.map fun e =>
    row (truncate 17 e.id) (anchorText e.vertical) (anchorText e.horizontal)

/-- The heading. -/
def heading : String :=
  "\n╭" ++ times 61 '─' ++ "╮\n│              🎨  Screen Inspection Report                   │\n╰" ++
    times 61 '─' ++ "╯\n\n"

end Inspection

/-- The summary as text, with bars of the given width. -/
def Summary.text (barWidth : Nat) (s : Summary) : String :=
  Inspection.heading ++ Inspection.box "Canvas" (Inspection.canvasLines s) ++ "\n" ++
    Inspection.box "Layer Kinds" (Inspection.kindLines barWidth s) ++ "\n" ++
    Inspection.box "Anchors" (Inspection.anchorLines s)

end CanvasLayout
