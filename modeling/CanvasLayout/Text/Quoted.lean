import CanvasLayout.Text.Ascii
import CanvasLayout.Text.VisibleTable

/-!
# Texts in quotes

How a text is shown inside a message: between double quotes, with controls, invisible
characters and characters that only extend their neighbour written as escapes.
-/

namespace CanvasLayout.Text

/-- `n` lies in one of the closed ranges. -/
def inRanges (ranges : Array (Nat × Nat)) (n : Nat) : Bool :=
  ranges.any fun (lo, hi) => lo ≤ n && n ≤ hi

/-- The character would be lost or misread if it were written as it is. -/
def needsEscape (c : Char) : Bool :=
  if c.toNat < 127 then c.toNat < 32
  else inRanges extendingRanges c.toNat || inRanges invisibleRanges c.toNat

/-- A character as it stands between double quotes. -/
def quoteChar (c : Char) : List Char :=
  match c with
  | '"' => ['\\', '"']
  | '\\' => ['\\', '\\']
  | '\t' => ['\\', 't']
  | '\r' => ['\\', 'r']
  | '\n' => ['\\', 'n']
  | '\x00' => ['\\', '0']
  | c => if needsEscape c then "\\u\x7b".toList ++ hexadecimal false 1 c.toNat ++ ['\x7d'] else [c]

/-- `s` between double quotes. -/
def quoted (s : String) : String :=
  .ofList ('"' :: s.toList.flatMap quoteChar ++ ['"'])

end CanvasLayout.Text
