import CanvasLayout.Text.CaseTable

/-!
# The case of a first letter

Type names derived from layer names start with a capital, field names with a small letter.
The change follows the full case mappings, so a first letter may become several.
-/

namespace CanvasLayout.Text

/-- The code point `n` becomes in the range, if it is one of those that move. -/
def CaseRange.move? (r : CaseRange) (n : Nat) : Option Nat :=
  if r.first ≤ n ∧ n ≤ r.last ∧ (n - r.first) % r.step = 0 then some (n + r.offset).toNat else none

/-- The other case of `c` as the two tables list it, or `c` itself. -/
def recase (ranges : List CaseRange) (sequences : List (Nat × List Nat)) (c : Char) : List Char :=
  match sequences.lookup c.toNat with
  | some ns => ns.map Char.ofNat
  | none => [((ranges.findSome? (·.move? c.toNat)).map Char.ofNat).getD c]

/-- The upper case form of a character. -/
def upper (c : Char) : List Char :=
  if c.toNat < 128 then [c.toUpper] else recase upperRanges upperSequences c

/-- The lower case form of a character. -/
def lower (c : Char) : List Char :=
  if c.toNat < 128 then [c.toLower] else recase lowerRanges lowerSequences c

/-- `s` with its first letter in upper case. -/
def upperFirst (s : String) : String :=
  match s.toList with
  | [] => ""
  | c :: cs => .ofList (upper c ++ cs)

/-- `s` with its first letter in lower case. -/
def lowerFirst (s : String) : String :=
  match s.toList with
  | [] => ""
  | c :: cs => .ofList (lower c ++ cs)

end CanvasLayout.Text
