import CanvasLayout.Decimal.Style
import CanvasLayout.Json.Value
import CanvasLayout.Text.Ascii

/-!
# Writing JSON

A value as text, on one line or spread over lines that are indented by two blanks per level.
Numbers that are not finite have no JSON form and are written as null.
-/

namespace CanvasLayout.Json

/-- A character inside a string. -/
def escape (c : Char) : List Char :=
  match c with
  | '"' => ['\\', '"']
  | '\\' => ['\\', '\\']
  | '\x08' => ['\\', 'b']
  | '\t' => ['\\', 't']
  | '\n' => ['\\', 'n']
  | '\x0c' => ['\\', 'f']
  | '\r' => ['\\', 'r']
  | c => if c.toNat < 32 then '\\' :: 'u' :: Text.hexadecimal false 4 c.toNat else [c]

/-- A string with its quotes. -/
def stringText (s : String) : List Char :=
  '"' :: s.toList.flatMap escape ++ ['"']

/-- A number with its fraction or exponent. -/
def floatText (x : Float) : List Char :=
  if x.isFinite then Decimal.Style.interchange.chars x else "null".toList

/-- How the parts of arrays and objects are set apart. -/
structure Spacing where
  /-- What stands in front of an item at a level. -/
  lead : Nat → List Char
  /-- What stands after a colon. -/
  afterColon : List Char

/-- Everything on one line. -/
def Spacing.tight : Spacing := ⟨fun _ => [], []⟩

/-- One item on each line. -/
def Spacing.wide : Spacing := ⟨fun level => '\n' :: List.replicate (2 * level) ' ', [' ']⟩

mutual

/-- The text of a value at a level, followed by `rest`. -/
def textThen (sp : Spacing) (level : Nat) (rest : List Char) : Json → List Char
  | null => "null".toList ++ rest
  | bool b => (if b then "true" else "false").toList ++ rest
  | int n => Decimal.integer n ++ rest
  | float x => floatText x ++ rest
  | string s => stringText s ++ rest
  | array [] => '[' :: ']' :: rest
  | array (x :: xs) =>
    '[' :: (sp.lead (level + 1) ++ textThen sp (level + 1)
      (itemsThen sp (level + 1) (sp.lead level ++ ']' :: rest) xs) x)
  | object [] => '\x7b' :: '\x7d' :: rest
  | object ((key, x) :: ms) =>
    '\x7b' :: (sp.lead (level + 1) ++ (stringText key ++ ':' :: (sp.afterColon ++
      textThen sp (level + 1)
        (membersThen sp (level + 1) (sp.lead level ++ '\x7d' :: rest) ms) x)))

/-- The text of the items after the first, followed by `rest`. -/
def itemsThen (sp : Spacing) (level : Nat) (rest : List Char) : List Json → List Char
  | [] => rest
  | x :: xs => ',' :: (sp.lead level ++ textThen sp level (itemsThen sp level rest xs) x)

/-- The text of the members after the first, followed by `rest`. -/
def membersThen (sp : Spacing) (level : Nat) (rest : List Char) : List (String × Json) → List Char
  | [] => rest
  | (key, x) :: ms =>
    ',' :: (sp.lead level ++ (stringText key ++ ':' :: (sp.afterColon ++
      textThen sp level (membersThen sp level rest ms) x)))

end

/-- The value on one line. -/
def compact (j : Json) : String := .ofList (j.textThen .tight 0 [])

/-- The value on indented lines. -/
def pretty (j : Json) : String := .ofList (j.textThen .wide 0 [])

end CanvasLayout.Json
