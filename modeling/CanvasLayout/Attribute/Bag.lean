import CanvasLayout.Attribute.Key
import CanvasLayout.Color
import CanvasLayout.Decimal.Style
import CanvasLayout.NameMap
import CanvasLayout.Text.Quoted

/-!
# Attribute bags

The attributes of a node by name. They start out as raw text from a document; resolution
turns the recognized ones into typed values. A recognized attribute is looked up under its
canonical name and then under its other spellings.
-/

namespace CanvasLayout

/-- The value of an attribute. -/
inductive AttributeValue where
  /-- Text straight from a document, not converted yet. -/
  | raw (s : String)
  /-- Explicitly absent. -/
  | null
  | color (c : Rgb)
  | number (x : Float)
  | text (s : String)
  deriving DecidableEq

namespace AttributeValue

/-- The text of a value that has not been converted yet. -/
def raw? : AttributeValue → Option String
  | raw s => some s
  | _ => none

/-- The color, if the value is one. -/
def color? : AttributeValue → Option Rgb
  | color c => some c
  | _ => none

/-- The number, if the value is one. -/
def number? : AttributeValue → Option Float
  | number x => some x
  | _ => none

/-- The converted text, if the value is one. -/
def text? : AttributeValue → Option String
  | text s => some s
  | _ => none

/-- The value's structure as text. -/
def describe : AttributeValue → String
  | raw s => s!"Raw({Text.quoted s})"
  | null => "Null"
  | color c => s!"Color({c.describe})"
  | number x => s!"Number({Decimal.Style.structural.show x})"
  | text s => s!"Text({Text.quoted s})"

end AttributeValue

/-- Attributes by name. -/
abbrev Bag := NameMap AttributeValue

namespace Bag

/-- The raw text under a name without white space around it; absent when the name is missing
or its value is already converted. -/
def rawText? (b : Bag) (name : String) : Option String :=
  ((b.get? name).bind AttributeValue.raw?).map Text.trim

/-- The value of a recognized attribute under the first of its spellings that has one. -/
def find? (b : Bag) (k : AttributeKey) : Option AttributeValue :=
  k.spellings.findSome? (b.get? ·)

/-- The attributes that a document lists, the last one of a name counting. -/
def ofRaw (attributes : List (String × String)) : Bag :=
  NameMap.ofList (attributes.map fun (name, s) => (name, .raw s))

end Bag

end CanvasLayout
