/-!
# Recognized attributes

The twelve attributes that have a meaning for layout, each with its canonical name, the
other spellings found in drawings and override documents, and the kind of value it takes.
-/

namespace CanvasLayout

/-- An attribute with a meaning for layout. -/
inductive AttributeKey where
  | fill
  | fillOpacity
  | opacity
  | strokeColor
  | strokeWidth
  | fontFamily
  | fontSize
  | textAlign
  | borderRadius
  | textColor
  | titleColor
  | placeholder
  deriving DecidableEq, Repr

/-- What the text of an attribute is converted to. -/
inductive ValueKind where
  | color
  | number
  | text
  deriving DecidableEq, Repr

namespace AttributeKey

/-- The recognized attributes in the order in which they are resolved. -/
def all : List AttributeKey :=
  [fill, fillOpacity, opacity, strokeColor, strokeWidth, fontFamily, fontSize, textAlign,
    borderRadius, textColor, titleColor, placeholder]

/-- The canonical name, under which resolved values are kept. -/
def name : AttributeKey → String
  | fill => "fill"
  | fillOpacity => "fill-opacity"
  | opacity => "opacity"
  | strokeColor => "stroke-color"
  | strokeWidth => "stroke-width"
  | fontFamily => "font-family"
  | fontSize => "font-size"
  | textAlign => "text-align"
  | borderRadius => "border-radius"
  | textColor => "text-color"
  | titleColor => "title-color"
  | placeholder => "placeholder"

/-- The other spellings, the preferred one first. -/
def aliases : AttributeKey → List String
  | strokeColor => ["stroke"]
  | textAlign => ["text_align", "text-anchor"]
  | borderRadius => ["rx"]
  | _ => []

/-- All spellings, the preferred one first. -/
def spellings (k : AttributeKey) : List String := k.name :: k.aliases

/-- The kind of value the attribute takes. -/
def kind : AttributeKey → ValueKind
  | fill | strokeColor | textColor | titleColor => .color
  | fillOpacity | opacity | strokeWidth | fontSize | borderRadius => .number
  | fontFamily | textAlign | placeholder => .text

theorem mem_all (k : AttributeKey) : k ∈ all := by cases k <;> decide

theorem name_injective {j k : AttributeKey} (h : j.name = k.name) : j = k := by
  cases j <;> cases k <;> first | rfl | exact absurd h (by decide)

end AttributeKey

end CanvasLayout
