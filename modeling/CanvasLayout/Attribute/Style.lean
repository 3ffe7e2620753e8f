import CanvasLayout.Alignment
import CanvasLayout.Attribute.Bag

/-!
# Style

The typed view of a resolved bag: one field for each attribute that reaches the layer, absent
where the bag holds an explicit null or a value that was never converted. Fill opacity has
no field, since resolution folds it into the opacity.
-/

namespace CanvasLayout

/-- The resolved style of a layer. -/
structure Style where
  fill : Option Rgb := none
  strokeColor : Option Rgb := none
  strokeWidth : Option Float := none
  opacity : Option Float := none
  fontFamily : Option String := none
  fontSize : Option Float := none
  textAlign : Option Alignment := none
  borderRadius : Option Float := none
  textColor : Option Rgb := none
  titleColor : Option Rgb := none
  placeholder : Option String := none
  deriving DecidableEq

namespace Style

/-- The style that a resolved bag holds. -/
def ofBag (b : Bag) : Style :=
  let color (k : AttributeKey) := (b.get? k.name).bind AttributeValue.color?
  let number (k : AttributeKey) := (b.get? k.name).bind AttributeValue.number?
  let text (k : AttributeKey) := (b.get? k.name).bind AttributeValue.text?
  { fill := color .fill
    strokeColor := color .strokeColor
    strokeWidth := number .strokeWidth
    opacity := number .opacity
    fontFamily := text .fontFamily
    fontSize := number .fontSize
    textAlign := (text .textAlign).bind Alignment.parse?
    borderRadius := number .borderRadius
    textColor := color .textColor
    titleColor := color .titleColor
    placeholder := text .placeholder }

end Style

end CanvasLayout
