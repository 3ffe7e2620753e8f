import CanvasLayout.Text.Ascii
import CanvasLayout.Text.Case

/-!
# What layer names tell

Designers mark a layer's part in its parent by words in its name. A name with `bound` in it
marks a rectangle that shows an extent; a name up to the word `cell` or `header` names the
type that cells or headers of one look share.
-/

namespace CanvasLayout.Layer

/-- The name marks a rectangle that shows an extent. -/
def isBoundName (id : String) : Bool := Text.mentions "bound" id

/-- The type name that a layer name gives: its beginning through `word`, or all of it when
the word does not occur, with a capital first letter. Neither is compared by case. -/
def derivedName (id word : String) : String :=
  let through := Text.throughFirst (Text.lowercase word).toList id.toList
  Text.upperFirst ((through.map String.ofList).getD id)

end CanvasLayout.Layer
