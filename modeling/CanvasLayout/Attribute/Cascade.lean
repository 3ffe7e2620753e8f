import CanvasLayout.Attribute.Style
import CanvasLayout.Decimal.Numeral
import CanvasLayout.Logged

/-!
# The attribute cascade

A recognized attribute comes from the node itself, else from its parent, else from the
override entry under the node's name. Resolution converts the winning values and leaves
every recognized attribute present under its canonical name, as a typed value or as an
explicit null; so a resolved bag has nothing left to look up elsewhere. Last, fill opacity
is folded into the opacity.
-/

namespace CanvasLayout

/-- The paint that means no paint. -/
def noPaint : String := "none"

/-- The first family of a list of fonts, without the quotes around it. -/
def firstFont (s : String) : String :=
  let isQuote (c : Char) : Bool := c == '"' || c == '\''
  let first := Text.trimChars (s.toList.takeWhile (· != ','))
  .ofList (Text.trimChars (Text.dropEndWhile isQuote (first.dropWhile isQuote)))

namespace AttributeKey

/-- The value that raw text stands for. -/
def convertRaw (k : AttributeKey) (s : String) : Except ConversionFault AttributeValue :=
  let trimmed := Text.trim s
  match k.kind with
  | .color =>
    if Text.lowercase trimmed = noPaint then .ok .null
    else match Rgb.ofHex? trimmed with
      | some c => .ok (.color c)
      | none => .error .notColor
  | .number =>
    match Decimal.measure? trimmed with
    | some x => .ok (.number x)
    | none => .error .notNumber
  | .text =>
    match k with
    | .fontFamily => .ok (.text (firstFont trimmed))
    | .textAlign =>
      match Alignment.parse? trimmed with
      | some a => .ok (.text a.name)
      | none => .error .notAlignment
    | _ => .ok (.text s)

/-- The value of the attribute's kind that a value stands for. -/
def convert (k : AttributeKey) : AttributeValue → Except ConversionFault AttributeValue
  | .raw s => k.convertRaw s
  | .null => .ok .null
  | .color c => if k.kind = .color then .ok (.color c) else .error .wrongType
  | .number x => if k.kind = .number then .ok (.number x) else .error .wrongType
  | .text s => if k.kind = .text then .ok (.text s) else .error .wrongType

end AttributeKey

namespace Bag

/-- The value of a recognized attribute by precedence: own, parent, override entry, null. -/
def winner (own ancestor : Bag) (entry : Option Bag) (k : AttributeKey) : AttributeValue :=
  ((own.find? k).orElse fun _ => (ancestor.find? k).orElse fun _ => entry.bind (·.find? k)).getD
    .null

/-- The opacity of a layer from its fill opacity and its opacity. -/
def combinedOpacity : Option Float → Option Float → AttributeValue
  | some fill, some layer => .number (fill * layer)
  | some fill, none => .number fill
  | none, some layer => .number layer
  | none, none => .null

/-- The bag with its fill opacity folded into the opacity. -/
def foldOpacity (b : Bag) : Bag :=
  let number (k : AttributeKey) := (b.get? k.name).bind AttributeValue.number?
  (b.insert AttributeKey.opacity.name (combinedOpacity (number .fillOpacity) (number .opacity)))
    |>.insert AttributeKey.fillOpacity.name .null

/-- The converted winner of a recognized attribute of `element`. -/
def resolved (element : String) (own ancestor : Bag) (entry : Option Bag) (k : AttributeKey) :
    Outcome AttributeValue :=
  let value := own.winner ancestor entry k
  match k.convert value with
  | .ok v => .ok v
  | .error reason => .error (.conversion element k value reason)

/-- The bag of `element` with every recognized attribute resolved and all others as they were. -/
def resolve (element : String) (own ancestor : Bag) (entry : Option Bag) : Outcome Bag := do
  let values ← AttributeKey.all.mapM fun k =>
    return (k.name, ← own.resolved element ancestor entry k)
  return foldOpacity (values.foldl (fun b (name, v) => b.insert name v) own)

end Bag

end CanvasLayout
