import CanvasLayout.Attribute.Bag
import CanvasLayout.Json.Fault
import CanvasLayout.Text.Utf8

/-!
# Failures

Everything that can end a parse, as causes: which rule was violated by which element and
which value. The wording is in the `message` functions alone. A failure is terminal, so
each value stands for the first violation that was met.
-/

namespace CanvasLayout

/-- Why a file cannot be used. -/
inductive FileFault where
  | notFound
  | isDirectory
  | notDirectory
  | notUtf8
  | other (reason : String)
  deriving DecidableEq, Repr

/-- Why a text is no canvas document. -/
inductive CanvasFault where
  | malformed
  | notUtf8 (fault : Text.Utf8.Fault)
  | noRoot
  | noPage
  | noArtboard
  | noArtboardNamed (name : String)
  deriving DecidableEq, Repr

/-- A malformed number, color, identity or suffix. -/
inductive FormatFault where
  | missingDimension (name : String)
  | invalidDimension (name raw : String)
  | invalidBackground (hex : String)
  | missingId (tag : String) (offset : Nat)
  | missingGeometry (layer name : String)
  | invalidGeometry (layer name raw : String)
  | unknownScrollSuffix (id suffix : String)
  deriving DecidableEq, Repr

/-- A violated rule on an element's kind or children. -/
inductive StructuralRule where
  | unrecognizedKind (kind : String)
  | tooManyLabels (count : Nat)
  | tooManyShapes (count : Nat)
  | noLabel
  | secondHeader
  | secondSectionBound
  | noCells
  | noSectionBound
  | secondListBound
  | noSections
  | repeatedBlock (id : String)
  | noOptions
  | noContent
  deriving DecidableEq, Repr

/-- Why an attribute value cannot be converted. -/
inductive ConversionFault where
  | wrongType
  | notColor
  | notNumber
  | notAlignment
  deriving DecidableEq, Repr

/-- What ended an operation. -/
inductive Failure where
  | file (fault : FileFault)
  | canvas (path : String) (fault : CanvasFault)
  | overrides (path : String) (fault : Json.Fault)
  | format (fault : FormatFault)
  | structural (element : String) (rule : StructuralRule)
  | conversion (element : String) (key : AttributeKey) (value : AttributeValue)
      (reason : ConversionFault)
  | screen (path : String) (fault : Json.Fault)
  | validation (errors warnings : Nat)
  | unsupportedFormat (name : String)
  deriving DecidableEq

/-- The fault in words. -/
def FileFault.message : FileFault → String
  | notFound => "No such file or directory (os error 2)"
  | isDirectory => "Is a directory (os error 21)"
  | notDirectory => "Not a directory (os error 20)"
  | notUtf8 => "stream did not contain valid UTF-8"
  | other reason => reason

/-- The fault in words. -/
def CanvasFault.message : CanvasFault → String
  | malformed => "not a well-formed document"
  | notUtf8 fault => "input is not valid UTF-8: " ++ fault.message
  | noRoot => "missing <svg> root element"
  | noPage => "missing page group under <svg>"
  | noArtboard => "missing artboard group under page"
  | noArtboardNamed name => "no artboard named '" ++ name ++ "'"

namespace FormatFault

/-- Where the fault is. -/
def context : FormatFault → String
  | missingDimension _ => "canvas"
  | invalidDimension _ _ => "canvas"
  | invalidBackground _ => "canvas background"
  | missingId tag offset => "<" ++ tag ++ s!"> at byte {offset}"
  | missingGeometry layer _ => "layer '" ++ layer ++ "'"
  | invalidGeometry layer _ _ => "layer '" ++ layer ++ "'"
  | unknownScrollSuffix id _ => "collection '" ++ id ++ "'"

/-- What the fault is. -/
def detail : FormatFault → String
  | missingDimension name => "missing " ++ name
  | invalidDimension name raw =>
    "invalid " ++ name ++ " '" ++ raw ++ "', expected a positive integer"
  | invalidBackground hex => "invalid color '" ++ hex ++ "'"
  | missingId _ _ => "layer has no id"
  | missingGeometry _ name => "missing " ++ name
  | invalidGeometry _ name raw => "invalid " ++ name ++ " '" ++ raw ++ "'"
  | unknownScrollSuffix _ suffix => "unknown scroll direction suffix ':" ++ suffix ++ "'"

end FormatFault

/-- The rule in words. -/
def StructuralRule.message : StructuralRule → String
  | unrecognizedKind kind => "unrecognized element kind '" ++ kind ++ "'"
  | tooManyLabels n => s!"button has {n} text labels, expected exactly one"
  | tooManyShapes n => s!"button has {n} shapes, expected at most one"
  | noLabel => "button has no text label"
  | secondHeader => "only one header allowed per section"
  | secondSectionBound => "only one bound allowed per section"
  | noCells => "section has no cells"
  | noSectionBound => "section has no bound"
  | secondListBound => "only one bound allowed per list"
  | noSections => "list has no sections"
  | repeatedBlock id => "slider has more than one '" ++ id ++ "' block"
  | noOptions => "slider has no options block"
  | noContent => "slider has no content block"

/-- What was expected instead. -/
def ConversionFault.message : ConversionFault → String
  | wrongType => "value has the wrong type"
  | notColor => "expected a #RRGGBB color"
  | notNumber => "expected a number"
  | notAlignment => "expected left, center, right, justified or natural"

/-- A value as it appears in a message: raw text as it is, other values by their structure. -/
def AttributeValue.inMessage (v : AttributeValue) : String :=
  v.raw?.getD v.describe

/-- The failure in words. What is wrong with a malformed document is not spelled out. -/
def Failure.message : Failure → String
  | file fault => "IO error: " ++ fault.message
  | canvas path .malformed => "Failed to parse canvas document " ++ path
  | canvas path fault => "Failed to parse canvas document " ++ path ++ ": " ++ fault.message
  | overrides path _ => "Failed to parse override document " ++ path
  | format fault => "Format error in " ++ fault.context ++ ": " ++ fault.detail
  | structural element rule => "Structural error in '" ++ element ++ "': " ++ rule.message
  | conversion element key value reason =>
    "Attribute error in '" ++ element ++ "': invalid " ++ key.name ++ " value '" ++
      value.inMessage ++ "': " ++ reason.message
  | screen path _ => "Failed to parse IR JSON from " ++ path
  | validation errors warnings =>
    s!"Validation failed with {errors} error(s) and {warnings} warning(s)"
  | unsupportedFormat name => "Unsupported format: '" ++ name ++ "' (supported: text, json)"

end CanvasLayout
