import CanvasLayout.Text.Ascii

/-!
# Characters and names of XML

Which characters a document may hold at all, which of them make up names, and how a name is
split at its colon into a qualifier and a local part.
-/

namespace CanvasLayout.Xml

/-- The white space of XML. -/
def isSpace (c : Char) : Bool := c == ' ' || c == '\t' || c == '\n' || c == '\r'

/-- The character may stand in a document. -/
def isAllowed (c : Char) : Bool :=
  if c.toNat < 0x20 then isSpace c else c.toNat != 0xFFFE && c.toNat != 0xFFFF

/-- The ranges of characters above ASCII that a name may start with. -/
def nameStartRanges : List (Nat × Nat) :=
  [(0xC0, 0xD6), (0xD8, 0xF6), (0xF8, 0x2FF), (0x370, 0x37D), (0x37F, 0x1FFF), (0x200C, 0x200D),
    (0x2070, 0x218F), (0x2C00, 0x2FEF), (0x3001, 0xD7FF), (0xF900, 0xFDCF), (0xFDF0, 0xFFFD),
    (0x10000, 0xEFFFF)]

/-- The character lies in one of the closed ranges. -/
def isIn (ranges : List (Nat × Nat)) (c : Char) : Bool :=
  ranges.any fun (lo, hi) => lo ≤ c.toNat && c.toNat ≤ hi

/-- A name may start with the character. -/
def isNameStart (c : Char) : Bool :=
  c.isAlpha || c == ':' || c == '_' || isIn nameStartRanges c

/-- The character may stand in a name. -/
def isNameChar (c : Char) : Bool :=
  isNameStart c || c.isDigit || c == '-' || c == '.' ||
    isIn [(0xB7, 0xB7), (0x300, 0x36F), (0x203F, 0x2040)] c

/-- A name and the qualifier before its colon, which is empty without one. -/
structure QName where
  qualifier : String
  name : String
  deriving DecidableEq, Repr

/-- The characters can stand on one side of the colon of a name. -/
def isNamePart (cs : List Char) : Bool := cs.head?.all isNameStart && !cs.contains ':'

/-- The qualified name that characters spell. -/
def QName.ofChars? (cs : List Char) : Option QName :=
  let (qualifier, name) := (Text.cutAt ':' cs).getD ([], cs)
  if isNamePart qualifier && isNamePart name && !name.isEmpty then
    some ⟨.ofList qualifier, .ofList name⟩
  else none

end CanvasLayout.Xml
