import CanvasLayout.Xml.CharData

/-!
# Tags and text

A document as the sequence of its tags, pieces of character data and remarks. A lexer either
takes something from the start of the text or fails; it never looks back, and it counts the
bytes it has passed so that tags know where they stand.
-/

namespace CanvasLayout.Xml

/-- What is left of a text, and how many bytes of it are passed. -/
structure Cursor where
  rest : List Char
  offset : Nat

/-- Takes something from the start of a text, or fails. -/
abbrev Lexer := StateT Cursor Option

/-- An attribute as written, its value decoded. -/
structure Attribute where
  name : QName
  value : String
  deriving DecidableEq, Repr

/-- A start tag as written. -/
structure StartTag where
  name : QName
  attributes : List Attribute
  /-- The byte at which the tag starts. -/
  offset : Nat
  /-- The tag ends its element too. -/
  empty : Bool
  deriving DecidableEq, Repr

/-- A piece of a document. -/
inductive Token where
  | start (tag : StartTag)
  | finish (name : QName)
  /-- Character data as written. -/
  | text (cs : List Char)
  /-- Character data in which nothing is replaced. -/
  | literal (cs : List Char)
  /-- A comment or a processing instruction. -/
  | remark
  deriving DecidableEq, Repr

namespace Lexer

/-- The number of bytes of characters. -/
def byteCount (cs : List Char) : Nat := (String.ofList cs).utf8ByteSize

/-- The text starts with `word`. -/
def sees (word : List Char) : Lexer Bool := do return word.isPrefixOf (← get).rest

/-- Takes `word`. -/
def word (word : List Char) : Lexer Unit := fun c =>
  if word.isPrefixOf c.rest then
    some ((), ⟨c.rest.drop word.length, c.offset + byteCount word⟩)
  else none

/-- Takes the longest run of characters satisfying `p`. -/
def run (p : Char → Bool) : Lexer (List Char) := fun c =>
  let taken := c.rest.takeWhile p
  some (taken, ⟨c.rest.dropWhile p, c.offset + byteCount taken⟩)

/-- What stands before the first `stop`. -/
def before (stop : List Char) : List Char → Option (List Char)
  | [] => none
  | c :: cs =>
    if stop.isPrefixOf (c :: cs) then some []
    else if isAllowed c then (before stop cs).map (c :: ·)
    else none

/-- Takes what stands before the first `stop`, and `stop`. -/
def through (stop : List Char) : Lexer (List Char) := do
  let taken ← (before stop (← get).rest : Option (List Char))
  word (taken ++ stop)
  return taken

/-- Takes white space. -/
def space : Lexer (List Char) := run isSpace

/-- Takes white space, at least one character. -/
def someSpace : Lexer Unit := do guard !(← space).isEmpty

/-- Takes a qualified name. -/
def qname : Lexer QName := do QName.ofChars? (← run isNameChar)

/-- Takes an attribute, its value as written. -/
def rawAttribute : Lexer (QName × List Char) := do
  let name ← qname
  let _ ← space
  word ['=']
  let _ ← space
  let quote := if ← sees ['\''] then '\'' else '"'
  word [quote]
  let value ← run fun c => c != quote && c != '<'
  guard (value.all isAllowed)
  word [quote]
  return (name, value)

/-- Takes an attribute. -/
def decodedAttribute : Lexer Attribute := do
  let (name, value) ← rawAttribute
  return ⟨name, ← attributeValue? value⟩

/-- Takes the attributes of a tag and its end, with `fuel` attributes to take. -/
def attributes : Nat → Lexer (List Attribute × Bool)
  | 0 => failure
  | fuel + 1 => do
    let gap ← space
    if ← sees ['>'] then
      word ['>']
      return ([], false)
    else if ← sees ['/'] then
      word ['/', '>']
      return ([], true)
    else
      guard !gap.isEmpty
      let a ← decodedAttribute
      let (as, empty) ← attributes fuel
      return (a :: as, empty)

/-- Takes a start tag. -/
def startTag : Lexer Token := do
  let here := (← get).offset
  word ['<']
  let name ← qname
  let (as, empty) ← attributes ((← get).rest.length + 1)
  return .start ⟨name, as, here, empty⟩

/-- Takes an end tag. -/
def endTag : Lexer Token := do
  word ['<', '/']
  let name ← qname
  let _ ← space
  word ['>']
  return .finish name

/-- Takes a comment, in which two hyphens stand only at its end. -/
def comment : Lexer Token := do
  word ['<', '!', '-', '-']
  let taken ← through ['-', '-', '>']
  guard !(Text.occursIn ['-', '-'] taken || ['-'].isSuffixOf taken)
  return .remark

/-- Takes a processing instruction. A declaration is none. -/
def instruction : Lexer Token := do
  guard !(← sees "<?xml ".toList)
  word ['<', '?']
  let target ← run isNameChar
  guard (target.head?.any isNameStart)
  let _ ← space
  let _ ← through ['?', '>']
  return .remark

/-- Takes a section in which nothing is replaced. -/
def literal : Lexer Token := do
  word "<![CDATA[".toList
  return .literal (← through [']', ']', '>'])

/-- Takes character data. -/
def text : Lexer Token := do
  let taken ← run (· != '<')
  guard (taken.all isAllowed && !Text.occursIn [']', ']', '>'] taken)
  return .text taken

/-- Takes one piece of a document. -/
def token : Lexer Token := do
  if ← sees "<!--".toList then comment
  else if ← sees "<![CDATA[".toList then literal
  else if ← sees ['<', '?'] then instruction
  else if ← sees ['<', '/'] then endTag
  else if ← sees ['<'] then startTag
  else text

/-- Takes all pieces of a document, with `fuel` of them to take. -/
def tokens : Nat → Lexer (List Token)
  | 0 => return []
  | fuel + 1 => do
    if (← get).rest.isEmpty then return []
    else
      let t ← token
      return t :: (← tokens fuel)

/-- Takes white space, unless the end of a declaration is due. -/
def declarationGap : Lexer Unit := do
  if ← sees ['?', '>'] then return () else someSpace

/-- Takes an attribute of a declaration whose name starts with `name`, if there is one. -/
def declared (name : String) : Lexer Bool := do
  if ← sees name.toList then
    let _ ← rawAttribute
    return true
  else return false

/-- Takes the declaration of a document, if it has one. -/
def declaration : Lexer Unit := do
  if ← sees "<?xml ".toList then
    word "<?xml".toList
    someSpace
    guard (← declared "version")
    declarationGap
    if ← declared "encoding" then declarationGap
    let _ ← declared "standalone"
    let _ ← space
    word ['?', '>']

/-- Takes the mark of the byte order, if there is one. -/
def byteOrderMark : Lexer Unit := do
  if ← sees ['\ufeff'] then word ['\ufeff']

/-- Takes a whole document. -/
def document : Lexer (List Token) := do
  byteOrderMark
  declaration
  tokens ((← get).rest.length + 1)

end Lexer

/-- The pieces of a document, if it is well formed piece by piece. -/
def tokens? (s : String) : Option (List Token) :=
  (StateT.run Lexer.document ⟨s.toList, 0⟩).map Prod.fst

end CanvasLayout.Xml
