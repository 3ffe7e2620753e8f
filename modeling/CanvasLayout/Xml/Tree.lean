import CanvasLayout.Xml.Scope

/-!
# Document trees

The pieces of a document nested as their tags say. A document has one element outside of all
others and, around it, nothing but white space and remarks. Pieces of character data that
follow each other make one text; a remark or an element between them keeps them apart.
-/

namespace CanvasLayout.Xml

/-- A part of an element's content. -/
inductive Node where
  | element (tag : Tag) (children : List Node)
  | text (s : String)
  | remark

/-- An element whose end tag is still to come. -/
structure Unclosed where
  name : QName
  scope : Scope
  tag : Tag
  /-- The content so far, the last part first. -/
  content : List Node

/-- A document that is not read to its end: the element outside of all others, if it is
finished, and the elements that are not, the innermost first. -/
structure Nesting where
  root : Option Node := none
  stack : List Unclosed := []

/-- The content with a text at its end. -/
def addText (s : String) : List Node → List Node
  | .text t :: ns => .text (t ++ s) :: ns
  | ns => .text s :: ns

namespace Nesting

/-- The document with more content in its innermost element. -/
def extend (n : Nesting) (f : List Node → List Node) : Option Nesting :=
  match n.stack with
  | [] => none
  | u :: stack => some { n with stack := { u with content := f u.content } :: stack }

/-- The document with one more finished element. -/
def finish (n : Nesting) (e : Node) : Option Nesting :=
  match n.stack with
  | [] => if n.root.isSome then none else some { n with root := some e }
  | _ :: _ => n.extend (e :: ·)

/-- The document with one more piece. -/
def add (n : Nesting) : Token → Option Nesting
  | .start t => do
    guard !(n.stack.isEmpty && n.root.isSome)
    let (scope, tag) ← t.resolve? ((n.stack.head?.map Unclosed.scope).getD [])
    if t.empty then n.finish (.element tag [])
    else return { n with stack := ⟨t.name, scope, tag, []⟩ :: n.stack }
  | .finish name =>
    match n.stack with
    | [] => none
    | u :: stack =>
      if u.name = name then finish { n with stack } (.element u.tag u.content.reverse) else none
  | .text cs =>
    if n.stack.isEmpty then if cs.all isSpace then some n else none
    else do
      let s ← textValue? cs
      n.extend (addText s)
  | .literal cs => n.extend (addText (literalValue cs))
  | .remark => if n.stack.isEmpty then some n else n.extend (.remark :: ·)

end Nesting

namespace Node

/-- The element that the pieces of a document make. -/
def ofTokens? (ts : List Token) : Option Node := do
  let n ← ts.foldlM Nesting.add {}
  guard n.stack.isEmpty
  n.root

/-- The element outside of all others of a well-formed document. -/
def parse? (s : String) : Option Node := do ofTokens? (← tokens? s)

mutual

/-- The texts in a part of the content, at any depth, in order. -/
def texts : Node → List String
  | element _ children => textsOf children
  | text s => [s]
  | remark => []

/-- The texts in a list of parts, at any depth, in order. -/
def textsOf : List Node → List String
  | [] => []
  | n :: ns => n.texts ++ textsOf ns

end

end Node

end CanvasLayout.Xml
