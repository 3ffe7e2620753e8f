import CanvasLayout.Xml.Token

/-!
# Namespaces

A scope says which namespace each qualifier stands for, the innermost declaration first. A
start tag is resolved in the scope around it: its declarations are taken out of its
attributes, every qualifier must be known, and no two attributes may have one expanded name.
Two namespaces are reserved: that of the qualifier `xml` belongs to it alone, and that of
declarations to nothing.
-/

namespace CanvasLayout.Xml

/-- The namespaces in scope by qualifier; the empty qualifier is the default. -/
abbrev Scope := List (String × String)

/-- The name of a reserved namespace from its parts. -/
def reserved (parts : List String) : String := "/".intercalate ("http:" :: "" :: "www.w3.org" :: parts)

/-- The namespace of the qualifier `xml`. -/
def xmlSpace : String := reserved ["XML", "1998", "namespace"]

/-- The namespace of declarations. -/
def declarationSpace : String := reserved ["2000", "xmlns", ""]

/-- An element's name, the attributes by their local names, and where it starts. -/
structure Tag where
  name : String
  attributes : List (String × String)
  offset : Nat
  deriving DecidableEq, Repr

/-- What an attribute does. -/
inductive Role where
  /-- It declares the namespace of a qualifier. -/
  | declares (qualifier space : String)
  /-- It confirms what `xml` stands for. -/
  | confirms
  | plain

/-- What an attribute does, unless it misuses a reserved namespace. -/
def Attribute.role? (a : Attribute) : Option Role :=
  if a.name.qualifier = "xmlns" then
    if a.value = declarationSpace then none
    else if a.name.name = "xml" then if a.value = xmlSpace then some .confirms else none
    else if a.value = xmlSpace then none
    else some (.declares a.name.name a.value)
  else if a.name.name = "xmlns" then
    if a.value = declarationSpace ∨ a.value = xmlSpace then none else some (.declares "" a.value)
  else some .plain

/-- The declarations among attributes, none of a qualifier twice, and the other attributes. -/
def splitDeclarations (declared : Scope) : List Attribute → Option (Scope × List Attribute)
  | [] => some (declared, [])
  | a :: as => do
    match ← a.role? with
    | .declares q space =>
      if q ≠ "" ∧ (declared.lookup q).isSome then none
      else splitDeclarations (declared ++ [(q, space)]) as
    | .confirms => splitDeclarations declared as
    | .plain => do
      let (declared, rest) ← splitDeclarations declared as
      return (declared, a :: rest)

/-- The namespace and the local name of an attribute. Without a qualifier it has none. -/
def Attribute.expanded? (scope : Scope) (a : Attribute) : Option (Option String × String) :=
  if a.name.qualifier = "xml" then some (some xmlSpace, a.name.name)
  else if a.name.qualifier = "" then some (none, a.name.name)
  else (scope.lookup a.name.qualifier).map fun space => (some space, a.name.name)

/-- No two members of the list are equal. -/
def allDifferent {α : Type} [BEq α] : List α → Bool
  | [] => true
  | a :: as => !as.contains a && allDifferent as

/-- A start tag in the scope around it: the scope inside, and its names without qualifiers. -/
def StartTag.resolve? (scope : Scope) (t : StartTag) : Option (Scope × Tag) := do
  guard (t.name.qualifier ≠ "xmlns")
  let (declared, attributes) ← splitDeclarations [] t.attributes
  let scope := declared ++ scope
  let expanded ← attributes.mapM (Attribute.expanded? scope)
  guard (allDifferent expanded)
  guard (t.name.qualifier = "" ∨ (scope.lookup t.name.qualifier).isSome)
  return (scope, ⟨t.name.name, attributes.map fun a => (a.name.name, a.value), t.offset⟩)

/-- The value of the first attribute with a local name. -/
def Tag.attribute? (t : Tag) (name : String) : Option String := t.attributes.lookup name

end CanvasLayout.Xml
