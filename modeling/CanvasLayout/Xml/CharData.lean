import CanvasLayout.Xml.Name

/-!
# Character data

What the characters between tags and inside quotes stand for: references are replaced, line
ends are made one line feed each, and in attribute values line ends and tabs become blanks.
-/

namespace CanvasLayout.Xml

/-- A character of character data: as it is written, or by a reference. -/
inductive Mark where
  | plain (c : Char)
  | referred (c : Char)
  deriving DecidableEq, Repr

/-- The characters with names of their own. -/
def namedChars : List (List Char × Char) :=
  [("quot;".toList, '"'), ("apos;".toList, '\''), ("amp;".toList, '&'), ("lt;".toList, '<'),
    ("gt;".toList, '>')]

/-- The value of a run of digits in a base. -/
def digitsIn (base : Nat) (ds : List Char) : Nat :=
  ds.foldl (fun n d => base * n + (Text.hexDigit? d).getD 0) 0

/-- The character of a code point: a number that is none stands for the replacement character,
and one that a document may not hold for nothing. -/
def charOfCode? (n : Nat) : Option Char :=
  let c := if n.isValidChar then Char.ofNat n else Char.ofNat 0xFFFD
  if n < UInt32.size ∧ isAllowed c then some c else none

/-- A character by the digits of its code point and a semicolon. -/
def numbered? (base : Nat) (isDigit : Char → Bool) (cs : List Char) : Option (Char × List Char) :=
  match cs.takeWhile isDigit, cs.dropWhile isDigit with
  | d :: ds, ';' :: rest => (charOfCode? (digitsIn base (d :: ds))).map (·, rest)
  | _, _ => none

/-- The character that a reference stands for, after its ampersand, and what follows it. -/
def reference? : List Char → Option (Char × List Char)
  | '#' :: 'x' :: cs => numbered? 16 (fun c => (Text.hexDigit? c).isSome) cs
  | '#' :: cs => numbered? 10 Char.isDigit cs
  | cs => namedChars.findSome? fun (word, c) =>
    if word.isPrefixOf cs then some (c, cs.drop word.length) else none

/-- Characters with their references replaced, with `fuel` characters to go through. -/
def marksWith : Nat → List Char → Option (List Mark)
  | _, [] => some []
  | 0, _ :: _ => none
  | fuel + 1, '&' :: cs => do
    let (c, rest) ← reference? cs
    return .referred c :: (← marksWith fuel rest)
  | fuel + 1, c :: cs => do return .plain c :: (← marksWith fuel cs)

/-- Characters with their references replaced. -/
def marks? (cs : List Char) : Option (List Mark) := marksWith cs.length cs

/-- The value of an attribute: a carriage return before a line feed is dropped, and other line
ends and tabs are blanks, unless they are referred to. -/
def attributeChars : List Mark → List Char
  | [] => []
  | .referred c :: ms => c :: attributeChars ms
  | .plain '\r' :: .plain '\n' :: ms => attributeChars (.plain '\n' :: ms)
  | .plain c :: ms => (if c = '\r' ∨ c = '\n' ∨ c = '\t' then ' ' else c) :: attributeChars ms

/-- The value of an attribute as written between its quotes. -/
def attributeValue? (cs : List Char) : Option String :=
  (marks? cs).map fun ms => .ofList (attributeChars ms)

/-- What is known when a character of text is due: the last character written if it is a
carriage return that may still become a line feed, and whether a reference came just before. -/
structure LineState where
  pending : Bool := false
  afterReference : Bool := false

/-- Text with its line ends made one line feed each. A carriage return that is referred to is
kept, and so is one that a reference precedes or follows; but one that is the last before a
plain character further on is a line end like others. -/
def textChars (st : LineState) : List Mark → List Char
  | [] => if st.pending then ['\r'] else []
  | .referred c :: ms =>
    let now := if st.pending then ['\r'] else []
    if c = '\r' then now ++ textChars ⟨true, true⟩ ms else now ++ c :: textChars ⟨false, true⟩ ms
  | .plain c :: ms =>
    if st.afterReference then
      let now := if st.pending then ['\r'] else []
      if c = '\r' then now ++ textChars ⟨true, false⟩ ms
      else now ++ c :: textChars ⟨false, false⟩ ms
    else
      let now := if st.pending then ['\n'] else []
      if c = '\r' then
        if ms.isEmpty then now ++ ['\n'] else now ++ textChars ⟨true, false⟩ ms
      else if st.pending && c = '\n' then now ++ textChars ⟨false, false⟩ ms
      else now ++ c :: textChars ⟨false, false⟩ ms

/-- The text that characters between tags stand for. -/
def textValue? (cs : List Char) : Option String :=
  (marks? cs).map fun ms => .ofList (textChars {} ms)

/-- The text of a section in which nothing is replaced. -/
def literalValue (cs : List Char) : String := .ofList (textChars {} (cs.map .plain))

end CanvasLayout.Xml
