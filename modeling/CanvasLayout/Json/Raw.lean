import CanvasLayout.Json.Token
import CanvasLayout.Json.Value
import CanvasLayout.Text.Utf8

/-!
# JSON as written

`Raw.scan` takes a text apart into tokens, arrays and objects as far as it goes, and marks
where it breaks off. It does not judge: what is a fault depends on what a reader wants at a
place, and a reader goes through the parts in the order of the text, so the first fault that
it meets is the one that counts.
-/

namespace CanvasLayout.Json

/-- How the list of parts of an array or object ends. -/
inductive Ending where
  /-- With its bracket. -/
  | closed
  /-- With the end of the text. -/
  | ended
  /-- With the end of the text after a comma. -/
  | hanging
  /-- With something that is neither a comma nor the bracket. -/
  | junk
  deriving DecidableEq, Repr

/-- A JSON text taken apart. -/
inductive Raw where
  | null
  | bool (b : Bool)
  | number (n : NumberToken)
  | string (s : StringToken)
  | array (items : List Raw) (ending : Ending)
  | object (members : List (Raw × Raw)) (ending : Ending)
  /-- The text ends inside the word for a value. -/
  | cut (value : Raw)
  /-- No value can start here. -/
  | broken (fault : Fault)

/-- What a reader meets that is done with the parts. -/
def Ending.close : Ending → Except Fault Unit
  | closed => .ok ()
  | ended => .error .ended
  | hanging | junk => .error .malformed

/-- What a reader meets that looks for one more part: there is none, or there is a fault. -/
def Ending.more : Ending → Except Fault Unit
  | closed => .ok ()
  | ended | hanging => .error .ended
  | junk => .error .malformed

namespace Raw

/-- A word that stands for a value. -/
def scanWord (value : Raw) : List Char → List Symbol → Raw × List Symbol
  | [], cs => (value, cs)
  | _ :: _, [] => (cut value, [])
  | w :: ws, c :: cs => if c = some w then scanWord value ws cs else (broken .malformed, c :: cs)

/-- A number. -/
def scanNumeral (cs : List Symbol) : Raw × List Symbol :=
  match scanNumber cs with
  | .ok (n, rest) => (number n, rest)
  | .error .ended => (number .cut, [])
  | .error f => (broken f, cs)

mutual

/-- The value at the start of a text and what follows it. -/
def scanValue : Nat → List Symbol → Raw × List Symbol
  | 0, cs => (broken .malformed, cs)
  | fuel + 1, cs =>
    match skipSpace cs with
    | [] => (broken .ended, [])
    | some 'n' :: cs => scanWord null ['u', 'l', 'l'] cs
    | some 't' :: cs => scanWord (bool true) ['r', 'u', 'e'] cs
    | some 'f' :: cs => scanWord (bool false) ['a', 'l', 's', 'e'] cs
    | some '"' :: cs =>
      let (s, rest) := scanString cs
      (string s, rest)
    | some '[' :: cs =>
      match skipSpace cs with
      | [] => (array [] .ended, [])
      | some ']' :: cs => (array [] .closed, cs)
      | cs =>
        let (items, ending, rest) := scanItems fuel cs
        (array items ending, rest)
    | some '\x7b' :: cs =>
      match skipSpace cs with
      | [] => (object [] .ended, [])
      | some '\x7d' :: cs => (object [] .closed, cs)
      | cs =>
        let (members, ending, rest) := scanMembers fuel cs
        (object members ending, rest)
    | some c :: cs =>
      if c = '-' ∨ c.isDigit then scanNumeral (some c :: cs) else (broken .malformed, some c :: cs)
    | none :: cs => (broken .malformed, none :: cs)

/-- The items of an array from one that is due. -/
def scanItems : Nat → List Symbol → List Raw × Ending × List Symbol
  | 0, cs => ([], .junk, cs)
  | fuel + 1, cs =>
    let (item, cs) := scanValue fuel cs
    match skipSpace cs with
    | [] => ([item], .ended, [])
    | some ']' :: cs => ([item], .closed, cs)
    | some ',' :: cs =>
      match skipSpace cs with
      | [] => ([item], .hanging, [])
      | cs =>
        let (items, ending, rest) := scanItems fuel cs
        (item :: items, ending, rest)
    | cs => ([item], .junk, cs)

/-- The members of an object from one that is due. -/
def scanMembers : Nat → List Symbol → List (Raw × Raw) × Ending × List Symbol
  | 0, cs => ([], .junk, cs)
  | fuel + 1, cs =>
    let (key, cs) := scanValue fuel cs
    match skipSpace cs with
    | [] => ([(key, broken .ended)], .ended, [])
    | some ':' :: cs =>
      let (value, cs) := scanValue fuel cs
      match skipSpace cs with
      | [] => ([(key, value)], .ended, [])
      | some '\x7d' :: cs => ([(key, value)], .closed, cs)
      | some ',' :: cs =>
        match skipSpace cs with
        | [] => ([(key, value)], .hanging, [])
        | cs =>
          let (members, ending, rest) := scanMembers fuel cs
          ((key, value) :: members, ending, rest)
      | cs => ([(key, value)], .junk, cs)
    | cs => ([(key, broken .malformed)], .junk, cs)

end

end Raw

/-- A whole text taken apart: its value, and whether anything follows it. -/
structure RawText where
  value : Raw
  trailing : Bool

/-- A text taken apart. Every value and every list of parts takes at least one symbol or is
the last, so the fuel is never used up. -/
def RawText.scan (cs : List Symbol) : RawText :=
  let (value, rest) := Raw.scanValue (2 * cs.length + 2) cs
  ⟨value, !(skipSpace rest).isEmpty⟩

/-- A string taken apart. -/
def RawText.ofString (s : String) : RawText := .scan (s.toList.map some)

/-- Bytes taken apart. -/
def RawText.ofBytes (bytes : List UInt8) : RawText := .scan (Text.Utf8.symbols bytes)

/-- The result of reading the value, unless something follows it. -/
def RawText.read {α : Type} (t : RawText) (f : Raw → Except Fault α) : Except Fault α := do
  let a ← f t.value
  if t.trailing then .error .malformed else .ok a

end CanvasLayout.Json
