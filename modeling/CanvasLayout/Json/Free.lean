import CanvasLayout.Json.Raw

/-!
# Reading any JSON

Three readers that want no particular shape. `Raw.skip` passes over a value and asks only
that it be well formed; `Raw.free` makes a value of it, so numbers must be in range, strings
must be text and containers may not be nested too deep; `Raw.refuse` is the fault of a value
that is not the wanted one.
-/

namespace CanvasLayout.Json

/-- How many containers may be nested. -/
def depthLimit : Nat := 127

/-- The level inside a container that stands in `depth` others. -/
def deeper (depth : Nat) : Except Fault Nat :=
  if depth < depthLimit then .ok (depth + 1) else .error .malformed

/-- A number, if it is in range. -/
def finite (x : Float) : Except Fault Float :=
  if x.isFinite then .ok x else .error .malformed

/-- The value of a number. A whole number outside of 64 bits, and zero below zero, are kept
as numbers with a fraction. -/
def NumberToken.value : NumberToken → Except Fault Json
  | whole false n =>
    if n < UInt64.size then .ok (.int n) else (finite (Decimal.Numeral.toFloat ⟨false, n, 0⟩)).map .float
  | whole true n =>
    if 0 < n ∧ 2 * n ≤ UInt64.size then .ok (.int (-n))
    else (finite (Decimal.Numeral.toFloat ⟨true, n, 0⟩)).map .float
  | decimal n => (finite n.toFloat).map .float
  | cut => .error .ended

namespace Raw

/-- The name of a member. -/
def key : Raw → Except Fault String
  | string s => s.text
  | _ => .error .malformed

mutual

/-- Passes over a value. -/
def skip : Raw → Except Fault Unit
  | null | bool _ => .ok ()
  | number .cut => .error .malformed
  | number _ => .ok ()
  | string s => (s.stop.map .error).getD (.ok ())
  | array items ending => do
    skipItems items
    ending.more
  | object members ending => do
    skipMembers members
    ending.more
  | cut _ => .error .ended
  | broken f => .error f

/-- Passes over the items of an array. -/
def skipItems : List Raw → Except Fault Unit
  | [] => .ok ()
  | x :: xs => do
    x.skip
    skipItems xs

/-- Passes over the members of an object. -/
def skipMembers : List (Raw × Raw) → Except Fault Unit
  | [] => .ok ()
  | (key, x) :: ms => do
    match key with
    | string s => (s.stop.map .error).getD (.ok ())
    | _ => .error .malformed
    x.skip
    skipMembers ms

end

mutual

/-- The value, whatever it is, `depth` containers deep. -/
def free (depth : Nat) : Raw → Except Fault Json
  | null => .ok .null
  | bool b => .ok (.bool b)
  | number n => n.value
  | string s => s.text.map .string
  | array items ending => do
    let depth ← deeper depth
    let js ← freeItems depth items
    ending.more
    return .array js
  | object members ending => do
    let depth ← deeper depth
    let ms ← freeMembers depth members
    ending.more
    return .object ms
  | cut _ => .error .ended
  | broken f => .error f

/-- The items of an array, whatever they are. -/
def freeItems (depth : Nat) : List Raw → Except Fault (List Json)
  | [] => .ok []
  | x :: xs => do
    let j ← x.free depth
    let js ← freeItems depth xs
    return j :: js

/-- The members of an object, whatever they are. -/
def freeMembers (depth : Nat) : List (Raw × Raw) → Except Fault (List (String × Json))
  | [] => .ok []
  | (k, x) :: ms => do
    let name ← k.key
    let j ← x.free depth
    let js ← freeMembers depth ms
    return (name, j) :: js

end

/-- The fault of a value that is not the wanted one. A number, string or word is read before
it is found wanting, an array or object is not. -/
def refuse : Raw → Fault
  | array _ _ | object _ _ => .mismatch
  | r => match r.free 0 with
    | .ok _ => .mismatch
    | .error f => f

end Raw

/-- The value that a text spells. -/
def parse (s : String) : Except Fault Json := (RawText.ofString s).read (Raw.free 0)

end CanvasLayout.Json
