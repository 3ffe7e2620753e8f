/-!
# JSON values

Whole numbers are kept apart from numbers with a fraction, since readers of the one do not
take the other, and the members of an object keep the order they are written in.
-/

namespace CanvasLayout

/-- A JSON value. -/
inductive Json where
  | null
  | bool (b : Bool)
  | int (n : Int)
  | float (x : Float)
  | string (s : String)
  | array (items : List Json)
  | object (members : List (String × Json))

namespace Json

instance : Inhabited Json := ⟨.null⟩

mutual

/-- Values are alike; numbers are compared as numbers, so an undefined one is like none. -/
def alike : Json → Json → Bool
  | null, null => true
  | bool a, bool b => a == b
  | int m, int n => m == n
  | float x, float y => x == y
  | string s, string t => s == t
  | array xs, array ys => alikeItems xs ys
  | object ms, object ns => alikeMembers ms ns
  | _, _ => false

/-- Lists of values are alike. -/
def alikeItems : List Json → List Json → Bool
  | [], [] => true
  | x :: xs, y :: ys => alike x y && alikeItems xs ys
  | _, _ => false

/-- Members of objects are alike and in the same order. -/
def alikeMembers : List (String × Json) → List (String × Json) → Bool
  | [], [] => true
  | (s, x) :: ms, (t, y) :: ns => s == t && alike x y && alikeMembers ms ns
  | _, _ => false

end

/-- The string, if the value is one. -/
def string? : Json → Option String
  | string s => some s
  | _ => none

/-- The last value under a member's name. -/
def member? (name : String) : List (String × Json) → Option Json
  | [] => none
  | (key, value) :: ms => (member? name ms).or (if key = name then some value else none)

end Json

end CanvasLayout
