import CanvasLayout.Json.Form
import CanvasLayout.Decimal.Numeral
import CanvasLayout.NameMap

/-!
# Values of a form

Which datum of a form a finished value stands for, if any. Records may be written as objects,
where unknown members are passed over and known ones may not be repeated, or as the list of
their fields; a name may be written as an object with that one member.
-/

namespace CanvasLayout.Json

/-- A number. -/
def real? : Json → Option Float
  | int n => some (Decimal.Numeral.toFloat ⟨n < 0, n.natAbs, 0⟩)
  | float x => some x
  | _ => none

/-- A whole number below a bound. -/
def whole? (bound : Nat) : Json → Option Nat
  | int n => if 0 ≤ n ∧ n < bound then some n.toNat else none
  | _ => none

/-- A string that is one of a few names, alone or as the one member of an object. -/
def choice? (names : List String) : Json → Option String
  | string s => if s ∈ names then some s else none
  | object [(s, null)] | object [(s, object [])] => if s ∈ names then some s else none
  | _ => none

/-- The name of a case, or its number. -/
def caseName? (names : List String) : Json → Option String
  | string s => if s ∈ names then some s else none
  | int n => if 0 ≤ n then names[n.toNat]? else none
  | _ => none

namespace Field

variable {ρ : Type}

/-- What a field stands for that an object has not. -/
def missing (f : Field ρ) : Option Datum :=
  match f.presence with
  | .required => none
  | .nullable | .optional => some .absent
  | .orEmpty => some (.list [])

/-- What a field stands for that is not in a list of fields. -/
def beyond (f : Field ρ) : Option Datum :=
  match f.presence with
  | .required | .nullable => none
  | .optional => some .absent
  | .orEmpty => some (.list [])

/-- Null stands for the absent field. -/
def allowsNull (f : Field ρ) : Bool := f.presence = .nullable || f.presence = .optional

end Field

namespace Form

variable {ρ : Type}

/-- The fields of a record in order, from those found by name. -/
def collect (found : List (String × Datum)) (fs : List (Field ρ)) : Option (List Datum) :=
  fs.mapM fun f => (found.lookup f.name).or f.missing

/-- The only value under a name. -/
def only? (name : String) (ms : List (String × Json)) : Option Json :=
  match ms.filter fun m => m.1 = name with
  | [(_, j)] => some j
  | _ => none

variable (fields : ρ → List (Field ρ))

mutual

/-- The datum of a form that a value stands for. -/
def shape? : Form ρ → Json → Option Datum
  | any, j => some (.any j)
  | text, .string s => some (.text s)
  | real, j => (real? j).map .real
  | whole bound, j => (whole? bound j).map .whole
  | flag, .bool b => some (.flag b)
  | choice names, j => (choice? names j).map .choice
  | list f, .array js => (shapeItems? f js).map .list
  | dict f, .object ms => (shapeEntries? f ms).map fun es => .dict (NameMap.ofList es).entries
  | record n, .object ms =>
    ((shapeMembers? (fields n) [] ms).bind (collect · (fields n))).map .record
  | record n, .array js => (shapeFields? (fields n) js).map .record
  | tagged tag cases, .object ms =>
    match (only? tag ms).bind (caseName? (cases.map Prod.fst)) with
    | none => none
    | some name =>
      let fs := ((cases.lookup name).map fields).getD []
      ((shapeMembers? fs [] ms).bind (collect · fs)).map (.tagged name)
  | tagged _ cases, .array (j :: js) =>
    match caseName? (cases.map Prod.fst) j with
    | none => none
    | some name =>
      (shapeFields? (((cases.lookup name).map fields).getD []) js).map (.tagged name)
  | _, _ => none

/-- The data that the items of an array stand for. -/
def shapeItems? (f : Form ρ) : List Json → Option (List Datum)
  | [] => some []
  | j :: js =>
    match shape? f j, shapeItems? f js with
    | some d, some ds => some (d :: ds)
    | _, _ => none

/-- The data that the members of an object stand for. -/
def shapeEntries? (f : Form ρ) : List (String × Json) → Option (List (String × Datum))
  | [] => some []
  | (name, j) :: ms =>
    match shape? f j, shapeEntries? f ms with
    | some d, some es => some ((name, d) :: es)
    | _, _ => none

/-- The fields among the members of an object, none of them twice. -/
def shapeMembers? (fs : List (Field ρ)) (found : List (String × Datum)) :
    List (String × Json) → Option (List (String × Datum))
  | [] => some found
  | (name, j) :: ms =>
    match fs.find? fun f => f.name = name with
    | none => shapeMembers? fs found ms
    | some f =>
      if (found.lookup name).isSome then none
      else
        match (if f.allowsNull && j matches .null then some .absent else shape? f.form j) with
        | some d => shapeMembers? fs ((name, d) :: found) ms
        | none => none

/-- The fields of a record written as a list. -/
def shapeFields? : List (Field ρ) → List Json → Option (List Datum)
  | [], [] => some []
  | [], _ :: _ => none
  | f :: fs, [] => (f :: fs).mapM Field.beyond
  | f :: fs, j :: js =>
    match (if f.allowsNull && j matches .null then some .absent else shape? f.form j),
      shapeFields? fs js with
    | some d, some ds => some (d :: ds)
    | _, _ => none

end

end Form

end CanvasLayout.Json
