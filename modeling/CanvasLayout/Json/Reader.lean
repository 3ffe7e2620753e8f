import CanvasLayout.Json.Free
import CanvasLayout.Json.Shape

/-!
# Reading a form

Which datum of a form a text stands for, or the first fault that a reader meets in the order
of the text. A record is checked member by member as it goes; what a tagged record holds is
gathered first, since the tag may come last, and has its shape checked at its end.
-/

namespace CanvasLayout.Json

/-- A datum or, when the value is well formed but stands for none, a mismatch. -/
def orMismatch {α : Type} : Option α → Except Fault α
  | some a => .ok a
  | none => .error .mismatch

namespace Raw

/-- The object's one member that names a choice, with null as its value. -/
def readChoiceMember (names : List String) (ending : Ending) : List (Raw × Raw) → Except Fault String
  | [] => match ending with
    | .closed => .error .malformed
    | e => do
      e.more
      .error .malformed
  | (k, v) :: rest => do
    let name ← match k with
      | string s => s.text
      | k => .error k.refuse
    if name ∉ names then .error .mismatch
    match v with
    | null => pure ()
    | v => .error v.refuse
    if rest.isEmpty then ending.close else .error .malformed
    return name

/-- One of a few names, alone or as the one member of an object. -/
def readChoice (names : List String) (depth : Nat) : Raw → Except Fault String
  | string s => do
    let name ← s.text
    if name ∈ names then return name else .error .mismatch
  | object members ending => do
    let _ ← deeper depth
    readChoiceMember names ending members
  | broken f => .error f
  | _ => .error .malformed

/-- The name of a case. -/
def readCase (names : List String) : Raw → Except Fault String
  | string s => do
    let name ← s.text
    if name ∈ names then return name else .error .mismatch
  | r => .error r.refuse

/-- The name of a case among the members of an object, and the other members. -/
def gather (tag : String) (names : List String) (depth : Nat) (found : Option String) :
    List (Raw × Raw) → Except Fault (Option String × List (String × Json))
  | [] => .ok (found, [])
  | (k, v) :: ms => do
    let name ← k.key
    if name = tag then
      if found.isSome then .error .mismatch
      else
        let c ← readCase names v
        gather tag names depth (some c) ms
    else
      let j ← v.free depth
      let (c, js) ← gather tag names depth found ms
      return (c, (name, j) :: js)

end Raw

/-- What a field that may be absent reads from the word for null. -/
def Field.whenNull {ρ : Type} (f : Field ρ) (r : Raw) : Option (Except Fault Datum) :=
  if f.allowsNull then
    match r with
    | .null => some (.ok .absent)
    | .cut .null => some (.error .ended)
    | _ => none
  else none

namespace Form

variable {ρ : Type} (fields : ρ → List (Field ρ))

/-- A number, name or word of a form. -/
def readScalar (depth : Nat) (form : Form ρ) (r : Raw) : Except Fault Datum :=
  match r with
  | .array _ _ | .object _ _ => .error .mismatch
  | r => do orMismatch (shape? fields form (← r.free depth))

/-- A tagged record written as an object. -/
def readTaggedMembers (depth : Nat) (tag : String) (cases : List (String × ρ))
    (ms : List (Raw × Raw)) (ending : Ending) : Except Fault Datum := do
  let (c, js) ← Raw.gather tag (cases.map Prod.fst) depth none ms
  ending.more
  let name ← orMismatch c
  let fs := ((cases.lookup name).map fields).getD []
  let values ← orMismatch ((shapeMembers? fields fs [] js).bind (collect · fs))
  return .tagged name values

/-- A tagged record written as a list. -/
def readTaggedItems (depth : Nat) (cases : List (String × ρ)) (items : List Raw)
    (ending : Ending) : Except Fault Datum :=
  match items with
  | [] => do
    ending.more
    .error .mismatch
  | item :: items => do
    let name ← Raw.readCase (cases.map Prod.fst) item
    let js ← Raw.freeItems depth items
    ending.more
    let values ← orMismatch (shapeFields? fields (((cases.lookup name).map fields).getD []) js)
    return .tagged name values

mutual

/-- The datum of a form that a value stands for, `depth` containers deep. -/
def read (depth : Nat) : Form ρ → Raw → Except Fault Datum
  | any, r => (r.free depth).map .any
  | choice names, r => (r.readChoice names depth).map .choice
  | list f, .array items ending => do
    let ds ← readItems (← deeper depth) f items
    ending.more
    return .list ds
  | dict f, .object ms ending => do
    let es ← readEntries (← deeper depth) f ms
    ending.more
    return .dict (NameMap.ofList es).entries
  | record n, .object ms ending => do
    let found ← readMembers (← deeper depth) (fields n) [] ms
    ending.more
    return .record (← orMismatch (collect found (fields n)))
  | record n, .array items ending => do
    return .record (← readFields (← deeper depth) ending (fields n) items)
  | tagged tag cases, .object ms ending => do
    readTaggedMembers fields (← deeper depth) tag cases ms ending
  | tagged _ cases, .array items ending => do
    readTaggedItems fields (← deeper depth) cases items ending
  | form, r => readScalar fields depth form r

/-- The data that the items of an array stand for. -/
def readItems (depth : Nat) (f : Form ρ) : List Raw → Except Fault (List Datum)
  | [] => .ok []
  | r :: rs => do
    let d ← read depth f r
    let ds ← readItems depth f rs
    return d :: ds

/-- The data that the members of an object stand for. -/
def readEntries (depth : Nat) (f : Form ρ) :
    List (Raw × Raw) → Except Fault (List (String × Datum))
  | [] => .ok []
  | (k, r) :: ms => do
    let name ← k.key
    let d ← read depth f r
    let es ← readEntries depth f ms
    return (name, d) :: es

/-- The fields among the members of an object, none of them twice. -/
def readMembers (depth : Nat) (fs : List (Field ρ)) (found : List (String × Datum)) :
    List (Raw × Raw) → Except Fault (List (String × Datum))
  | [] => .ok found
  | (k, r) :: ms => do
    let name ← k.key
    match fs.find? fun f => f.name = name with
    | none => do
      r.skip
      readMembers depth fs found ms
    | some f =>
      if (found.lookup name).isSome then .error .mismatch
      else do
        let d ← (f.whenNull r).getD (read depth f.form r)
        readMembers depth fs ((name, d) :: found) ms

/-- The fields of a record written as a list. -/
def readFields (depth : Nat) (ending : Ending) :
    List (Field ρ) → List Raw → Except Fault (List Datum)
  | [], [] => do
    ending.close
    return []
  | [], _ :: _ => .error .malformed
  | f :: fs, [] => do
    ending.more
    orMismatch ((f :: fs).mapM Field.beyond)
  | f :: fs, r :: rs => do
    let d ← (f.whenNull r).getD (read depth f.form r)
    let ds ← readFields depth ending fs rs
    return d :: ds

end

end Form

end CanvasLayout.Json
