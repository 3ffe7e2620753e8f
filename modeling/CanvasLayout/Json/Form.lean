import CanvasLayout.Json.Value

/-!
# Forms of documents

A form says what JSON values stand for data of one kind: which records there are, how their
fields are called and which of them may be missing. A `Datum` is what a value of a form
amounts to once names and spellings are gone. Records are known by names `ρ`, so forms may
refer to each other; `fields` lists the fields of each.
-/

namespace CanvasLayout.Json

/-- What stands for an absent field. -/
inductive Presence where
  /-- The field is never absent. -/
  | required
  /-- Null stands for an absent field. -/
  | nullable
  /-- An absent field is left out; null stands for it too. -/
  | optional
  /-- A field that is left out is an empty list. -/
  | orEmpty
  deriving DecidableEq, Repr

/-- What values stand for data of one kind. -/
inductive Form (ρ : Type) where
  | any
  | text
  | real
  /-- A whole number below a bound. -/
  | whole (bound : Nat)
  | flag
  /-- One of a few names. -/
  | choice (names : List String)
  | list (item : Form ρ)
  /-- An object whose member names are data. -/
  | dict (value : Form ρ)
  | record (name : ρ)
  /-- One of several records, told apart by a member that names it. -/
  | tagged (tag : String) (cases : List (String × ρ))

/-- A field of a record. -/
structure Field (ρ : Type) where
  name : String
  form : Form ρ
  presence : Presence := .required

/-- What a value of a form amounts to. -/
inductive Datum where
  | absent
  | any (j : Json)
  | text (s : String)
  | real (x : Float)
  | whole (n : Nat)
  | flag (b : Bool)
  | choice (name : String)
  | list (items : List Datum)
  | dict (entries : List (String × Datum))
  /-- The values of a record's fields in order. -/
  | record (values : List Datum)
  | tagged (name : String) (values : List Datum)

namespace Datum

/-- The datum of a value that may be absent. -/
def ofOption {α : Type} (f : α → Datum) : Option α → Datum
  | some a => f a
  | none => absent

end Datum

namespace Form

variable {ρ : Type} (fields : ρ → List (Field ρ))

mutual

/-- The value of a form that stands for a datum. -/
def write : Form ρ → Datum → Json
  | list f, .list ds => .array (writeItems f ds)
  | dict f, .dict es => .object (writeEntries f es)
  | record n, .record vs => .object (writeFields (fields n) vs)
  | tagged tag cases, .tagged name vs =>
    .object ((tag, .string name) :: writeFields (((cases.lookup name).map fields).getD []) vs)
  | _, .any j => j
  | _, .text s => .string s
  | _, .real x => .float x
  | _, .whole n => .int n
  | _, .flag b => .bool b
  | _, .choice s => .string s
  | _, _ => .null

/-- The items of an array of one form. -/
def writeItems (f : Form ρ) : List Datum → List Json
  | [] => []
  | d :: ds => write f d :: writeItems f ds

/-- The members of an object of one form. -/
def writeEntries (f : Form ρ) : List (String × Datum) → List (String × Json)
  | [] => []
  | (name, d) :: es => (name, write f d) :: writeEntries f es

/-- The members of a record. -/
def writeFields : List (Field ρ) → List Datum → List (String × Json)
  | f :: fs, d :: ds =>
    match f.presence, d with
    | .optional, .absent => writeFields fs ds
    | _, d => (f.name, write f.form d) :: writeFields fs ds
  | _, _ => []

end

end Form

end CanvasLayout.Json
