import CanvasLayout.Attribute.Bag
import CanvasLayout.Json.Printer
import CanvasLayout.Json.Reader
import CanvasLayout.Logged

/-!
# Override documents

A drawing cannot carry all that is known of its layers. A document beside it lists entries,
each for the layer it names: scalar members are raw attribute texts, null is an explicit
absence, lists and objects are passed over. Of several entries for one name the first counts.
-/

namespace CanvasLayout

open Json (Datum Fault Form RawText)

/-- Attribute overrides by layer name. -/
abbrev Overrides := NameMap Bag

/-- The attribute value that a scalar stands for. -/
def AttributeValue.ofJson? : Json → Option AttributeValue
  | .null => some .null
  | .string s => some (.raw s)
  | .int n => some (.raw (.ofList (Decimal.integer n)))
  | .float x => some (.raw (.ofList (Json.floatText x)))
  | .bool b => some (.raw (if b then "true" else "false"))
  | .array _ | .object _ => none

namespace Overrides

/-- The member that holds the name of the layer. -/
def nameKey : String := "name"

/-- The fields of an override document. -/
def documentFields (_ : Unit) : List (Json.Field Unit) := [⟨"layers", .list (.dict .any), .orEmpty⟩]

/-- The members of an entry. -/
def members : Datum → List (String × Json)
  | .dict es => es.filterMap fun e => match e.2 with
    | .any j => some (e.1, j)
    | _ => none
  | _ => []

/-- The entries of a document. -/
def entries : Datum → List (List (String × Json))
  | .record [.list ds] => ds.map members
  | _ => []

/-- The attributes that the members of an entry set. -/
def attributes (ms : List (String × Json)) : Bag :=
  NameMap.ofList <| (ms.filter (·.1 != nameKey)).filterMap fun m =>
    (AttributeValue.ofJson? m.2).map (m.1, ·)

/-- The members of an entry for `layer` that set nothing. -/
def ignored (layer : String) (ms : List (String × Json)) : List Line :=
  (ms.filter (·.1 != nameKey)).filterMap fun m =>
    if (AttributeValue.ofJson? m.2).isSome then none
    else some ⟨.debug, s!"override '{layer}.{m.1}' is not a scalar; ignored"⟩

/-- The overrides with one more entry, the one at `index` in the document. -/
def addEntry (table : Overrides) (index : Nat) (ms : List (String × Json)) : Logged Overrides :=
  match (Json.member? nameKey ms).bind Json.string? with
  | none => do
    Logged.note .warn s!"override entry {index} has no string 'name'; skipped"
    return table
  | some name => do
    Logged.notes (ignored name ms)
    if table.contains name then
      Logged.note .warn s!"duplicate override entry for '{name}'; keeping the first"
      return table
    else return table.insert name (attributes ms)

/-- The overrides that entries make, the first of them standing at `index`. -/
def addEntries (table : Overrides) (index : Nat) : List (List (String × Json)) → Logged Overrides
  | [] => pure table
  | ms :: rest => do
    let table ← table.addEntry index ms
    addEntries table (index + 1) rest

/-- The overrides that a document holds. -/
def ofDocument (t : RawText) : Except Fault (Logged Overrides) := do
  let d ← t.read (Form.read documentFields 0 (.record ()))
  return addEntries .empty 0 (entries d)

/-- The overrides that the document at a path holds. -/
def read (path : String) (t : RawText) : Logged Overrides :=
  match ofDocument t with
  | .ok table => table
  | .error fault => .fail (.overrides path fault)

end Overrides

end CanvasLayout
