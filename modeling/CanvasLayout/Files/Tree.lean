import CanvasLayout.Files.Entry
import CanvasLayout.Text.Ascii

/-!
# Directory trees

A directory and all it holds, in memory. Paths are followed part by part from its top: a dot
stays, two dots go back up, a file has nothing below it, and what lies above the top or at
the root of another tree is not there.
-/

namespace CanvasLayout

/-- A file or a directory. -/
inductive Tree where
  | file (bytes : List UInt8)
  | directory (entries : List (String × Tree))

namespace Tree

/-- The empty directory. -/
def empty : Tree := .directory []

/-- The parts of a path. -/
def parts (path : String) : List String :=
  (Text.pieces (· == '/') path.toList).map String.ofList

/-- The part names no entry of its own. -/
def isStay (part : String) : Bool := part == "" || part == "."

/-- Follows parts from the innermost of nested directories, which come first. -/
def follow : List Tree → List String → Except FileFault (List Tree)
  | [], _ => .error .notFound
  | here :: above, [] => .ok (here :: above)
  | file _ :: _, _ :: _ => .error .notDirectory
  | directory es :: above, part :: rest =>
    if isStay part then follow (directory es :: above) rest
    else if part == ".." then follow above rest
    else if 255 < part.utf8ByteSize then .error (.other "File name too long (os error 36)")
    else match es.lookup part with
      | some t => follow (t :: directory es :: above) rest
      | none => .error .notFound

/-- What parts lead to. -/
def find (t : Tree) (ps : List String) : Except FileFault Tree := do
  match ← follow [t] ps with
  | found :: _ => .ok found
  | [] => .error .notFound

/-- What is found at a path. -/
def entry (t : Tree) : Files := fun path =>
  if path.toList.head?.all (· = '/') then .fault .notFound
  else match t.find (parts path) with
    | .ok (file bs) => .file bs
    | .ok (directory _) => .directory
    | .error f => .fault f

/-- The parts from the top, where none stays or goes back up. -/
def direct (ps : List String) : List String :=
  (ps.foldl (fun done part =>
    if isStay part then done else if part == ".." then done.drop 1 else part :: done) []).reverse

/-- The entries with `t` under a name. -/
def putEntry (name : String) (t : Tree) : List (String × Tree) → List (String × Tree)
  | [] => [(name, t)]
  | e :: es => if e.1 = name then (name, t) :: es else e :: putEntry name t es

/-- The tree with a file put where direct parts lead, making the directories it needs. -/
def put (bytes : List UInt8) : List String → Tree → Tree
  | [], _ => file bytes
  | part :: rest, t =>
    let es := match t with
      | directory es => es
      | file _ => []
    directory (putEntry part (put bytes rest ((es.lookup part).getD empty)) es)

/-- The tree with a file saved at a path whose directory exists. -/
def save (t : Tree) (path : String) (bytes : List UInt8) : Except FileFault Tree := do
  if path.toList.head?.all (· = '/') then .error .notFound
  let ps := parts path
  let named := (ps.reverse.dropWhile (· == "")).reverse
  match ← t.find named.dropLast with
  | file _ => .error .notDirectory
  | directory es =>
    match named.getLast? with
    | none => .error .isDirectory
    | some last =>
      if isStay last || last == ".." || named.length < ps.length then .error .isDirectory
      else if 255 < last.utf8ByteSize then .error (.other "File name too long (os error 36)")
      else match es.lookup last with
        | some (directory _) => .error .isDirectory
        | _ => .ok (put bytes (direct named) t)

end Tree

end CanvasLayout
