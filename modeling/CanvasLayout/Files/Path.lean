import CanvasLayout.Text.Ascii

/-!
# Paths

Paths are texts with slashes between their parts, and are shown as they were given. A path
is put together from a directory and a name, and its extension is replaced where its last
part that names something has one; a name that only starts with a dot has none.
-/

namespace CanvasLayout.Files

/-- The path of `name` in a directory; a name that starts at the root stands for itself. -/
def join (dir name : String) : String :=
  if name.toList.head? = some '/' then name
  else if dir.toList.getLast?.all (· = '/') then dir ++ name
  else dir ++ "/" ++ name

/-- A path backwards, without the slashes and lone dots that come first. -/
def trimBackwards : List Char → List Char
  | '/' :: cs => trimBackwards cs
  | '.' :: '/' :: cs => trimBackwards cs
  | cs => cs

/-- What stands before the last part of a path, and that part. -/
def splitLast (path : List Char) : List Char × List Char :=
  let cs := trimBackwards path.reverse
  ((cs.dropWhile (· != '/')).reverse, (cs.takeWhile (· != '/')).reverse)

/-- A part without its extension; absent if the part names nothing. -/
def stem? (part : List Char) : Option (List Char) :=
  if part = [] ∨ part = ['.'] ∨ part = ['.', '.'] then none
  else match Text.cutAt '.' part.reverse with
    | some (_, c :: cs) => some (c :: cs).reverse
    | _ => some part

/-- The path with another extension. The old one comes off first; where that leaves a last part
of two dots, it leads back up as two dots do and takes no other extension. -/
def withExtension (extension path : String) : String :=
  let (dir, part) := splitLast path.toList
  match stem? part with
  | some stem =>
    if stem = ['.'] ∧ dir ++ part = path.toList then .ofList (dir ++ ['.', '.'])
    else .ofList (dir ++ stem ++ '.' :: extension.toList)
  | none => path

end CanvasLayout.Files
