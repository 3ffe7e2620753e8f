import CanvasLayout.Command.Response

/-!
# The program

Looks at the files an invocation names, prints and saves what it comes to, and exits with its
status.
-/

namespace CanvasLayout.Main

/-- What went wrong with a file. -/
def fault : IO.Error → FileFault
  | .noFileOrDirectory .. => .notFound
  | .inappropriateType _ code _ => if code = 20 ∨ code + 20 = 0 then .notDirectory else .isDirectory
  | e => .other (toString e)

/-- What is found at a path. -/
def entry (path : String) : IO Entry := do
  match ← (IO.FS.readBinFile path).toBaseIO with
  | .ok bytes => return .file bytes.toList
  | .error e =>
    match fault e with
    | .isDirectory => return .directory
    | f => return .fault f

/-- What is found at some paths; at others there is nothing. -/
def look (paths : List String) : IO Files := do
  let found ← paths.mapM fun path => return (path, ← entry path)
  return fun path => (found.lookup path).getD (.fault .notFound)

/-- Saves the text of a response. -/
def save (r : Response) : IO Response := do
  let some (path, text) := r.saved | return r
  match ← (IO.FS.writeFile path text).toBaseIO with
  | .ok _ => return r
  | .error e => return { r with problem := some (.failure (.file (fault e))) }

/-- Runs the program on the words of its command line. -/
def run (words : List String) : IO UInt32 := do
  let invocation := Invocation.ofWords words
  let r ← save (invocation.respond (← look invocation.paths))
  IO.print r.printed
  IO.eprint r.complaint
  return r.status

end CanvasLayout.Main

/-- Runs the program. -/
def main (words : List String) : IO UInt32 := CanvasLayout.Main.run words
