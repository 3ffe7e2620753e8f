import CanvasLayout.Logged

/-!
# Files

What a reader sees of a file system: at each path a file with its bytes, a directory, or a
reason why there is neither.
-/

namespace CanvasLayout

/-- What is found at a path. -/
inductive Entry where
  | file (bytes : List UInt8)
  | directory
  | fault (f : FileFault)

/-- What is found at each path. -/
abbrev Files := String → Entry

namespace Files

/-- There is a file at the path. -/
def isFile (fs : Files) (path : String) : Bool :=
  match fs path with
  | .file _ => true
  | _ => false

/-- The bytes of the file at a path. -/
def bytes (fs : Files) (path : String) : Outcome (List UInt8) :=
  match fs path with
  | .file bs => .ok bs
  | .directory => .error (.file .isDirectory)
  | .fault f => .error (.file f)

/-- The text of the file at a path. -/
def text (fs : Files) (path : String) : Outcome String := do
  match Text.Utf8.decode (← fs.bytes path) with
  | .ok s => .ok s
  | .error _ => .error (.file .notUtf8)

end Files

end CanvasLayout
