import CanvasLayout.Drawing.Screen
import CanvasLayout.Files.Entry
import CanvasLayout.Files.Path
import CanvasLayout.Interchange.Text

/-!
# Reading screens from files

A drawing may have an override document beside it, under the same name with another
extension. The document is read before the drawing, so its faults come first.
-/

namespace CanvasLayout.Files

/-- The overrides in the document at a path. -/
def overrides (fs : Files) (path : String) : Logged Overrides := do
  let bytes ← Logged.lift (fs.bytes path)
  Overrides.read path (.ofBytes bytes)

/-- The screen of the drawing at a path, with the override document at another path if there
is one, and with the artboard of the given name. -/
def drawing (fs : Files) (path : String) (document artboard : Option String) : Logged Screen := do
  let table ← match document with
    | some document => fs.overrides document
    | none => pure .empty
  let text ← Logged.lift (fs.text path)
  Drawing.screen path table artboard text

/-- The path, if there is a file. -/
def ifFile (fs : Files) (path : String) : Option String :=
  if fs.isFile path then some path else none

/-- The screen of the artboard of a name in a directory. -/
def artboard (fs : Files) (dir name : String) : Logged Screen :=
  fs.drawing (join dir (name ++ ".svg")) (fs.ifFile (join dir (name ++ ".json"))) none

/-- The screen of the drawing at a path, with the given override document or else the one
beside it. -/
def load (fs : Files) (path : String) (document artboard : Option String) : Logged Screen :=
  fs.drawing path (document.or (fs.ifFile (withExtension "json" path))) artboard

/-- Loading looks at the drawing and at one override document. -/
theorem load_congr {fs gs : Files} {path : String} {document : Option String}
    (artboard : Option String) (hp : fs path = gs path)
    (hd : fs (document.getD (withExtension "json" path)) =
      gs (document.getD (withExtension "json" path))) :
    fs.load path document artboard = gs.load path document artboard := by
  cases document with
  | none =>
    simp only [Option.getD_none] at hd
    have hf : fs.ifFile (withExtension "json" path) = gs.ifFile (withExtension "json" path) := by
      rw [ifFile, ifFile, isFile, isFile, hd]
    simp only [load, drawing, Option.none_or, hf, text, bytes, hp]
    cases h : gs.ifFile (withExtension "json" path) with
    | none => rfl
    | some d =>
      have : d = withExtension "json" path := by
        rw [ifFile] at h
        split at h <;> simp_all
      subst this
      simp only [overrides, bytes, hd]
  | some d =>
    simp only [Option.getD_some] at hd
    simp only [load, drawing, Option.some_or, overrides, text, bytes, hp, hd]

/-- The screen in the interchange file at a path. -/
def screen (fs : Files) (path : String) : Outcome Screen :=
  match fs path with
  | .fault f => .error (.file f)
  | .directory => .error (.screen path .malformed)
  | .file bytes =>
    match Screen.ofBytes bytes with
    | .ok s => .ok s
    | .error f => .error (.screen path f)

end CanvasLayout.Files
