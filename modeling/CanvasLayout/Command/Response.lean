import CanvasLayout.Command.Invocation
import CanvasLayout.Files.Reader
import CanvasLayout.Files.Tree
import CanvasLayout.Inspection.Display
import CanvasLayout.Validation.Report

/-!
# Responses

What a command prints, what it saves, and what went wrong, as far as the files it looks at
decide it.
-/

namespace CanvasLayout

/-- What went wrong with a command line. -/
inductive Problem where
  | usage
  | failure (f : Failure)

/-- What a command line brings about. -/
structure Response where
  printed : String := ""
  /-- A path and the text to save there. -/
  saved : Option (String × String) := none
  problem : Option Problem := none

namespace Response

/-- Only an output. -/
def printing (s : String) : Response := { printed := s }

/-- Only a failure. -/
def failing (f : Failure) : Response := { problem := some (.failure f) }

/-- How to use the program. -/
def usage : String :=
  "Usage: artboard parse <SVG> [--overrides <FILE>] [--artboard <ID>] [-o <FILE>]\n" ++
  "       artboard validate <IR> [--strict] [--output <text|json>]\n" ++
  "       artboard inspect <SVG> [--overrides <FILE>] [--artboard <ID>]\n"

/-- The exit status. -/
def status (r : Response) : UInt32 :=
  match r.problem with
  | none => 0
  | some (.failure _) => 1
  | some .usage => 2

/-- What is printed about the problem. -/
def complaint (r : Response) : String :=
  match r.problem with
  | none => ""
  | some (.failure f) => "Error: " ++ f.message ++ "\n"
  | some .usage => usage

end Response

/-- The screen of the drawing. -/
def DrawingSource.screen (s : DrawingSource) (fs : Files) : Outcome Screen :=
  (fs.load s.path s.overrides s.artboard).outcome

namespace Command

/-- The report in a format. -/
def inFormat (r : Report) : String → Outcome String
  | "json" => .ok (r.json.pretty ++ "\n")
  | "text" => .ok r.text
  | other => .error (.unsupportedFormat other)

/-- What a report in a format comes to. -/
def reporting (r : Report) (strict : Bool) (format : String) : Response :=
  match inFormat r format with
  | .error f => .failing f
  | .ok text =>
    if r.passes strict then .printing text
    else { Response.failing (.validation r.errors r.warnings) with printed := text }

/-- What the command comes to, given the files. -/
def run (fs : Files) : Command → Response
  | parse source output =>
    match source.screen fs with
    | .error f => .failing f
    | .ok s =>
      match output with
      | none => .printing (s.text ++ "\n")
      | some path => { saved := some (path, s.text) }
  | validate path strict format =>
    match fs.screen path with
    | .error f => .failing f
    | .ok s => reporting s.validate strict format
  | inspect source =>
    match source.screen fs with
    | .error f => .failing f
    | .ok s => .printing (s.summary.text Inspection.defaultBarWidth)

end Command

namespace Invocation

/-- What the invocation comes to, given the files. -/
def respond (fs : Files) : Invocation → Response
  | command c => c.run fs
  | banner => .printing
      ("artboard 0.1.0\n\nDesign canvas to layout IR.\n\n" ++
        "Run 'artboard --help' for usage information.\n")
  | help => .printing Response.usage
  | version none => .printing "artboard 0.1.0\n"
  | version (some name) => .printing ("artboard-" ++ name ++ " 0.1.0\n")
  | mistake => { problem := some .usage }

/-- The paths at which the invocation may look. -/
def paths : Invocation → List String
  | command (.parse s _) => [s.path, s.overrides.getD (Files.withExtension "json" s.path)]
  | command (.inspect s) => [s.path, s.overrides.getD (Files.withExtension "json" s.path)]
  | command (.validate path _ _) => [path]
  | _ => []

/-- What is found elsewhere does not matter. -/
theorem respond_congr {fs gs : Files} (i : Invocation)
    (h : ∀ p ∈ i.paths, fs p = gs p) : i.respond fs = i.respond gs := by
  match i with
  | command (.parse s _) | command (.inspect s) =>
    simp only [paths, List.mem_cons, List.not_mem_nil, or_false, forall_eq_or_imp, forall_eq] at h
    simp only [respond, Command.run, DrawingSource.screen, Files.load_congr s.artboard h.1 h.2]
  | command (.validate path _ _) =>
    simp only [paths, List.mem_singleton, forall_eq] at h
    simp only [respond, Command.run, Files.screen, h]
  | banner | help | version _ | mistake => first | rfl | (cases ‹Option String› <;> rfl)

end Invocation

/-- The tree after what a response saves, and the response; a text that cannot be saved is
its failure. -/
def Response.saveIn (r : Response) (t : Tree) : Tree × Response :=
  match r.saved with
  | none => (t, r)
  | some (path, text) =>
    match t.save path text.toUTF8.toList with
    | .ok t => (t, r)
    | .error f => (t, { r with saved := none, problem := some (.failure (.file f)) })

/-- The tree after an invocation at its top, and the response. -/
def Invocation.runIn (t : Tree) (i : Invocation) : Tree × Response :=
  (i.respond t.entry).saveIn t

end CanvasLayout
