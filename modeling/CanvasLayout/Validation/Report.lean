import CanvasLayout.Json.Printer
import CanvasLayout.Validation.Check

/-!
# Validation reports

The issues of a screen, counted, as text and as JSON.
-/

namespace CanvasLayout

/-- The issues found in a screen. -/
structure Report where
  issues : List (Issue Float)

/-- All that is wrong with a screen. -/
def Screen.validate (s : Screen) : Report := ⟨Validation.issues s.canvas s.layers⟩

namespace Report

/-- The number of issues of a severity. -/
def count (r : Report) (s : Severity) : Nat := r.issues.countP (·.severity = s)

/-- The number of errors. -/
def errors (r : Report) : Nat := r.count .error

/-- The number of warnings. -/
def warnings (r : Report) : Nat := r.count .warning

/-- There are no errors. -/
def isOk (r : Report) : Bool := r.errors == 0

/-- There are neither errors nor warnings. -/
def isOkStrict (r : Report) : Bool := r.issues.isEmpty

/-- There is an issue of the kind. -/
def has (r : Report) (code : IssueCode) : Bool := r.issues.any (·.code = code)

/-- The screen passes; if `strict`, warnings count too. -/
def passes (r : Report) (strict : Bool) : Bool := r.isOk && !(strict && 0 < r.warnings)

/-- The report as text. -/
def text (r : Report) : String :=
  if r.issues.isEmpty then "Validation passed: no issues found\n"
  else
    s!"Validation completed with {r.errors} error(s) and {r.warnings} warning(s):\n\n" ++
      String.join (r.issues.map fun i => "  " ++ i.describe ++ "\n")

/-- The report as a JSON value. -/
def json (r : Report) : Json :=
  .object
    [("error_count", .int r.errors), ("issues", .array (r.issues.map Issue.json)),
      ("warning_count", .int r.warnings)]

end Report

end CanvasLayout
