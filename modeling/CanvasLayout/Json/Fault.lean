/-!
# Why a JSON text cannot be read
-/

namespace CanvasLayout.Json

/-- Why a JSON text cannot be read: it is not JSON, it ends too early, or it has a shape
other than the expected one. -/
inductive Fault where
  | malformed
  | ended
  | mismatch
  deriving DecidableEq, Repr

/-- The fault in one word. -/
def Fault.name : Fault → String
  | malformed => "syntax"
  | ended => "eof"
  | mismatch => "data"

end CanvasLayout.Json
