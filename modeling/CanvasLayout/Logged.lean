import CanvasLayout.Failure

/-!
# Results with a log

An operation on a document ends in a value or a failure and leaves log lines either way.
The outcome does not depend on the lines: `outcome` carries the sequencing of `Logged` to
the sequencing of plain results, so statements about outcomes can ignore the log.
-/

namespace CanvasLayout

/-- How much a log line matters. -/
inductive Level where
  | warn
  | info
  | debug
  deriving DecidableEq, Repr

/-- The level's name. -/
def Level.name : Level → String
  | warn => "warn"
  | info => "info"
  | debug => "debug"

/-- A line of the log. -/
structure Line where
  level : Level
  message : String
  deriving DecidableEq, Repr

/-- The result of an operation. -/
abbrev Outcome := Except Failure

/-- An outcome and the log lines that lead to it. -/
structure Logged (α : Type) where
  outcome : Outcome α
  lines : List Line := []

namespace Logged

variable {α β : Type}

/-- The second operation after the first, or the first one's failure. -/
protected def bind (x : Logged α) (f : α → Logged β) : Logged β :=
  match x.outcome with
  | .error e => ⟨.error e, x.lines⟩
  | .ok a => ⟨(f a).outcome, x.lines ++ (f a).lines⟩

instance : Monad Logged where
  pure a := ⟨.ok a, []⟩
  bind := Logged.bind

/-- A failure. -/
def fail (e : Failure) : Logged α := ⟨.error e, []⟩

/-- An outcome without log lines. -/
def lift (x : Outcome α) : Logged α := ⟨x, []⟩

/-- Log lines. -/
def notes (lines : List Line) : Logged Unit := ⟨.ok (), lines⟩

/-- A log line. -/
def note (level : Level) (message : String) : Logged Unit := notes [⟨level, message⟩]

@[simp] theorem outcome_pure (a : α) : (pure a : Logged α).outcome = .ok a := rfl

@[simp] theorem outcome_fail (e : Failure) : (fail e : Logged α).outcome = .error e := rfl

@[simp] theorem outcome_lift (x : Outcome α) : (lift x).outcome = x := rfl

@[simp] theorem outcome_notes (lines : List Line) : (notes lines).outcome = .ok () := rfl

@[simp] theorem outcome_note (l : Level) (s : String) : (note l s).outcome = .ok () := rfl

/-- The outcome of two steps is that of the second after the first; the log has no part in it. -/
@[simp] theorem outcome_bind (x : Logged α) (f : α → Logged β) :
    (x >>= f).outcome = x.outcome.bind fun a => (f a).outcome := by
  simp only [bind, Logged.bind, Except.bind]
  cases x.outcome <;> rfl

end Logged

end CanvasLayout
