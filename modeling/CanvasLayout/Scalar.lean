import CanvasLayout.Decimal.Binary

/-!
# The numbers geometry is done with

Frames, gaps and anchors need little of a number: the four operations, comparison, an order
to sort by. `Scalar` asks for just that, so the same geometry runs on floating-point
numbers and can be stated over exact ones.
-/

namespace CanvasLayout

/-- What geometry asks of a number. Of floating-point numbers there is a single undefined one, so the
order does not see the sign and the payload that an undefined number may have in IEEE 754. -/
class Scalar (α : Type) extends Add α, Sub α, Mul α, Div α where
  /-- A count of pixels. -/
  ofNat : Nat → α
  /-- Strict comparison, false when either side is undefined. -/
  lt : α → α → Bool
  /-- Comparison, false when either side is undefined. -/
  le : α → α → Bool
  /-- The larger of two numbers, a defined one if only one is. -/
  max : α → α → α
  /-- The smaller of two numbers, a defined one if only one is. -/
  min : α → α → α
  abs : α → α
  isFinite : α → Bool
  /-- The sum of two defined numbers is undefined. -/
  opposed : α → α → Bool
  /-- A total order to sort by. -/
  rankLE : α → α → Bool
  /-- The relative difference that counts as agreement. -/
  tolerance : α

namespace Scalar

/-- The larger of two floating-point numbers, a number if only one is. -/
def floatMax (a b : Float) : Float :=
  if a.isNaN then b else if b.isNaN then a else if a < b then b else a

/-- The smaller of two floating-point numbers, a number if only one is. -/
def floatMin (a b : Float) : Float :=
  if a.isNaN then b else if b.isNaN then a else if b < a then b else a

instance : Scalar Float where
  ofNat := Float.ofNat
  lt a b := a < b
  le a b := a ≤ b
  max := floatMax
  min := floatMin
  abs a := if a < 0 then -a else a
  isFinite := Float.isFinite
  opposed a b := (a + b).isNaN && !a.isNaN && !b.isNaN
  rankLE a b := Decimal.totalRank a ≤ Decimal.totalRank b
  tolerance := 1e-6

variable {α : Type} [Scalar α]

/-- A number is not negative. -/
def nonneg (a : α) : Bool := le (ofNat 0) a

/-- A number is below zero. -/
def negative (a : α) : Bool := lt a (ofNat 0)

/-- Two numbers differ by at most the tolerance, measured against the larger of them and one. -/
def close (a b : α) : Bool :=
  le (abs (a - b)) (tolerance * max (max (abs a) (abs b)) (ofNat 1))

theorem rankLE_float_total (a b : Float) : rankLE a b || rankLE b a := by
  simp only [rankLE, Bool.or_eq_true, decide_eq_true_eq]
  exact Int.le_total _ _

theorem rankLE_float_trans {a b c : Float} (h : rankLE a b) (h' : rankLE b c) :
    rankLE a c := by
  simp only [rankLE, decide_eq_true_eq] at *
  exact Int.le_trans h h'

end Scalar

end CanvasLayout
