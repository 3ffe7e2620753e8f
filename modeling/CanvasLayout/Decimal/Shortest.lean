import CanvasLayout.Decimal.Binary

/-!
# The shortest decimal that reads back

Every decimal in the interval of reals that round to a number reads back as that number;
the interval's ends belong to it when the significand is even. `shortest` tries grids of
one, two, … seventeen digits and takes the first that has a point in the interval, of two
such points the nearer one. Where the number lies exactly between the two, the caller says
which of them it wants.
-/

namespace CanvasLayout.Decimal

/-- The number `digits * 10 ^ exponent`. -/
structure Magnitude where
  digits : Nat
  exponent : Int
  deriving DecidableEq, Repr

/-- The quotient `a / b` of naturals that equals `significand * 2 ^ exponent / 10 ^ power`. -/
def Binary.overPower (b : Binary) (power : Int) : Nat × Nat :=
  (b.significand * (if 0 ≤ b.exponent then Nat.pow 2 b.exponent.natAbs else 1) *
      (if power < 0 then Nat.pow 10 power.natAbs else 1),
    (if 0 ≤ b.exponent then 1 else Nat.pow 2 b.exponent.natAbs) *
      (if power < 0 then 1 else Nat.pow 10 power.natAbs))

/-- The number is at least `10 ^ power`. -/
def Binary.reaches (b : Binary) (power : Int) : Bool :=
  let (n, d) := b.overPower power
  d ≤ n

/-- The power of ten just below or at a number that is not zero. -/
def Binary.magnitude (b : Binary) : Int :=
  let guess := ((b.significand.log2 : Int) + b.exponent) * 1233 / 4096
  if b.reaches (guess + 1) then guess + 1
  else if b.reaches guess then guess
  else guess - 1

/-- `t` times the grid's step rounds to the number, where `n / d` is the number measured in
steps. The quarter of a unit in the last place is `n / (4 * significand)`. -/
def Binary.hits (b : Binary) (n d t : Nat) : Bool :=
  let m := b.significand
  let below := if m = binadeStart ∧ leastExponent < b.exponent then 1 else 2
  let point := 4 * m * t * d
  let low := (4 * m - below) * n
  let high := (4 * m + 2) * n
  if m % 2 = 0 then low ≤ point && point ≤ high else low < point && point < high

/-- The point of the grid with step `10 ^ power` that stands for the number, if there is one. -/
def Binary.onGrid (tie : Tie) (b : Binary) (power : Int) : Option Nat :=
  let (n, d) := b.overPower power
  let t := n / d
  match b.hits n d t, b.hits n d (t + 1) with
  | true, true => some (tie.round n d)
  | true, false => some t
  | false, true => some (t + 1)
  | false, false => none

/-- The first hit on grids of `count` digits and more, with `fuel` grids to try. -/
def Binary.firstHit (tie : Tie) (b : Binary) (top : Int) : Nat → Nat → Magnitude
  | 0, _ => ⟨b.significand, 0⟩
  | fuel + 1, count =>
    let power := top - count + 1
    match b.onGrid tie power with
    | some t => ⟨t, power⟩
    | none => b.firstHit tie top fuel (count + 1)

/-- A magnitude without zeros at the end of its digits, with `fuel` digits to look at. -/
def Magnitude.stripZeros : Nat → Magnitude → Magnitude
  | 0, m => m
  | fuel + 1, m =>
    if m.digits ≠ 0 ∧ m.digits % 10 = 0 then stripZeros fuel ⟨m.digits / 10, m.exponent + 1⟩ else m

/-- The shortest decimal that reads back as the magnitude of a finite number. -/
def shortest (tie : Tie) (x : Float) : Magnitude :=
  let b := Binary.ofFloat x
  if b.significand = 0 then ⟨0, 0⟩ else (b.firstHit tie b.magnitude 17 1).stripZeros 20

end CanvasLayout.Decimal
