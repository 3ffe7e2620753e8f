/-!
# Numbers as binary fractions

A finite number is a sign and a natural number times a power of two. This view, taken from
the bits, is what the decimal texts and the rounding to whole numbers are computed from, in
exact integer arithmetic.
-/

namespace CanvasLayout.Decimal

/-- The number `± significand * 2 ^ exponent`. -/
structure Binary where
  negative : Bool
  significand : Nat
  exponent : Int
  deriving DecidableEq, Repr

/-- The significand of the smallest normal number in a range of one binade. -/
def binadeStart : Nat := Nat.pow 2 52

/-- The exponent of the subnormal numbers. -/
def leastExponent : Int := -1074

/-- The binary fraction that a finite number is. -/
def Binary.ofFloat (x : Float) : Binary :=
  let bits := x.toBits.toNat
  let fraction := bits % binadeStart
  let biased := bits / binadeStart % 2048
  { negative := UInt64.size ≤ 2 * bits
    significand := if biased = 0 then fraction else fraction + binadeStart
    exponent := if biased = 0 then leastExponent else biased - 1075 }

/-- The quotient rounded to the nearest whole number, a tie to the even one. -/
def divToEven (a b : Nat) : Nat :=
  let q := a / b
  let twice := 2 * (a % b)
  if twice < b ∨ (twice = b ∧ q % 2 = 0) then q else q + 1

/-- The quotient rounded to the nearest whole number, a tie to the greater one. -/
def divHalfUp (a b : Nat) : Nat :=
  (2 * a + b) / (2 * b)

/-- What becomes of a quotient exactly between two whole numbers. -/
inductive Tie where
  | toEven
  | up
  deriving DecidableEq, Repr

/-- The quotient rounded to the nearest whole number. -/
def Tie.round : Tie → Nat → Nat → Nat
  | .toEven => divToEven
  | .up => divHalfUp

/-- The nearest whole number; a half goes away from zero, and a negative number that rounds
to zero keeps its sign. -/
def roundHalfAway (x : Float) : Float :=
  if !x.isFinite then x
  else
    let b := Binary.ofFloat x
    if 0 ≤ b.exponent then x
    else
      let scale := Nat.pow 2 b.exponent.natAbs
      let whole := Float.ofNat (divHalfUp b.significand scale)
      if b.negative then -whole else whole

/-- The position of a number in the total order of bit patterns: negative numbers by falling
magnitude, then positive ones by rising magnitude, `-0` just before `0` and NaN last. There is one
NaN only, a `Float` not telling the bit patterns of undefined numbers apart. -/
def totalRank (x : Float) : Int :=
  let bits := x.toBits.toNat
  let half := UInt64.size / 2
  if bits < half then bits else (half : Int) - 1 - bits

end CanvasLayout.Decimal
