import CanvasLayout.Text.Blank
import CanvasLayout.Text.Ascii

/-!
# Reading decimals

A `Numeral` is a decimal as it is written: a sign, digits without a point and a power of
ten. `toFloat` is the nearest number, a tie going to the even significand; magnitudes far
outside the range are settled without computing the power. `numeral?` is the grammar of
attribute values: an optional sign, digits with an optional point on either side of or
among them, and an optional exponent.
-/

namespace CanvasLayout.Decimal

/-- The number `± digits * 10 ^ exponent`. -/
structure Numeral where
  negative : Bool
  digits : Nat
  exponent : Int
  deriving DecidableEq, Repr

/-- The nearest number to a magnitude; infinite above the range. -/
def Numeral.magnitude (n : Numeral) : Float :=
  let size := (Nat.toDigits 10 n.digits).length + n.exponent
  if n.digits = 0 ∨ size < -330 then 0
  else if 310 < size then 1 / 0
  else Float.ofScientific n.digits (n.exponent < 0) n.exponent.natAbs

/-- The nearest number; infinite above the range. -/
def Numeral.toFloat (n : Numeral) : Float :=
  if n.negative then -n.magnitude else n.magnitude

/-- The value of a run of decimal digits. -/
def digitsValue (ds : List Char) : Nat :=
  ds.foldl (fun n c => 10 * n + (c.toNat - 48)) 0

/-- A sign and what follows it. -/
def splitSign : List Char → Bool × List Char
  | '-' :: cs => (true, cs)
  | '+' :: cs => (false, cs)
  | cs => (false, cs)

/-- A run of digits and what follows it. -/
def splitDigits (cs : List Char) : List Char × List Char :=
  (cs.takeWhile Char.isDigit, cs.dropWhile Char.isDigit)

/-- What follows the digits: nothing, or an exponent with at least one digit. -/
def exponent? : List Char → Option Int
  | [] => some 0
  | c :: cs =>
    if c = 'e' ∨ c = 'E' then
      let (negative, ds) := splitSign cs
      (Text.natural? ds).map fun n => if negative then -n else n
    else none

/-- The decimal that `cs` spells. -/
def numeral? (cs : List Char) : Option Numeral :=
  let (negative, cs) := splitSign cs
  let (whole, cs) := splitDigits cs
  let (fraction, cs) :=
    match cs with
    | '.' :: cs => splitDigits cs
    | cs => ([], cs)
  if whole.isEmpty && fraction.isEmpty then none
  else (exponent? cs).map fun e =>
    ⟨negative, digitsValue (whole ++ fraction), e - fraction.length⟩

/-- A finite number with an optional `px` after it and white space around both. -/
def measure? (s : String) : Option Float :=
  let body := Text.dropEnding ['p', 'x'] (Text.trimChars s.toList)
  let value := (numeral? (Text.dropEndWhile Text.isBlank body)).map Numeral.toFloat
  value.filter (·.isFinite)

/-- A number below `bound` in decimal digits, with an optional plus sign. -/
def count? (bound : Nat) (cs : List Char) : Option Nat :=
  let digits := match cs with | '+' :: ds => ds | ds => ds
  (Text.natural? digits).filter (· < bound)

end CanvasLayout.Decimal
