import CanvasLayout.Decimal.Shortest

/-!
# Numbers as text

The shortest digits of a number, laid out with a point or with an exponent. A `Style` is
what distinguishes the places where numbers are written: the interchange format, running
text, and the display of a value's structure.
-/

namespace CanvasLayout.Decimal

/-- Where the point stands and how exponents look. Numbers whose leading digit stands at
`10 ^ low` up to `10 ^ high` are written with a point, others with an exponent; absent
bounds never lead to an exponent. -/
structure Style where
  low : Option Int
  high : Option Int
  /-- Whole numbers end in `.0`. -/
  keepFraction : Bool
  /-- Positive exponents carry a sign. -/
  plus : Bool
  /-- Which of two equally near shortest decimals is taken. -/
  tie : Tie

/-- Numbers in the interchange format. -/
def Style.interchange : Style := ⟨some (-5), some 15, true, true, .toEven⟩

/-- Numbers in running text. -/
def Style.plain : Style := ⟨none, none, false, false, .up⟩

/-- Numbers where the structure of a value is displayed. -/
def Style.structural : Style := ⟨some (-4), some 15, true, false, .up⟩

/-- The decimal digits of a natural number. -/
def digitsOf (n : Nat) : List Char := Nat.toDigits 10 n

/-- An integer in decimal. -/
def integer (n : Int) : List Char :=
  if n < 0 then '-' :: digitsOf n.natAbs else digitsOf n.natAbs

/-- `digits * 10 ^ exponent` with a point where one is needed. -/
def Magnitude.positional (m : Magnitude) (keepFraction : Bool) : List Char :=
  let ds := digitsOf m.digits
  if 0 ≤ m.exponent then
    ds ++ List.replicate m.exponent.natAbs '0' ++ if keepFraction then ['.', '0'] else []
  else
    let padded := List.replicate (m.exponent.natAbs + 1 - ds.length) '0' ++ ds
    let whole := padded.length - m.exponent.natAbs
    padded.take whole ++ '.' :: padded.drop whole

/-- `digits * 10 ^ exponent` with one digit before the point and an exponent. -/
def Magnitude.scientific (m : Magnitude) (plus : Bool) : List Char :=
  match digitsOf m.digits with
  | [] => []
  | d :: ds =>
    let e := m.exponent + ds.length
    d :: (if ds.isEmpty then [] else '.' :: ds) ++
      'e' :: (if plus && 0 ≤ e then ['+'] else []) ++ integer e

/-- A magnitude in a style. -/
def Style.layout (s : Style) (m : Magnitude) : List Char :=
  let lead := m.exponent + (digitsOf m.digits).length - 1
  let withPoint := m.digits == 0 ||
    (s.low.all (· ≤ lead) && s.high.all (lead ≤ ·))
  if withPoint then m.positional s.keepFraction else m.scientific s.plus

/-- The names of the numbers that are not finite. -/
def special (x : Float) : String :=
  if x.isNaN then "NaN" else if x < 0 then "-inf" else "inf"

/-- The characters of a finite number in a style. -/
def Style.chars (s : Style) (x : Float) : List Char :=
  (if (Binary.ofFloat x).negative then ['-'] else []) ++ s.layout (shortest s.tie x)

/-- A number in a style. -/
def Style.show (s : Style) (x : Float) : String :=
  if x.isFinite then .ofList (s.chars x) else special x

/-- A number rounded to a fixed count of decimal places, exact ties to the even neighbour. -/
def fixed (places : Nat) (x : Float) : String :=
  if !x.isFinite then special x
  else
    let b := Binary.ofFloat x
    let (n, d) := b.overPower (-places)
    let ds := digitsOf (divToEven n d)
    let padded := List.replicate (places + 1 - ds.length) '0' ++ ds
    let whole := padded.length - places
    .ofList ((if b.negative then ['-'] else []) ++ padded.take whole ++
      (if places = 0 then [] else '.' :: padded.drop whole))

end CanvasLayout.Decimal
