import CanvasLayout.Text.Blank
import CanvasLayout.Text.Ascii

/-!
# Colors

Opaque colors as documents write them: `#RRGGBB` or `#RGB`, the mark being optional. A
channel of the long form is read as a number, so a plus sign may stand in place of its
first digit.
-/

namespace CanvasLayout

/-- An opaque color. -/
structure Rgb where
  red : UInt8
  green : UInt8
  blue : UInt8
  deriving DecidableEq, Repr

namespace Rgb

/-- The background of a canvas that names none. -/
def white : Rgb := ⟨255, 255, 255⟩

/-- The value of a channel of the short form: one digit, which counts twice. -/
def shortChannel? (c : Char) : Option UInt8 :=
  (Text.hexDigit? c).map fun d => .ofNat (17 * d)

/-- The value of a channel of the long form: two digits, or a plus sign and one digit. -/
def longChannel? (a b : Char) : Option UInt8 := do
  let high ← if a = '+' then some 0 else Text.hexDigit? a
  let low ← Text.hexDigit? b
  return .ofNat (16 * high + low)

/-- The color that the digits after the mark spell. -/
def ofDigits? : List Char → Option Rgb
  | [r, g, b] => return ⟨← shortChannel? r, ← shortChannel? g, ← shortChannel? b⟩
  | [r, r', g, g', b, b'] =>
    return ⟨← longChannel? r r', ← longChannel? g g', ← longChannel? b b'⟩
  | _ => none

/-- The color that a text spells, white space around it aside. -/
def ofHex? (s : String) : Option Rgb :=
  match Text.trimChars s.toList with
  | '#' :: cs => ofDigits? cs
  | cs => ofDigits? cs

/-- A channel as two upper case digits. -/
def channelHex (n : UInt8) : List Char := Text.hexadecimal true 2 n.toNat

/-- The color as `#RRGGBB`. -/
def toHex (c : Rgb) : String :=
  .ofList ('#' :: channelHex c.red ++ channelHex c.green ++ channelHex c.blue)

/-- The color's structure as text. -/
def describe (c : Rgb) : String := s!"Rgb({c.red}, {c.green}, {c.blue})"

end Rgb

end CanvasLayout
