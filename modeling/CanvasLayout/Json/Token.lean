import CanvasLayout.Decimal.Numeral
import CanvasLayout.Json.Fault

/-!
# Tokens of JSON

Numbers and strings as they are written, taken apart but not judged: whether a number is in
range, or whether the escapes of a string make up characters, is asked only of the tokens
that are wanted. A text is a list of characters with gaps for bytes that spell none.
-/

namespace CanvasLayout.Json

/-- A character, or a byte that belongs to none. -/
abbrev Symbol := Option Char

/-- A number as written. -/
inductive NumberToken where
  | whole (negative : Bool) (digits : Nat)
  /-- A number with a fraction or an exponent. -/
  | decimal (n : Decimal.Numeral)
  /-- The text ends where a digit is needed. -/
  | cut
  deriving DecidableEq, Repr

/-- A piece of a string as written. -/
inductive Piece where
  | char (c : Char)
  /-- A code unit by its four hexadecimal digits. -/
  | unit (n : Nat)
  /-- A byte that belongs to no character. -/
  | stray
  deriving DecidableEq, Repr

/-- A string as written. -/
structure StringToken where
  pieces : List Piece
  /-- Why the string stops before its closing quote, if it does. -/
  stop : Option Fault
  deriving DecidableEq, Repr

/-- The white space of JSON. -/
def isSpace (s : Symbol) : Bool :=
  s == some ' ' || s == some '\n' || s == some '\t' || s == some '\r'

/-- The text from its first symbol that is not white space. -/
def skipSpace (cs : List Symbol) : List Symbol := cs.dropWhile isSpace

/-- The digits at the start of a text and what follows them. -/
def digitRun : List Symbol → List Char × List Symbol
  | some c :: cs =>
    if c.isDigit then
      let (ds, rest) := digitRun cs
      (c :: ds, rest)
    else ([], some c :: cs)
  | cs => ([], cs)

/-- At least one digit and what follows. -/
def someDigits (cs : List Symbol) : Except Fault (List Char × List Symbol) :=
  match digitRun cs with
  | ([], []) => .error .ended
  | ([], _) => .error .malformed
  | run => .ok run

/-- The digits after a point, if there is one. -/
def fractionDigits : List Symbol → Except Fault (Option (List Char) × List Symbol)
  | some '.' :: cs => (someDigits cs).map fun (ds, rest) => (some ds, rest)
  | cs => .ok (none, cs)

/-- A sign and what follows. -/
def signOf : List Symbol → Bool × List Symbol
  | some '-' :: cs => (true, cs)
  | some '+' :: cs => (false, cs)
  | cs => (false, cs)

/-- An exponent, if there is one. -/
def exponentPart : List Symbol → Except Fault (Option Int × List Symbol)
  | some c :: cs =>
    if c = 'e' ∨ c = 'E' then
      let (negative, cs) := signOf cs
      (someDigits cs).map fun (ds, rest) =>
        let n : Int := Decimal.digitsValue ds
        (some (if negative then -n else n), rest)
    else .ok (none, some c :: cs)
  | [] => .ok (none, [])
  | cs => .ok (none, cs)

/-- A run of digits without a needless zero in front. -/
def isPlainRun : List Char → Bool
  | '0' :: _ :: _ => false
  | _ => true

/-- The number that a text starts with. -/
def scanNumber (cs : List Symbol) : Except Fault (NumberToken × List Symbol) := do
  let (negative, cs) := match cs with
    | some '-' :: cs => (true, cs)
    | cs => (false, cs)
  let (whole, cs) ← someDigits cs
  if !isPlainRun whole then .error .malformed
  else
    let (fraction, cs) ← fractionDigits cs
    let (exponent, cs) ← exponentPart cs
    match fraction, exponent with
    | none, none => .ok (.whole negative (Decimal.digitsValue whole), cs)
    | _, _ =>
      let ds := fraction.getD []
      .ok (.decimal ⟨negative, Decimal.digitsValue (whole ++ ds), exponent.getD 0 - ds.length⟩, cs)

/-- The character that a letter stands for after a backslash. -/
def escaped? : Char → Option Char
  | '"' => some '"'
  | '\\' => some '\\'
  | '/' => some '/'
  | 'b' => some '\x08'
  | 'f' => some '\x0c'
  | 'n' => some '\n'
  | 'r' => some '\r'
  | 't' => some '\t'
  | _ => none

/-- The value of four hexadecimal digits. -/
def unit? (a b c d : Symbol) : Option Nat := do
  let a ← Text.hexDigit? (← a)
  let b ← Text.hexDigit? (← b)
  let c ← Text.hexDigit? (← c)
  let d ← Text.hexDigit? (← d)
  return ((16 * a + b) * 16 + c) * 16 + d

/-- The number of bytes of a text. -/
def byteCount (cs : List Symbol) : Nat :=
  cs.foldl (fun n c => n + (c.map Char.utf8Size).getD 1) 0

/-- Why four digits cannot be read: the text has not four bytes left, or they are others. -/
def unitFault (cs : List Symbol) : Fault :=
  if byteCount cs < 4 then .ended else .malformed

/-- The string without pieces that stops for a reason. -/
def StringToken.stopped (f : Fault) : StringToken := ⟨[], some f⟩

/-- The string with one more piece in front. -/
def StringToken.cons (p : Piece) (t : StringToken) : StringToken := ⟨p :: t.pieces, t.stop⟩

/-- The string after its opening quote, and what follows it. -/
def scanString : List Symbol → StringToken × List Symbol
  | [] => (.stopped .ended, [])
  | none :: cs =>
    let (t, rest) := scanString cs
    (t.cons .stray, rest)
  | some '"' :: cs => (⟨[], none⟩, cs)
  | [some '\\'] => (.stopped .ended, [])
  | some '\\' :: some 'u' :: a :: b :: c :: d :: cs =>
    match unit? a b c d with
    | some n =>
      let (t, rest) := scanString cs
      (t.cons (.unit n), rest)
    | none => (.stopped .malformed, [])
  | some '\\' :: some 'u' :: cs => (.stopped (unitFault cs), [])
  | some '\\' :: c :: cs =>
    match c.bind escaped? with
    | some c =>
      let (t, rest) := scanString cs
      (t.cons (.char c), rest)
    | none => (.stopped .malformed, [])
  | some c :: cs =>
    if c.toNat < 32 then (.stopped .malformed, [])
    else
      let (t, rest) := scanString cs
      (t.cons (.char c), rest)

/-- The code unit starts a pair. -/
def isHighUnit (n : Nat) : Bool := 0xD800 ≤ n && n < 0xDC00

/-- The code unit ends a pair. -/
def isLowUnit (n : Nat) : Bool := 0xDC00 ≤ n && n < 0xE000

/-- The character of a pair of code units. -/
def pairChar (high low : Nat) : Char :=
  Char.ofNat (0x10000 + (high - 0xD800) * 1024 + (low - 0xDC00))

/-- The characters that pieces make up. A half of a pair that stands alone is a fault; at the
end of the pieces it is the text's end that counts, if that is why they end. -/
def joinPieces (stop : Option Fault) : List Piece → Except Fault (List Symbol)
  | [] => .ok []
  | .char c :: ps => (joinPieces stop ps).map (some c :: ·)
  | .stray :: ps => (joinPieces stop ps).map (none :: ·)
  | [.unit n] =>
    if isHighUnit n then .error (if stop = some .ended then .ended else .malformed)
    else if isLowUnit n then .error .malformed
    else .ok [some (Char.ofNat n)]
  | .unit n :: p :: ps =>
    if isHighUnit n then
      match p with
      | .unit m =>
        if isLowUnit m then (joinPieces stop ps).map (some (pairChar n m) :: ·)
        else .error .malformed
      | _ => .error .malformed
    else if isLowUnit n then .error .malformed
    else (joinPieces stop (p :: ps)).map (some (Char.ofNat n) :: ·)

/-- The text of a string, or the first fault that reading it meets: the pieces come first,
then why the string stops, and whether all bytes belong to characters is asked last. -/
def StringToken.text (t : StringToken) : Except Fault String := do
  let cs ← joinPieces t.stop t.pieces
  match t.stop with
  | some f => .error f
  | none => if cs.all Option.isSome then .ok (.ofList cs.reduceOption) else .error .malformed

end CanvasLayout.Json
