/-!
# Reading bytes as UTF-8

A machine that takes one byte at a time. `State` is what an unfinished character still
needs: how many bytes it has, how many are missing, between which bounds the next must lie,
and the bits so far. `decode` stops at the first byte that cannot continue and tells where
the broken sequence starts and how long it is; `symbols` goes on and leaves a gap (`none`)
for each byte of a broken sequence, for readers that may skip the text it stands in.
-/

namespace CanvasLayout.Text.Utf8

/-- Where a byte sequence stops being UTF-8. `length` is the number of bytes that are at
fault, absent when the text ends inside a character. -/
structure Fault where
  index : Nat
  length : Option Nat
  deriving DecidableEq, Repr

/-- The fault in words. -/
def Fault.message (f : Fault) : String :=
  match f.length with
  | some n => s!"invalid utf-8 sequence of {n} bytes from index {f.index}"
  | none => s!"incomplete utf-8 byte sequence from index {f.index}"

/-- What an unfinished character still needs. -/
structure State where
  used : Nat
  missing : Nat
  low : Nat
  high : Nat
  bits : Nat

/-- What the first byte of a character tells. -/
inductive Lead where
  | whole (c : Char)
  | unfinished (st : State)
  | never

/-- The meaning of `b` as the first byte of a character. Overlong forms, surrogates and
code points above 10FFFF are excluded by the bounds on the second byte. -/
def lead (b : Nat) : Lead :=
  if b < 0x80 then .whole (Char.ofNat b)
  else if b < 0xC2 then .never
  else if b < 0xE0 then .unfinished ⟨1, 1, 0x80, 0xBF, b - 0xC0⟩
  else if b = 0xE0 then .unfinished ⟨1, 2, 0xA0, 0xBF, 0⟩
  else if b = 0xED then .unfinished ⟨1, 2, 0x80, 0x9F, 0xD⟩
  else if b < 0xF0 then .unfinished ⟨1, 2, 0x80, 0xBF, b - 0xE0⟩
  else if b = 0xF0 then .unfinished ⟨1, 3, 0x90, 0xBF, 0⟩
  else if b < 0xF4 then .unfinished ⟨1, 3, 0x80, 0xBF, b - 0xF0⟩
  else if b = 0xF4 then .unfinished ⟨1, 3, 0x80, 0x8F, 4⟩
  else .never

/-- The state after one more byte, or the finished character; `never` if the byte does not fit. -/
def State.next (st : State) (b : Nat) : Lead :=
  if b < st.low ∨ st.high < b then .never
  else
    let bits := st.bits * 64 + (b - 0x80)
    if st.missing ≤ 1 then .whole (Char.ofNat bits)
    else .unfinished ⟨st.used + 1, st.missing - 1, 0x80, 0xBF, bits⟩

/-- Decodes from a state; `index` counts the bytes read and `done` holds the characters so
far, the last one first. -/
def decodeFrom (st : Option State) (index : Nat) (done : List Char) :
    List UInt8 → Except Fault (List Char)
  | [] =>
    match st with
    | none => .ok done.reverse
    | some s => .error ⟨index - s.used, none⟩
  | b :: bs =>
    match (match st with | none => lead b.toNat | some s => s.next b.toNat) with
    | .whole c => decodeFrom none (index + 1) (c :: done) bs
    | .unfinished s => decodeFrom (some s) (index + 1) done bs
    | .never =>
      match st with
      | none => .error ⟨index, some 1⟩
      | some s => .error ⟨index - s.used, some s.used⟩

/-- The text that `bytes` spell, or the first fault. -/
def decode (bytes : List UInt8) : Except Fault String :=
  (decodeFrom none 0 [] bytes).map String.ofList

/-- A gap for each byte of an unfinished character. -/
def gaps (st : Option State) : List (Option Char) :=
  List.replicate ((st.map State.used).getD 0) none

/-- The characters that follow from a state, with a gap for each byte that belongs to none. -/
def symbolsFrom (st : Option State) : List UInt8 → List (Option Char)
  | [] => gaps st
  | b :: bs =>
    match (match st with | none => Lead.never | some s => s.next b.toNat) with
    | .whole c => some c :: symbolsFrom none bs
    | .unfinished s => symbolsFrom (some s) bs
    | .never =>
      match lead b.toNat with
      | .whole c => gaps st ++ some c :: symbolsFrom none bs
      | .unfinished s => gaps st ++ symbolsFrom (some s) bs
      | .never => gaps st ++ none :: symbolsFrom none bs

/-- The characters that `bytes` spell, with a gap for each byte that belongs to none. -/
def symbols (bytes : List UInt8) : List (Option Char) :=
  symbolsFrom none bytes

/-- The bytes that spell `s`. -/
def encode (s : String) : List UInt8 :=
  s.toUTF8.toList

end CanvasLayout.Text.Utf8
