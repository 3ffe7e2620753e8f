import CanvasLayout.Json.Printer
import CanvasLayout.Json.Raw
import Mathlib

/-!
# Printed tokens

What the scanner makes of printed numbers and strings. A number is scanned to the numeral with
the digits and the exponent that were printed (`scanNumber_layout`, `scanNumber_integer`), a
string to one piece for each of its characters (`scanString_flatMap`), and those pieces make up
the string again (`text_stringToken`).
-/

namespace CanvasLayout

namespace Decimal

theorem digitsValue_eq (ds : List Char) : digitsValue ds = Nat.ofDigitChars 10 ds 0 := rfl

@[simp] theorem digitsValue_digitsOf (n : Nat) : digitsValue (digitsOf n) = n := by
  rw [digitsValue_eq, digitsOf, Nat.ofDigitChars_ten_toDigits]

/-- Digits weigh more by one power of ten for each digit behind them. -/
theorem digitsValue_append (ds es : List Char) :
    digitsValue (ds ++ es) = digitsValue ds * 10 ^ es.length + digitsValue es := by
  simp only [digitsValue_eq]
  rw [Nat.ofDigitChars_append, Nat.ofDigitChars_eq_ofDigitChars_zero, Nat.mul_comm]

@[simp] theorem digitsValue_replicate (n : Nat) : digitsValue (List.replicate n '0') = 0 := by
  rw [digitsValue_eq, Nat.ofDigitChars_replicate_zero, Nat.mul_zero]

theorem isDigit_of_mem_digitsOf {n : Nat} {c : Char} (h : c ∈ digitsOf n) : c.isDigit :=
  Nat.isDigit_of_mem_toDigits (by decide) (by decide) h

theorem digitsOf_ne_nil (n : Nat) : digitsOf n ≠ [] := Nat.toDigits_ne_nil

/-- The digits of a positive number do not start with a zero. -/
theorem head?_digitsOf_ne_zero {n : Nat} (h : 0 < n) : (digitsOf n).head? ≠ some '0' := by
  induction n using Nat.strongRecOn with
  | ind n ih =>
    rw [digitsOf, Nat.toDigits_eq_if (by decide)]
    split
    · rename_i small
      have digits : ∀ d < 10, 0 < d → d.digitChar ≠ '0' := by decide
      simpa using digits n small h
    · rw [List.head?_append_of_ne_nil _ Nat.toDigits_ne_nil]
      exact ih (n / 10) (Nat.div_lt_self h (by decide)) (by omega)

end Decimal

namespace Json

open Decimal (digitsOf digitsValue Numeral Magnitude)

@[simp] theorem ok_bind {α β : Type} (a : α) (f : α → Except Fault β) : (Except.ok a >>= f) = f a :=
  rfl

/-- No digit comes next. -/
def EndsDigits (rest : List Symbol) : Prop :=
  ∀ c, rest.head? = some (some c) → c.isDigit = false

/-- What comes next cannot belong to a number. -/
def EndsNumber (rest : List Symbol) : Prop :=
  EndsDigits rest ∧ ∀ c, rest.head? = some (some c) → c ≠ '.' ∧ c ≠ 'e' ∧ c ≠ 'E'

theorem endsDigits_cons {c : Char} {cs : List Symbol} (h : c.isDigit = false) :
    EndsDigits (some c :: cs) := by
  simpa [EndsDigits] using h

/-- The scanner takes all of the digits, up to the first symbol that is none. -/
theorem digitRun_append {ds : List Char} {rest : List Symbol} (digits : ∀ c ∈ ds, c.isDigit)
    (stop : EndsDigits rest) : digitRun (ds.map some ++ rest) = (ds, rest) := by
  induction ds with
  | nil =>
    match rest with
    | [] | none :: _ => simp [digitRun]
    | some c :: cs => simp [digitRun, stop c rfl]
  | cons d ds ih =>
    rw [List.forall_mem_cons] at digits
    simp [digitRun, digits.1, ih digits.2]

/-- Where at least one digit is wanted, one or more are taken. -/
theorem someDigits_append {ds : List Char} {rest : List Symbol} (nonempty : ds ≠ [])
    (digits : ∀ c ∈ ds, c.isDigit) (stop : EndsDigits rest) :
    someDigits (ds.map some ++ rest) = .ok (ds, rest) := by
  cases ds with
  | nil => contradiction
  | cons d ds => rw [someDigits, digitRun_append digits stop]

theorem someDigits_digitsOf (n : Nat) {rest : List Symbol} (stop : EndsDigits rest) :
    someDigits ((digitsOf n).map some ++ rest) = .ok (digitsOf n, rest) :=
  someDigits_append (Decimal.digitsOf_ne_nil n) (fun _ => Decimal.isDigit_of_mem_digitsOf) stop

/-- The number that whole digits, a fraction and an exponent make up. -/
def spelled (negative : Bool) (whole : List Char) : Option (List Char) → Option Int → NumberToken
  | none, none => .whole negative (digitsValue whole)
  | fraction, exponent =>
    .decimal ⟨negative, digitsValue (whole ++ fraction.getD []),
      exponent.getD 0 - (fraction.getD []).length⟩

/-- Scanning a number in its parts: the sign, the whole digits, what is found of a fraction and what
is found of an exponent. -/
theorem scanNumber_eq (negative : Bool) {whole : List Char} {rest mid tail : List Symbol}
    {fraction : Option (List Char)} {exponent : Option Int} (nonempty : whole ≠ [])
    (digits : ∀ c ∈ whole, c.isDigit) (plain : isPlainRun whole) (stop : EndsDigits rest)
    (hf : fractionDigits rest = .ok (fraction, mid))
    (he : exponentPart mid = .ok (exponent, tail)) :
    scanNumber (((if negative then ['-'] else []) ++ whole).map some ++ rest) =
      .ok (spelled negative whole fraction exponent, tail) := by
  have run := someDigits_append nonempty digits stop
  cases negative with
  | true =>
    simp only [scanNumber, if_true, List.cons_append, List.nil_append, List.map_cons, run, ok_bind,
      plain, hf, he]
    cases fraction <;> cases exponent <;> rfl
  | false =>
    obtain ⟨d, ds, rfl⟩ := List.exists_cons_of_ne_nil nonempty
    have : d ≠ '-' := by
      rintro rfl
      simpa using digits '-' (by simp)
    rw [List.map_cons, List.cons_append] at run
    have unsigned : ∀ cs, some d :: (ds.map some ++ rest) = some '-' :: cs → False := by
      simp [this]
    simp only [scanNumber, Bool.false_eq_true, if_false, List.nil_append, List.map_cons,
      List.cons_append, run, ok_bind, plain, hf, he]
    cases fraction <;> cases exponent <;> rfl

theorem fractionDigits_none {rest : List Symbol} (h : ∀ c, rest.head? = some (some c) → c ≠ '.') :
    fractionDigits rest = .ok (none, rest) := by
  match rest with
  | [] | none :: _ => rfl
  | some c :: cs =>
    have : ∀ cs', some c :: cs = some '.' :: cs' → False := by simp [h c rfl]
    simp only [fractionDigits]

theorem exponentPart_none {rest : List Symbol}
    (h : ∀ c, rest.head? = some (some c) → c ≠ 'e' ∧ c ≠ 'E') :
    exponentPart rest = .ok (none, rest) := by
  match rest with
  | [] | none :: _ => rfl
  | some c :: cs => simp [exponentPart, h c rfl]

theorem isPlainRun_digitsOf (n : Nat) : isPlainRun (digitsOf n) := by
  rcases Nat.eq_zero_or_pos n with rfl | pos
  · rfl
  · have := Decimal.head?_digitsOf_ne_zero pos
    unfold isPlainRun
    split
    · simp_all
    · rfl

/-- A whole number scans to itself. -/
theorem scanNumber_integer (n : Int) {rest : List Symbol} (stop : EndsNumber rest) :
    scanNumber ((Decimal.integer n).map some ++ rest) = .ok (.whole (n < 0) n.natAbs, rest) := by
  have spell : Decimal.integer n = (if decide (n < 0) then ['-'] else []) ++ digitsOf n.natAbs := by
    unfold Decimal.integer
    split <;> simp_all
  rw [spell, scanNumber_eq _ (Decimal.digitsOf_ne_nil _) (fun _ => Decimal.isDigit_of_mem_digitsOf)
    (isPlainRun_digitsOf _) stop.1 (fractionDigits_none fun c h => (stop.2 c h).1)
    (exponentPart_none fun c h => (stop.2 c h).2)]
  simp [spelled]

theorem isPlainRun_of_head {ds : List Char} (h : ds.head? ≠ some '0') : isPlainRun ds := by
  unfold isPlainRun
  split
  · simp at h
  · rfl

theorem isPlainRun_of_length {ds : List Char} (h : ds.length ≤ 1) : isPlainRun ds := by
  unfold isPlainRun
  split
  · simp at h
  · rfl

theorem fractionDigits_some {ds : List Char} {rest : List Symbol} (nonempty : ds ≠ [])
    (digits : ∀ c ∈ ds, c.isDigit) (stop : EndsDigits rest) :
    fractionDigits (some '.' :: (ds.map some ++ rest)) = .ok (some ds, rest) := by
  rw [fractionDigits, someDigits_append nonempty digits stop]
  rfl

/-- The sign in front of an exponent is read back, a plus included. -/
theorem signOf_integer (e : Int) (rest : List Symbol) :
    signOf
        (((if true && decide (0 ≤ e) then ['+'] else []) ++ Decimal.integer e).map some ++ rest) =
      (decide (e < 0), (digitsOf e.natAbs).map some ++ rest) := by
  rcases Int.lt_or_le e 0 with neg | nonneg
  · simp [Decimal.integer, signOf, neg, Int.not_le.2 neg]
  · simp [Decimal.integer, signOf, nonneg, Int.not_lt.2 nonneg]

theorem exponentPart_some (e : Int) {rest : List Symbol} (stop : EndsDigits rest) :
    exponentPart (some 'e' ::
        (((if true && decide (0 ≤ e) then ['+'] else []) ++ Decimal.integer e).map some ++ rest)) =
      .ok (some e, rest) := by
  have value : (if decide (e < 0) then -(e.natAbs : Int) else e.natAbs) = e := by
    simp only [decide_eq_true_eq]
    omega
  rw [exponentPart, if_pos (.inl rfl), signOf_integer]
  simp only [someDigits_digitsOf _ stop, Except.map, Decimal.digitsValue_digitsOf, value]

/-- Whole digits and a fraction are scanned as one decimal, whose exponent counts the digits behind
the point. -/
theorem scanNumber_fraction {negative : Bool} {whole fraction : List Char} {rest : List Symbol}
    (nonempty : whole ≠ []) (plain : isPlainRun whole) (digits : ∀ c ∈ whole ++ fraction, c.isDigit)
    (nonempty' : fraction ≠ []) (stop : EndsNumber rest) :
    scanNumber (((if negative then ['-'] else []) ++ (whole ++ '.' :: fraction)).map some ++ rest) =
      .ok (.decimal ⟨negative, digitsValue (whole ++ fraction), -fraction.length⟩, rest) := by
  rw [List.forall_mem_append] at digits
  rw [← List.append_assoc, List.map_append, List.append_assoc, List.map_cons, List.cons_append,
    scanNumber_eq _ nonempty digits.1 plain (endsDigits_cons (by decide))
      (fractionDigits_some nonempty' digits.2 stop.1)
      (exponentPart_none fun c h => (stop.2 c h).2)]
  simp [spelled]

/-- The numeral that a magnitude with a point spells. -/
def pointNumeral (negative : Bool) (m : Magnitude) : Numeral :=
  if 0 ≤ m.exponent then ⟨negative, m.digits * 10 ^ (m.exponent.natAbs + 1), -1⟩
  else ⟨negative, m.digits, m.exponent⟩

theorem isPlainRun_digitsOf_append {n : Nat} {ds : List Char} (h : n = 0 → ds = []) :
    isPlainRun (digitsOf n ++ ds) := by
  rcases Nat.eq_zero_or_pos n with rfl | pos
  · simp [h rfl, isPlainRun_digitsOf]
  · apply isPlainRun_of_head
    rw [List.head?_append_of_ne_nil _ (Decimal.digitsOf_ne_nil n)]
    exact Decimal.head?_digitsOf_ne_zero pos

/-- A fraction is set off from padded digits, and the digits before the point are plain. -/
theorem positional_fraction {m : Magnitude} (keep : Bool) (neg : m.exponent < 0) :
    ∃ whole fraction n, m.positional keep = whole ++ '.' :: fraction ∧
      whole ++ fraction = List.replicate n '0' ++ digitsOf m.digits ∧
      fraction.length = m.exponent.natAbs ∧ whole ≠ [] ∧ isPlainRun whole := by
  set k := m.exponent.natAbs with hk
  set ds := digitsOf m.digits with hds
  set padded := List.replicate (k + 1 - ds.length) '0' ++ ds with hpadded
  have some_digit : 0 < ds.length := List.length_pos_iff.2 (Decimal.digitsOf_ne_nil _)
  have length : padded.length = max (k + 1) ds.length := by
    rw [hpadded, List.length_append, List.length_replicate]
    omega
  refine ⟨padded.take (padded.length - k), padded.drop (padded.length - k), k + 1 - ds.length, ?_,
    List.take_append_drop _ _, ?_, ?_, ?_⟩
  · rw [Magnitude.positional, if_neg (by omega)]
  · rw [List.length_drop]
    omega
  · rw [← List.length_pos_iff, List.length_take]
    omega
  · rcases Nat.lt_or_ge (k + 1) ds.length with long | short
    · have : 0 < m.digits := by
        rcases Nat.eq_zero_or_pos m.digits with zero | pos
        · rw [hds, zero, show digitsOf 0 = ['0'] from rfl, List.length_singleton] at long
          omega
        · exact pos
      apply isPlainRun_of_head
      rw [List.head?_take, if_neg (by omega), hpadded, Nat.sub_eq_zero_of_le (Nat.le_of_lt long)]
      exact Decimal.head?_digitsOf_ne_zero this
    · apply isPlainRun_of_length
      rw [List.length_take]
      omega

/-- A magnitude written out with a point is scanned as the numeral that it spells. -/
theorem scanNumber_positional {negative : Bool} {m : Magnitude} {rest : List Symbol}
    (zero : m.digits = 0 → m.exponent = 0) (stop : EndsNumber rest) :
    scanNumber (((if negative then ['-'] else []) ++ m.positional true).map some ++ rest) =
      .ok (.decimal (pointNumeral negative m), rest) := by
  have digits : ∀ c ∈ digitsOf m.digits, c.isDigit := fun _ => Decimal.isDigit_of_mem_digitsOf
  have zeros : ∀ n, ∀ c ∈ List.replicate n '0', c.isDigit := fun n c h => by
    rw [List.eq_of_mem_replicate h]
    rfl
  unfold pointNumeral
  rcases Int.lt_or_le m.exponent 0 with neg | nonneg
  · obtain ⟨whole, fraction, n, split, join, length, nonempty, plain⟩ :=
      positional_fraction true neg
    have nonempty' : fraction ≠ [] := by
      rw [← List.length_pos_iff]
      omega
    rw [split, scanNumber_fraction nonempty plain ?_ nonempty' stop, join, length,
      if_neg (by omega),
      Decimal.digitsValue_append, Decimal.digitsValue_replicate, Decimal.digitsValue_digitsOf,
      Nat.zero_mul, Nat.zero_add, ← Int.eq_neg_natAbs_of_nonpos (Int.le_of_lt neg)]
    rw [join, List.forall_mem_append]
    exact ⟨zeros n, digits⟩
  · have split : m.positional true =
        (digitsOf m.digits ++ List.replicate m.exponent.natAbs '0') ++ '.' :: ['0'] := by
      rw [Magnitude.positional, if_pos nonneg, if_pos rfl]
    have value : digitsValue ['0'] = 0 := rfl
    rw [split, scanNumber_fraction (by simp [Decimal.digitsOf_ne_nil])
      (isPlainRun_digitsOf_append fun h => by simp [zero h]) ?_ (by simp) stop, if_pos nonneg,
      Decimal.digitsValue_append, Decimal.digitsValue_append, Decimal.digitsValue_digitsOf,
      Decimal.digitsValue_replicate, value, List.length_replicate, List.length_singleton,
      Nat.pow_succ, Nat.add_zero, Nat.add_zero, Nat.mul_assoc]
    · rfl
    · simp only [List.forall_mem_append]
      exact ⟨⟨digits, zeros _⟩, by simp⟩

/-- A magnitude written with an exponent is scanned as itself. -/
theorem scanNumber_scientific {negative : Bool} {m : Magnitude} {rest : List Symbol}
    (stop : EndsNumber rest) :
    scanNumber (((if negative then ['-'] else []) ++ m.scientific true).map some ++ rest) =
      .ok (.decimal ⟨negative, m.digits, m.exponent⟩, rest) := by
  have value := Decimal.digitsValue_digitsOf m.digits
  have digits : ∀ c ∈ digitsOf m.digits, c.isDigit := fun _ => Decimal.isDigit_of_mem_digitsOf
  obtain ⟨d, ds, hds⟩ := List.exists_cons_of_ne_nil (Decimal.digitsOf_ne_nil m.digits)
  rw [hds] at value digits
  rw [List.forall_mem_cons] at digits
  have one : ∀ c ∈ [d], c.isDigit := by simpa using digits.1
  have tail := exponentPart_some (m.exponent + ds.length) stop.1
  unfold Magnitude.scientific
  rw [hds]
  cases ds with
  | nil =>
    have read := scanNumber_eq negative (by simp) one
      (isPlainRun_of_length Nat.le.refl) (endsDigits_cons (by decide))
      (fractionDigits_none (by simp)) tail
    simpa [spelled, value] using read
  | cons c cs =>
    have read := scanNumber_eq negative (by simp) one
      (isPlainRun_of_length Nat.le.refl) (endsDigits_cons (by decide))
      (fractionDigits_some (by simp) digits.2 (endsDigits_cons (by decide))) tail
    simpa [spelled, value] using read

/-- The numeral that a magnitude spells where numbers are written with a fraction. -/
def layoutNumeral (negative : Bool) (m : Magnitude) : Numeral :=
  if m.exponent + (digitsOf m.digits).length - 1 ≤ 15 then pointNumeral negative m
  else ⟨negative, m.digits, m.exponent⟩

/-- When a number is written out and when with an exponent: from `1e-5` to below `1e16` it is
written out. -/
theorem layout_interchange (m : Magnitude) :
    Decimal.Style.interchange.layout m =
      if m.digits = 0 ∨ (-5 ≤ m.exponent + (digitsOf m.digits).length - 1 ∧
          m.exponent + (digitsOf m.digits).length - 1 ≤ 15)
      then m.positional true else m.scientific true := by
  simp [Decimal.Style.layout, Decimal.Style.interchange]

/-- However a magnitude is laid out, it is scanned as the numeral that it spells. -/
theorem scanNumber_layout {negative : Bool} {m : Magnitude} {rest : List Symbol}
    (zero : m.digits = 0 → m.exponent = 0) (stop : EndsNumber rest) :
    scanNumber (((if negative then ['-'] else []) ++
        Decimal.Style.interchange.layout m).map some ++ rest) =
      .ok (.decimal (layoutNumeral negative m), rest) := by
  have head := List.length_pos_iff.2 (Decimal.digitsOf_ne_nil m.digits)
  rw [layout_interchange, layoutNumeral]
  by_cases pointed : m.digits = 0 ∨ (-5 ≤ m.exponent + (digitsOf m.digits).length - 1 ∧
      m.exponent + (digitsOf m.digits).length - 1 ≤ 15)
  · rw [if_pos pointed, scanNumber_positional zero stop, if_pos]
    rcases pointed with none | within
    · rw [none, zero none]
      decide
    · exact within.2
  · rw [if_neg pointed, scanNumber_scientific stop]
    split
    · rw [pointNumeral, if_neg]
      omega
    · rfl

/-- The numeral that the text of a finite number spells. -/
def floatNumeral (x : Float) : Numeral :=
  layoutNumeral (Decimal.Binary.ofFloat x).negative (Decimal.shortest .toEven x)

/-- The piece that a character of a string is written as. -/
def piece (c : Char) : Piece :=
  if c.toNat < 32 ∧ c ∉ ['\x08', '\t', '\n', '\x0c', '\r'] then .unit c.toNat else .char c

/-- The string that a text is written as. -/
def stringToken (s : String) : StringToken := ⟨s.toList.map piece, none⟩

/-- Four hexadecimal digits are read back as the control character that they stand for. -/
theorem unit?_hexadecimal {n : Nat} (h : n < 32) :
    ∃ a b c d, Text.hexadecimal false 4 n = [a, b, c, d] ∧
      unit? (some a) (some b) (some c) (some d) = some n := by
  have two : ∀ n < 32,
      Text.hexadecimal false 4 n = ['0', '0', (n / 16).digitChar, (n % 16).digitChar] ∧
      unit? (some '0') (some '0') (some (n / 16).digitChar) (some (n % 16).digitChar) = some n := by
    decide
  exact ⟨_, _, _, _, two n h⟩

theorem scanString_escape (c : Char) (rest : List Symbol) :
    scanString ((escape c).map some ++ rest) =
      ((scanString rest).1.cons (piece c), (scanString rest).2) := by
  unfold escape
  split
  all_goals try (simp [scanString, escaped?, piece]; done)
  rename_i quote backslash b t n f r
  split
  · rename_i control
    obtain ⟨u, v, w, x, digits, value⟩ := unit?_hexadecimal control
    rw [digits]
    have : piece c = .unit c.toNat := if_pos ⟨control, by simpa using ⟨b, t, n, f, r⟩⟩
    simp [scanString, value, this]
  · rename_i printable
    have : piece c = .char c := if_neg fun h => printable h.1
    rw [List.map_singleton, List.singleton_append, scanString, if_neg printable, this]
    · exact quote
    all_goals intros; exact backslash ‹_›

/-- A printed string scans to its pieces. -/
theorem scanString_flatMap (cs : List Char) (rest : List Symbol) :
    scanString ((cs.flatMap escape).map some ++ some '"' :: rest) =
      (⟨cs.map piece, none⟩, rest) := by
  induction cs with
  | nil => rfl
  | cons c cs ih =>
    rw [List.flatMap_cons, List.map_append, List.append_assoc, scanString_escape, ih]
    rfl

/-- A code unit that is no half of a pair is a character. -/
theorem joinPieces_unit {stop : Option Fault} {n : Nat} {ps : List Piece}
    (high : isHighUnit n = false) (low : isLowUnit n = false) :
    joinPieces stop (.unit n :: ps) = (joinPieces stop ps).map (some (Char.ofNat n) :: ·) := by
  match ps with
  | [] => simp [joinPieces, high, low, Except.map]
  | .char _ :: _ | .unit _ :: _ | .stray :: _ => simp [joinPieces, high, low]

theorem joinPieces_piece (cs : List Char) : joinPieces none (cs.map piece) = .ok (cs.map some) := by
  induction cs with
  | nil => rfl
  | cons c cs ih =>
    rw [List.map_cons]
    by_cases control : c.toNat < 32 ∧ c ∉ ['\x08', '\t', '\n', '\x0c', '\r']
    · have small := control.1
      have high : isHighUnit c.toNat = false := by
        rw [isHighUnit, decide_eq_false (by omega), Bool.false_and]
      have low : isLowUnit c.toNat = false := by
        rw [isLowUnit, decide_eq_false (by omega), Bool.false_and]
      rw [piece, if_pos control, joinPieces_unit high low, ih]
      simp [Except.map]
    · rw [piece, if_neg control, joinPieces, ih]
      rfl

/-- A printed string stands for itself. -/
theorem text_stringToken (s : String) : (stringToken s).text = .ok s := by
  rw [stringToken, StringToken.text, joinPieces_piece]
  simp [List.reduceOption]

end Json

end CanvasLayout
