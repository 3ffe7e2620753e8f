import Mathlib
import CanvasLayout.Color

/-!
# Colors as they are written

A color is spelled by six hexadecimal digits, or by three that count twice (`Rgb.Spells`), after an
optional mark and with white space around it (`Rgb.Encloses`). One thing more is read: a plus sign at the
head of a pair of six counts as a zero (`Rgb.ofHex?_grammar`).
-/

namespace CanvasLayout

namespace Text

/-! ## Digits -/

/-- A hexadecimal digit in either case, and its value. -/
def IsHexDigit (c : Char) (d : Nat) : Prop :=
  "0123456789abcdef".toList[d]? = some c ∨ "0123456789ABCDEF".toList[d]? = some c

instance (c : Char) (d : Nat) : Decidable (IsHexDigit c d) := inferInstanceAs (Decidable (_ ∨ _))

theorem IsHexDigit.lt {c : Char} {d : Nat} (h : IsHexDigit c d) : d < 16 := by
  rcases h with h | h
  · exact (List.getElem?_eq_some_iff.1 h).1
  · exact (List.getElem?_eq_some_iff.1 h).1

/-- A digit is none of the other characters that colors are written with. -/
theorem IsHexDigit.plain {c : Char} {d : Nat} (h : IsHexDigit c d) :
    isBlank c = false ∧ c ∉ ['#', '+', ';', ':'] := by
  have small := h.lt
  rcases h with h | h
  · interval_cases d <;> cases h <;> decide
  · interval_cases d <;> cases h <;> decide

theorem hexDigit?_eq_some {c : Char} {d : Nat} : hexDigit? c = some d ↔ IsHexDigit c d := by
  constructor
  · intro h
    have digits : ∀ n ≤ 57, 48 ≤ n → IsHexDigit (Char.ofNat n) (n - 48) := by decide
    have lower : ∀ n ≤ 102, 97 ≤ n → IsHexDigit (Char.ofNat n) (n - 87) := by decide
    have upper : ∀ n ≤ 70, 65 ≤ n → IsHexDigit (Char.ofNat n) (n - 55) := by decide
    unfold hexDigit? at h
    simp only [Char.le_def, UInt32.le_iff_toNat_le] at h
    split at h
    · rename_i range
      cases h
      simpa using digits c.toNat range.2 range.1
    · split at h
      · rename_i range
        cases h
        simpa using lower c.toNat range.2 range.1
      · split at h
        · rename_i range
          cases h
          simpa using upper c.toNat range.2 range.1
        · cases h
  · intro h
    have small := h.lt
    rcases h with h | h
    · interval_cases d <;> cases h <;> rfl
    · interval_cases d <;> cases h <;> rfl

theorem IsHexDigit.unique {c : Char} {d d' : Nat} (h : IsHexDigit c d) (h' : IsHexDigit c d') :
    d = d' :=
  Option.some.inj ((hexDigit?_eq_some.2 h).symm.trans (hexDigit?_eq_some.2 h'))

/-! ## White space at the ends -/

section Ends

variable {p : Char → Bool} {before cs after : List Char}

theorem dropEndWhile_append (h : ∀ c ∈ after, p c) :
    dropEndWhile p (cs ++ after) = dropEndWhile p cs := by
  unfold dropEndWhile
  rw [List.reverse_append, List.dropWhile_append_of_pos]
  simpa using h

theorem dropEndWhile_append_of_exists (h : ∃ c ∈ after, ¬ p c) :
    dropEndWhile p (cs ++ after) = cs ++ dropEndWhile p after := by
  have kept : after.reverse.dropWhile p ≠ [] := by
    rw [Ne, List.dropWhile_eq_nil_iff]
    intro all
    obtain ⟨c, hc, keep⟩ := h
    exact keep (all c (List.mem_reverse.2 hc))
  unfold dropEndWhile
  rw [List.reverse_append, List.dropWhile_append, if_neg (by rwa [List.isEmpty_iff]),
    List.reverse_append, List.reverse_reverse]

theorem dropEndWhile_eq_self (h : ∀ c ∈ cs.getLast?, p c = false) : dropEndWhile p cs = cs := by
  refine List.rdropWhile_eq_self_iff.2 fun nonempty => ?_
  rw [h _ (List.getLast?_eq_some_getLast nonempty)]
  exact Bool.false_ne_true

/-- What is left of a text without white space in its middle is the middle. -/
theorem trimChars_append (hbefore : ∀ c ∈ before, isBlank c) (hafter : ∀ c ∈ after, isBlank c)
    (solid : ∀ c ∈ cs, isBlank c = false) : trimChars (before ++ cs ++ after) = cs := by
  unfold trimChars
  rw [List.append_assoc, List.dropWhile_append_of_pos hbefore]
  cases cs with
  | nil =>
    rw [List.nil_append, List.dropWhile_eq_nil_iff.2 hafter]
    rfl
  | cons c cs =>
    rw [List.cons_append, List.dropWhile_cons_of_neg (by simp [solid c]), ← List.cons_append,
      dropEndWhile_append hafter]
    exact dropEndWhile_eq_self fun x hx => solid x (List.mem_of_getLast? hx)

/-- Only white space is cut off. -/
theorem exists_append_trimChars (cs : List Char) : ∃ before after,
    cs = before ++ trimChars cs ++ after ∧ (∀ c ∈ before, isBlank c) ∧ ∀ c ∈ after, isBlank c := by
  refine ⟨cs.takeWhile isBlank, (cs.dropWhile isBlank).rtakeWhile isBlank, ?_,
    fun c hc => List.mem_takeWhile_imp hc, fun c hc => List.mem_rtakeWhile_imp hc⟩
  rw [List.append_assoc]
  show cs = _ ++ (List.rdropWhile isBlank _ ++ _)
  rw [List.rdropWhile_append_rtakeWhile, List.takeWhile_append_dropWhile]

end Ends

end Text

namespace Rgb

open Text (IsHexDigit isBlank)

/-! ## Digits and what they spell -/

/-- Two digits and the number that they make. -/
def IsPair (a b : Char) (n : UInt8) : Prop :=
  ∃ i j, IsHexDigit a i ∧ IsHexDigit b j ∧ n.toNat = 16 * i + j

/-- Digits and the color that they spell: a pair for each channel, or one digit that is doubled. -/
inductive Spells : List Char → Rgb → Prop
  | long {a a' b b' c c' : Char} {x : Rgb} (red : IsPair a a' x.red) (green : IsPair b b' x.green)
    (blue : IsPair c c' x.blue) : Spells [a, a', b, b', c, c'] x
  | short {a b c : Char} {x : Rgb} (doubled : Spells [a, a, b, b, c, c] x) : Spells [a, b, c] x

/-- The text is one in which the digits stand, with at most one mark in front and with white space
around that. -/
def Encloses (s : String) (digits : List Char) : Prop :=
  ∃ before mark after, s.toList = before ++ (mark ++ digits) ++ after ∧
    (mark = [] ∨ mark = ['#']) ∧ (∀ c ∈ before, isBlank c) ∧ ∀ c ∈ after, isBlank c

/-- A zero in place of a plus sign. -/
def signAsZero (c : Char) : Char := if c = '+' then '0' else c

/-- The digits with a zero in place of a plus sign at the head of a pair. -/
def plusAsZero : List Char → List Char
  | [a, a', b, b', c, c'] => [signAsZero a, a', signAsZero b, b', signAsZero c, c']
  | cs => cs

theorem spells_long_iff {a a' b b' c c' : Char} {x : Rgb} :
    Spells [a, a', b, b', c, c'] x ↔
      IsPair a a' x.red ∧ IsPair b b' x.green ∧ IsPair c c' x.blue := by
  constructor
  · rintro ⟨red, green, blue⟩
    exact ⟨red, green, blue⟩
  · rintro ⟨red, green, blue⟩
    exact .long red green blue

theorem spells_short_iff {a b c : Char} {x : Rgb} :
    Spells [a, b, c] x ↔ IsPair a a x.red ∧ IsPair b b x.green ∧ IsPair c c x.blue := by
  rw [← spells_long_iff]
  constructor
  · rintro ⟨⟩
    assumption
  · exact .short

theorem ofNat_eq_iff {m : Nat} (small : m < 256) {n : UInt8} : UInt8.ofNat m = n ↔ n.toNat = m := by
  constructor
  · rintro rfl
    exact UInt8.toNat_ofNat_of_lt small
  · rintro rfl
    exact UInt8.ofNat_toNat

theorem shortChannel?_eq_some {a : Char} {n : UInt8} : shortChannel? a = some n ↔ IsPair a a n := by
  unfold shortChannel? IsPair
  simp only [Option.map_eq_some_iff, Text.hexDigit?_eq_some]
  constructor
  · rintro ⟨d, digit, h⟩
    have := digit.lt
    rw [ofNat_eq_iff (by omega)] at h
    exact ⟨d, d, digit, digit, by omega⟩
  · rintro ⟨d, d', digit, digit', h⟩
    obtain rfl := digit.unique digit'
    have := digit.lt
    refine ⟨d, digit, ?_⟩
    rw [ofNat_eq_iff (by omega)]
    omega

/-- In front of the second digit a plus sign is read as a zero. -/
theorem longChannel?_eq (a b : Char) : longChannel? a b =
    (Text.hexDigit? (signAsZero a)).bind fun high =>
      (Text.hexDigit? b).map fun low => .ofNat (16 * high + low) := by
  have low (high : Nat) : (do return UInt8.ofNat (16 * high + (← Text.hexDigit? b))) =
      (Text.hexDigit? b).map fun low => UInt8.ofNat (16 * high + low) := by
    cases Text.hexDigit? b <;> rfl
  unfold longChannel? signAsZero
  split
  · exact low 0
  · exact congrArg (Text.hexDigit? a).bind (funext low)

/-- A channel of two digits is the pair that they are, after a plus sign at its head is read as a
zero. -/
theorem longChannel?_eq_some {a b : Char} {n : UInt8} :
    longChannel? a b = some n ↔ IsPair (signAsZero a) b n := by
  unfold IsPair
  simp only [longChannel?_eq, Option.bind_eq_some_iff, Option.map_eq_some_iff,
    Text.hexDigit?_eq_some]
  constructor
  · rintro ⟨i, high, j, low, h⟩
    have := high.lt
    have := low.lt
    exact ⟨i, j, high, low, (ofNat_eq_iff (by omega)).1 h⟩
  · rintro ⟨i, j, high, low, h⟩
    have := high.lt
    have := low.lt
    exact ⟨i, high, j, low, (ofNat_eq_iff (by omega)).2 h⟩

/-- A color is read if all channels are. -/
theorem ofChannels_eq_some {red green blue : Option UInt8} {x : Rgb} :
    (do return (⟨← red, ← green, ← blue⟩ : Rgb)) = some x ↔
      red = some x.red ∧ green = some x.green ∧ blue = some x.blue := by
  obtain ⟨r, g, b⟩ := x
  simp only [Option.bind_eq_bind, Option.bind_eq_some_iff, Option.pure_def, Option.some.injEq,
    Rgb.mk.injEq]
  constructor
  · rintro ⟨_, hr, _, hg, _, hb, rfl, rfl, rfl⟩
    exact ⟨hr, hg, hb⟩
  · rintro ⟨hr, hg, hb⟩
    exact ⟨_, hr, _, hg, _, hb, rfl, rfl, rfl⟩

/-- What is read is what is spelled once plus signs count as zeros. -/
theorem ofDigits?_eq_some {digits : List Char} {x : Rgb} :
    ofDigits? digits = some x ↔ Spells (plusAsZero digits) x := by
  by_cases long : ∃ a a' b b' c c', digits = [a, a', b, b', c, c']
  · obtain ⟨a, a', b, b', c, c', rfl⟩ := long
    rw [ofDigits?, ofChannels_eq_some, plusAsZero, spells_long_iff]
    simp only [longChannel?_eq_some]
  · have plain : plusAsZero digits = digits := by
      unfold plusAsZero
      split
      · exact absurd ⟨_, _, _, _, _, _, rfl⟩ long
      · rfl
    rw [plain]
    by_cases short : ∃ a b c, digits = [a, b, c]
    · obtain ⟨a, b, c, rfl⟩ := short
      rw [ofDigits?, ofChannels_eq_some, spells_short_iff]
      simp only [shortChannel?_eq_some]
    · have unread : ofDigits? digits = none := by
        unfold ofDigits?
        split
        · exact absurd ⟨_, _, _, rfl⟩ short
        · exact absurd ⟨_, _, _, _, _, _, rfl⟩ long
        · rfl
      rw [unread]
      refine iff_of_false (Option.some_ne_none x).symm fun h => ?_
      cases h with
      | long => exact long ⟨_, _, _, _, _, _, rfl⟩
      | short => exact short ⟨_, _, _, rfl⟩

theorem isHexDigit_of_spells {digits : List Char} {x : Rgb} (h : Spells digits x) :
    ∀ c ∈ digits, ∃ d, IsHexDigit c d := by
  have pair {a b : Char} {n : UInt8} (h : IsPair a b n) :
      (∃ d, IsHexDigit a d) ∧ ∃ d, IsHexDigit b d := by
    obtain ⟨i, j, high, low, -⟩ := h
    exact ⟨⟨i, high⟩, ⟨j, low⟩⟩
  cases h with
  | long red green blue => simp [pair red, pair green, pair blue]
  | short doubled =>
    obtain ⟨red, green, blue⟩ := spells_long_iff.1 doubled
    simp [pair red, pair green, pair blue]

theorem plusAsZero_of_not_mem {digits : List Char} (h : '+' ∉ digits) :
    plusAsZero digits = digits := by
  unfold plusAsZero
  split
  · simp only [List.mem_cons, not_or] at h
    simp only [signAsZero, if_neg (Ne.symm h.1), if_neg (Ne.symm h.2.2.1),
      if_neg (Ne.symm h.2.2.2.2.1)]
  · rfl

/-- Without a plus sign, the digits read are those that spell the color. -/
theorem ofDigits?_eq_some_of_not_mem {digits : List Char} {x : Rgb} (h : '+' ∉ digits) :
    ofDigits? digits = some x ↔ Spells digits x := by
  rw [ofDigits?_eq_some, plusAsZero_of_not_mem h]

theorem mem_plusAsZero {digits : List Char} {c : Char} (h : c ∈ digits) :
    c = '+' ∨ c ∈ plusAsZero digits := by
  by_cases plus : c = '+'
  · exact .inl plus
  · right
    unfold plusAsZero
    split
    · simp only [List.mem_cons, List.not_mem_nil, or_false] at h ⊢
      rcases h with rfl | rfl | rfl | rfl | rfl | rfl <;> simp [signAsZero, plus]
    · exact h

/-! ## Colors in texts -/

/-- Digits that are read hold no white space, mark or semicolon. -/
theorem plain_of_ofDigits? {digits : List Char} {x : Rgb} (h : ofDigits? digits = some x) :
    ∀ c ∈ digits, isBlank c = false ∧ c ∉ ['#', ';'] := by
  intro c hc
  rcases mem_plusAsZero hc with rfl | hc
  · decide
  · obtain ⟨d, digit⟩ := isHexDigit_of_spells (ofDigits?_eq_some.1 h) c hc
    have plain := digit.plain
    simp only [List.mem_cons, List.not_mem_nil, or_false, not_or] at plain ⊢
    exact ⟨plain.1, plain.2.1, plain.2.2.2.1⟩

theorem encloses_of_trimChars {s : String} {mark digits : List Char}
    (marked : mark = [] ∨ mark = ['#']) (h : Text.trimChars s.toList = mark ++ digits) :
    Encloses s digits := by
  obtain ⟨before, after, split, hbefore, hafter⟩ := Text.exists_append_trimChars s.toList
  rw [h] at split
  exact ⟨before, mark, after, split, marked, hbefore, hafter⟩

/-- A text is read as a color when the digits that it encloses are. -/
theorem ofHex?_eq_some_iff {s : String} {x : Rgb} : ofHex? s = some x ↔
    ∃ digits, Encloses s digits ∧ ofDigits? digits = some x := by
  constructor
  · intro h
    unfold ofHex? at h
    split at h
    · rename_i digits marked
      exact ⟨digits, encloses_of_trimChars (.inr rfl) marked, h⟩
    · exact ⟨_, encloses_of_trimChars (.inl rfl) rfl, h⟩
  · rintro ⟨digits, ⟨before, mark, after, split, marked, hbefore, hafter⟩, h⟩
    have plain := plain_of_ofDigits? h
    have trimmed : Text.trimChars s.toList = mark ++ digits := by
      rw [split]
      refine Text.trimChars_append hbefore hafter fun c hc => ?_
      rcases List.mem_append.1 hc with hc | hc
      · rcases marked with rfl | rfl
        · cases hc
        · rw [List.mem_singleton.1 hc]
          rfl
      · exact (plain c hc).1
    unfold ofHex?
    rw [trimmed]
    rcases marked with rfl | rfl
    · rw [List.nil_append]
      cases digits with
      | nil => exact h
      | cons c cs =>
        have unmarked : c ≠ '#' := fun same => (plain c List.mem_cons_self).2 (by simp [same])
        split
        · rename_i same
          exact absurd (List.cons.inj same).1 unmarked
        · exact h
    · exact h

/-- A character that is neither white space nor a mark is in a text if it is among the digits. -/
theorem Encloses.mem_iff {s : String} {digits : List Char} (h : Encloses s digits) {c : Char}
    (solid : isBlank c = false) (other : c ≠ '#') : c ∈ s.toList ↔ c ∈ digits := by
  obtain ⟨before, mark, after, split, marked, hbefore, hafter⟩ := h
  have front : c ∉ before := fun hc => by simp [hbefore c hc] at solid
  have back : c ∉ after := fun hc => by simp [hafter c hc] at solid
  have unmarked : c ∉ mark := by
    rcases marked with rfl | rfl <;> simp [other]
  rw [split]
  simp only [List.mem_append, front, unmarked, back, false_or, or_false]

/-- A plus sign in the text is one among the digits, neither a blank nor the mark. -/
theorem Encloses.plus_mem_iff {s : String} {digits : List Char} (h : Encloses s digits) :
    '+' ∈ s.toList ↔ '+' ∈ digits :=
  h.mem_iff (by decide) (by decide)

theorem plus_not_mem {digits : List Char} {x : Rgb} (h : Spells digits x) : '+' ∉ digits := by
  intro hc
  obtain ⟨d, digit⟩ := isHexDigit_of_spells h _ hc
  exact absurd digit.plain.2 (by simp)

/-- A mark and digits that spell a color are read as that color. -/
theorem ofHex?_of_spells {digits : List Char} {x : Rgb} (h : Spells digits x) :
    ofHex? (.ofList ('#' :: digits)) = some x := by
  have empty : ∀ c ∈ ([] : List Char), isBlank c := List.forall_mem_nil _
  refine ofHex?_eq_some_iff.2 ⟨digits, ⟨[], ['#'], [], ?_, .inr rfl, empty, empty⟩, ?_⟩
  · rw [String.toList_ofList, List.append_nil]
    rfl
  · exact (ofDigits?_eq_some_of_not_mem (plus_not_mem h)).2 h

theorem ofHex?_eq_none {s : String} (h : ';' ∈ s.toList) : ofHex? s = none := by
  refine Option.eq_none_iff_forall_ne_some.2 fun x read => ?_
  obtain ⟨digits, encloses, digits_read⟩ := ofHex?_eq_some_iff.1 read
  have mem := (encloses.mem_iff (by decide) (by decide)).1 h
  exact (plain_of_ofDigits? digits_read _ mem).2 (by decide)

/-- A text is read as a color if and only if it holds three or six hexadecimal digits after at most
one mark, white space aside, where a plus sign counts as a zero at the head of a pair of six. So
nothing but colors is read, unless a text with a plus sign is. -/
theorem ofHex?_grammar (s : String) :
    (∀ x, ofHex? s = some x ↔ ∃ digits, Encloses s digits ∧ Spells (plusAsZero digits) x) ∧
      ((∀ x, ofHex? s = some x ↔ ∃ digits, Encloses s digits ∧ Spells digits x) ↔
        '+' ∉ s.toList ∨ ofHex? s = none) := by
  have law (x : Rgb) :
      ofHex? s = some x ↔ ∃ digits, Encloses s digits ∧ Spells (plusAsZero digits) x := by
    simp only [ofHex?_eq_some_iff, ofDigits?_eq_some]
  refine ⟨law, ?_⟩
  constructor
  · intro strict
    cases read : ofHex? s with
    | none => exact .inr rfl
    | some x =>
      obtain ⟨digits, encloses, spells⟩ := (strict x).1 read
      exact .inl (mt encloses.plus_mem_iff.1 (plus_not_mem spells))
  · rintro (plain | unread) x
    · rw [law]
      refine exists_congr fun digits => and_congr_right fun encloses => ?_
      rw [plusAsZero_of_not_mem (mt encloses.plus_mem_iff.2 plain)]
    · refine iff_of_false (by simp [unread]) ?_
      rintro ⟨digits, encloses, spells⟩
      have read : ofHex? s = some x := by
        rw [law]
        exact ⟨digits, encloses, (plusAsZero_of_not_mem (plus_not_mem spells)).symm ▸ spells⟩
      cases unread.symm.trans read

/-- Plus signs stand for zeros in a text that spells no color. -/
theorem ofHex?_plusSigns : ofHex? "#+1+2+3" = some ⟨1, 2, 3⟩ ∧
    ¬ ∃ digits, Encloses "#+1+2+3" digits ∧ Spells digits ⟨1, 2, 3⟩ := by
  refine ⟨by decide +kernel, ?_⟩
  rintro ⟨digits, encloses, spells⟩
  exact plus_not_mem spells (encloses.plus_mem_iff.1 (by decide +kernel))

end Rgb

end CanvasLayout
