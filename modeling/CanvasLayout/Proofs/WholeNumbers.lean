import CanvasLayout.Proofs.ShortestDecimal

/-!
# Arithmetic on whole numbers

Frames are measured in whole pixels. On whole numbers below `2 ^ 53` addition and subtraction are
exact (`Has.add`, `Has.sub`), and a difference the wrong way round is the other one with its sign
turned (`Has.sub_of_lt`). Numbers compare like their values whatever they are (`Has.le_iff`), a
quotient by a count of pixels is again a number that is not negative (`Has.div`), and so is a product
in the range (`Has.mul`).
-/

open Float.Model
open Float.Model.UnpackedFloat

namespace CanvasLayout.Binary64

open Decimal

theorem Holds.has {x : Float} {q : ℚ} (h : Holds x q) : Has x q := by
  obtain ⟨m, e, c, unpack, -, rfl⟩ := h
  unfold Has
  rw [unpack]
  exact .finite c

/-- Of two numbers of the format the one with the greater exponent is the greater. -/
theorem Canonical.lt_of_exponent {m m' : ℕ} {e e' : ℤ} (c : Canonical m e) (c' : Canonical m' e')
    (h : e < e') : (m * 2 ^ e : ℚ) < m' * 2 ^ e' := by
  have full : 2 ^ 52 ≤ m' := by
    have := c.least
    rcases c'.normal with least | full
    · omega
    · exact full
  have double : 2 * (2 : ℚ) ^ e ≤ 2 ^ e' := by
    rw [← zpow_one_add₀ two_ne_zero]
    exact zpow_le_zpow_right₀ one_le_two (by omega)
  calc (m * 2 ^ e : ℚ) < 2 ^ 53 * 2 ^ e := by
        gcongr
        exact_mod_cast c.lt
    _ = 2 ^ 52 * (2 * 2 ^ e) := by ring
    _ ≤ m' * 2 ^ e' := by
      gcongr
      exact_mod_cast full

/-- Canonical mantissas and exponents are compared like the numbers that they make. -/
theorem Canonical.compare {m m' : ℕ} {e e' : ℤ} (c : Canonical m e) (c' : Canonical m' e') :
    (Ord.compare e e').then (Ord.compare m m') =
      Ord.compare (m * 2 ^ e : ℚ) (m' * 2 ^ e') := by
  rcases lt_trichotomy e e' with h | rfl | h
  · rw [compare_lt_iff_lt.2 h, compare_lt_iff_lt.2 (c.lt_of_exponent c' h)]
    rfl
  · have unit : (0 : ℚ) < 2 ^ e := zpow_pos two_pos e
    rw [compare_eq_iff_eq.2 rfl]
    rcases lt_trichotomy m m' with h | rfl | h
    · rw [compare_lt_iff_lt.2 (by gcongr : (m * 2 ^ e : ℚ) < m' * 2 ^ e)]
      exact compare_lt_iff_lt.2 h
    · rw [(compare_eq_iff_eq.2 rfl : Ord.compare (m * 2 ^ e : ℚ) (m * 2 ^ e) = .eq)]
      exact compare_eq_iff_eq.2 rfl
    · rw [compare_gt_iff_gt.2 (by gcongr : (m' * 2 ^ e : ℚ) < m * 2 ^ e)]
      exact compare_gt_iff_gt.2 h
  · rw [compare_gt_iff_gt.2 h, compare_gt_iff_gt.2 (c'.lt_of_exponent c h)]
    rfl

/-- Numbers compare like their values. -/
theorem Value.compare {u v : UnpackedFloat} {p q : ℚ} (hu : Value u p) (hv : Value v q) :
    u.compare v = some (Ord.compare p q) := by
  cases hu with
  | zero s =>
    cases hv with
    | zero s' =>
      rw [compare_eq_iff_eq.2 rfl]
      rfl
    | finite c' =>
      have := c'.pos
      rw [compare_lt_iff_lt.2 (by positivity)]
      rfl
  | finite c =>
    cases hv with
    | zero s' =>
      have := c.pos
      rw [compare_gt_iff_gt.2 (by positivity)]
      rfl
    | finite c' => exact congrArg some (c.compare c')

section Order

variable {x y : Float} {p q : ℚ}

theorem Has.le_iff (hx : Has x p) (hy : Has y q) : x ≤ y ↔ p ≤ q := by
  change decide (UnpackedFloat.le x.toModel.unpack y.toModel.unpack = true) = true ↔ _
  rw [decide_eq_true_iff, UnpackedFloat.le, Value.compare hx hy, Option.any_some,
    Ordering.isLE_iff_ne_gt, ← not_lt]
  exact not_congr compare_gt_iff_gt

theorem Has.lt_iff (hx : Has x p) (hy : Has y q) : x < y ↔ p < q := by
  change decide (UnpackedFloat.lt x.toModel.unpack y.toModel.unpack = true) = true ↔ _
  rw [decide_eq_true_iff, UnpackedFloat.lt, Value.compare hx hy, beq_iff_eq, Option.some.injEq,
    compare_lt_iff_lt]

end Order

/-- Bringing a number to a smaller exponent keeps its value. -/
theorem decreaseExponent_value (m : ℕ) {e t : ℤ} (h : t ≤ e) :
    ((decreaseExponent m e t).1 : ℚ) * 2 ^ t = m * 2 ^ e := by
  obtain ⟨k, rfl⟩ : ∃ k : ℕ, e = t + k := ⟨(e - t).toNat, by omega⟩
  have shift : (t + k - t : ℤ).toNat = k := by omega
  unfold decreaseExponent
  simp only [shift]
  rw [Nat.shiftLeft_eq, zpow_add₀ two_ne_zero, zpow_natCast]
  push_cast
  ring

/-- A whole number that is computed exactly is not changed by rounding. -/
theorem value_normalize {m n : ℕ} {e : ℤ} (value : (m : ℚ) * 2 ^ e = n) (lt : n < 2 ^ 53) :
    Value (normalize .binary64 m e .positive) n := by
  rcases Nat.eq_zero_or_pos m with rfl | pos
  · rw [Nat.cast_zero, zero_mul] at value
    rw [← value]
    exact .zero _
  · have posN : 0 < n := by
      have : (0 : ℚ) < n := by
        rw [← value]
        positivity
      exact_mod_cast this
    have rounded := round_rounded pos e
    rw [value, ← normalize_natCast pos] at rounded
    obtain ⟨m', e', c, settled, -, value'⟩ := finite_of_rounded posN lt rounded
    rw [settled, ← value']
    exact .finite c

section Whole

variable {u v : UnpackedFloat} {x y : Float} {a b : ℕ}

/-- Whole numbers are added without rounding while the sum has at most 53 bits. -/
theorem Value.add (hu : Value u a) (hv : Value v b) (lt : a + b < 2 ^ 53) :
    Value (UnpackedFloat.add .binary64 u v) (a + b : ℕ) := by
  rw [Nat.cast_add]
  generalize hp : (a : ℚ) = p at hu ⊢
  generalize hq : (b : ℚ) = q at hv ⊢
  cases hu with
  | zero s =>
    rw [zero_add]
    cases hv with
    | zero s' =>
      change Value (if s == s' then .zero s else .zero .positive) 0
      split <;> exact .zero _
    | finite c' => exact .finite c'
  | @finite m e c =>
    cases hv with
    | zero s' =>
      rw [add_zero]
      exact .finite c
    | @finite m' e' c' =>
      rw [← hp, ← hq, ← Nat.cast_add]
      refine value_normalize (m := (decreaseExponent m e (min e e')).1 +
        (decreaseExponent m' e' (min e e')).1) ?_ lt
      push_cast
      rw [add_mul, decreaseExponent_value m (min_le_left e e'),
        decreaseExponent_value m' (min_le_right e e'), hp, hq]

/-- Brought to one exponent, the significands of numbers are ordered like their values. -/
theorem decreaseExponent_le_iff {m m' : ℕ} {e e' t : ℤ} (le : t ≤ e) (le' : t ≤ e') :
    (decreaseExponent m e t).1 ≤ (decreaseExponent m' e' t).1 ↔ (m * 2 ^ e : ℚ) ≤ m' * 2 ^ e' := by
  have unit : (0 : ℚ) < 2 ^ t := zpow_pos two_pos t
  rw [← decreaseExponent_value m le, ← decreaseExponent_value m' le', mul_le_mul_iff_left₀ unit,
    Nat.cast_le]

/-- A whole number is taken from one that is no smaller without rounding. -/
theorem Value.sub (hu : Value u a) (hv : Value v b) (le : b ≤ a) (lt : a < 2 ^ 53) :
    Value (UnpackedFloat.sub .binary64 u v) (a - b : ℕ) := by
  have leQ : (b : ℚ) ≤ a := by exact_mod_cast le
  rw [Nat.cast_sub le]
  generalize hp : (a : ℚ) = p at hu leQ ⊢
  generalize hq : (b : ℚ) = q at hv leQ ⊢
  cases hu with
  | zero s =>
    cases hv with
    | zero s' =>
      rw [sub_zero]
      change Value (if s == -s' then .zero s else .zero .positive) 0
      split <;> exact .zero _
    | finite c' =>
      have := c'.pos
      exact absurd leQ (not_le.2 (by positivity))
  | @finite m e c =>
    cases hv with
    | zero s' =>
      rw [sub_zero]
      exact .finite c
    | @finite m' e' c' =>
      have order := (decreaseExponent_le_iff (min_le_right e e') (min_le_left e e')).2 leQ
      rw [← hp, ← hq, ← Nat.cast_sub le]
      change Value (normalize .binary64 (((decreaseExponent m e (min e e')).1 : ℤ) -
        ((decreaseExponent m' e' (min e e')).1 : ℤ)) (min e e') .positive) _
      rw [← Nat.cast_sub order]
      refine value_normalize ?_ (by omega)
      rw [Nat.cast_sub order, sub_mul, decreaseExponent_value m (min_le_left e e'),
        decreaseExponent_value m' (min_le_right e e'), Nat.cast_sub le, hp, hq]

/-- The sum of floats that have whole numbers has their sum. -/
theorem Has.add (hx : Has x a) (hy : Has y b) (lt : a + b < 2 ^ 53) : Has (x + y) (a + b : ℕ) :=
  (Value.add hx hy lt).has

/-- The difference of floats that have whole numbers has their difference, if it is not negative. -/
theorem Has.sub (hx : Has x a) (hy : Has y b) (le : b ≤ a) (lt : a < 2 ^ 53) :
    Has (x - y) (a - b : ℕ) :=
  (Value.sub hx hy le lt).has

/-! ## Below zero -/

theorem round_negative (m : ℕ) (e : ℤ) : UnpackedFloat.round .binary64 .negative m e =
    (UnpackedFloat.round .binary64 .positive m e).neg := by
  unfold UnpackedFloat.round roundWithAccuracy
  dsimp only
  split <;> rfl

/-- A number below zero is normalized like its opposite. -/
theorem normalize_neg {z : ℤ} (pos : 0 < z) (e : ℤ) :
    normalize .binary64 (-z) e .positive = (normalize .binary64 z e .positive).neg := by
  have lt : compare (-z) 0 = .lt := compare_lt_iff_lt.2 (by omega)
  have gt : compare z 0 = .gt := compare_gt_iff_gt.2 pos
  unfold UnpackedFloat.normalize
  simp only [lt, gt, neg_neg]
  exact round_negative z.toNat e

/-- A difference the wrong way round has the opposite sign. -/
theorem Value.sub_of_lt {p q : ℚ} (hu : Value u p) (hv : Value v q) (lt : p < q) :
    UnpackedFloat.sub .binary64 u v = (UnpackedFloat.sub .binary64 v u).neg := by
  cases hu with
  | zero s =>
    cases hv with
    | zero s' => exact absurd lt (lt_irrefl 0)
    | finite c' => rfl
  | @finite m e c =>
    cases hv with
    | zero s' => exact absurd lt (not_lt.2 (by positivity))
    | @finite m' e' c' =>
      have order : (decreaseExponent m e (min e e')).1 < (decreaseExponent m' e' (min e e')).1 := by
        rw [← not_le, decreaseExponent_le_iff (min_le_right e e') (min_le_left e e'), not_le]
        exact lt
      change normalize .binary64 (((decreaseExponent m e (min e e')).1 : ℤ) -
          ((decreaseExponent m' e' (min e e')).1 : ℤ)) (min e e') .positive =
        (normalize .binary64 (((decreaseExponent m' e' (min e' e)).1 : ℤ) -
          ((decreaseExponent m e (min e' e)).1 : ℤ)) (min e' e) .positive).neg
      rw [min_comm e' e, ← neg_sub, normalize_neg (by omega)]

/-- A difference below zero is the one the other way round with its sign changed. -/
theorem Has.sub_of_lt (hx : Has x a) (hy : Has y b) (lt : a < b) (small : b < 2 ^ 53) :
    x - y = -(y - x) := by
  have stored := (Value.sub hy hx lt.le small).stored
  change Float.ofModel (.pack (UnpackedFloat.sub .binary64 x.toModel.unpack y.toModel.unpack)) =
    -Float.ofModel (.pack (UnpackedFloat.sub .binary64 y.toModel.unpack x.toModel.unpack))
  rw [neg_pack stored, Value.sub_of_lt hx hy (by exact_mod_cast lt)]

/-- The negation of a float that has a number is negated in its unpacked form. -/
theorem Has.unpack_neg {p : ℚ} (hx : Has x p) : (-x).toModel.unpack = x.toModel.unpack.neg := by
  change (Float.Model.pack x.toModel.unpack.neg).unpack = _
  unfold Has at hx
  generalize x.toModel.unpack = u at hx
  cases hx with
  | zero s => exact unpack_pack_zero _
  | finite c => exact unpack_pack_finite c _

/-- To take a number away from one below zero is to add the two and change the sign. -/
theorem Value.neg_sub {p q : ℚ} (hu : Value u p) (hv : Value v q) (pos : 0 < p) :
    UnpackedFloat.sub .binary64 u.neg v = (UnpackedFloat.add .binary64 u v).neg := by
  cases hu with
  | zero s => exact absurd pos (lt_irrefl 0)
  | @finite m e c =>
    cases hv with
    | zero s' => rfl
    | @finite m' e' c' =>
      have positive : 0 < (decreaseExponent m e (min e e')).1 := by
        have value := decreaseExponent_value m (min_le_left e e')
        by_contra none
        rw [Nat.le_zero.1 (not_lt.1 none), Nat.cast_zero, zero_mul] at value
        exact pos.ne value
      change normalize .binary64 (-((decreaseExponent m e (min e e')).1 : ℤ) -
          ((decreaseExponent m' e' (min e e')).1 : ℤ)) (min e e') .positive =
        (normalize .binary64 (((decreaseExponent m e (min e e')).1 : ℤ) +
          ((decreaseExponent m' e' (min e e')).1 : ℤ)) (min e e') .positive).neg
      rw [← neg_add', normalize_neg (by omega)]

/-- A whole number taken from a negated one gives their sum negated. -/
theorem Has.neg_sub (hx : Has x a) (hy : Has y b) (pos : 0 < a) (lt : a + b < 2 ^ 53) :
    -x - y = -(x + y) := by
  have stored := (Value.add hx hy lt).stored
  change Float.ofModel (.pack (UnpackedFloat.sub .binary64 (-x).toModel.unpack y.toModel.unpack)) =
    -Float.ofModel (.pack (UnpackedFloat.add .binary64 x.toModel.unpack y.toModel.unpack))
  rw [neg_pack stored, hx.unpack_neg, Value.neg_sub hx hy (by exact_mod_cast pos)]

/-- Two whole numbers taken from another leave a finite number. -/
theorem isFinite_sub_sub {z : Float} {c : ℕ} (hx : Has x a) (hy : Has y b) (hz : Has z c)
    (ltA : a < 2 ^ 52) (ltB : b < 2 ^ 52) (ltC : c < 2 ^ 52) : (x - y - z).isFinite := by
  rcases le_or_gt b a with le | lt
  · have first := hx.sub hy le (by omega)
    rcases le_or_gt c (a - b) with le' | lt'
    · exact (first.sub hz le' (by omega)).isFinite
    · rw [first.sub_of_lt hz lt' (by omega)]
      exact isFinite_neg (hz.sub first lt'.le (by omega)).isFinite
  · have first := hy.sub hx lt.le (by omega)
    rw [hx.sub_of_lt hy lt (by omega), first.neg_sub hz (by omega) (by omega)]
    exact isFinite_neg (first.add hz (by omega)).isFinite

end Whole

/-- No canonical number is greater than the greatest float. -/
theorem Canonical.le_greatest {m : ℕ} {e : ℤ} (c : Canonical m e) :
    (m * 2 ^ e : ℚ) ≤ (2 ^ 53 - 1 : ℕ) * 2 ^ (971 : ℤ) := by
  have := c.lt
  refine mul_le_mul ?_ (zpow_le_zpow_right₀ one_le_two c.most) (by positivity) (by positivity)
  exact_mod_cast (by omega : m ≤ 2 ^ 53 - 1)

/-- A quotient by a number that is not below one is a number of the range. -/
theorem Has.div {x y : Float} {p q : ℚ} (hx : Has x p) (hy : Holds y q) (one : 1 ≤ q) :
    ∃ r, Has (x / y) r := by
  obtain ⟨m', e', c', unpack, -, rfl⟩ := hy
  have quotient : x / y = .ofModel (.pack (UnpackedFloat.div .binary64 x.toModel.unpack
      (.finite .positive m' e' c'.pos))) := by
    rw [← unpack]
    rfl
  rw [quotient]
  unfold Has at hx
  generalize x.toModel.unpack = u at hx
  cases hx with
  | zero s => exact ⟨0, (Value.zero _).has⟩
  | @finite m e c =>
    obtain ⟨k, t, rounds, settled⟩ : Rounded (m * 2 ^ e / (m' * 2 ^ e'))
        (UnpackedFloat.div .binary64 (.finite .positive m e c.pos)
          (.finite .positive m' e' c'.pos)) := div_rounded c.pos c'.pos
    rw [settled]
    have small : (m * 2 ^ e / (m' * 2 ^ e') : ℚ) ≤ (2 ^ 53 - 1 : ℕ) * 2 ^ (971 : ℤ) :=
      (div_le_self (by positivity) one).trans c.le_greatest
    obtain ⟨r, value⟩ := exists_value_settle rounds small
    exact ⟨r, value.has⟩

/-- Of two numbers of the format the significands are long or the exponents are small, so that their
product is rounded once. -/
theorem Canonical.mul {m m' : ℕ} {e e' : ℤ} (c : Canonical m e) (c' : Canonical m' e') :
    2 ^ 52 ≤ m * m' ∨ e + e' ≤ -1074 := by
  rcases c.normal with least | full
  · rcases c'.normal with least' | full'
    · exact .inr (by omega)
    · exact .inl (full'.trans (Nat.le_mul_of_pos_left m' c.pos))
  · exact .inl (full.trans (Nat.le_mul_of_pos_right m c'.pos))

/-- A product that is not above the greatest number is a number of the range. -/
theorem Has.mul {x y : Float} {p q : ℚ} (hx : Has x p) (hy : Has y q)
    (most : p * q ≤ (2 ^ 53 - 1 : ℕ) * 2 ^ (971 : ℤ)) : ∃ r, Has (x * y) r := by
  change ∃ r, Has (.ofModel (.pack
    (UnpackedFloat.mul .binary64 x.toModel.unpack y.toModel.unpack))) r
  unfold Has at hx hy
  generalize x.toModel.unpack = u at hx ⊢
  generalize y.toModel.unpack = v at hy ⊢
  cases hx with
  | zero s => cases hy <;> exact ⟨0, (Value.zero _).has⟩
  | finite c =>
    cases hy with
    | zero s' => exact ⟨0, (Value.zero _).has⟩
    | finite c' =>
      obtain ⟨k, t, rounds, settled⟩ := mul_rounded c.pos c'.pos (c.mul c')
      rw [settled]
      obtain ⟨r, value⟩ := exists_value_settle rounds most
      exact ⟨r, value.has⟩

/-- A whole number of at most 53 bits is held by the float made from it. -/
theorem holds_float_ofNat {n : ℕ} (pos : 0 < n) (lt : n < 2 ^ 53) : Holds (Float.ofNat n) n := by
  obtain ⟨u, rounded, eq⟩ : ∃ u, Rounded (n * 10 ^ (0 : ℤ)) u ∧
      Float.ofScientific n ((0 : ℤ) < 0) (0 : ℤ).natAbs = .ofModel (.pack u) :=
    float_ofScientific_rounded pos (by omega) (by decide)
  rw [zpow_zero, mul_one] at rounded
  change Holds (Float.ofScientific n ((0 : ℤ) < 0) (0 : ℤ).natAbs) n
  rw [eq]
  exact holds_of_rounded pos lt rounded

theorem has_float_ofNat {n : ℕ} (lt : n < 2 ^ 53) : Has (Float.ofNat n) n := by
  rcases Nat.eq_zero_or_pos n with rfl | pos
  · rw [Nat.cast_zero]
    exact (Value.zero .positive).has
  · exact (holds_float_ofNat pos lt).has

theorem unpack_zero : (0 : Float).toModel.unpack = .zero .positive := unpack_pack_zero .positive

/-- Only zero has a minus sign among the numbers that are not below zero. -/
theorem has_of_nonneg {x : Float} (finite : x.isFinite) (nonneg : 0 ≤ x) :
    ((Binary.ofFloat x).significand = 0 ∧ Has x 0) ∨
      ((Binary.ofFloat x).negative = false ∧ (Binary.ofFloat x).significand < 2 ^ 53 ∧
        Has x ((Binary.ofFloat x).significand * 2 ^ (Binary.ofFloat x).exponent)) := by
  unfold Has
  rcases unpack_of_finite finite with ⟨zero, unpack⟩ | ⟨c, unpack⟩
  · left
    rw [unpack]
    exact ⟨zero, .zero _⟩
  · right
    cases sign : (Binary.ofFloat x).negative with
    | true =>
      change decide (UnpackedFloat.le (0 : Float).toModel.unpack x.toModel.unpack = true) = true
        at nonneg
      rw [unpack, sign, unpack_zero] at nonneg
      contradiction
    | false =>
      refine ⟨rfl, c.lt, ?_⟩
      rw [unpack, sign]
      exact .finite c

theorem exists_has_of_nonneg {x : Float} (finite : x.isFinite) (nonneg : 0 ≤ x) : ∃ q, Has x q := by
  rcases has_of_nonneg finite nonneg with ⟨-, has⟩ | ⟨-, -, has⟩ <;> exact ⟨_, has⟩

/-- The product of two numbers between 0 and 1 stays in the range. -/
theorem isFinite_mul_of_le_one {x y : Float} (finiteX : x.isFinite) (unitX : 0 ≤ x ∧ x ≤ 1)
    (finiteY : y.isFinite) (unitY : 0 ≤ y ∧ y ≤ 1) : (x * y).isFinite := by
  obtain ⟨p, hp⟩ := exists_has_of_nonneg finiteX unitX.1
  obtain ⟨q, hq⟩ := exists_has_of_nonneg finiteY unitY.1
  have one : Has (1 : Float) (1 : ℕ) := has_float_ofNat (by decide)
  have leP := (hp.le_iff one).1 unitX.2
  have leQ := (hq.le_iff one).1 unitY.2
  rw [Nat.cast_one] at leP leQ
  have most : p * q ≤ (2 ^ 53 - 1 : ℕ) * 2 ^ (971 : ℤ) := by
    calc p * q ≤ 1 := mul_le_one₀ leP hq.nonneg leQ
      _ ≤ (2 ^ 53 - 1 : ℕ) * 2 ^ (971 : ℤ) :=
        one_le_mul_of_one_le_of_one_le (by norm_num) (one_le_zpow₀ one_le_two (by decide))
  obtain ⟨r, hr⟩ := hp.mul hq most
  exact hr.isFinite

/-- So does half the sum of two whole numbers. -/
theorem isFinite_half_add {x y : Float} {a b : ℕ} (hx : Has x a) (hy : Has y b)
    (lt : a + b < 2 ^ 53) : ((x + y) / 2).isFinite := by
  have two : Holds (2 : Float) (2 : ℕ) := holds_float_ofNat (by decide) (by decide)
  obtain ⟨r, hr⟩ := (hx.add hy lt).div two (by norm_num)
  exact hr.isFinite

theorem floor_half (n : ℕ) : ⌊(n : ℚ) + 1 / 2⌋₊ = n :=
  (Nat.floor_eq_iff (by positivity)).2 ⟨by linarith, by linarith⟩

/-- The quotient rounded with halves going up is the whole part of the quotient and a half. -/
theorem divHalfUp_eq_floor (m : ℕ) {d : ℕ} (pos : 0 < d) :
    divHalfUp m d = ⌊(m : ℚ) / d + 1 / 2⌋₊ := by
  have unit : (d : ℚ) ≠ 0 := Nat.cast_ne_zero.2 pos.ne'
  have sum : (m : ℚ) / d + 1 / 2 = ((2 * m + d : ℕ) : ℚ) / ((2 * d : ℕ) : ℚ) := by
    push_cast
    field_simp
  rw [divHalfUp, sum, Nat.floor_div_eq_div]

/-- A number that is not negative is rounded to the nearest whole number, a half going up. -/
theorem exists_has_roundHalfAway {x : Float} (finite : x.isFinite) (nonneg : 0 ≤ x) :
    ∃ q, Has x q ∧ Has (roundHalfAway x) ⌊q + 1 / 2⌋₊ := by
  unfold roundHalfAway
  simp only [finite, Bool.not_true, Bool.false_eq_true, if_false]
  rcases has_of_nonneg finite nonneg with ⟨zero, has⟩ | ⟨sign, lt, has⟩
  · refine ⟨0, has, ?_⟩
    have none : ⌊(0 : ℚ) + 1 / 2⌋₊ = 0 := floor_half 0
    rw [none, Nat.cast_zero]
    split
    · exact has
    · have none : divHalfUp 0 (Nat.pow 2 (Binary.ofFloat x).exponent.natAbs) = 0 :=
        Nat.le_zero.1 (divHalfUp_le 0 (Nat.pow_pos two_pos))
      rw [zero, none]
      split
      · change Has (-Float.ofModel (.pack (.zero .positive))) 0
        rw [neg_pack (unpack_pack_zero _)]
        exact (Value.zero _).has
      · exact (Value.zero .positive).has
  · refine ⟨_, has, ?_⟩
    split
    · rename_i whole
      obtain ⟨k, hk⟩ := Int.eq_ofNat_of_zero_le whole
      rw [hk, zpow_natCast] at has ⊢
      have value : ((Binary.ofFloat x).significand * 2 ^ k : ℚ) =
          ((Binary.ofFloat x).significand * 2 ^ k : ℕ) := by
        push_cast
        rfl
      rw [value, floor_half]
      rwa [value] at has
    · rename_i fraction
      obtain ⟨k, hk⟩ : ∃ k : ℕ, (Binary.ofFloat x).exponent = -k :=
        ⟨(Binary.ofFloat x).exponent.natAbs, by omega⟩
      have scale : Nat.pow 2 (Binary.ofFloat x).exponent.natAbs = 2 ^ k := by
        rw [hk, Int.natAbs_neg, Int.natAbs_natCast]
        rfl
      have value : ((Binary.ofFloat x).significand * 2 ^ (-(k : ℤ)) : ℚ) =
          (Binary.ofFloat x).significand / (2 ^ k : ℕ) := by
        rw [zpow_neg, zpow_natCast, ← div_eq_mul_inv]
        push_cast
        rfl
      rw [sign, scale, hk, value, ← divHalfUp_eq_floor _ (Nat.pow_pos two_pos)]
      exact has_float_ofNat ((divHalfUp_le _ (Nat.pow_pos two_pos)).trans_lt lt)

end CanvasLayout.Binary64
