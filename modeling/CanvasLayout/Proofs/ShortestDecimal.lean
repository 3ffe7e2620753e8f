import CanvasLayout.Decimal.Numeral
import CanvasLayout.Proofs.DecimalGrid
import CanvasLayout.Proofs.DecimalRounding

/-!
# The shortest decimal reads back

A hit on a grid is a decimal in the interval around a number (`Binary.hits_iff`), and a grid of
seventeen digits is fine enough to have one (`Binary.onGrid_ne_none`). So the shortest decimal lies
in the interval (`within_shortest`), and every decimal there is rounded to the number
(`toFloat_of_shortest`).
-/

open Float.Model

namespace CanvasLayout.Decimal

open Binary64

/-- The magnitude of a number. -/
def Binary.value (b : Binary) : ℚ := b.significand * 2 ^ b.exponent

/-- The number that a decimal is. -/
def Magnitude.value (m : Magnitude) : ℚ := m.digits * 10 ^ m.exponent

/-- A power is a numerator or a denominator. -/
theorem zpow_eq_div (c : ℕ) (e : ℤ) :
    (c : ℚ) ^ e =
      (if e < 0 then 1 else c ^ e.natAbs : ℕ) / (if e < 0 then c ^ e.natAbs else 1 : ℕ) := by
  split
  · obtain ⟨k, rfl⟩ : ∃ k : ℕ, e = -k := ⟨e.natAbs, by omega⟩
    simp
  · lift e to ℕ using by omega
    simp

/-- The fraction that stands for the number of units of a power of ten. -/
theorem Binary.overPower_eq (b : Binary) (power : ℤ) :
    ((b.overPower power).1 : ℚ) / (b.overPower power).2 = b.value / 10 ^ power := by
  have two := zpow_eq_div 2 b.exponent
  have ten := zpow_eq_div 10 power
  push_cast at two ten
  rw [Binary.value, two, ten]
  unfold Binary.overPower
  simp only [Nat.pow_eq]
  push_cast
  simp only [← not_lt, ite_not]
  split <;> split <;> field_simp

theorem Binary.overPower_fst (b : Binary) (power : ℤ) :
    ((b.overPower power).1 : ℚ) = b.value / 10 ^ power * (b.overPower power).2 := by
  have : ((b.overPower power).2 : ℚ) ≠ 0 := by exact_mod_cast (b.overPower_snd_pos power).ne'
  rw [← b.overPower_eq, div_mul_cancel₀ _ this]

/-- The number lies between two neighbouring multiples of the power. -/
theorem Binary.between (b : Binary) (power : ℤ) :
    ((b.overPower power).1 / (b.overPower power).2 : ℕ) * 10 ^ power ≤ b.value ∧
      b.value < ((b.overPower power).1 / (b.overPower power).2 + 1 : ℕ) * 10 ^ power := by
  have step : (0 : ℚ) < 10 ^ power := by positivity
  rw [← Nat.floor_div_eq_div (K := ℚ), overPower_eq]
  constructor
  · rw [← le_div_iff₀ step]
    exact Nat.floor_le (by unfold Binary.value; positivity)
  · rw [← div_lt_iff₀ step]
    push_cast
    exact Nat.lt_floor_add_one _

/-- How far a point of a grid is from an end of the interval. -/
theorem Binary.point_sub (b : Binary) (power : ℤ) (t k : ℕ) :
    ((4 * b.significand * t * (b.overPower power).2 : ℕ) - (k * (b.overPower power).1 : ℕ) : ℚ) =
      (t * 10 ^ power - k / 4 * 2 ^ b.exponent) *
        (4 * b.significand * (b.overPower power).2 / 10 ^ power) := by
  push_cast
  rw [b.overPower_fst, Binary.value]
  field_simp

section Grid

variable {b : Binary} (c : Canonical b.significand b.exponent) {power : ℤ}
include c

/-- The units in which candidates are compared are positive. -/
theorem Binary.step_pos :
    (0 : ℚ) < 4 * b.significand * (b.overPower power).2 / 10 ^ power := by
  have := c.pos
  have := b.overPower_snd_pos power
  positivity

/-- Comparing whole numbers compares a multiple of the power with a quarter of a unit in the last
place. -/
theorem Binary.le_point_iff (t k : ℕ) :
    k * (b.overPower power).1 ≤ 4 * b.significand * t * (b.overPower power).2 ↔
      k / 4 * 2 ^ b.exponent ≤ (t * 10 ^ power : ℚ) := by
  rw [← Nat.cast_le (α := ℚ), ← sub_nonneg, point_sub, mul_nonneg_iff_of_pos_right (step_pos c),
    sub_nonneg]

theorem Binary.lt_point_iff (t k : ℕ) :
    k * (b.overPower power).1 < 4 * b.significand * t * (b.overPower power).2 ↔
      k / 4 * 2 ^ b.exponent < (t * 10 ^ power : ℚ) := by
  rw [← Nat.cast_lt (α := ℚ), ← sub_pos, point_sub, mul_pos_iff_of_pos_right (step_pos c), sub_pos]

theorem Binary.point_le_iff (t k : ℕ) :
    4 * b.significand * t * (b.overPower power).2 ≤ k * (b.overPower power).1 ↔
      (t * 10 ^ power : ℚ) ≤ k / 4 * 2 ^ b.exponent := by
  rw [← not_lt, lt_point_iff c, not_lt]

theorem Binary.point_lt_iff (t k : ℕ) :
    4 * b.significand * t * (b.overPower power).2 < k * (b.overPower power).1 ↔
      (t * 10 ^ power : ℚ) < k / 4 * 2 ^ b.exponent := by
  rw [← not_le, le_point_iff c, not_le]

/-- A point of a grid that is hit rounds to the number. -/
theorem Binary.hits_iff (t : ℕ) : b.hits (b.overPower power).1 (b.overPower power).2 t ↔
    Within b.significand b.exponent (t * 10 ^ power) := by
  have low : ((4 * b.significand -
      (if b.significand = binadeStart ∧ leastExponent < b.exponent then 1 else 2) : ℕ) : ℚ) / 4 =
      b.significand - if b.significand = 2 ^ 52 ∧ -1074 < b.exponent then 1 / 4 else 1 / 2 := by
    have := c.pos
    change _ = (b.significand : ℚ) -
      if b.significand = binadeStart ∧ leastExponent < b.exponent then 1 / 4 else 1 / 2
    split <;> rw [Nat.cast_sub (by omega)] <;> push_cast <;> ring
  have high : ((4 * b.significand + 2 : ℕ) : ℚ) / 4 = b.significand + 1 / 2 := by
    push_cast
    ring
  unfold Binary.hits
  simp only
  split
  · rename_i even
    rw [Bool.and_eq_true, decide_eq_true_eq, decide_eq_true_eq, le_point_iff c, point_le_iff c, low,
      high]
    exact ⟨fun h => ⟨h.1, h.2, fun odd => absurd (Nat.even_iff.2 even) odd⟩,
      fun h => ⟨h.above, h.below⟩⟩
  · rename_i odd
    have other : ¬(b.significand = 2 ^ 52 ∧ -1074 < b.exponent) := by omega
    rw [Bool.and_eq_true, decide_eq_true_eq, decide_eq_true_eq, lt_point_iff c, point_lt_iff c, low,
      high, if_neg other]
    refine ⟨fun h => ⟨?_, h.2.le, fun _ => h⟩, fun h => h.inside (by rwa [Nat.even_iff])⟩
    rw [if_neg other]
    exact h.1.le

/-- Of the two points of a grid around a number, one rounds to the number, where the grid has
seventeen digits for the number. -/
theorem Binary.within_or (fine : 10 ^ 16 * 10 ^ power ≤ b.value) {t : ℕ}
    (lower : t * 10 ^ power ≤ b.value) (upper : b.value < (t + 1 : ℕ) * 10 ^ power) :
    Within b.significand b.exponent (t * 10 ^ power) ∨
      Within b.significand b.exponent ((t + 1 : ℕ) * 10 ^ power) := by
  have unit : (0 : ℚ) < 2 ^ b.exponent := by positivity
  push_cast at upper ⊢
  unfold Binary.value at *
  by_cases start : b.significand = 2 ^ 52 ∧ -1074 < b.exponent
  · right
    have whole : (b.significand : ℚ) = 2 ^ 52 := by exact_mod_cast start.1
    apply within_of_lt
    · rw [if_pos start]
      linarith
    · rw [whole] at fine lower ⊢
      linarith
  · have most : (b.significand : ℚ) * 2 ^ b.exponent < 2 ^ 53 * 2 ^ b.exponent := by
      gcongr
      exact_mod_cast c.lt
    by_cases near : b.significand * 2 ^ b.exponent - t * 10 ^ power < 1 / 2 * (2 : ℚ) ^ b.exponent
    · left
      apply within_of_lt
      · rw [if_neg start]
        linarith
      · linarith
    · right
      apply within_of_lt
      · rw [if_neg start]
        linarith
      · linarith

/-- A grid with seventeen digits for a number has a point that rounds to the number. -/
theorem Binary.onGrid_ne_none (tie : Tie) (fine : 10 ^ 16 * 10 ^ power ≤ b.value) :
    b.onGrid tie power ≠ none := by
  obtain ⟨lower, upper⟩ := b.between power
  have hit := within_or c fine lower upper
  rw [← hits_iff c, ← hits_iff c] at hit
  unfold Binary.onGrid
  simp only
  split <;> simp_all

end Grid

theorem Binary.reaches_iff (b : Binary) (power : ℤ) : b.reaches power ↔ 10 ^ power ≤ b.value := by
  have step : (0 : ℚ) < 10 ^ power := by positivity
  have pos : (0 : ℚ) < (b.overPower power).2 := by exact_mod_cast b.overPower_snd_pos power
  unfold Binary.reaches
  simp only [decide_eq_true_eq]
  rw [← Nat.cast_le (α := ℚ), overPower_fst, le_mul_iff_one_le_left pos, one_le_div step]

/-- Powers are compared by one comparison of powers of their bases. -/
theorem pow_le_pow_of_base {a b p q x y : ℕ} (base : a ^ p ≤ b ^ q) (posA : 0 < a) (posQ : q ≠ 0)
    (h : x * q ≤ p * y) : a ^ x ≤ b ^ y := by
  refine (Nat.pow_le_pow_iff_left posQ).1 ?_
  calc (a ^ x) ^ q = a ^ (x * q) := (pow_mul ..).symm
    _ ≤ a ^ (p * y) := Nat.pow_le_pow_right posA h
    _ = (a ^ p) ^ y := pow_mul ..
    _ ≤ (b ^ q) ^ y := Nat.pow_le_pow_left base y
    _ = (b ^ y) ^ q := by rw [← pow_mul, ← pow_mul, Nat.mul_comm]

/-- The guess at the power of ten below a number is off by one at most. -/
theorem guess_le {log : ℤ} (least : -1074 ≤ log) :
    (10 : ℚ) ^ (log * 1233 / 4096 - 1) ≤ 2 ^ log := by
  rcases le_or_gt 0 log with nonneg | neg
  · lift log to ℕ using nonneg
    have base : 10 ^ 1233 ≤ 2 ^ 4096 := by decide +kernel
    have nat : 10 ^ (log * 1233 / 4096) ≤ 2 ^ log :=
      pow_le_pow_of_base base (by decide) (by decide) (by omega)
    calc (10 : ℚ) ^ ((log : ℤ) * 1233 / 4096 - 1) ≤ 10 ^ ((log * 1233 / 4096 : ℕ) : ℤ) :=
          zpow_le_zpow_right₀ (by norm_num) (by omega)
      _ ≤ 2 ^ (log : ℤ) := by exact_mod_cast nat
  · obtain ⟨k, rfl⟩ : ∃ k : ℕ, log = -k := ⟨log.natAbs, by omega⟩
    obtain ⟨j, hj⟩ : ∃ j : ℕ, -(k : ℤ) * 1233 / 4096 - 1 = -j :=
      ⟨(-(k : ℤ) * 1233 / 4096 - 1).natAbs, by omega⟩
    have base : 2 ^ 93 ≤ 10 ^ 28 := by norm_num
    have nat : 2 ^ k ≤ 10 ^ j := pow_le_pow_of_base base (by decide) (by decide) (by omega)
    rw [hj, zpow_neg, zpow_neg, zpow_natCast, zpow_natCast]
    gcongr
    exact_mod_cast nat

/-- The estimated power of ten is no greater than the number. -/
theorem Binary.magnitude_le {b : Binary} (c : Canonical b.significand b.exponent) :
    10 ^ b.magnitude ≤ b.value := by
  unfold Binary.magnitude
  simp only
  split
  · exact (b.reaches_iff _).1 ‹_›
  split
  · exact (b.reaches_iff _).1 ‹_›
  · have lower : (2 : ℚ) ^ b.significand.log2 ≤ b.significand := by
      exact_mod_cast Nat.log2_self_le c.pos.ne'
    have := c.least
    calc (10 : ℚ) ^ ((b.significand.log2 + b.exponent) * 1233 / 4096 - 1)
        ≤ 2 ^ (b.significand.log2 + b.exponent) := guess_le (by omega)
      _ = 2 ^ b.significand.log2 * 2 ^ b.exponent := by
        rw [zpow_add₀ two_ne_zero, zpow_natCast]
      _ ≤ b.value := by
        unfold Binary.value
        gcongr

/-- The search over grids ends in a decimal that rounds to the number. -/
theorem Binary.within_firstHit {b : Binary} (c : Canonical b.significand b.exponent) (tie : Tie)
    {fuel count : ℕ} (left : fuel + count = 17) :
    Within b.significand b.exponent (b.firstHit tie b.magnitude (fuel + 1) count).value := by
  induction fuel generalizing count with
  | zero =>
    rw [Binary.firstHit]
    split
    · exact (hits_iff c _).1 (hits_of_onGrid ‹_›)
    · -- the last grid has seventeen digits
      rename_i missed
      obtain rfl : count = 17 := by omega
      refine absurd missed (onGrid_ne_none c tie ?_)
      rw [← zpow_natCast, ← zpow_add₀ (by norm_num)]
      refine le_trans (le_of_eq ?_) (magnitude_le c)
      congr 1
      push_cast
      ring
  | succ fuel ih =>
    rw [Binary.firstHit]
    split
    · exact (hits_iff c _).1 (hits_of_onGrid ‹_›)
    · exact ih (by omega)

/-- Zeros at the end of the digits go into the exponent. -/
theorem Magnitude.value_stripZeros (m : Magnitude) (fuel : ℕ) :
    (m.stripZeros fuel).value = m.value := by
  induction fuel generalizing m with
  | zero => rfl
  | succ fuel ih =>
    rw [Magnitude.stripZeros]
    split
    · rename_i cut
      have whole : (m.digits : ℚ) = (m.digits / 10 : ℕ) * 10 := by
        exact_mod_cast (Nat.div_mul_cancel (Nat.dvd_of_mod_eq_zero cut.2)).symm
      rw [ih, Magnitude.value, Magnitude.value, whole, zpow_add_one₀ (by norm_num)]
      ring
    · rfl

/-- The shortest decimal rounds to the float that it is of. -/
theorem within_shortest {x : Float}
    (c : Canonical (Binary.ofFloat x).significand (Binary.ofFloat x).exponent) (tie : Tie) :
    Within (Binary.ofFloat x).significand (Binary.ofFloat x).exponent (shortest tie x).value := by
  unfold shortest
  simp only
  rw [if_neg c.pos.ne', Magnitude.value_stripZeros]
  exact Binary.within_firstHit c tie rfl

/-- A number is below the power of ten that has as many zeros as it has digits. -/
theorem lt_ten_pow_length (n : ℕ) : n < 10 ^ (Nat.toDigits 10 n).length :=
  (Nat.length_toDigits_le_iff (by decide) Nat.length_toDigits_pos).1 le_rfl

theorem ten_pow_length_le {n : ℕ} (pos : 0 < n) : 10 ^ ((Nat.toDigits 10 n).length - 1) ≤ n := by
  by_cases single : (Nat.toDigits 10 n).length = 1
  · rw [single]
    exact pos
  · have : 0 < (Nat.toDigits 10 n).length := Nat.length_toDigits_pos
    rw [← not_lt, ← Nat.length_toDigits_le_iff (by decide) (by omega)]
    omega

/-- The number that a numeral is, without its sign. -/
def Numeral.value (n : Numeral) : ℚ := n.digits * 10 ^ n.exponent

/-- A numeral that is neither tiny nor huge is rounded. -/
theorem Numeral.magnitude_rounded {n : Numeral} (low : 10 ^ (-330 : ℤ) ≤ n.value)
    (high : n.value ≤ 10 ^ (309 : ℤ)) :
    ∃ u, Rounded n.value u ∧ n.magnitude = .ofModel (.pack u) := by
  have ten : (1 : ℚ) < 10 := by norm_num
  have pos : 0 < n.digits := by
    by_contra zero
    have : n.digits = 0 := by omega
    rw [Numeral.value, this, Nat.cast_zero, zero_mul] at low
    exact absurd low (not_le.2 (by positivity))
  set len := (Nat.toDigits 10 n.digits).length with hlen
  have some : 0 < len := Nat.length_toDigits_pos
  have above : (10 : ℚ) ^ (len + n.exponent - 1) ≤ n.value := by
    have : (len : ℤ) + n.exponent - 1 = (len - 1 : ℕ) + n.exponent := by omega
    rw [this, zpow_add₀ (by norm_num), zpow_natCast, Numeral.value]
    gcongr
    exact_mod_cast ten_pow_length_le pos
  have below : n.value < 10 ^ (len + n.exponent) := by
    rw [zpow_add₀ (by norm_num), zpow_natCast, Numeral.value]
    gcongr
    exact_mod_cast lt_ten_pow_length n.digits
  have least := (zpow_lt_zpow_iff_right₀ ten).1 (low.trans_lt below)
  have most := (zpow_le_zpow_iff_right₀ ten).1 (above.trans high)
  have short : len - 1 ≤ n.digits.log2 :=
    le_log2 ((Nat.pow_le_pow_left (by decide) _).trans (ten_pow_length_le pos))
  have fits : -(2 ^ 11 + n.digits.log2) ≤ n.exponent := by omega
  obtain ⟨u, rounded, eq⟩ := float_ofScientific_rounded pos fits (by omega)
  refine ⟨u, rounded, ?_⟩
  unfold Numeral.magnitude
  simp only [← hlen]
  rw [if_neg (by omega), if_neg (by omega), eq]

theorem two_zpow_le (p q : ℕ) (h : 2 ^ p ≤ 10 ^ q) : (2 : ℚ) ^ (p : ℤ) ≤ 10 ^ (q : ℤ) := by
  rw [zpow_natCast, zpow_natCast]
  exact_mod_cast h

/-- What rounds to a number is neither tiny nor huge. -/
theorem within_range {m : ℕ} {e : ℤ} {q : ℚ} (c : Canonical m e) (h : Within m e q) :
    10 ^ (-330 : ℤ) ≤ q ∧ q ≤ 10 ^ (309 : ℤ) := by
  have pos : (1 : ℚ) ≤ m := by exact_mod_cast c.pos
  have lt : (m : ℚ) + 1 ≤ 2 ^ (53 : ℤ) := by exact_mod_cast c.lt
  constructor
  · have tiny : (10 : ℚ) ^ (-330 : ℤ) ≤ 2 ^ (-1075 : ℤ) := by
      rw [zpow_neg, zpow_neg]
      gcongr
      exact two_zpow_le 1075 330 (by decide +kernel)
    calc (10 : ℚ) ^ (-330 : ℤ) ≤ 2 ^ (-1075 : ℤ) := tiny
      _ = 1 / 2 * 2 ^ (-1074 : ℤ) := by
        rw [show (-1075 : ℤ) = -1 + -1074 from rfl, zpow_add₀ two_ne_zero]
        norm_num
      _ ≤ (m - 1 / 2) * 2 ^ e :=
        mul_le_mul (by linarith) (zpow_le_zpow_right₀ one_le_two c.least) (by positivity)
          (by linarith)
      _ ≤ q := h.half_above
  · have huge : (2 : ℚ) ^ (53 : ℤ) * 2 ^ (971 : ℤ) ≤ 10 ^ (309 : ℤ) := by
      rw [← zpow_add₀ two_ne_zero]
      exact two_zpow_le 1024 309 (by decide +kernel)
    calc q ≤ (m + 1 / 2) * 2 ^ e := h.below
      _ ≤ 2 ^ (53 : ℤ) * 2 ^ (971 : ℤ) :=
        mul_le_mul (by linarith) (zpow_le_zpow_right₀ one_le_two c.most) (by positivity)
          (by positivity)
      _ ≤ 10 ^ (309 : ℤ) := huge

theorem Numeral.magnitude_zero {n : Numeral} (h : n.digits = 0) :
    n.magnitude = .ofModel (.pack (.zero .positive)) := by
  unfold Numeral.magnitude
  simp only [h, true_or, if_true]
  rfl

/-- The sign goes on after the magnitude is rounded. -/
theorem Numeral.toFloat_eq {n : Numeral} {u : UnpackedFloat}
    (stored : (Float.Model.pack u).unpack = u) (h : n.magnitude = .ofModel (.pack u)) :
    n.toFloat = .ofModel (.pack (if n.negative then u.neg else u)) := by
  unfold Numeral.toFloat
  split
  · rw [h, neg_pack stored]
  · exact h

/-- A decimal of the same value as the shortest one reads back as the number. -/
theorem toFloat_of_shortest {x : Float} (finite : x.isFinite) {tie : Tie} {n : Numeral}
    (sign : n.negative = (Binary.ofFloat x).negative)
    (value : n.value = (shortest tie x).value) : n.toFloat = x := by
  rcases unpack_of_finite finite with ⟨zero, unpack⟩ | ⟨c, unpack⟩
  · have none : n.digits = 0 := by
      have : (shortest tie x).value = 0 := by simp [shortest, zero, Magnitude.value]
      rw [this, Numeral.value, mul_eq_zero] at value
      rcases value with digits | power
      · exact_mod_cast digits
      · exact absurd power (by positivity)
    refine Eq.trans ?_ (ofModel_pack_unpack x)
    rw [Numeral.toFloat_eq (unpack_pack_zero _) (Numeral.magnitude_zero none), unpack, sign]
    cases (Binary.ofFloat x).negative <;> rfl
  · have within := within_shortest c tie
    rw [← value] at within
    obtain ⟨low, high⟩ := within_range c within
    obtain ⟨u, ⟨k, t, rounds, rfl⟩, magnitude⟩ := Numeral.magnitude_rounded low high
    rw [settle_of_within c within rounds] at magnitude
    refine Eq.trans ?_ (ofModel_pack_unpack x)
    rw [Numeral.toFloat_eq (unpack_pack_finite c _) magnitude, unpack, sign]
    cases (Binary.ofFloat x).negative <;> rfl

/-- A whole numeral that fits in 64 bits is a finite number. -/
theorem isFinite_magnitude {n : Numeral} (whole : n.exponent = 0) (h : n.digits ≤ UInt64.size) :
    n.magnitude.isFinite := by
  rcases Nat.eq_zero_or_pos n.digits with zero | pos
  · rw [Numeral.magnitude_zero zero]
    exact (Value.zero _).has.isFinite
  · have value : n.value = n.digits := by rw [Numeral.value, whole, zpow_zero, mul_one]
    have low : 10 ^ (-330 : ℤ) ≤ n.value := by
      rw [value]
      calc (10 : ℚ) ^ (-330 : ℤ) ≤ 1 := zpow_le_one_of_nonpos₀ (by norm_num) (by decide)
        _ ≤ n.digits := by exact_mod_cast pos
    have high : n.value ≤ 2 ^ (64 : ℤ) := by
      rw [value]
      exact_mod_cast h
    obtain ⟨u, ⟨k, t, rounds, rfl⟩, magnitude⟩ :=
      Numeral.magnitude_rounded low (high.trans (two_zpow_le 64 309 (by decide +kernel)))
    have small : n.value ≤ (2 ^ 53 - 1 : ℕ) * 2 ^ (971 : ℤ) := by
      calc n.value ≤ 2 ^ (64 : ℤ) := high
        _ ≤ 1 * 2 ^ (971 : ℤ) := by
          rw [one_mul]
          exact zpow_le_zpow_right₀ one_le_two (by decide)
        _ ≤ (2 ^ 53 - 1 : ℕ) * 2 ^ (971 : ℤ) := by
          gcongr
          norm_num
    obtain ⟨r, value⟩ := exists_value_settle rounds small
    rw [magnitude]
    exact value.has.isFinite

/-- Whole numbers of 64 bits are in the range. -/
theorem isFinite_toFloat {n : Numeral} (whole : n.exponent = 0) (h : n.digits ≤ UInt64.size) :
    n.toFloat.isFinite := by
  unfold Numeral.toFloat
  split
  · exact isFinite_neg (isFinite_magnitude whole h)
  · exact isFinite_magnitude whole h

end CanvasLayout.Decimal
