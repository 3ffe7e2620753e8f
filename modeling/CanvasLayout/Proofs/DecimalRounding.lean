import CanvasLayout.Proofs.Rounding

/-!
# Decimals rounded to binary64

A decimal is turned into a number by one multiplication or division, of the two numbers where both
are exact and of big integers elsewhere. Either way it is rounded once (`ofScientific_rounded`).
-/

open Float.Model
open Float.Model.UnpackedFloat

namespace CanvasLayout.Binary64

/-- The outcome of rounding a number. -/
def Rounded (q : ℚ) (u : UnpackedFloat) : Prop :=
  ∃ k t, Rounds q k t ∧ u = settle k t

theorem tracks_exact (m : ℕ) : Tracks (.ofMantissaAndAccuracy m .exact) m := rfl

/-- A whole quotient and what its remainder says track the quotient. -/
theorem tracks_quotient (n : ℕ) {d : ℕ} (pos : 0 < d) :
    Tracks (.ofMantissaAndAccuracy (n / d) (accuracyOfFraction (n % d) d)) (n / d) := by
  have posQ : (0 : ℚ) < d := by exact_mod_cast pos
  have split : (n : ℚ) / d = (n / d : ℕ) + (n % d : ℕ) / d := by
    rw [← mul_div_cancel_right₀ ((n / d : ℕ) : ℚ) posQ.ne', ← add_div]
    congr
    exact_mod_cast (Nat.div_add_mod' n d).symm
  have small : (n % d : ℕ) / (d : ℚ) < 1 := by
    rw [div_lt_one posQ]
    exact_mod_cast Nat.mod_lt n pos
  rw [split]
  unfold accuracyOfFraction
  split
  · rename_i zero
    rw [zero, Nat.cast_zero, zero_div, add_zero]
    rfl
  · rename_i nonzero
    have rest : (0 : ℚ) < (n % d : ℕ) / d := by
      apply div_pos _ posQ
      exact_mod_cast Nat.pos_of_ne_zero nonzero
    rcases lt_trichotomy (2 * (n % d)) d with less | half | more
    · rw [compare_lt_iff_lt.2 less]
      have : (n % d : ℕ) / (d : ℚ) < 1 / 2 := by
        rw [div_lt_div_iff₀ posQ two_pos]
        exact_mod_cast (by omega : n % d * 2 < 1 * d)
      exact ⟨lt_add_of_pos_right _ rest, add_lt_add_right this _⟩
    · rw [compare_eq_iff_eq.2 half]
      have : (n % d : ℕ) / (d : ℚ) = 1 / 2 := by
        rw [div_eq_div_iff posQ.ne' two_ne_zero]
        exact_mod_cast (by omega : n % d * 2 = 1 * d)
      rw [this]
      rfl
    · rw [compare_gt_iff_gt.2 more]
      have : 1 / 2 < (n % d : ℕ) / (d : ℚ) := by
        rw [div_lt_div_iff₀ two_pos posQ]
        exact_mod_cast (by omega : 1 * d < n % d * 2)
      exact ⟨add_lt_add_right this _, add_lt_add_right small _⟩

theorem mul_rounded {m₁ m₂ : ℕ} {e₁ e₂ : ℤ} (pos₁ : 0 < m₁) (pos₂ : 0 < m₂)
    (full : 2 ^ 52 ≤ m₁ * m₂ ∨ e₁ + e₂ ≤ -1074) :
    Rounded (m₁ * 2 ^ e₁ * (m₂ * 2 ^ e₂))
      (UnpackedFloat.mul .binary64 (.finite .positive m₁ e₁ pos₁)
        (.finite .positive m₂ e₂ pos₂)) := by
  have scale : (m₁ * 2 ^ e₁ * (m₂ * 2 ^ e₂) : ℚ) / 2 ^ (e₁ + e₂) = (m₁ * m₂ : ℕ) := by
    rw [zpow_add₀ two_ne_zero]
    push_cast
    field_simp
  refine roundWithAccuracy_eq ?_ full
  rw [scale]
  exact tracks_exact _

/-- The leading digits of a quotient, as many as are needed to round it. -/
theorem full_quotient {m₁ m₂ n : ℕ} (pos₁ : 0 < m₁) (pos₂ : 0 < m₂)
    (long : m₂.log2 + 53 ≤ m₁.log2 + n) : 2 ^ 52 ≤ m₁ <<< n / m₂ := by
  rw [Nat.le_div_iff_mul_le pos₂, Nat.shiftLeft_eq]
  calc 2 ^ 52 * m₂ ≤ 2 ^ 52 * 2 ^ (m₂.log2 + 1) := by
        gcongr
        exact Nat.lt_log2_self.le
    _ = 2 ^ (m₂.log2 + 53) := by ring
    _ ≤ 2 ^ (m₁.log2 + n) := Nat.pow_le_pow_right two_pos long
    _ = 2 ^ m₁.log2 * 2 ^ n := pow_add ..
    _ ≤ m₁ * 2 ^ n := by
        gcongr
        exact Nat.log2_self_le pos₁.ne'

theorem div_rounded {m₁ m₂ : ℕ} {e₁ e₂ : ℤ} (pos₁ : 0 < m₁) (pos₂ : 0 < m₂) :
    Rounded (m₁ * 2 ^ e₁ / (m₂ * 2 ^ e₂))
      (UnpackedFloat.div .binary64 (.finite .positive m₁ e₁ pos₁)
        (.finite .positive m₂ e₂ pos₂)) := by
  have target : Format.binary64.targetExponent (totalExponent m₁ e₁ - totalExponent m₂ e₂) =
      max (m₁.log2 + e₁ - (m₂.log2 + e₂) - 53) (-1074) := by
    simp only [Format.targetExponent, totalExponent, Format.mantissaBits, Format.minExponent]
    norm_num
    omega
  unfold UnpackedFloat.div UnpackedFloat.divCore
  simp only [target]
  obtain ⟨n, hn⟩ : ∃ n : ℕ, min (e₁ - e₂) (max (m₁.log2 + e₁ - (m₂.log2 + e₂) - 53) (-1074)) =
      e₁ - e₂ - n := by
    refine ⟨(e₁ - e₂ - min (e₁ - e₂) (max (m₁.log2 + e₁ - (m₂.log2 + e₂) - 53) (-1074))).toNat, ?_⟩
    omega
  have shift : (e₁ - e₂ - (e₁ - e₂ - n)).toNat = n := by omega
  rw [hn, shift]
  refine roundWithAccuracy_eq ?_ ?_
  · have scale : (m₁ * 2 ^ e₁ / (m₂ * 2 ^ e₂) : ℚ) / 2 ^ (e₁ - e₂ - n) = (m₁ <<< n : ℕ) / m₂ := by
      rw [zpow_sub₀ two_ne_zero, zpow_sub₀ two_ne_zero, zpow_natCast, Nat.shiftLeft_eq]
      push_cast
      field_simp
    rw [scale]
    exact tracks_quotient _ pos₂
  · by_cases long : m₂.log2 + 53 ≤ m₁.log2 + n
    · exact .inl (full_quotient pos₁ pos₂ long)
    · right
      omega

/-- Rounding a number that is known exactly. -/
theorem round_rounded {m : ℕ} (pos : 0 < m) (e : ℤ) :
    Rounded (m * 2 ^ e) (UnpackedFloat.round .binary64 .positive m e) := by
  unfold UnpackedFloat.round UnpackedFloat.decreaseExponent
  simp only [targetExponent_eq]
  set k := (e - gridExponent m e).toNat with hk
  refine roundWithAccuracy_eq ?_ ?_
  · have scale : (m * 2 ^ e : ℚ) / 2 ^ (e - k) = (m <<< k : ℕ) := by
      rw [zpow_sub₀ two_ne_zero, zpow_natCast, Nat.shiftLeft_eq]
      push_cast
      field_simp
    rw [scale]
    exact tracks_exact _
  · by_cases least : e - k ≤ -1074
    · exact .inr least
    · left
      have long : 52 ≤ m.log2 + k := by
        unfold gridExponent at hk
        omega
      rw [Nat.shiftLeft_eq]
      calc 2 ^ 52 ≤ 2 ^ (m.log2 + k) := Nat.pow_le_pow_right two_pos long
        _ = 2 ^ m.log2 * 2 ^ k := pow_add ..
        _ ≤ m * 2 ^ k := by
          gcongr
          exact Nat.log2_self_le pos.ne'

theorem normalize_natCast {m : ℕ} (pos : 0 < m) (e : ℤ) :
    UnpackedFloat.normalize .binary64 m e .positive =
      UnpackedFloat.round .binary64 .positive m e := by
  have gt : compare (m : ℤ) 0 = .gt := compare_gt_iff_gt.2 (by exact_mod_cast pos)
  unfold UnpackedFloat.normalize
  simp only [gt, Int.toNat_natCast]

theorem ofNat_rounded {n : ℕ} (pos : 0 < n) :
    Rounded n (UnpackedFloat.ofNat .binary64 n) := by
  have rounded := round_rounded pos 0
  rw [zpow_zero, mul_one, ← normalize_natCast pos] at rounded
  exact rounded

/-- A positive normal number has this value. -/
def Holds (x : Float) (q : ℚ) : Prop :=
  ∃ m e, ∃ c : Canonical m e,
    x.toModel.unpack = .finite .positive m e c.pos ∧ 2 ^ 52 ≤ m ∧ m * 2 ^ e = q

theorem within_self (m : ℕ) (e : ℤ) : Within m e (m * 2 ^ e) := by
  have unit : (0 : ℚ) < 2 ^ e := zpow_pos two_pos e
  constructor
  · gcongr
    split <;> norm_num
  · gcongr
    norm_num
  · intro _
    constructor <;> gcongr <;> norm_num

/-- A whole number below `2 ^ 53` is its own rounding. -/
theorem finite_of_rounded {n : ℕ} {u : UnpackedFloat} (pos : 0 < n) (lt : n < 2 ^ 53)
    (h : Rounded n u) : ∃ m e, ∃ c : Canonical m e,
      u = .finite .positive m e c.pos ∧ 2 ^ 52 ≤ m ∧ (m * 2 ^ e : ℚ) = n := by
  have full : n.log2 ≤ 52 := by
    have := (Nat.log2_lt pos.ne').2 lt
    omega
  have scale : (n * 2 ^ (52 - n.log2) : ℕ) * (2 : ℚ) ^ ((n.log2 : ℤ) - 52) = n := by
    have : (n.log2 : ℤ) - 52 = -((52 - n.log2 : ℕ) : ℤ) := by omega
    rw [this, zpow_neg, zpow_natCast]
    push_cast
    field_simp
  have lower : 2 ^ 52 ≤ n * 2 ^ (52 - n.log2) := by
    calc 2 ^ 52 = 2 ^ n.log2 * 2 ^ (52 - n.log2) := by rw [← pow_add, Nat.add_sub_cancel' full]
      _ ≤ n * 2 ^ (52 - n.log2) := by
        gcongr
        exact Nat.log2_self_le pos.ne'
  have upper : n * 2 ^ (52 - n.log2) < 2 ^ 53 := by
    calc n * 2 ^ (52 - n.log2) < 2 ^ (n.log2 + 1) * 2 ^ (52 - n.log2) := by
          gcongr
          exact Nat.lt_log2_self
      _ = 2 ^ 53 := by
        rw [← pow_add]
        congr 1
        omega
  have c : Canonical (n * 2 ^ (52 - n.log2)) (n.log2 - 52) :=
    ⟨by omega, upper, by omega, by omega, .inr lower⟩
  obtain ⟨k, t, rounds, rfl⟩ := h
  have within := within_self (n * 2 ^ (52 - n.log2)) (n.log2 - 52)
  rw [scale] at within
  exact ⟨_, _, c, settle_of_within c within rounds, lower, scale⟩

/-- A whole number of at most 53 bits survives its rounding. -/
theorem holds_of_rounded {n : ℕ} {u : UnpackedFloat} (pos : 0 < n) (lt : n < 2 ^ 53)
    (h : Rounded n u) : Holds (.ofModel (.pack u)) n := by
  obtain ⟨m, e, c, rfl, full, value⟩ := finite_of_rounded pos lt h
  exact ⟨m, e, c, unpack_pack_finite c _, full, value⟩

/-- A whole number of at most 53 bits is held by the float that it is turned into. -/
theorem holds_ofNat {n : ℕ} (pos : 0 < n) (lt : n < 2 ^ 53) : Holds n.toUInt64.toFloat n := by
  have size : n.toUInt64.toNat = n := Nat.mod_eq_of_lt (by omega)
  change Holds (.ofModel (.pack (UnpackedFloat.ofNat .binary64 n.toUInt64.toNat))) n
  rw [size]
  exact holds_of_rounded pos lt (ofNat_rounded pos)

/-- The significand of an exact power of ten. -/
def powerSignificand (n : ℕ) : ℕ :=
  10 ^ n * 2 ^ 52 / 2 ^ (10 ^ n).log2

/-- The powers of ten up to the 22nd have 53 bits at most, once the factors of two are taken out. -/
theorem powerSignificand_spec : ∀ n : Fin 23, 2 ^ 52 ≤ powerSignificand n ∧
    powerSignificand n < 2 ^ 53 ∧ (10 ^ (n : ℕ)).log2 ≤ 100 ∧
    powerSignificand n * 2 ^ (10 ^ (n : ℕ)).log2 = 10 ^ (n : ℕ) * 2 ^ 52 := by
  decide +kernel

theorem powerSignificand_canonical (n : Fin 23) :
    Canonical (powerSignificand n) ((10 ^ (n : ℕ)).log2 - 52) := by
  obtain ⟨lower, upper, log, -⟩ := powerSignificand_spec n
  exact ⟨by omega, upper, by omega, by omega, .inr lower⟩

theorem power_eq : ∀ n : Fin 23, Float.exactlyRepresentablePowersOfTen[n] =
    .ofModel (.pack (.finite .positive (powerSignificand n) ((10 ^ (n : ℕ)).log2 - 52)
      (powerSignificand_canonical n).pos)) := by
  decide +kernel

theorem holds_power (n : Fin 23) :
    Holds Float.exactlyRepresentablePowersOfTen[n] (10 ^ (n : ℕ)) := by
  obtain ⟨lower, -, -, value⟩ := powerSignificand_spec n
  refine ⟨_, _, powerSignificand_canonical n, ?_, lower, ?_⟩
  · rw [power_eq]
    exact unpack_pack_finite (powerSignificand_canonical n) _
  · have : (powerSignificand n : ℚ) * 2 ^ (10 ^ (n : ℕ)).log2 = 10 ^ (n : ℕ) * 2 ^ 52 := by
      exact_mod_cast value
    rw [zpow_sub₀ two_ne_zero, zpow_natCast, ← mul_div_assoc, this]
    exact mul_div_cancel_right₀ _ (by norm_num)

/-- A product of floats is the product of what they hold, rounded. -/
theorem mul_holds {x y : Float} {p q : ℚ} (hx : Holds x p) (hy : Holds y q) :
    ∃ u, Rounded (p * q) u ∧ x * y = .ofModel (.pack u) := by
  obtain ⟨m, e, c, unpack, full, rfl⟩ := hx
  obtain ⟨m', e', c', unpack', full', rfl⟩ := hy
  refine ⟨_, mul_rounded c.pos c'.pos (.inl ?_), ?_⟩
  · exact full.trans (Nat.le_mul_of_pos_right m c'.pos)
  · change Float.ofModel
      (Float.Model.pack (UnpackedFloat.mul _ x.toModel.unpack y.toModel.unpack)) = _
    rw [unpack, unpack']

/-- A quotient of floats is the quotient of what they hold, rounded. -/
theorem div_holds {x y : Float} {p q : ℚ} (hx : Holds x p) (hy : Holds y q) :
    ∃ u, Rounded (p / q) u ∧ x / y = .ofModel (.pack u) := by
  obtain ⟨m, e, c, unpack, -, rfl⟩ := hx
  obtain ⟨m', e', c', unpack', -, rfl⟩ := hy
  refine ⟨_, div_rounded c.pos c'.pos, ?_⟩
  change Float.ofModel
    (Float.Model.pack (UnpackedFloat.div _ x.toModel.unpack y.toModel.unpack)) = _
  rw [unpack, unpack']

theorem ten_zpow_toNat {e : ℤ} (h : 0 ≤ e) : (10 : ℚ) ^ e = (10 ^ e.toNat : ℕ) := by
  lift e to ℕ using h
  push_cast
  rfl

/-- The general way from a decimal to a number. -/
theorem ofScientific_rounded {n : ℕ} {e : ℤ} (pos : 0 < n) (low : -(2 ^ 11 + n.log2) ≤ e)
    (high : e ≤ 2 ^ 11) :
    Rounded (n * 10 ^ e) (UnpackedFloat.ofScientific .binary64 n e) := by
  unfold UnpackedFloat.ofScientific
  rw [dif_neg pos.ne', if_neg (not_lt.2 high), if_neg (not_lt.2 low)]
  by_cases whole : 0 ≤ e
  · rw [if_pos whole]
    have value : ((n <<< 53 : ℕ) * 2 ^ (-53 : ℤ) * ((10 ^ e.toNat : ℕ) * 2 ^ (0 : ℤ)) : ℚ) =
        n * 10 ^ e := by
      rw [ten_zpow_toNat whole, Nat.shiftLeft_eq]
      push_cast
      ring
    rw [← value]
    refine mul_rounded _ _ (.inl ?_)
    calc 2 ^ 52 ≤ n <<< 53 := by
          rw [Nat.shiftLeft_eq]
          omega
      _ ≤ n <<< 53 * 10 ^ e.toNat := Nat.le_mul_of_pos_right _ (Nat.pow_pos (by decide))
  · rw [if_neg whole]
    have value : (n * 2 ^ (0 : ℤ) / ((10 ^ (-e).toNat : ℕ) * 2 ^ (0 : ℤ)) : ℚ) = n * 10 ^ e := by
      rw [← neg_neg e, zpow_neg 10 (-e), ten_zpow_toNat (by omega), neg_neg]
      push_cast
      norm_num
      rfl
    rw [← value]
    exact div_rounded pos _

/-- A decimal is rounded to the nearest number, whichever way it is computed. -/
theorem float_ofScientific_rounded {n : ℕ} {e : ℤ} (pos : 0 < n) (low : -(2 ^ 11 + n.log2) ≤ e)
    (high : e ≤ 2 ^ 11) : ∃ u, Rounded (n * 10 ^ e) u ∧
      Float.ofScientific n (e < 0) e.natAbs = .ofModel (.pack u) := by
  unfold Float.ofScientific
  split
  · rename_i exact
    have number := holds_ofNat pos exact.1
    have power := holds_power ⟨e.natAbs, by omega⟩
    by_cases negative : e < 0
    · have value : (n : ℚ) * 10 ^ e = n / 10 ^ e.natAbs := by
        obtain ⟨k, rfl⟩ : ∃ k : ℕ, e = -k := ⟨e.natAbs, by omega⟩
        rw [zpow_neg, zpow_natCast, Int.natAbs_neg, Int.natAbs_natCast, div_eq_mul_inv]
      simp only [negative, decide_true, if_true, value]
      exact div_holds number power
    · have value : (n : ℚ) * 10 ^ e = n * 10 ^ e.natAbs := by
        lift e to ℕ using not_lt.1 negative
        rw [zpow_natCast, Int.natAbs_natCast]
      simp only [negative, decide_false, Bool.false_eq_true, if_false, value]
      exact mul_holds number power
  · refine ⟨_, ofScientific_rounded pos low high, ?_⟩
    have same : (if decide (e < 0) then Int.negOfNat e.natAbs else Int.ofNat e.natAbs) = e := by
      split <;> rename_i negative <;> simp only [decide_eq_true_eq] at negative
      · rw [Int.negOfNat_eq, Int.ofNat_eq_natCast]
        omega
      · exact Int.natAbs_of_nonneg (not_lt.1 negative)
    rw [same]
    rfl

end CanvasLayout.Binary64
