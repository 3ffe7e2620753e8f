import CanvasLayout.Proofs.Binary64

/-!
# Rounding to binary64

Rounding cuts a significand down to the bits that fit and keeps two more, which say on which side
of the middle the rest lies (`Tracks`). What comes out is the nearest number of the grid that
binary64 has there, the even one of two (`roundWithAccuracy_eq`). Around every number of the format
is an interval of reals that round to it (`Within`, `settle_of_within`).
-/

open Float.Model
open Float.Model.UnpackedFloat

namespace CanvasLayout.Binary64

/-- `k` is the nearest whole number, the even one of two. -/
def Nearest (q : ℚ) (k : ℕ) : Prop :=
  |q - k| < 1 / 2 ∨ |q - k| = 1 / 2 ∧ Even k

theorem Nearest.unique {q : ℚ} {j k : ℕ} (hj : Nearest q j) (hk : Nearest q k) : j = k := by
  have close : |(j : ℚ) - k| ≤ |q - j| + |q - k| := by
    have := abs_sub_le (j : ℚ) q k
    rwa [abs_sub_comm (j : ℚ) q] at this
  by_contra h
  have far : (1 : ℚ) ≤ |(j : ℚ) - k| := by
    have : (1 : ℤ) ≤ |(j : ℤ) - k| := Int.one_le_abs (by omega)
    exact_mod_cast this
  rcases hj with hj | ⟨hj, evenJ⟩ <;> rcases hk with hk | ⟨hk, evenK⟩
  · linarith
  · linarith
  · linarith
  · -- two even numbers are at least two apart
    have : (2 : ℤ) ≤ |(j : ℤ) - k| := by
      obtain ⟨a, rfl⟩ := evenJ
      obtain ⟨b, rfl⟩ := evenK
      have : a ≠ b := fun h' => h (by rw [h'])
      rw [le_abs]
      omega
    have : (2 : ℚ) ≤ |(j : ℚ) - k| := by exact_mod_cast this
    linarith

/-- The mantissa and the two bits after it say where a number lies. -/
def Tracks (em : ExtendedMantissa) (q : ℚ) : Prop :=
  match em.roundBit, em.stickyBit with
  | false, false => q = em.mantissa
  | false, true => em.mantissa < q ∧ q < em.mantissa + 1 / 2
  | true, false => q = em.mantissa + 1 / 2
  | true, true => em.mantissa + 1 / 2 < q ∧ q < em.mantissa + 1

/-- Shifting once halves the number, the bit shifted out being kept in the two behind the mantissa.
-/
theorem Tracks.shiftRightOne {em : ExtendedMantissa} {q : ℚ} (h : Tracks em q) :
    Tracks em.shiftRightOne (q / 2) := by
  obtain ⟨m, r, s⟩ := em
  have split : (m : ℚ) = 2 * (m / 2 : ℕ) + (m % 2 : ℕ) := by
    exact_mod_cast (Nat.div_add_mod m 2).symm
  unfold Tracks ExtendedMantissa.shiftRightOne at *
  rcases Nat.mod_two_eq_zero_or_one m with parity | parity <;> rw [parity] at split <;>
    cases r <;> cases s <;>
    simp only [parity, bne_self_eq_false, Nat.cast_zero, Nat.cast_one, Bool.or_self, Bool.or_true,
      Bool.true_or, show (1 != 0) = true from rfl] at h split ⊢ <;>
    first | linarith | (constructor <;> linarith)

theorem Tracks.shiftRight {em : ExtendedMantissa} {q : ℚ} (h : Tracks em q) (n : ℕ) :
    Tracks (em >>> n) (q / 2 ^ n) := by
  change Tracks (n.repeat ExtendedMantissa.shiftRightOne em) _
  induction n with
  | zero => simpa [Nat.repeat] using h
  | succ n ih =>
    rw [pow_succ, ← div_div]
    exact ih.shiftRightOne

theorem Tracks.bounds {em : ExtendedMantissa} {q : ℚ} (h : Tracks em q) :
    em.mantissa ≤ q ∧ q < em.mantissa + 1 := by
  obtain ⟨m, r, s⟩ := em
  cases r <;> cases s <;> simp only [Tracks] at h ⊢ <;> constructor <;> linarith

theorem Tracks.nearest {em : ExtendedMantissa} {q : ℚ} (h : Tracks em q) :
    Nearest q em.roundedMantissa := by
  obtain ⟨m, r, s⟩ := em
  unfold Nearest ExtendedMantissa.roundedMantissa
  cases r <;> cases s <;> simp only [Tracks] at h <;>
    simp only [ExtendedMantissa.accuracy, Accuracy.roundToNearestEven]
  · left; rw [h]; simp
  · left; rw [abs_of_pos] <;> linarith
  · right
    rcases Nat.mod_two_eq_zero_or_one m with parity | parity
    · rw [h, parity]
      exact ⟨by norm_num, Nat.even_iff.2 (by omega)⟩
    · rw [h, parity]
      refine ⟨?_, Nat.even_iff.2 (by omega)⟩
      push_cast
      rw [abs_sub_comm, abs_of_pos] <;> linarith
  · left
    push_cast
    rw [abs_sub_comm, abs_of_pos] <;> linarith

/-- Rounding to the nearest never goes past a whole number above. -/
theorem Nearest.le {q : ℚ} {k n : ℕ} (h : Nearest q k) (hq : q ≤ n) : k ≤ n := by
  by_contra far
  have : (n : ℚ) + 1 ≤ k := by exact_mod_cast Nat.lt_of_not_le far
  have := neg_abs_le (q - k)
  rcases h with h | ⟨h, -⟩ <;> linarith

theorem Nearest.ge {q : ℚ} {k n : ℕ} (h : Nearest q k) (hq : n ≤ q) : n ≤ k := by
  by_contra far
  have : (k : ℚ) + 1 ≤ n := by exact_mod_cast Nat.lt_of_not_le far
  have := le_abs_self (q - k)
  rcases h with h | ⟨h, -⟩ <;> linarith

/-- A number rounded to a multiple of a power of two, on the grid that binary64 has there. -/
structure Rounds (q : ℚ) (k : ℕ) (e : ℤ) : Prop where
  nearest : Nearest (q / 2 ^ e) k
  lt : q < 2 ^ 53 * 2 ^ e
  least : -1074 ≤ e
  fine : e = -1074 ∨ 2 ^ 52 * 2 ^ e ≤ q

/-- The unpacked number that a rounded one is. -/
def settle (k : ℕ) (e : ℤ) : UnpackedFloat :=
  if h : k = 0 then .zero .positive
  else if k < 2 ^ 53 then .finite .positive k e (Nat.pos_of_ne_zero h)
  else .finite .positive (2 ^ 52) (e + 1) (by decide)

/-- The exponent of the grid that a number with leading digits `m * 2 ^ e` is rounded to. -/
def gridExponent (m : ℕ) (e : ℤ) : ℤ :=
  max (m.log2 + e - 52) (-1074)

theorem targetExponent_eq (m : ℕ) (e : ℤ) :
    Format.binary64.targetExponent (totalExponent m e) = gridExponent m e := by
  simp only [Format.targetExponent, totalExponent, Format.mantissaBits, Format.minExponent,
    gridExponent]
  norm_num
  omega

theorem shift_small {m : ℕ} {e : ℤ} (hm : m < 2 ^ 53) (he : -1074 ≤ e) :
    shiftToTargetExponent .binary64 m e .exact = (⟨m, false, false⟩, e) := by
  have hlog : m.log2 < 53 := by
    by_cases h : m = 0
    · simp [h]
    · exact (Nat.log2_lt h).2 hm
  have : (Format.binary64.targetExponent (totalExponent m e) - e).toNat = 0 := by
    rw [targetExponent_eq, gridExponent]
    omega
  simp only [shiftToTargetExponent, shiftToExponent, this, Nat.cast_zero, add_zero]
  rfl

/-- A mantissa that was rounded up to one bit too many is shifted once, without loss. -/
theorem shift_overflow {e : ℤ} (he : -1074 ≤ e) :
    shiftToTargetExponent .binary64 (2 ^ 53) e .exact = (⟨2 ^ 52, false, false⟩, e + 1) := by
  have : (Format.binary64.targetExponent (totalExponent (2 ^ 53) e) - e).toNat = 1 := by
    rw [targetExponent_eq, gridExponent, Nat.log2_two_pow]
    omega
  simp only [shiftToTargetExponent, shiftToExponent, this]
  rfl

theorem le_log2 {m n : ℕ} (h : 2 ^ n ≤ m) : n ≤ m.log2 :=
  (Nat.le_log2 (by have := Nat.two_pow_pos n; omega)).2 h

/-- The second shift of a rounding makes room for a significand that grew a digit. -/
theorem roundWithAccuracy_of_shift {m k : ℕ} {e t : ℤ} {a : Accuracy} {em : ExtendedMantissa}
    (first : shiftToTargetExponent .binary64 m e a = (em, t))
    (rounded : em.roundedMantissa = k) (most : k ≤ 2 ^ 53) (least : -1074 ≤ t) :
    roundWithAccuracy .binary64 .positive m e a = settle k t := by
  unfold roundWithAccuracy settle
  simp only [first, rounded]
  by_cases small : k < 2 ^ 53
  · simp only [shift_small small least, small, if_true]
  · obtain rfl : k = 2 ^ 53 := by omega
    simp only [shift_overflow least]
    norm_num

section Grid

variable {m n : ℕ} {e : ℤ} {q : ℚ}

/-- With 53 digits, or from an exponent at or below the least, the shift to the grid goes to the
right. -/
theorem exists_shift (hm : 2 ^ 52 ≤ m ∨ e ≤ -1074) : ∃ n : ℕ, gridExponent m e = e + n := by
  refine ⟨(gridExponent m e - e).toNat, ?_⟩
  unfold gridExponent
  rcases hm with hm | hm
  · have := le_log2 hm
    omega
  · omega

theorem shift_eq (a : Accuracy) (hn : gridExponent m e = e + n) :
    shiftToTargetExponent .binary64 m e a =
      (ExtendedMantissa.ofMantissaAndAccuracy m a >>> n, gridExponent m e) := by
  have : (e + n - e).toNat = n := by omega
  simp only [shiftToTargetExponent, shiftToExponent, targetExponent_eq, hn, this]

theorem two_zpow_grid (hn : gridExponent m e = e + n) :
    (2 : ℚ) ^ gridExponent m e = 2 ^ n * 2 ^ e := by
  rw [hn, zpow_add₀ two_ne_zero, zpow_natCast, mul_comm]

/-- Below one unit more, the number stays below the next power of two on its grid. -/
theorem lt_grid (hn : gridExponent m e = e + n) (upper : q < (m + 1) * 2 ^ e) :
    q < 2 ^ 53 * 2 ^ gridExponent m e := by
  have : m < 2 ^ (53 + n) := by
    refine lt_of_lt_of_le Nat.lt_log2_self (Nat.pow_le_pow_right two_pos ?_)
    unfold gridExponent at hn
    omega
  have : ((m : ℚ) + 1) ≤ 2 ^ 53 * 2 ^ n := by
    rw [← pow_add]
    exact_mod_cast this
  calc q < (m + 1) * 2 ^ e := upper
    _ ≤ 2 ^ 53 * 2 ^ n * 2 ^ e := by gcongr
    _ = 2 ^ 53 * 2 ^ gridExponent m e := by rw [two_zpow_grid hn, mul_assoc]

/-- The grid is the finest there is, or its mantissa has all 53 bits. -/
theorem grid_le (hn : gridExponent m e = e + n) (lower : m * 2 ^ e ≤ q) :
    gridExponent m e = -1074 ∨ 2 ^ 52 * 2 ^ gridExponent m e ≤ q := by
  by_cases least : gridExponent m e = -1074
  · exact .inl least
  right
  have hlog : m.log2 = 52 + n := by
    unfold gridExponent at hn least
    omega
  have pos : m ≠ 0 := by
    rintro rfl
    rw [Nat.log2_zero] at hlog
    omega
  have : 2 ^ 52 * 2 ^ n ≤ m := by
    rw [← pow_add, ← hlog]
    exact Nat.log2_self_le pos
  have : (2 : ℚ) ^ 52 * 2 ^ n ≤ m := by exact_mod_cast this
  calc
    (2 : ℚ) ^ 52 * 2 ^ gridExponent m e = 2 ^ 52 * 2 ^ n * 2 ^ e := by
        rw [two_zpow_grid hn, mul_assoc]
    _ ≤ (m : ℚ) * 2 ^ e := by gcongr
    _ ≤ q := lower

end Grid

/-- Rounding a number that is known to the last bit that counts. -/
theorem roundWithAccuracy_eq {m : ℕ} {e : ℤ} {a : Accuracy} {q : ℚ}
    (h : Tracks (.ofMantissaAndAccuracy m a) (q / 2 ^ e)) (hm : 2 ^ 52 ≤ m ∨ e ≤ -1074) :
    ∃ k t, Rounds q k t ∧ roundWithAccuracy .binary64 .positive m e a = settle k t := by
  have unit : (0 : ℚ) < 2 ^ e := zpow_pos two_pos e
  obtain ⟨n, hn⟩ := exists_shift hm
  obtain ⟨lower, upper⟩ := h.bounds
  have hmantissa : (ExtendedMantissa.ofMantissaAndAccuracy m a).mantissa = m := by
    unfold ExtendedMantissa.ofMantissaAndAccuracy
    split <;> rfl
  rw [hmantissa, le_div_iff₀ unit] at lower
  rw [hmantissa, div_lt_iff₀ unit] at upper
  have tracked := h.shiftRight n
  rw [div_div, mul_comm, ← two_zpow_grid hn] at tracked
  have below := lt_grid hn upper
  have rounds : Rounds q _ (gridExponent m e) :=
    ⟨tracked.nearest, below, le_max_right _ _, grid_le hn lower⟩
  refine ⟨_, _, rounds, roundWithAccuracy_of_shift (shift_eq a hn) rfl ?_ rounds.least⟩
  refine rounds.nearest.le ?_
  rw [div_le_iff₀ (zpow_pos two_pos _)]
  exact_mod_cast below.le

/-- The numbers that round to `m * 2 ^ e`. -/
structure Within (m : ℕ) (e : ℤ) (q : ℚ) : Prop where
  above : (m - (if m = 2 ^ 52 ∧ -1074 < e then 1 / 4 else 1 / 2)) * 2 ^ e ≤ q
  below : q ≤ (m + 1 / 2) * 2 ^ e
  inside : ¬Even m → (m - 1 / 2) * 2 ^ e < q ∧ q < (m + 1 / 2) * 2 ^ e

/-- Strictly between the halves to both sides a number rounds to the one in the middle; below a
power of two the half is a quarter. -/
theorem within_of_lt {m : ℕ} {e : ℤ} {q : ℚ}
    (above : (m - (if m = 2 ^ 52 ∧ -1074 < e then 1 / 4 else 1 / 2)) * 2 ^ e < q)
    (below : q < (m + 1 / 2) * 2 ^ e) : Within m e q := by
  refine ⟨above.le, below.le, fun odd => ⟨?_, below⟩⟩
  rwa [if_neg fun both => odd (by rw [both.1]; decide)] at above

/-- The interval ends half a unit in the last place below, or nearer. -/
theorem Within.half_above {m : ℕ} {e : ℤ} {q : ℚ} (h : Within m e q) : (m - 1 / 2) * 2 ^ e ≤ q := by
  refine le_trans ?_ h.above
  gcongr
  split <;> norm_num

/-- A number that rounds to `m * 2 ^ e` has `m` as its nearest on that grid. -/
theorem Within.nearest {m : ℕ} {e : ℤ} {q : ℚ} (h : Within m e q) : Nearest (q / 2 ^ e) m := by
  have unit : (0 : ℚ) < 2 ^ e := zpow_pos two_pos e
  by_cases even : Even m
  · have : |q / 2 ^ e - m| ≤ 1 / 2 := by
      have lower := (le_div_iff₀ unit).2 h.half_above
      have upper := (div_le_iff₀ unit).2 h.below
      rw [abs_le]
      constructor <;> linarith
    rcases this.lt_or_eq with near | tie
    · exact .inl near
    · exact .inr ⟨tie, even⟩
  · obtain ⟨above, below⟩ := h.inside even
    left
    have lower := (lt_div_iff₀ unit).2 above
    have upper := (div_lt_iff₀ unit).2 below
    rw [abs_lt]
    constructor <;> linarith

/-- Where the grid below a number is finer than the number's own, the number is a power of two,
and what rounds to it from below rounds up. -/
theorem nearest_of_finer {m : ℕ} {e t : ℤ} {q : ℚ} (c : Canonical m e) (within : Within m e q)
    (least : -1074 ≤ t) (lt : q < 2 ^ 53 * 2 ^ t) (finer : t < e) :
    m = 2 ^ 52 ∧ e = t + 1 ∧ Nearest (q / 2 ^ t) (2 ^ 53) := by
  have unit : (0 : ℚ) < 2 ^ t := zpow_pos two_pos t
  obtain ⟨d, rfl⟩ : ∃ d : ℕ, e = t + 1 + d := ⟨(e - t - 1).toNat, by omega⟩
  have scale : (2 : ℚ) ^ (t + 1 + d) = 2 * 2 ^ d * 2 ^ t := by
    rw [zpow_add₀ two_ne_zero, zpow_add₀ two_ne_zero, zpow_natCast, zpow_one]
    ring
  have above := within.above.trans_lt lt
  rw [scale, ← mul_assoc, mul_lt_mul_iff_left₀ unit] at above
  have full : 2 ^ 52 ≤ m := by
    rcases c.normal with h | h
    · omega
    · exact h
  have start : m = 2 ^ 52 := by
    by_contra h
    have next : (2 : ℚ) ^ 52 + 1 ≤ m := by exact_mod_cast lt_of_le_of_ne full (Ne.symm h)
    have one : (1 : ℚ) ≤ 2 ^ d := one_le_pow₀ one_le_two
    rw [if_neg fun both => h both.1] at above
    nlinarith
  rw [if_pos ⟨start, by omega⟩, start] at above
  have only : d = 0 := by
    by_contra h
    have two : (2 : ℚ) ≤ 2 ^ d := le_self_pow₀ one_le_two h
    push_cast at above
    linarith
  subst only
  refine ⟨start, by omega, ?_⟩
  have lower := within.above
  rw [if_pos ⟨start, by omega⟩, start, scale, ← mul_assoc, ← le_div_iff₀ unit] at lower
  rw [← div_lt_iff₀ unit] at lt
  push_cast at lower
  have near : |q / 2 ^ t - (2 ^ 53 : ℕ)| ≤ 1 / 2 := by
    push_cast
    rw [abs_le]
    constructor <;> linarith
  rcases near.lt_or_eq with near | tie
  · exact .inl near
  · exact .inr ⟨tie, by decide⟩

/-- The grid at a number is not coarser than the number's own. -/
theorem not_coarser {m : ℕ} {e t : ℤ} {q : ℚ} (c : Canonical m e) (within : Within m e q)
    (fine : t = -1074 ∨ 2 ^ 52 * 2 ^ t ≤ q) : t ≤ e := by
  by_contra coarser
  have unit : (0 : ℚ) < 2 ^ e := zpow_pos two_pos e
  rcases fine with rfl | fine
  · have := c.least
    omega
  · have double : 2 * 2 ^ e ≤ (2 : ℚ) ^ t := by
      rw [← zpow_one_add₀ two_ne_zero]
      exact zpow_le_zpow_right₀ one_le_two (by omega)
    have most : (m : ℚ) + 1 ≤ 2 ^ 53 := by exact_mod_cast c.lt
    have := fine.trans within.below
    nlinarith

/-- A number within the reach of a binary64 number rounds to it. -/
theorem settle_of_within {m k : ℕ} {e t : ℤ} {q : ℚ} (c : Canonical m e) (within : Within m e q)
    (rounds : Rounds q k t) : settle k t = .finite .positive m e c.pos := by
  rcases (not_coarser c within rounds.fine).lt_or_eq with finer | rfl
  · obtain ⟨rfl, rfl, near⟩ := nearest_of_finer c within rounds.least rounds.lt finer
    obtain rfl := near.unique rounds.nearest
    simp [settle]
  · obtain rfl := within.nearest.unique rounds.nearest
    simpa [settle, c.pos.ne'] using c.lt

/-- What a number in the range rounds to is a number. -/
theorem exists_value_settle {k : ℕ} {t : ℤ} {q : ℚ} (rounds : Rounds q k t)
    (most : q ≤ (2 ^ 53 - 1 : ℕ) * 2 ^ (971 : ℤ)) : ∃ r, Value (settle k t) r := by
  have unit : (0 : ℚ) < 2 ^ t := zpow_pos two_pos t
  have range : t ≤ 971 := by
    rcases rounds.fine with rfl | fine
    · decide
    · have below : (2 : ℚ) ^ (52 + t) < 2 ^ (1024 : ℤ) := by
        calc (2 : ℚ) ^ (52 + t) = 2 ^ 52 * 2 ^ t := by
              rw [zpow_add₀ two_ne_zero]
              rfl
          _ ≤ (2 ^ 53 - 1 : ℕ) * 2 ^ (971 : ℤ) := fine.trans most
          _ < 2 ^ (53 : ℤ) * 2 ^ (971 : ℤ) := by
            gcongr
            norm_num
          _ = 2 ^ (1024 : ℤ) := (zpow_add₀ two_ne_zero 53 971).symm
      have := (zpow_lt_zpow_iff_right₀ one_lt_two).1 below
      omega
  have few : t = 971 → k ≤ 2 ^ 53 - 1 := by
    rintro rfl
    exact rounds.nearest.le ((div_le_iff₀ unit).2 most)
  unfold settle
  split
  · exact ⟨_, .zero _⟩
  split
  · rename_i nonzero lt
    refine ⟨_, .finite ⟨Nat.pos_of_ne_zero nonzero, lt, rounds.least, range, ?_⟩⟩
    refine rounds.fine.imp_right fun fine => rounds.nearest.ge ?_
    rw [le_div_iff₀ unit]
    exact_mod_cast fine
  · have := rounds.least
    exact ⟨_, .finite ⟨by decide, by decide, by omega, by omega, .inr le_rfl⟩⟩

end CanvasLayout.Binary64
