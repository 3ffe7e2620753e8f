import CanvasLayout.Decimal.Style
import Mathlib.Tactic.Ring

/-!
# Decimals on grids

The search for the shortest decimal tries one grid after the other. What it takes from a grid is
a point that rounds to the number (`Binary.hits_of_onGrid`), and no such point is zero unless the
number is (`shortest_exponent`).
-/

namespace CanvasLayout.Decimal

/-- A division rounded to even gives the quotient or one more. -/
theorem divToEven_eq_or (a b : Nat) : divToEven a b = a / b ∨ divToEven a b = a / b + 1 := by
  unfold divToEven
  simp only
  split <;> simp

theorem divHalfUp_eq_or (a : Nat) {b : Nat} (hb : 0 < b) :
    divHalfUp a b = a / b ∨ divHalfUp a b = a / b + 1 := by
  have split := Nat.div_add_mod a b
  have small : a % b < b := Nat.mod_lt _ hb
  have double : ∀ q, q * (2 * b) = 2 * (b * q) := fun q => by ring
  have next : b * (a / b + 1) = b * (a / b) + b := by ring
  rcases Nat.lt_or_ge (2 * (a % b)) b with low | high
  · left
    apply Nat.div_eq_of_lt_le <;> rw [double] <;> omega
  · right
    have next' : b * (a / b + 1 + 1) = b * (a / b) + 2 * b := by ring
    apply Nat.div_eq_of_lt_le <;> rw [double] <;> omega

theorem divHalfUp_le (a : Nat) {b : Nat} (hb : 0 < b) : divHalfUp a b ≤ a := by
  have grow : a ≤ a * b := Nat.le_mul_of_pos_right a hb
  have next : (a + 1) * (2 * b) = 2 * (a * b) + 2 * b := by ring
  unfold divHalfUp
  rw [← Nat.lt_add_one_iff, Nat.div_lt_iff_lt_mul (by omega)]
  omega

/-- A rounded quotient is one of the two whole numbers around it. -/
theorem Tie.round_eq_or (tie : Tie) (a : Nat) {b : Nat} (hb : 0 < b) :
    tie.round a b = a / b ∨ tie.round a b = a / b + 1 := by
  cases tie
  · exact divToEven_eq_or a b
  · exact divHalfUp_eq_or a hb

theorem Binary.overPower_snd_pos (b : Binary) (power : Int) : 0 < (b.overPower power).2 := by
  unfold Binary.overPower
  simp only
  apply Nat.mul_pos <;> split <;> first | exact Nat.one_pos | exact Nat.pow_pos (by decide)

theorem Binary.overPower_fst_pos {b : Binary} (h : b.significand ≠ 0) (power : Int) :
    0 < (b.overPower power).1 := by
  unfold Binary.overPower
  simp only
  refine Nat.mul_pos (Nat.mul_pos (Nat.pos_of_ne_zero h) ?_) ?_ <;> split <;>
    first | exact Nat.one_pos | exact Nat.pow_pos (by decide)

/-- The point that stands for a number on a grid rounds to it. -/
theorem Binary.hits_of_onGrid {tie : Tie} {b : Binary} {power : Int} {t : Nat}
    (h : b.onGrid tie power = some t) :
    b.hits (b.overPower power).1 (b.overPower power).2 t := by
  unfold Binary.onGrid at h
  simp only at h
  split at h
  · rename_i lower upper
    rw [Option.some.injEq] at h
    rcases tie.round_eq_or (b.overPower power).1 (b.overPower_snd_pos power) with round | round
    · rwa [← h, round]
    · rwa [← h, round]
  · rename_i lower upper
    rw [Option.some.injEq] at h
    rwa [← h]
  · rename_i lower upper
    rw [Option.some.injEq] at h
    rwa [← h]
  · contradiction

/-- Zero rounds to no other number. -/
theorem Binary.pos_of_hits {b : Binary} {n d t : Nat} (h : b.hits n d t) (hb : b.significand ≠ 0)
    (hn : 0 < n) : 0 < t := by
  rcases Nat.eq_zero_or_pos t with rfl | pos
  · exfalso
    have low : 0 < (4 * b.significand -
        if b.significand = binadeStart ∧ leastExponent < b.exponent then 1 else 2) * n := by
      refine Nat.mul_pos ?_ hn
      split <;> omega
    unfold Binary.hits at h
    simp only [Nat.mul_zero, Nat.zero_mul] at h
    split at h <;> simp only [Bool.and_eq_true, decide_eq_true_eq] at h <;> omega
  · exact pos

/-- The search for the shortest decimal never ends in zero. -/
theorem Binary.firstHit_digits_pos (tie : Tie) {b : Binary} (hb : b.significand ≠ 0) (top : Int)
    (fuel count : Nat) : 0 < (b.firstHit tie top fuel count).digits := by
  induction fuel generalizing count with
  | zero => exact Nat.pos_of_ne_zero hb
  | succ fuel ih =>
    rw [Binary.firstHit]
    split
    · rename_i t hit
      exact Binary.pos_of_hits (Binary.hits_of_onGrid hit) hb (Binary.overPower_fst_pos hb _)
    · exact ih _

theorem Magnitude.stripZeros_digits_pos {m : Magnitude} (h : 0 < m.digits) (fuel : Nat) :
    0 < (m.stripZeros fuel).digits := by
  induction fuel generalizing m with
  | zero => exact h
  | succ fuel ih =>
    rw [Magnitude.stripZeros]
    split
    · rename_i cut
      exact ih (Nat.div_pos (Nat.le_of_dvd h (Nat.dvd_of_mod_eq_zero cut.2)) (by decide))
    · exact h

/-- The shortest decimal of zero has no power of ten. -/
theorem shortest_exponent {tie : Tie} {x : Float} (h : (shortest tie x).digits = 0) :
    (shortest tie x).exponent = 0 := by
  unfold shortest at h ⊢
  simp only at h ⊢
  split
  · rfl
  · rename_i nonzero
    rw [if_neg nonzero] at h
    have := Magnitude.stripZeros_digits_pos
      (Binary.firstHit_digits_pos tie nonzero (Binary.ofFloat x).magnitude 17 1) 20
    omega

end CanvasLayout.Decimal
