import CanvasLayout.Decimal.Binary
import Mathlib

/-!
# The numbers of binary64

A finite number is a sign and a `Canonical` pair of a significand and an exponent. Packing such a
pair and unpacking it is the identity (`unpack_pack_finite`), and the binary fraction that decimals
are computed from is the unpacked number (`unpack_of_finite`).
-/

open Float.Model
open Float.Model.UnpackedFloat

namespace CanvasLayout.Binary64

open Decimal

/-- A significand and an exponent as binary64 has them. -/
structure Canonical (m : ℕ) (e : ℤ) : Prop where
  pos : 0 < m
  lt : m < 2 ^ 53
  least : -1074 ≤ e
  most : e ≤ 971
  normal : e = -1074 ∨ 2 ^ 52 ≤ m

theorem finite_congr (s : Sign) {m m' : ℕ} {e e' : ℤ} (hm : m = m') (he : e = e') (pos : 0 < m)
    (pos' : 0 < m') : UnpackedFloat.finite s m e pos = .finite s m' e' pos' := by
  subst hm he
  rfl

section Components

variable (s : Sign) {exponent : BitVec 11} {mantissa : BitVec 52}

/-- A number with an exponent between the extremes has a leading one in front of its mantissa. -/
theorem unpack_normal (zero : exponent ≠ 0#11) (ones : exponent ≠ -1#11) :
    UnpackedFloat.unpack .binary64 (packComponents .binary64 s exponent mantissa) =
      .finite s (2 ^ 52 + mantissa.toNat) (exponent.toNat - 1075) (by positivity) := by
  have lead : (1#1 ++ mantissa).toNat = 2 ^ 52 + mantissa.toNat := by
    rw [BitVec.toNat_append, ← Nat.shiftLeft_add_eq_or_of_lt mantissa.isLt]
    rfl
  unfold UnpackedFloat.unpack
  simp only [unpackExponent_packComponents, unpackMantissa_packComponents,
    unpackSign_packComponents, Sign.ofBitVec_toBitVec]
  rw [if_neg ones, if_neg zero]
  exact finite_congr s lead rfl _ _

theorem unpack_subnormal (zero : mantissa ≠ 0#52) :
    UnpackedFloat.unpack .binary64 (packComponents .binary64 s 0#11 mantissa) =
      .finite s mantissa.toNat (-1074)
        ((BitVec.toNat_pos _).2 ((BitVec.pos_iff_ne_zero _).2 zero)) := by
  unfold UnpackedFloat.unpack
  simp only [unpackExponent_packComponents, unpackMantissa_packComponents,
    unpackSign_packComponents, Sign.ofBitVec_toBitVec]
  rw [if_neg (by decide), if_pos trivial, dif_neg zero]
  exact finite_congr s rfl rfl _ _

end Components

/-- The exponent field of a number. -/
def biased (m : ℕ) (e : ℤ) : ℕ :=
  if 2 ^ 52 ≤ m then (e + 1075).toNat else 0

/-- A canonical number is stored under its biased exponent. -/
theorem pack_finite {m : ℕ} {e : ℤ} (h : Canonical m e) (s : Sign) :
    UnpackedFloat.pack .binary64 (.finite s m e h.pos) =
      packComponents .binary64 s (.ofNat _ (biased m e)) (.ofNat _ m) := by
  have := h.most
  have bias : e + (Format.binary64.exponentBias : ℤ) + (52 : ℕ) = e + 1075 := by
    norm_num [Format.exponentBias, add_assoc]
  have full : m.log2 + 1 = 1 + 52 ↔ 2 ^ 52 ≤ m := by
    rw [add_comm, Nat.add_left_cancel_iff, Nat.log2_eq_iff h.pos.ne']
    exact ⟨And.left, fun le => ⟨le, h.lt⟩⟩
  unfold UnpackedFloat.pack biased
  simp only [bias, Format.mantissaBits, full]
  rw [if_neg (by omega)]
  split <;> rfl

/-- A number of the format is stored as it is. -/
theorem unpack_pack_finite {m : ℕ} {e : ℤ} (h : Canonical m e) (s : Sign) :
    (Float.Model.pack (.finite s m e h.pos)).unpack = .finite s m e h.pos := by
  have := h.least
  have := h.most
  have := h.pos
  have lt := h.lt
  change UnpackedFloat.unpack .binary64 (UnpackedFloat.pack .binary64 _) = _
  rw [pack_finite h, biased]
  split
  · have exponent : (BitVec.ofNat 11 (e + 1075).toNat).toNat = (e + 1075).toNat := by
      rw [BitVec.toNat_ofNat, Nat.mod_eq_of_lt (by omega)]
    rw [unpack_normal]
    · refine finite_congr s ?_ ?_ _ _
      · rw [BitVec.toNat_ofNat]
        omega
      · rw [exponent]
        omega
    · rw [← BitVec.toNat_inj.ne, exponent]
      change _ ≠ 0
      omega
    · rw [← BitVec.toNat_inj.ne, exponent]
      change _ ≠ 2047
      omega
  · have subnormal : e = -1074 := by
      rcases h.normal with h | h
      · exact h
      · omega
    have mantissa : (BitVec.ofNat 52 m).toNat = m := by
      rw [BitVec.toNat_ofNat, Nat.mod_eq_of_lt (by omega)]
    rw [unpack_subnormal]
    · exact finite_congr s mantissa subnormal.symm _ _
    · rw [← BitVec.toNat_inj.ne, mantissa]
      exact h.pos.ne'

theorem unpack_pack_zero (s : Sign) : (Float.Model.pack (.zero s)).unpack = .zero s :=
  UnpackedFloat.unpack_packedZero

/-- The sign of a negative number or of another. -/
def signOf (negative : Bool) : Sign :=
  if negative then .negative else .positive

section Fields

variable (b : BitVec Format.binary64.numBits)

theorem toNat_exponent : (unpackExponent b).toNat = b.toNat / 2 ^ 52 % 2048 := by
  rw [unpackExponent_def, BitVec.extractLsb'_toNat, Nat.shiftRight_eq_div_pow]
  rfl

theorem toNat_mantissa : (unpackMantissa b).toNat = b.toNat % 2 ^ 52 := by
  rw [unpackMantissa_def, BitVec.extractLsb'_toNat]
  rfl

theorem sign_eq : Sign.ofBitVec (unpackSign b) = signOf (UInt64.size ≤ 2 * b.toNat) := by
  have lt : b.toNat < 2 ^ 64 := b.isLt
  have bit : (unpackSign b).toNat = b.toNat / 2 ^ 63 % 2 := by
    rw [unpackSign_def, BitVec.extractLsb'_toNat, Nat.shiftRight_eq_div_pow]
    rfl
  have size : UInt64.size = 2 ^ 64 := rfl
  unfold Sign.ofBitVec signOf
  by_cases high : UInt64.size ≤ 2 * b.toNat
  · rw [if_neg, if_pos (decide_eq_true high)]
    rw [← BitVec.toNat_inj, bit]
    change ¬_ = 0
    omega
  · rw [if_pos, if_neg (by simpa using high)]
    rw [← BitVec.toNat_inj, bit]
    change _ = 0
    omega

end Fields

/-- The fields of a number's bits, and what is read from them. -/
theorem exists_fields (x : Float) : ∃ (exponent : BitVec 11) (mantissa : BitVec 52),
    x.toModel.unpack = UnpackedFloat.unpack .binary64
      (packComponents .binary64 (signOf (Binary.ofFloat x).negative) exponent mantissa) ∧
    (Binary.ofFloat x).significand =
      (if exponent.toNat = 0 then mantissa.toNat else mantissa.toNat + 2 ^ 52) ∧
    (Binary.ofFloat x).exponent =
      if exponent.toNat = 0 then (-1074 : ℤ) else exponent.toNat - 1075 := by
  let b : BitVec Format.binary64.numBits := x.toModel.toBits.toBitVec
  refine ⟨unpackExponent b, unpackMantissa b, ?_, ?_, ?_⟩
  · have sign : signOf (Binary.ofFloat x).negative = Sign.ofBitVec (unpackSign b) :=
      (sign_eq b).symm
    rw [sign, packComponents_unpackSign_unpackExponent_unpackMantissa]
    rfl
  · rw [toNat_exponent, toNat_mantissa]
    rfl
  · rw [toNat_exponent]
    rfl

/-- What the bits of a finite number say. -/
theorem unpack_of_finite {x : Float} (finite : x.isFinite) :
    ((Binary.ofFloat x).significand = 0 ∧
      x.toModel.unpack = .zero (signOf (Binary.ofFloat x).negative)) ∨
    ∃ c : Canonical (Binary.ofFloat x).significand (Binary.ofFloat x).exponent,
      x.toModel.unpack = .finite (signOf (Binary.ofFloat x).negative) (Binary.ofFloat x).significand
        (Binary.ofFloat x).exponent c.pos := by
  obtain ⟨exponent, mantissa, unpack, significand_eq, exponent_eq⟩ := exists_fields x
  have ones : exponent ≠ -1#11 := by
    rintro rfl
    change x.toModel.unpack.isFinite = true at finite
    rw [unpack] at finite
    unfold UnpackedFloat.unpack at finite
    simp only [unpackExponent_packComponents, if_true] at finite
    split at finite <;> contradiction
  have lt := mantissa.isLt
  have most := exponent.isLt
  by_cases subnormal : exponent = 0#11
  · subst subnormal
    rw [if_pos BitVec.toNat_zero] at significand_eq exponent_eq
    by_cases zero : mantissa = 0#52
    · left
      rw [significand_eq, unpack, zero]
      exact ⟨rfl, unpack_packedZero⟩
    · right
      have pos := (BitVec.toNat_pos _).2 ((BitVec.pos_iff_ne_zero _).2 zero)
      refine ⟨⟨by omega, by omega, by omega, by omega, .inl exponent_eq⟩, ?_⟩
      rw [unpack, unpack_subnormal _ zero]
      exact finite_congr _ significand_eq.symm exponent_eq.symm _ _
  · right
    have some : exponent.toNat ≠ 0 := fun h => subnormal (BitVec.eq_of_toNat_eq h)
    have below : exponent.toNat ≠ 2047 := fun h => ones (BitVec.eq_of_toNat_eq h)
    rw [if_neg some] at significand_eq exponent_eq
    refine ⟨⟨by omega, by omega, by omega, by omega, .inr (by omega)⟩, ?_⟩
    rw [unpack, unpack_normal _ subnormal ones]
    exact finite_congr _ (by omega) exponent_eq.symm _ _

/-- A number is made of what is read from it. -/
theorem ofModel_pack_unpack (x : Float) : Float.ofModel (.pack x.toModel.unpack) = x :=
  Float.toBits_inj.1 (UInt64.toBitVec_inj.1 (pack_unpack_of_valid x.toModel.valid))

/-- The number with this sign whose magnitude is stored as `u`. -/
theorem neg_pack {u : UnpackedFloat} (stored : (Float.Model.pack u).unpack = u) :
    -Float.ofModel (.pack u) = .ofModel (.pack u.neg) := by
  change Float.ofModel (Float.Model.pack (Float.Model.pack u).unpack.neg) = _
  rw [stored]

theorem isFinite_neg {x : Float} (finite : x.isFinite) : (-x).isFinite := by
  change (Float.Model.pack x.toModel.unpack.neg).unpack.isFinite = true
  rcases unpack_of_finite finite with ⟨-, unpack⟩ | ⟨c, unpack⟩ <;> rw [unpack]
  · exact congrArg UnpackedFloat.isFinite (unpack_pack_zero _)
  · exact congrArg UnpackedFloat.isFinite (unpack_pack_finite c _)

/-- The value of a finite number that is not negative; zero may carry a sign. -/
inductive Value : UnpackedFloat → ℚ → Prop
  | zero (s : Sign) : Value (.zero s) 0
  | finite {m : ℕ} {e : ℤ} (c : Canonical m e) : Value (.finite .positive m e c.pos) (m * 2 ^ e)

/-- A number is finite, is not negative and has this value. -/
def Has (x : Float) (q : ℚ) : Prop :=
  Value x.toModel.unpack q

theorem Value.stored {u : UnpackedFloat} {q : ℚ} (h : Value u q) :
    (Float.Model.pack u).unpack = u := by
  cases h with
  | zero s => exact unpack_pack_zero s
  | finite c => exact unpack_pack_finite c _

/-- The float stored from a number with a value has the value. -/
theorem Value.has {u : UnpackedFloat} {q : ℚ} (h : Value u q) : Has (.ofModel (.pack u)) q := by
  change Value (Float.Model.pack u).unpack q
  rw [h.stored]
  exact h

theorem Value.nonneg {u : UnpackedFloat} {q : ℚ} (h : Value u q) : 0 ≤ q := by
  cases h with
  | zero s => exact le_rfl
  | finite c => positivity

theorem Has.isFinite {x : Float} {q : ℚ} (h : Has x q) : x.isFinite := by
  change x.toModel.unpack.isFinite = true
  unfold Has at h
  generalize x.toModel.unpack = u at h
  cases h <;> rfl

end CanvasLayout.Binary64
