import InputTape.Decimal.Reading
import InputTape.Proofs.Decimal.Comparison
import InputTape.Proofs.Decimal.Rounding

/-! Doubles from decimals.

A decimal is read as the double nearest to its value, however it is computed: few digits with a
small exponent by one division or multiplication of doubles, all others in whole numbers. So two
decimals of the same value are read alike.
-/

set_option autoImplicit false

namespace InputTape

open Float.Model (Format UnpackedFloat)
open Float.Model.UnpackedFloat

variable {sign : Sign} {x : ℚ}

/-! ## Packing -/

theorem toNat_leadingBit (fraction : BitVec 52) :
    (1#1 ++ fraction).toNat = 2 ^ 52 + fraction.toNat := by
  rw [BitVec.toNat_append, ← Nat.shiftLeft_add_eq_or_of_lt (BitVec.isLt _), Nat.shiftLeft_eq]
  rfl

/-- What is packed and no greater than a double comes out again. -/
theorem unpack_pack {m : ℕ} {exponent : ℤ} (canonical : IsCanonical m exponent)
    (most : exponent ≤ 971) :
    unpack .binary64 (pack .binary64 (.finite sign m exponent canonical.positive)) =
      .finite sign m exponent canonical.positive := by
  obtain ⟨some, short, least, normal⟩ := canonical
  have bias : (exponent + (Format.binary64.exponentBias : ℤ) +
      (Format.binary64.mantissaBitsWithoutImplicit : ℤ)) = exponent + 1075 := by
    change exponent + 1023 + 52 = _
    ring
  simp only [pack, bias]
  rw [if_neg (by omega)]
  -- A significand of full length keeps its leading bit apart; a shorter one is subnormal.
  by_cases long : 2 ^ 52 ≤ m
  · have length : m.log2 + 1 = Format.binary64.mantissaBits := by
      rw [(Nat.log2_eq_iff some.ne').mpr ⟨long, short⟩]
      rfl
    have whole : (1#1 ++ BitVec.ofNat 52 m).toNat = m := by
      rw [toNat_leadingBit, BitVec.toNat_ofNat]
      omega
    have stored : (BitVec.ofNat 11 (exponent + 1075).toNat).toNat = (exponent + 1075).toNat := by
      rw [BitVec.toNat_ofNat, Nat.mod_eq_of_lt (by omega)]
    have inside (edge : BitVec 11) (outside : edge.toNat ≠ (exponent + 1075).toNat) :
        BitVec.ofNat 11 (exponent + 1075).toNat ≠ edge := by
      rw [ne_eq, ← BitVec.toNat_inj, stored]
      exact outside.symm
    rw [if_pos length]
    simp only [unpack, unpackMantissa_packComponents, unpackExponent_packComponents,
      unpackSign_packComponents, Sign.ofBitVec_toBitVec]
    have top : (-1#11).toNat = 2047 := by decide
    have bottom : (0#11).toNat = 0 := by decide
    rw [if_neg (inside _ (by omega)), if_neg (inside _ (by omega))]
    congr 1
    rw [stored]
    change ((exponent + 1075).toNat : ℤ) - (1023 + 52) = exponent
    omega
  · have length : ¬ m.log2 + 1 = Format.binary64.mantissaBits := by
      intro full
      have above : 52 ≤ m.log2 := (Nat.succ_injective (full.trans (Nat.add_comm 1 52))).ge
      exact long ((Nat.le_log2 some.ne').mp above)
    have bottom : exponent = -1074 := normal.resolve_left long
    have stored : (BitVec.ofNat 52 m).toNat = m := by
      rw [BitVec.toNat_ofNat, Nat.mod_eq_of_lt (by omega)]
    have present : BitVec.ofNat 52 m ≠ 0#52 := by
      rw [ne_eq, ← BitVec.toNat_inj, stored]
      exact some.ne'
    rw [if_neg length]
    simp only [unpack, unpackMantissa_packComponents, unpackExponent_packComponents,
      unpackSign_packComponents, Sign.ofBitVec_toBitVec]
    rw [if_neg (by decide), if_pos trivial, dif_neg present]
    simp only [stored, bottom]
    rfl

theorem pack_nearest_of_great (great : 2 ^ (1024 : ℤ) ≤ x) :
    pack .binary64 (nearest sign x) = packedInfinity .binary64 sign := by
  have positive : 0 < x := lt_of_lt_of_le (by positivity) great
  have logarithm : 1024 ≤ Int.log 2 x :=
    (Int.zpow_le_iff_le_log (by norm_num) positive).mp (by exact_mod_cast great)
  have near : 972 ≤ exponentNear x := by
    rw [exponentNear]
    omega
  have full : 1 ≤ roundEven (x / 2 ^ exponentNear x) := by
    refine le_trans ((Nat.one_le_floor_iff _).mpr ?_) floor_le_roundEven
    rw [one_le_div (by positivity)]
    refine le_trans (zpow_le_zpow_right₀ (by norm_num) ?_)
      (by exact_mod_cast Int.zpow_log_le_self (b := 2) (by norm_num) positive)
    rw [exponentNear]
    omega
  have infinite (m : ℕ) (exponent : ℤ) (some : 0 < m) (high : 972 ≤ exponent) :
      pack .binary64 (.finite sign m exponent some) = packedInfinity .binary64 sign := by
    simp only [pack]
    rw [if_pos]
    change 2048 ≤ (exponent + 1023 + 52).toNat + 1
    omega
  rw [nearest, settle, dif_pos (Nat.pos_of_ne_zero (by omega))]
  split
  · exact infinite _ _ _ (by omega)
  · exact infinite _ _ _ near

theorem nearest_of_small (positive : 0 < x) (small : x < 2 ^ (-1075 : ℤ)) :
    nearest sign x = .zero sign := by
  have logarithm : Int.log 2 x < -1075 :=
    (Int.lt_zpow_iff_log_lt (by norm_num) positive).mp (by exact_mod_cast small)
  have near : exponentNear x = -1074 := by
    rw [exponentNear]
    omega
  have half : x / 2 ^ (-1074 : ℤ) < 1 / 2 := by
    rw [div_lt_iff₀ (by positivity)]
    refine small.trans_eq ?_
    rw [show (-1075 : ℤ) = -1 + -1074 by norm_num, zpow_add₀ (by norm_num)]
    norm_num
  have floor : ⌊x / 2 ^ (-1074 : ℤ)⌋₊ = 0 := Nat.floor_eq_zero.mpr (half.trans (by norm_num))
  rw [nearest, near, roundEven, floor, Nat.cast_zero, sub_zero, compare_lt_iff_lt.mpr half]
  rfl

/-! ## In whole numbers -/

theorem pack_ofScientific (n : ℕ) (exponent : ℤ) :
    pack .binary64 (ofScientific .binary64 n exponent) =
      pack .binary64 (nearest .positive (n * 10 ^ exponent)) := by
  rw [ofScientific]
  split
  · next none => rw [none, Nat.cast_zero, zero_mul, nearest_zero]
  next some =>
  have least : (1 : ℚ) ≤ n := by exact_mod_cast Nat.pos_of_ne_zero some
  -- Exponents beyond all doubles are found out beforehand.
  split
  · next great =>
    change 2 ^ 11 < exponent at great
    refine (pack_nearest_of_great ?_).symm
    calc (2 : ℚ) ^ (1024 : ℤ) ≤ 2 ^ exponent :=
          zpow_le_zpow_right₀ (by norm_num) (le_trans (by norm_num) great.le)
      _ ≤ 10 ^ exponent := zpow_le_zpow_left₀ (by omega) (by norm_num) (by norm_num)
      _ ≤ n * 10 ^ exponent := le_mul_of_one_le_left (by positivity) least
  split
  · next small =>
    change exponent < -(2 ^ 11 + n.log2) at small
    have steep : (10 : ℚ) ^ exponent ≤ 2 ^ exponent := by
      have inverse : (2 : ℚ) ^ (-exponent) ≤ 10 ^ (-exponent) :=
        zpow_le_zpow_left₀ (by omega) (by norm_num) (by norm_num)
      rw [zpow_neg, zpow_neg] at inverse
      exact (inv_le_inv₀ (by positivity) (by positivity)).mp inverse
    rw [nearest_of_small (by positivity)]
    calc (n : ℚ) * 10 ^ exponent < 2 ^ ((n.log2 : ℤ) + 1) * 2 ^ exponent :=
          mul_lt_mul (lt_log2_succ n) steep (by positivity) (by positivity)
      _ = 2 ^ ((n.log2 : ℤ) + 1 + exponent) := (zpow_add₀ (by norm_num) ..).symm
      _ ≤ 2 ^ (-1075 : ℤ) := zpow_le_zpow_right₀ (by norm_num) (by omega)
  split
  · next nonneg =>
    have power : ((10 ^ exponent.toNat : ℕ) : ℚ) = 10 ^ exponent := by
      rw [Nat.cast_pow, ← zpow_natCast, Int.toNat_of_nonneg nonneg]
      rfl
    rw [mul_finite]
    · rw [zpow_zero, mul_one, power, Nat.shiftLeft_eq, Nat.cast_mul, Nat.cast_pow,
        mul_assoc (n : ℚ), ← zpow_natCast, Nat.cast_ofNat, ← zpow_add₀ (by norm_num),
        add_neg_cancel, zpow_zero, mul_one]
    · rw [Nat.shiftLeft_eq, mul_assoc]
      exact le_trans (by decide) (Nat.mul_le_mul (Nat.pos_of_ne_zero some)
        (Nat.mul_le_mul_left (2 ^ 53) (Nat.one_le_pow exponent.toNat 10 (by decide))))
  · next negative =>
    have power : ((10 ^ (-exponent).toNat : ℕ) : ℚ) = (10 ^ exponent)⁻¹ := by
      rw [Nat.cast_pow, ← zpow_natCast, Int.toNat_of_nonneg (by omega), zpow_neg]
      rfl
    rw [div_finite, zpow_zero, mul_one, mul_one, power, div_inv_eq_mul]

theorem ofScientific_eq (n : ℕ) (exponent : ℤ) :
    Float.Model.ofScientific n exponent = .pack (nearest .positive (n * 10 ^ exponent)) := by
  simp only [Float.Model.ofScientific, Float.Model.pack, pack_ofScientific]

/-! ## In doubles -/

theorem exists_normal {n : ℕ} (some : 0 < n) (short : n < 2 ^ 53) :
    ∃ m : ℕ, ∃ exponent : ℤ, 2 ^ 52 ≤ m ∧ m < 2 ^ 53 ∧ -52 ≤ exponent ∧ exponent ≤ 0 ∧
      (m * 2 ^ exponent : ℚ) = n := by
  have length : n.log2 ≤ 52 := Nat.lt_succ_iff.mp ((Nat.log2_lt some.ne').mpr short)
  have whole : 2 ^ 52 = 2 ^ n.log2 * 2 ^ (52 - n.log2) := by
    rw [← pow_add]
    congr 1
    omega
  refine ⟨n * 2 ^ (52 - n.log2), n.log2 - 52, ?_, ?_, by omega, by omega, ?_⟩
  · rw [whole]
    exact Nat.mul_le_mul_right _ (Nat.log2_self_le some.ne')
  · rw [pow_succ, whole, mul_right_comm, ← pow_succ]
    exact Nat.mul_lt_mul_of_pos_right Nat.lt_log2_self (by positivity)
  · have cancels : ((52 - n.log2 : ℕ) : ℤ) + (n.log2 - 52) = 0 := by omega
    rw [Nat.cast_mul, Nat.cast_pow, mul_assoc, ← zpow_natCast, Nat.cast_ofNat,
      ← zpow_add₀ (by norm_num), cancels, zpow_zero, mul_one]

theorem unpack_zero : (Nat.toUInt64 0).toFloat.toModel.unpack = .zero .positive := rfl

theorem unpack_toUInt64 {n : ℕ} (some : 0 < n) (short : n < 2 ^ 53) :
    ∃ m : ℕ, ∃ exponent : ℤ, ∃ some : 0 < m, 2 ^ 52 ≤ m ∧ (m * 2 ^ exponent : ℚ) = n ∧
      n.toUInt64.toFloat.toModel.unpack = .finite .positive m exponent some := by
  obtain ⟨m, exponent, long, fits, low, high, value⟩ := exists_normal some short
  have canonical : IsCanonical m exponent := ⟨by omega, fits, by omega, .inl long⟩
  refine ⟨m, exponent, canonical.positive, long, value, ?_⟩
  change unpack .binary64 (pack .binary64 (normalize .binary64 n.toUInt64.toNat 0 .positive)) = _
  have same : n.toUInt64.toNat = n := Nat.mod_eq_of_lt (by omega)
  rw [same, UnpackedFloat.normalize, compare_gt_iff_gt.mpr (by omega)]
  simp only [Int.toNat_natCast]
  rw [round_eq some, zpow_zero, mul_one, ← value, nearest_canonical canonical,
    unpack_pack canonical (by omega)]

/-- The powers of ten in the table of doubles: the odd part is shifted to full length. -/
theorem exactlyRepresentablePowersOfTen_eq : ∀ k : Fin 23,
    Float.exactlyRepresentablePowersOfTen[k] =
      .ofModel (.pack (.finite .positive (5 ^ k.val * 2 ^ (52 - (5 ^ k.val).log2))
        (k.val - (52 - (5 ^ k.val).log2 : ℕ)) (by positivity))) := by
  simp only [← Float.toBits_inj]
  decide +kernel

theorem unpack_power (k : Fin 23) :
    ∃ m : ℕ, ∃ exponent : ℤ, ∃ some : 0 < m, 2 ^ 52 ≤ m ∧
      (m * 2 ^ exponent : ℚ) = 10 ^ k.val ∧
      Float.exactlyRepresentablePowersOfTen[k].toModel.unpack =
        .finite .positive m exponent some := by
  have long : ∀ k : Fin 23, 2 ^ 52 ≤ 5 ^ k.val * 2 ^ (52 - (5 ^ k.val).log2) := by decide
  have short : ∀ k : Fin 23, 5 ^ k.val * 2 ^ (52 - (5 ^ k.val).log2) < 2 ^ 53 := by decide
  have value : ((5 ^ k.val * 2 ^ (52 - (5 ^ k.val).log2) : ℕ) *
      2 ^ ((k.val : ℤ) - (52 - (5 ^ k.val).log2 : ℕ)) : ℚ) = 10 ^ k.val := by
    push_cast
    rw [zpow_sub₀ (by norm_num), zpow_natCast, zpow_natCast]
    field_simp
    rw [← mul_pow]
    norm_num
  have canonical : IsCanonical (5 ^ k.val * 2 ^ (52 - (5 ^ k.val).log2))
      (k.val - (52 - (5 ^ k.val).log2 : ℕ)) :=
    ⟨by positivity, short k, by omega, .inl (long k)⟩
  refine ⟨_, _, canonical.positive, long k, value, ?_⟩
  rw [exactlyRepresentablePowersOfTen_eq]
  exact unpack_pack canonical (by omega)

theorem toUInt64_div {n : ℕ} (short : n < 2 ^ 53) (k : Fin 23) :
    n.toUInt64.toFloat / Float.exactlyRepresentablePowersOfTen[k] =
      .ofModel (.pack (nearest .positive (n / 10 ^ k.val))) := by
  obtain ⟨m₂, e₂, some₂, -, value₂, found₂⟩ := unpack_power k
  change Float.ofModel (.pack (div _ n.toUInt64.toFloat.toModel.unpack _)) = _
  rw [found₂]
  rcases Nat.eq_zero_or_pos n with rfl | some
  · rw [unpack_zero, Nat.cast_zero, zero_div, nearest_zero]
    rfl
  · obtain ⟨m₁, e₁, some₁, -, value₁, found₁⟩ := unpack_toUInt64 some short
    rw [found₁, div_finite, value₁, value₂]

theorem toUInt64_mul {n : ℕ} (short : n < 2 ^ 53) (k : Fin 23) :
    n.toUInt64.toFloat * Float.exactlyRepresentablePowersOfTen[k] =
      .ofModel (.pack (nearest .positive (n * 10 ^ k.val))) := by
  obtain ⟨m₂, e₂, some₂, long, value₂, found₂⟩ := unpack_power k
  change Float.ofModel (.pack (mul _ n.toUInt64.toFloat.toModel.unpack _)) = _
  rw [found₂]
  rcases Nat.eq_zero_or_pos n with rfl | some
  · rw [unpack_zero, Nat.cast_zero, zero_mul, nearest_zero]
    rfl
  · obtain ⟨m₁, e₁, some₁, -, value₁, found₁⟩ := unpack_toUInt64 some short
    have enough : 2 ^ 52 ≤ m₁ * m₂ := le_trans long (Nat.le_mul_of_pos_left m₂ some₁)
    rw [found₁, mul_finite e₁ e₂ some₁ some₂ enough, value₁, value₂]

/-! ## Decimals -/

namespace Decimal

def value (d : Decimal) : ℚ := d.digits * 10 ^ d.exponent

/-- A decimal is read as the double nearest to its value. -/
theorem toFloat_eq (d : Decimal) : d.toFloat = .ofModel (.pack (nearest .positive d.value)) := by
  obtain ⟨n, exponent⟩ := d
  rw [toFloat, Float.ofScientific, value]
  by_cases negative : exponent < 0
  · have inverse : (n : ℚ) * 10 ^ exponent = n / 10 ^ exponent.natAbs := by
      rw [div_eq_mul_inv, ← zpow_natCast, ← zpow_neg, Int.ofNat_natAbs_of_nonpos negative.le,
        neg_neg]
    have same : Int.negOfNat exponent.natAbs = exponent := by
      rw [Int.negOfNat_eq, Int.ofNat_eq_natCast]
      omega
    simp only [negative, decide_true, if_true, same]
    split
    · next fast =>
      rw [inverse]
      exact toUInt64_div fast.1 ⟨exponent.natAbs, by omega⟩
    · exact congrArg Float.ofModel (ofScientific_eq ..)
  · have power : (n : ℚ) * 10 ^ exponent = n * 10 ^ exponent.natAbs := by
      rw [← zpow_natCast, Int.natAbs_of_nonneg (by omega)]
    have same : Int.ofNat exponent.natAbs = exponent := by
      rw [Int.ofNat_eq_natCast]
      omega
    simp only [negative, decide_false, same]
    split
    · next fast =>
      rw [power]
      exact toUInt64_mul fast.1 ⟨exponent.natAbs, by omega⟩
    · exact congrArg Float.ofModel (ofScientific_eq ..)

theorem toFloat_congr {d e : Decimal} (same : d.value = e.value) : d.toFloat = e.toFloat := by
  rw [toFloat_eq, toFloat_eq, same]

theorem isNaN_toFloat (d : Decimal) : d.toFloat.isNaN = false := by
  rw [toFloat_eq]
  change (Float.Model.pack _).isNaN = false
  rw [isNaN_pack, isNaN_nearest]

end Decimal
end InputTape
