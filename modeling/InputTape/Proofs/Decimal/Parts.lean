import InputTape.Decimal.Layout
import InputTape.Proofs.Decimal.Conversion

/-! The parts of a double.

A finite double is taken apart as it is unpacked. The decimal written for it is read back as the
same double, whichever way it was found.
-/

set_option autoImplicit false

namespace InputTape

open Float.Model (Format UnpackedFloat)
open Float.Model.UnpackedFloat

/-! ## Bits -/

section

variable (bits : UInt64)

theorem toNat_exponentBits :
    ((bits >>> 52) &&& 0x7FF).toNat = (@unpackExponent .binary64 bits.toBitVec).toNat := by
  rw [unpackExponent_def, BitVec.extractLsb'_toNat, UInt64.toNat_and, UInt64.toNat_shiftRight]
  exact Nat.and_two_pow_sub_one_eq_mod _ 11

theorem toNat_mantissaBits :
    (bits &&& 0xFFFFFFFFFFFFF).toNat = (@unpackMantissa .binary64 bits.toBitVec).toNat := by
  rw [unpackMantissa_def, BitVec.extractLsb'_toNat, UInt64.toNat_and]
  exact Nat.and_two_pow_sub_one_eq_mod _ 52

theorem signBit_eq :
    (bits >>> 63 == 1) =
      (Sign.ofBitVec (@unpackSign .binary64 bits.toBitVec) == .negative) := by
  have one : (bits >>> 63).toNat = (@unpackSign .binary64 bits.toBitVec).toNat := by
    rw [unpackSign_def, BitVec.extractLsb'_toNat, UInt64.toNat_shiftRight]
    have fits := bits.toNat_lt
    change bits.toNat >>> 63 = bits.toNat >>> 63 % 2 ^ 1
    rw [Nat.shiftRight_eq_div_pow]
    omega
  generalize @unpackSign .binary64 bits.toBitVec = bit at one
  have cases : bit = 0#1 ∨ bit = 1#1 := by
    clear one
    decide +revert
  rcases cases with rfl | rfl
  · have zero : bits >>> 63 = 0 := UInt64.toNat_inj.mp one
    rw [zero]
    rfl
  · have zero : bits >>> 63 = 1 := UInt64.toNat_inj.mp one
    rw [zero]
    rfl

end

def ExactFloat.ofUnpacked? : UnpackedFloat → Option ExactFloat
  | .infinity _ | .notANumber => none
  | .zero sign => some ⟨sign == .negative, 0, -1074⟩
  | .finite sign m exponent _ => some ⟨sign == .negative, m, exponent⟩

theorem ofFloat?_eq (x : Float) :
    ExactFloat.ofFloat? x = ExactFloat.ofUnpacked? x.toModel.unpack := by
  obtain ⟨⟨bits, valid⟩⟩ := x
  change ExactFloat.ofFloat? (.ofModel ⟨bits, valid⟩) =
    ExactFloat.ofUnpacked? (unpack .binary64 bits.toBitVec)
  have top : @unpackExponent .binary64 bits.toBitVec = -1#11 ↔
      (@unpackExponent .binary64 bits.toBitVec).toNat = 2047 := BitVec.toNat_inj.symm
  have bottom : @unpackExponent .binary64 bits.toBitVec = 0#11 ↔
      (@unpackExponent .binary64 bits.toBitVec).toNat = 0 := BitVec.toNat_inj.symm
  simp only [ExactFloat.ofFloat?, Float.toBits, toNat_exponentBits, toNat_mantissaBits, signBit_eq,
    unpack, top, bottom, beq_iff_eq]
  split
  · split <;> rfl
  · split
    · next subnormal =>
      split
      · next none => simp [ExactFloat.ofUnpacked?, none]
      · simp only [ExactFloat.ofUnpacked?, subnormal]
        rfl
    · simp only [ExactFloat.ofUnpacked?, toNat_leadingBit]
      rfl

/-- The exponents of doubles are bounded, and their mantissas are of full length but for the
lowest exponent. -/
theorem canonical_of_unpack {x : Float} {sign : Sign} {m : ℕ} {exponent : ℤ} {some : 0 < m}
    (found : x.toModel.unpack = .finite sign m exponent some) :
    IsCanonical m exponent ∧ exponent ≤ 971 := by
  obtain ⟨⟨bits, valid⟩⟩ := x
  change unpack .binary64 bits.toBitVec = _ at found
  have stored : (@unpackExponent .binary64 bits.toBitVec).toNat < 2 ^ 11 := BitVec.isLt _
  have fraction : (@unpackMantissa .binary64 bits.toBitVec).toNat < 2 ^ 52 := BitVec.isLt _
  unfold unpack at found
  simp only at found
  -- All bits set in the exponent stand for infinities and what is not a number.
  split at found
  · split at found <;> cases found
  next inside =>
  have below : (@unpackExponent .binary64 bits.toBitVec).toNat ≠ 2047 :=
    fun top => inside (BitVec.toNat_inj.mp top)
  have bias : (Format.binary64.exponentBias : ℤ) + 52 = 1075 := rfl
  split at found
  · next subnormal =>
    split at found
    · cases found
    · have zero : (@unpackExponent .binary64 bits.toBitVec).toNat = 0 := by
        rw [subnormal]
        rfl
      simp only [finite.injEq, zero] at found
      obtain ⟨-, rfl, rfl⟩ := found
      exact ⟨⟨some, by omega, by omega, .inr (by omega)⟩, by omega⟩
  · next normal =>
    have some : (@unpackExponent .binary64 bits.toBitVec).toNat ≠ 0 :=
      fun zero => normal (BitVec.toNat_inj.mp zero)
    simp only [finite.injEq, toNat_leadingBit] at found
    obtain ⟨-, rfl, rfl⟩ := found
    exact ⟨⟨by omega, by omega, by omega, .inl (by omega)⟩, by omega⟩

theorem pack_unpack_toModel (x : Float) : Float.ofModel (.pack x.toModel.unpack) = x := by
  obtain ⟨⟨bits, valid⟩⟩ := x
  refine congrArg Float.ofModel ?_
  simp only [Float.Model.pack, Float.Model.unpack, pack_unpack_of_valid valid,
    UInt64.ofBitVec_toBitVec]

section

variable {x : Float} {parts : ExactFloat} (known : ExactFloat.ofFloat? x = some parts)

include known

theorem unpack_of_ofFloat? : ∃ sign, parts.negative = (sign == .negative) ∧
    (x.toModel.unpack = .zero sign ∧ parts.mantissa = 0 ∨
      ∃ canonical : IsCanonical parts.mantissa parts.exponent, parts.exponent ≤ 971 ∧
        x.toModel.unpack = .finite sign parts.mantissa parts.exponent canonical.positive) := by
  rw [ofFloat?_eq] at known
  cases found : x.toModel.unpack with
  | infinity sign => rw [found] at known; cases known
  | notANumber => rw [found] at known; cases known
  | zero sign =>
    rw [found] at known
    cases known
    exact ⟨sign, rfl, .inl ⟨rfl, rfl⟩⟩
  | finite sign m exponent some =>
    rw [found] at known
    cases known
    obtain ⟨canonical, most⟩ := canonical_of_unpack found
    exact ⟨sign, rfl, .inr ⟨canonical, most, rfl⟩⟩

theorem unpack_abs : x.abs.toModel.unpack = x.toModel.unpack.abs := by
  obtain ⟨sign, -, ⟨found, -⟩ | ⟨canonical, most, found⟩⟩ := unpack_of_ofFloat? known
  · change unpack .binary64 (pack .binary64 x.toModel.unpack.abs) = _
    rw [found]
    exact unpack_packedZero
  · change unpack .binary64 (pack .binary64 x.toModel.unpack.abs) = _
    rw [found]
    exact unpack_pack canonical most

theorem isInf_abs : x.abs.isInf = false := by
  change x.abs.toModel.unpack.isInf = false
  rw [unpack_abs known]
  obtain ⟨sign, -, ⟨found, -⟩ | ⟨canonical, most, found⟩⟩ := unpack_of_ofFloat? known <;>
    rw [found] <;> rfl

theorem signed_abs : (if parts.negative then -x.abs else x.abs) = x := by
  have model : (-x.abs : Float) = .ofModel (.pack x.toModel.unpack.abs.neg) := by
    change Float.ofModel (.pack x.abs.toModel.unpack.neg) = _
    rw [unpack_abs known]
  have restored := pack_unpack_toModel x
  rw [model]
  change (if _ then _ else Float.ofModel (.pack x.toModel.unpack.abs)) = x
  obtain ⟨sign, negative, ⟨found, -⟩ | ⟨canonical, most, found⟩⟩ := unpack_of_ofFloat? known <;>
    rw [negative, found] <;> rw [found] at restored <;> cases sign <;> exact restored

end

/-! ## Decimals -/

namespace Decimal

theorem value_exact (parts : ExactFloat) :
    (exact parts).value = parts.mantissa * 2 ^ parts.exponent := by
  rw [exact, value]
  split
  · next nonneg =>
    have power : ((Nat.pow 2 parts.exponent.toNat : ℕ) : ℚ) = 2 ^ parts.exponent := by
      rw [Nat.pow_eq, Nat.cast_pow, ← zpow_natCast, Int.toNat_of_nonneg nonneg]
      rfl
    simp only [ExactFloat.numerator, Nat.cast_mul, power, zpow_zero, mul_one]
  · next negative =>
    have exponent : parts.exponent = -(parts.exponent.natAbs : ℤ) := by omega
    simp only [Nat.pow_eq, Nat.cast_mul, Nat.cast_pow, mul_assoc]
    congr 1
    generalize parts.exponent.natAbs = places at exponent
    rw [exponent, zpow_neg, zpow_neg, zpow_natCast, zpow_natCast]
    field_simp
    rw [← mul_pow]
    norm_num

theorem value_stripZeros (d : Decimal) (limit : Nat) : (d.stripZeros limit).value = d.value := by
  induction limit generalizing d with
  | zero => rfl
  | succ limit ih =>
    rw [stripZeros]
    split
    · next zeros =>
      rw [Bool.and_eq_true, beq_iff_eq] at zeros
      have tens : (d.digits : ℚ) = 10 * (d.digits / 10 : ℕ) := by
        exact_mod_cast (Nat.mul_div_cancel' (Nat.dvd_of_mod_eq_zero zeros.2)).symm
      rw [ih, value, value, tens, zpow_add_one₀ (by norm_num)]
      ring
    · rfl

theorem toFloat_of_withDigits? {parts : ExactFloat} {x : Float} {tie : Tie} {scale : Int}
    {count : Nat} {d : Decimal} (found : withDigits? parts x tie scale count = some d) :
    d.toFloat = x := by
  have back {digits : Nat} {grid : Int}
      (same : ((Decimal.toFloat ⟨digits, grid⟩).toBits == x.toBits) = true) :
      Decimal.toFloat ⟨digits, grid⟩ = x := Float.toBits_inj.mp (beq_iff_eq.mp same)
  unfold withDigits? at found
  simp only at found
  split at found
  · cases found
  · next low _ => cases found; exact back low
  · next _ high => cases found; exact back high
  · next low high =>
    split at found
    · cases found; exact back low
    · cases found; exact back high
    · cases found; exact back high
    · -- The even neighbour is one of the two.
      cases found
      generalize parts.numerator * _ / _ = floor at low high ⊢
      rcases Nat.mod_two_eq_zero_or_one floor with even | odd
      · rw [even]; exact back low
      · rw [odd]; exact back high

/-- The digits that are found stand for the number they are found for. -/
theorem toFloat_shortest {parts : ExactFloat} {x : Float} {tie : Tie}
    (exactly : (exact parts).toFloat = x) : (shortest x parts tie).toFloat = x := by
  rw [shortest, toFloat_congr (value_stripZeros ..)]
  cases found : (List.range 17).findSome? fun less =>
      withDigits? parts x tie (decimalScale parts) (less + 1) with
  | none => exact exactly
  | some d =>
    obtain ⟨less, -, some⟩ := List.exists_of_findSome?_eq_some found
    exact toFloat_of_withDigits? some

theorem toFloat_exact {x : Float} {parts : ExactFloat}
    (known : ExactFloat.ofFloat? x = some parts) :
    (exact parts).toFloat = x.abs := by
  rw [toFloat_eq, value_exact]
  change _ = Float.ofModel (.pack x.toModel.unpack.abs)
  obtain ⟨sign, -, ⟨found, none⟩ | ⟨canonical, most, found⟩⟩ := unpack_of_ofFloat? known
  · rw [found, none, Nat.cast_zero, zero_mul, nearest_zero]
    rfl
  · rw [found, nearest_canonical canonical]
    rfl

end Decimal
end InputTape
