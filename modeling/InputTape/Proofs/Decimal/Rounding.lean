import Mathlib

/-! Rounding to the nearest double.

The arithmetic of doubles keeps, of a value that lies between two mantissas, the lower one and two
bits: whether the value is at least half way, and whether it is off that. This is enough to round
it. So whatever is computed comes to the same as rounding the exact value, a tie going to the even
mantissa.
-/

set_option autoImplicit false

namespace InputTape

open Float.Model (Format UnpackedFloat totalExponent)
open Float.Model.UnpackedFloat

/-! ## Mantissas -/

/-- The nearest whole number; of two that are as near the even one. -/
def roundEven (x : ℚ) : ℕ :=
  match compare (x - ⌊x⌋₊) (1 / 2) with
  | .lt => ⌊x⌋₊
  | .eq => ⌊x⌋₊ + ⌊x⌋₊ % 2
  | .gt => ⌊x⌋₊ + 1

/-- The value lies so far behind a mantissa as the two bits say. -/
def Describes (mantissa : ExtendedMantissa) (x : ℚ) : Prop :=
  let rest := x - mantissa.mantissa
  match mantissa.roundBit, mantissa.stickyBit with
  | false, false => rest = 0
  | false, true => 0 < rest ∧ rest < 1 / 2
  | true, false => rest = 1 / 2
  | true, true => 1 / 2 < rest ∧ rest < 1

variable {mantissa : ExtendedMantissa} {sign : Sign} {x : ℚ}

theorem floor_le_roundEven : ⌊x⌋₊ ≤ roundEven x := by
  unfold roundEven
  split <;> omega

theorem roundEven_le {bound : ℕ} (nonneg : 0 ≤ x) (below : x < bound) : roundEven x ≤ bound := by
  have floor : ⌊x⌋₊ < bound := (Nat.floor_lt nonneg).mpr below
  unfold roundEven
  split <;> omega

theorem roundEven_natCast (m : ℕ) : roundEven m = m := by
  rw [roundEven, Nat.floor_natCast, sub_self, compare_lt_iff_lt.mpr (by norm_num)]

theorem Describes.rest_mem (describes : Describes mantissa x) :
    0 ≤ x - mantissa.mantissa ∧ x - mantissa.mantissa < 1 := by
  obtain ⟨m, round, sticky⟩ := mantissa
  cases round <;> cases sticky <;> simp only [Describes] at describes ⊢ <;>
    constructor <;> linarith

theorem Describes.floor (describes : Describes mantissa x) : ⌊x⌋₊ = mantissa.mantissa := by
  obtain ⟨low, high⟩ := describes.rest_mem
  have nonneg : (0 : ℚ) ≤ mantissa.mantissa := Nat.cast_nonneg _
  exact (Nat.floor_eq_iff (by linarith)).mpr ⟨by linarith, by linarith⟩

theorem Describes.roundedMantissa (describes : Describes mantissa x) :
    mantissa.roundedMantissa = roundEven x := by
  rw [roundEven, describes.floor]
  obtain ⟨m, round, sticky⟩ := mantissa
  cases round <;> cases sticky <;> simp only [Describes] at describes <;>
    simp only [ExtendedMantissa.roundedMantissa, ExtendedMantissa.accuracy,
      Accuracy.roundToNearestEven]
  · rw [describes, compare_lt_iff_lt.mpr (by norm_num)]
  · rw [compare_lt_iff_lt.mpr describes.2]
  · rw [describes, compare_eq_iff_eq.mpr rfl]
  · rw [compare_gt_iff_gt.mpr describes.1]

theorem Describes.shiftRightOne (describes : Describes mantissa x) :
    Describes mantissa.shiftRightOne (x / 2) := by
  obtain ⟨m, round, sticky⟩ := mantissa
  have halves : (m : ℚ) = 2 * (m / 2 : ℕ) + (m % 2 : ℕ) := by
    exact_mod_cast (Nat.div_add_mod m 2).symm
  rcases Nat.mod_two_eq_zero_or_one m with parity | parity <;> rw [parity] at halves <;>
    cases round <;> cases sticky <;>
    simp [Describes, ExtendedMantissa.shiftRightOne, parity] at describes halves ⊢ <;>
    first | linarith | constructor <;> linarith

theorem Describes.shiftRight (describes : Describes mantissa x) (count : ℕ) :
    Describes (mantissa >>> count) (x / 2 ^ count) := by
  induction count with
  | zero =>
    rw [pow_zero, div_one]
    exact describes
  | succ count ih =>
    rw [pow_succ, ← div_div]
    exact ih.shiftRightOne

/-! ## Exponents -/

def exponentNear (x : ℚ) : ℤ := max (Int.log 2 x - 52) (-1074)

def settle (sign : Sign) (m : ℕ) (exponent : ℤ) : UnpackedFloat :=
  if positive : 0 < m then
    if m = 2 ^ 53 then .finite sign (2 ^ 52) (exponent + 1) (by decide)
    else .finite sign m exponent positive
  else .zero sign

/-- The double nearest to a value, but for its size. -/
def nearest (sign : Sign) (x : ℚ) : UnpackedFloat :=
  settle sign (roundEven (x / 2 ^ exponentNear x)) (exponentNear x)

theorem isNaN_nearest : (nearest sign x).isNaN = false := by
  unfold nearest settle
  split
  · split <;> rfl
  · rfl

/-- A value lies below the power of two behind its logarithm, and so below the longest
mantissa. -/
theorem div_exponentNear_lt : x / 2 ^ exponentNear x < 2 ^ 53 := by
  rw [div_lt_iff₀ (by positivity)]
  calc x < (2 : ℚ) ^ (Int.log 2 x + 1) := by
          exact_mod_cast Int.lt_zpow_succ_log_self (b := 2) (by norm_num) x
    _ ≤ 2 ^ (53 + exponentNear x) := zpow_le_zpow_right₀ (by norm_num) (by
          rw [exponentNear]
          omega)
    _ = 2 ^ 53 * 2 ^ exponentNear x := by
          rw [zpow_add₀ (by norm_num)]
          norm_cast

theorem targetExponent_eq (total : ℤ) :
    Format.targetExponent .binary64 total = max (total - 53) (-1074) := rfl

theorem log2_le_self {m : ℕ} (some : 0 < m) : (2 : ℚ) ^ (m.log2 : ℤ) ≤ m := by
  exact_mod_cast Nat.log2_self_le some.ne'

theorem lt_log2_succ (m : ℕ) : (m : ℚ) < 2 ^ ((m.log2 : ℤ) + 1) := by
  exact_mod_cast Nat.lt_log2_self

/-- A rounded mantissa has the exponent it came with, but for the one that is too long. -/
theorem shift_rounded {m : ℕ} {exponent : ℤ} (short : m ≤ 2 ^ 53) (least : -1074 ≤ exponent) :
    shiftToTargetExponent .binary64 m exponent .exact =
      if m = 2 ^ 53 then (⟨2 ^ 52, false, false⟩, exponent + 1)
      else (⟨m, false, false⟩, exponent) := by
  rw [shiftToTargetExponent, shiftToExponent, targetExponent_eq, totalExponent]
  split
  · next long =>
    subst long
    have length : Nat.log2 (2 ^ 53) = 53 := Nat.log2_two_pow
    have amount : (max (((2 ^ 53 : ℕ).log2 : ℤ) + 1 + exponent - 53) (-1074)
        - exponent).toNat = 1 := by
      omega
    rw [amount]
    rfl
  · next long =>
    have length : m.log2 < 53 := by
      rcases Nat.eq_zero_or_pos m with rfl | some
      · decide
      · exact (Nat.log2_lt some.ne').mpr (by omega)
    have amount : (max ((m.log2 : ℤ) + 1 + exponent - 53) (-1074) - exponent).toNat = 0 := by
      omega
    rw [amount, Nat.cast_zero, add_zero]
    rfl

/-! ## Rounding -/

section

variable {m : ℕ} {exponent : ℤ} {accuracy : Accuracy}
  (describes : Describes (.ofMantissaAndAccuracy m accuracy) (x / 2 ^ exponent))

include describes

theorem Describes.bounds :
    m * (2 : ℚ) ^ exponent ≤ x ∧ x < (m + 1) * (2 : ℚ) ^ exponent := by
  have same : (ExtendedMantissa.ofMantissaAndAccuracy m accuracy).mantissa = m := by
    rcases accuracy with _ | ⟨_ | _ | _⟩ <;> rfl
  obtain ⟨low, high⟩ := describes.rest_mem
  rw [same] at low high
  exact ⟨(le_div_iff₀ (by positivity)).mp (by linarith),
    (div_lt_iff₀ (by positivity)).mp (by linarith)⟩

theorem Describes.target (positive : 0 < x) (enough : 0 < m ∨ exponent ≤ -1074) :
    Format.targetExponent .binary64 (totalExponent m exponent) = exponentNear x := by
  obtain ⟨low, high⟩ := describes.bounds
  rw [targetExponent_eq, totalExponent, exponentNear]
  rcases Nat.eq_zero_or_pos m with rfl | some
  · have small : exponent ≤ -1074 := enough.resolve_left (lt_irrefl 0)
    have below : Int.log 2 x < exponent := by
      refine (Int.lt_zpow_iff_log_lt (by norm_num) positive).mp ?_
      simpa using high
    simp only [Nat.log2_zero, Nat.cast_zero]
    omega
  · have logarithm : Int.log 2 x = m.log2 + exponent := by
      refine le_antisymm (Int.lt_add_one_iff.mp ?_) ?_
      · refine (Int.lt_zpow_iff_log_lt (by norm_num) positive).mp (high.trans_le ?_)
        have longest : ((m + 1 : ℕ) : ℚ) ≤ (2 ^ (m.log2 + 1) : ℕ) := by
          exact_mod_cast Nat.lt_log2_self
        push_cast at longest ⊢
        rw [add_right_comm, zpow_add₀ (by norm_num)]
        gcongr
        exact_mod_cast longest
      · refine (Int.zpow_le_iff_le_log (by norm_num) positive).mp (le_trans ?_ low)
        push_cast
        rw [zpow_add₀ (by norm_num)]
        gcongr
        exact log2_le_self some
    rw [logarithm]
    congr 1
    ring

/-- Rounding looks at the value only, if the mantissa has bits enough. -/
theorem Describes.round (positive : 0 < x) (enough : 0 < m ∨ exponent ≤ -1074)
    (low : exponent ≤ exponentNear x) :
    roundWithAccuracy .binary64 sign m exponent accuracy = nearest sign x := by
  have least : -1074 ≤ exponentNear x := le_max_right ..
  have reached : exponent + ((exponentNear x - exponent).toNat : ℤ) = exponentNear x := by omega
  have rounded : (ExtendedMantissa.ofMantissaAndAccuracy m accuracy >>>
      (exponentNear x - exponent).toNat).roundedMantissa =
        roundEven (x / 2 ^ exponentNear x) := by
    have shifted := describes.shiftRight (exponentNear x - exponent).toNat
    rw [div_div, ← zpow_natCast, ← zpow_add₀ (by norm_num), reached] at shifted
    exact shifted.roundedMantissa
  have most : roundEven (x / 2 ^ exponentNear x) ≤ 2 ^ 53 :=
    roundEven_le (by positivity) (by exact_mod_cast div_exponentNear_lt)
  have first : shiftToTargetExponent .binary64 m exponent accuracy =
      (ExtendedMantissa.ofMantissaAndAccuracy m accuracy >>> (exponentNear x - exponent).toNat,
        exponentNear x) := by
    simp only [shiftToTargetExponent, shiftToExponent, describes.target positive enough, reached]
  simp only [roundWithAccuracy, first, rounded, shift_rounded most least, nearest, settle]
  by_cases long : roundEven (x / 2 ^ exponentNear x) = 2 ^ 53
  · simp [long]
  · by_cases none : roundEven (x / 2 ^ exponentNear x) = 0
    · simp [none]
    · simp only [if_neg long, none, Nat.pos_of_ne_zero none, ↓reduceDIte]

end

theorem describes_exact {m : ℕ} {exponent : ℤ} :
    Describes (.ofMantissaAndAccuracy m .exact) (m * (2 : ℚ) ^ exponent / 2 ^ exponent) := by
  rw [mul_div_cancel_right₀ _ (by positivity)]
  exact sub_self _

theorem describes_quotient {m n : ℕ} (some : 0 < n) :
    Describes (.ofMantissaAndAccuracy (m / n) (accuracyOfFraction (m % n) n)) (m / n : ℚ) := by
  have parts : (m : ℚ) = n * (m / n : ℕ) + (m % n : ℕ) := by
    exact_mod_cast (Nat.div_add_mod m n).symm
  have rest : (m / n : ℚ) - (m / n : ℕ) = (m % n : ℕ) / n := by
    rw [parts]
    field_simp
    ring
  have below : ((m % n : ℕ) : ℚ) < n := by exact_mod_cast Nat.mod_lt m some
  have positive : (0 : ℚ) < n := by exact_mod_cast some
  unfold accuracyOfFraction
  split
  · next exact =>
    rw [exact, Nat.cast_zero, zero_div] at rest
    exact rest
  · next inexact =>
    have inside : (0 : ℚ) < (m % n : ℕ) / n :=
      div_pos (by exact_mod_cast Nat.pos_of_ne_zero inexact) positive
    have less : ((m % n : ℕ) : ℚ) / n < 1 := (div_lt_one positive).mpr below
    -- What is left over is compared with half of the divisor.
    rcases order : compare (2 * (m % n)) n with _ | _ | _
    · have half : ((2 * (m % n) : ℕ) : ℚ) < n := by exact_mod_cast compare_lt_iff_lt.mp order
      refine ⟨rest ▸ inside, rest ▸ (div_lt_iff₀ positive).mpr ?_⟩
      push_cast at half ⊢
      linarith
    · have half : ((2 * (m % n) : ℕ) : ℚ) = n := by exact_mod_cast compare_eq_iff_eq.mp order
      refine rest.trans ((div_eq_iff positive.ne').mpr ?_)
      push_cast at half ⊢
      linarith
    · have half : ((2 * (m % n) : ℕ) : ℚ) > n := by exact_mod_cast compare_gt_iff_gt.mp order
      refine ⟨rest ▸ (lt_div_iff₀ positive).mpr ?_, rest ▸ less⟩
      push_cast at half ⊢
      linarith

/-! ## Arithmetic -/

theorem exponentNear_mul {m : ℕ} {exponent : ℤ} (some : 0 < m) :
    exponentNear (m * (2 : ℚ) ^ exponent) = max (m.log2 + exponent - 52) (-1074) := by
  have positive : (0 : ℚ) < m * 2 ^ exponent := by positivity
  rw [← describes_exact.target positive (.inl some), targetExponent_eq, totalExponent]
  congr 1
  ring

theorem mul_finite {m₁ m₂ : ℕ} (e₁ e₂ : ℤ) (some₁ : 0 < m₁) (some₂ : 0 < m₂)
    (long : 2 ^ 52 ≤ m₁ * m₂) :
    mul .binary64 (.finite .positive m₁ e₁ some₁) (.finite .positive m₂ e₂ some₂) =
      nearest .positive ((m₁ * 2 ^ e₁) * (m₂ * 2 ^ e₂)) := by
  have value : ((m₁ * 2 ^ e₁) * (m₂ * 2 ^ e₂) : ℚ) = (m₁ * m₂ : ℕ) * 2 ^ (e₁ + e₂) := by
    rw [zpow_add₀ (by norm_num), Nat.cast_mul]
    ring
  have some : 0 < m₁ * m₂ := by positivity
  have length : 52 ≤ (m₁ * m₂).log2 := (Nat.le_log2 some.ne').mpr long
  rw [value]
  refine describes_exact.round (by positivity) (.inl some) ?_
  rw [exponentNear_mul some]
  omega

theorem div_finite {m₁ m₂ : ℕ} (e₁ e₂ : ℤ) (some₁ : 0 < m₁) (some₂ : 0 < m₂) :
    div .binary64 (.finite .positive m₁ e₁ some₁) (.finite .positive m₂ e₂ some₂) =
      nearest .positive ((m₁ * 2 ^ e₁) / (m₂ * 2 ^ e₂)) := by
  have positive : (0 : ℚ) < (m₁ * 2 ^ e₁) / (m₂ * 2 ^ e₂) := by positivity
  change roundWithAccuracy _ _ (m₁ <<< _ / m₂) _ _ = _
  generalize chosen : min (e₁ - e₂)
    (Format.targetExponent .binary64 (totalExponent m₁ e₁ - totalExponent m₂ e₂)) = target
  rw [targetExponent_eq, totalExponent, totalExponent] at chosen
  generalize amount : (e₁ - e₂ - target).toNat = shift
  have reached : (shift : ℤ) = e₁ - e₂ - target := by omega
  have value : (m₁ * 2 ^ e₁) / (m₂ * 2 ^ e₂) / 2 ^ target = ((m₁ <<< shift : ℕ) / m₂ : ℚ) := by
    rw [Nat.shiftLeft_eq, Nat.cast_mul, Nat.cast_pow, ← zpow_natCast, reached,
      zpow_sub₀ (by norm_num), zpow_sub₀ (by norm_num)]
    field_simp
    push_cast
    ring
  refine Describes.round (value ▸ describes_quotient some₂) positive ?_ ?_
  · -- Without bits in the quotient its exponent would be as low as it goes.
    by_cases small : target ≤ -1074
    · exact .inr small
    · refine .inl (Nat.div_pos ?_ some₂)
      have most : (m₂ : ℚ) ≤ (m₁ <<< shift : ℕ) := by
        calc (m₂ : ℚ) ≤ 2 ^ ((m₂.log2 : ℤ) + 1) := (lt_log2_succ m₂).le
          _ ≤ 2 ^ ((m₁.log2 : ℤ) + shift) := zpow_le_zpow_right₀ (by norm_num) (by omega)
          _ = 2 ^ (m₁.log2 : ℤ) * 2 ^ shift := by
            rw [zpow_add₀ (by norm_num), zpow_natCast 2 shift]
          _ ≤ m₁ * 2 ^ shift := by gcongr; exact log2_le_self some₁
          _ = (m₁ <<< shift : ℕ) := by rw [Nat.shiftLeft_eq]; push_cast; rfl
      exact_mod_cast most
  -- The lengths of the two significands tell the exponent of the quotient but for one.
  · have logarithm : (m₁.log2 : ℤ) + e₁ - (m₂.log2 + 1 + e₂) ≤
        Int.log 2 ((m₁ * 2 ^ e₁) / (m₂ * 2 ^ e₂) : ℚ) := by
      refine (Int.zpow_le_iff_le_log (by norm_num) positive).mp ?_
      rw [le_div_iff₀ (by positivity)]
      push_cast
      calc (2 : ℚ) ^ ((m₁.log2 : ℤ) + e₁ - (m₂.log2 + 1 + e₂)) * (m₂ * 2 ^ e₂)
          ≤ 2 ^ ((m₁.log2 : ℤ) + e₁ - (m₂.log2 + 1 + e₂)) *
              (2 ^ ((m₂.log2 : ℤ) + 1) * 2 ^ e₂) := by
            gcongr
            exact (lt_log2_succ m₂).le
        _ = 2 ^ (m₁.log2 : ℤ) * 2 ^ e₁ := by
            rw [← zpow_add₀ (by norm_num), ← zpow_add₀ (by norm_num), ← zpow_add₀ (by norm_num)]
            congr 1
            ring
        _ ≤ m₁ * 2 ^ e₁ := by gcongr; exact log2_le_self some₁
    rw [exponentNear]
    omega

theorem round_eq {m : ℕ} {exponent : ℤ} (some : 0 < m) :
    UnpackedFloat.round .binary64 sign m exponent = nearest sign (m * 2 ^ exponent) := by
  simp only [UnpackedFloat.round, decreaseExponent,
    describes_exact.target (show (0 : ℚ) < m * 2 ^ exponent by positivity) (.inl some)]
  generalize near : exponentNear (m * 2 ^ exponent) = target
  have value : ((m <<< (exponent - target).toNat : ℕ) : ℚ) *
      2 ^ (exponent - ((exponent - target).toNat : ℤ)) = m * 2 ^ exponent := by
    rw [Nat.shiftLeft_eq, Nat.cast_mul, zpow_sub₀ (by norm_num)]
    push_cast
    field_simp
    norm_cast
  have some' : 0 < m <<< (exponent - target).toNat := by
    rw [Nat.shiftLeft_eq]
    positivity
  rw [← value]
  refine describes_exact.round (by positivity) (.inl some') ?_
  rw [value, near]
  omega

/-! ## Values that need no rounding -/

structure IsCanonical (m : ℕ) (exponent : ℤ) : Prop where
  positive : 0 < m
  short : m < 2 ^ 53
  least : -1074 ≤ exponent
  /-- Only with the least exponent may the mantissa be shorter. -/
  normal : 2 ^ 52 ≤ m ∨ exponent = -1074

theorem nearest_canonical {m : ℕ} {exponent : ℤ} (canonical : IsCanonical m exponent) :
    nearest sign (m * 2 ^ exponent) = .finite sign m exponent canonical.positive := by
  obtain ⟨some, short, least, normal⟩ := canonical
  have near : exponentNear (m * (2 : ℚ) ^ exponent) = exponent := by
    rw [exponentNear_mul some]
    have below : m.log2 < 53 := (Nat.log2_lt some.ne').mpr short
    rcases normal with long | subnormal
    · have above : 52 ≤ m.log2 := (Nat.le_log2 some.ne').mpr long
      omega
    · omega
  rw [nearest, near, mul_div_cancel_right₀ _ (by positivity), roundEven_natCast, settle,
    dif_pos some, if_neg short.ne]

theorem nearest_zero : nearest sign 0 = .zero sign := by
  have none : roundEven 0 = 0 := by exact_mod_cast roundEven_natCast 0
  rw [nearest, zero_div, none]
  rfl

end InputTape
