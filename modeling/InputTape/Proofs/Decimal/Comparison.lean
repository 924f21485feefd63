import InputTape.Decimal.Reading
import Mathlib

/-! Which floating-point numbers are numbers, and how they compare.

Two numbers compare in one order as in the other. What is no number compares with nothing, so only
numbers that are one can be told to be at most what they are not above.
-/

set_option autoImplicit false

namespace InputTape

open Float.Model (Format UnpackedFloat)
open Float.Model.UnpackedFloat

/-! ## What is no number -/

theorem isNaN_unpack {format : Format} (bits : BitVec format.numBits) :
    (unpack format bits).isNaN = true ↔
      unpackExponent bits = -1#_ ∧ unpackMantissa bits ≠ 0#_ := by
  unfold unpack
  simp only
  split
  · next top =>
    split
    · next none => simp [isNaN, none]
    · next some => simp [isNaN, top, some]
  · next top =>
    split
    · split <;> simp [isNaN, top]
    · simp [isNaN, top]

theorem isNaN_pack (number : UnpackedFloat) :
    (Float.Model.pack number).isNaN = number.isNaN := by
  change (unpack .binary64 (pack .binary64 number)).isNaN = _
  rw [Bool.eq_iff_iff, isNaN_unpack]
  fun_cases pack with
  | case1 => simp [packedNaN, isNaN]
  | case2 => simp [packedInfinity, isNaN]
  | case3 => simp [packedZero, isNaN]
  | case4 => simp [packedInfinity, isNaN]
  | case5 sign mantissa exponent positive bits biased low normal =>
    -- The exponent of a number is not the one that infinity and NaN share.
    change ¬ 2 ^ 11 ≤ biased + 1 at low
    simp only [unpackExponent_packComponents, BitVec.neg_one_eq_allOnes, ← BitVec.toNat_inj,
      BitVec.toNat_allOnes, BitVec.toNat_ofNat, isNaN, Bool.false_eq_true, iff_false, not_and]
    rw [Nat.mod_eq_of_lt (by omega)]
    intro top
    omega
  | case6 => simp [isNaN]

theorem isNaN_neg (x : Float) : (-x).isNaN = x.isNaN := by
  change (Float.Model.pack x.toModel.unpack.neg).isNaN = x.toModel.unpack.isNaN
  rw [isNaN_pack]
  cases x.toModel.unpack <;> rfl

/-! ## Order -/

theorem compare_then_swap (low high : Int) (first second : Nat) :
    (compare high low).then (compare second first) =
      ((compare low high).then (compare first second)).swap := by
  rw [Ordering.swap_then, @Std.OrientedCmp.eq_swap _ compare _ high,
    @Std.OrientedCmp.eq_swap _ compare _ second]

theorem compare_swap (x y : UnpackedFloat) :
    y.compare x = (x.compare y).map Ordering.swap := by
  rcases x with ⟨⟨⟩⟩ | _ | ⟨⟨⟩⟩ | ⟨⟨⟩, _, _, _⟩ <;>
    rcases y with ⟨⟨⟩⟩ | _ | ⟨⟨⟩⟩ | ⟨⟨⟩, _, _, _⟩ <;>
    first
    | rfl
    | exact congrArg some (compare_then_swap ..)
    | exact congrArg (some ·.swap) (compare_then_swap ..)

theorem isSome_compare {x y : UnpackedFloat} (left : x.isNaN = false) (right : y.isNaN = false) :
    (x.compare y).isSome = true := by
  rcases x with ⟨⟨⟩⟩ | _ | ⟨⟨⟩⟩ | ⟨⟨⟩, _, _, _⟩ <;>
    rcases y with ⟨⟨⟩⟩ | _ | ⟨⟨⟩⟩ | ⟨⟨⟩, _, _, _⟩ <;>
    first
    | rfl
    | contradiction

theorem lt_iff_compare {x y : Float} :
    x < y ↔ x.toModel.unpack.compare y.toModel.unpack = some .lt := by
  change decide ((x.toModel.unpack.compare y.toModel.unpack == some .lt) = true) = true ↔ _
  rw [decide_eq_true_eq, beq_iff_eq]

theorem le_iff_compare {x y : Float} :
    x ≤ y ↔ ∃ order, x.toModel.unpack.compare y.toModel.unpack = some order ∧
      order.isLE = true := by
  change decide ((x.toModel.unpack.compare y.toModel.unpack).any (·.isLE) = true) = true ↔ _
  rw [decide_eq_true_eq, Option.any_eq_true]

theorem le_of_not_lt {x y : Float} (left : x.isNaN = false) (right : y.isNaN = false)
    (not : ¬ x < y) : y ≤ x := by
  obtain ⟨order, found⟩ := Option.isSome_iff_exists.mp (isSome_compare left right)
  rw [lt_iff_compare, found] at not
  rw [le_iff_compare, compare_swap x.toModel.unpack, found]
  exact ⟨_, rfl, by cases order <;> simp at not ⊢⟩

theorem not_lt_of_le {x y : Float} (most : y ≤ x) : ¬ x < y := by
  intro less
  rw [lt_iff_compare] at less
  rw [le_iff_compare, compare_swap x.toModel.unpack, less] at most
  obtain ⟨_, ⟨⟩, isLE⟩ := most
  cases isLE

end InputTape
