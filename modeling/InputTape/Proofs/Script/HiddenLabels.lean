import InputTape.Proofs.Text.Words
import InputTape.Script.Draft
import Std.Data.String.ToNat

/-! The labels of blocks.

A label tells its landmark and its block. It is a word in lower case behind the reserved prefix,
so no name that a script may use is the same in any letter case.
-/

set_option autoImplicit false

namespace InputTape.Script

open Text (IsWord IsLower)

theorem toList_hiddenLabel (landmark : Landmark) (block : Nat) :
    (hiddenLabel landmark block).toList =
      hiddenPrefix.toList ++ (landmark.name.toList ++ '_' :: Nat.toDigits 10 block) := by
  simp [hiddenLabel, String.toList_append]

theorem takeWhile_name (landmark : Landmark) (rest : List Char) :
    (landmark.name.toList ++ '_' :: rest).takeWhile (· != '_') = landmark.name.toList := by
  have plain : landmark.name.toList.all (· != '_') = true := by
    cases landmark <;> decide
  rw [List.takeWhile_append_of_pos (List.all_eq_true.mp plain)]
  simp only [bne_self_eq_false, Bool.false_eq_true, not_false_eq_true, List.takeWhile_cons_of_neg,
    List.append_nil]

theorem Landmark.name_injective {first second : Landmark}
    (same : first.name.toList = second.name.toList) : first = second := by
  cases first <;> cases second <;> first | rfl | exact absurd same (by decide)

theorem hiddenLabel_injective {first second : Landmark} {block other : Nat}
    (same : hiddenLabel first block = hiddenLabel second other) : first = second ∧ block = other := by
  have lists := congrArg String.toList same
  rw [toList_hiddenLabel, toList_hiddenLabel, List.append_cancel_left_eq] at lists
  -- The name of the landmark ends at the first underscore, and the number is what remains.
  have names := congrArg (List.takeWhile (· != '_')) lists
  rw [takeWhile_name, takeWhile_name] at names
  rw [names, List.append_cancel_left_eq, List.cons.injEq] at lists
  refine ⟨Landmark.name_injective names, Nat.repr_injective (String.toList_injective ?_)⟩
  rw [Nat.toList_repr, Nat.toList_repr, lists.2]

theorem isLower_of_isDigit {c : Char} (isDigit : c.isDigit = true) :
    c.toNat < 128 ∧ c.toLower = c ∧ isWordChar c = true := by
  have range := isDigit
  simp only [Char.isDigit, Bool.and_eq_true, decide_eq_true_eq, UInt32.le_iff_toNat_le,
    ge_iff_le] at range
  change 48 ≤ c.toNat ∧ c.toNat ≤ 57 at range
  refine ⟨by omega, ?_, ?_⟩
  · refine dif_neg ?_
    rintro ⟨low, -⟩
    rw [ge_iff_le, UInt32.le_iff_toNat_le] at low
    change 65 ≤ c.toNat at low
    omega
  · simp only [isWordChar, Char.isAlphanum, isDigit, Bool.or_true, Bool.true_or]

def isPlain (c : Char) : Bool := c.toNat < 128 && c.toLower == c && isWordChar c

theorem mem_hiddenLabel {landmark : Landmark} {block : Nat} {c : Char}
    (member : c ∈ (hiddenLabel landmark block).toList) :
    c.toNat < 128 ∧ c.toLower = c ∧ isWordChar c = true := by
  have plain {c : Char} (isPlain : isPlain c = true) :
      c.toNat < 128 ∧ c.toLower = c ∧ isWordChar c = true := by
    simpa only [Script.isPlain, Bool.and_eq_true, decide_eq_true_eq, beq_iff_eq, and_assoc]
      using isPlain
  have prefixed : hiddenPrefix.toList.all isPlain = true := by decide
  have named : landmark.name.toList.all isPlain = true := by cases landmark <;> decide
  rw [toList_hiddenLabel, List.mem_append, List.mem_append, List.mem_cons] at member
  rcases member with opening | name | rfl | digit
  · exact plain (List.all_eq_true.mp prefixed c opening)
  · exact plain (List.all_eq_true.mp named c name)
  · decide
  · exact isLower_of_isDigit (Nat.isDigit_of_mem_toDigits (by decide) (by decide) digit)

theorem isWord_hiddenLabel (landmark : Landmark) (block : Nat) :
    IsWord (hiddenLabel landmark block) := by
  refine ⟨?_, fun c member => (mem_hiddenLabel member).2.2⟩
  rw [toList_hiddenLabel]
  simp only [ne_eq, List.append_eq_nil_iff, List.cons_ne_nil, and_false, not_false_eq_true]

theorem lower_hiddenLabel (landmark : Landmark) (block : Nat) :
    Text.lower (hiddenLabel landmark block) = hiddenLabel landmark block :=
  Text.lower_of_isLower fun _ member =>
    ⟨(mem_hiddenLabel member).1, (mem_hiddenLabel member).2.1⟩

theorem isHidden_hiddenLabel (landmark : Landmark) (block : Nat) :
    isHidden (hiddenLabel landmark block) = true := by
  rw [isHidden, lower_hiddenLabel, toList_hiddenLabel, List.isPrefixOf_iff_prefix]
  exact List.prefix_append ..

theorem isHidden_eq_false {name : String} :
    isHidden name = false ↔ ¬ hiddenPrefix.toList <+: (Text.lower name).toList := by
  rw [isHidden, ← Bool.not_eq_true, List.isPrefixOf_iff_prefix]

/-- No name that a script may use is the label of a block, in any letter case. -/
theorem lower_ne_hiddenLabel {name : String} (visible : isHidden name = false) (landmark : Landmark)
    (block : Nat) : Text.lower name ≠ Text.lower (hiddenLabel landmark block) := by
  intro same
  have hidden := isHidden_hiddenLabel landmark block
  rw [isHidden, ← same] at hidden
  rw [isHidden, hidden] at visible
  cases visible

end InputTape.Script
