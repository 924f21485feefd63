import InputTape.Script.Lexeme
import InputTape.Text.Blank
import InputTape.Text.LowerCase

/-! Words: names of letters, digits and underscores.

Blanks at the ends of a name do not count, and a word has none. Its lower case is found letter by
letter.
-/

set_option autoImplicit false

namespace InputTape.Text

open Script (isWordChar)

def IsWord (text : String) : Prop := text.toList ≠ [] ∧ ∀ c ∈ text.toList, isWordChar c = true

theorem toNat_of_isWordChar {c : Char} (isWord : isWordChar c = true) :
    48 ≤ c.toNat ∧ c.toNat < 128 := by
  change ((decide ('A'.val ≤ c.val ∧ c.val ≤ 'Z'.val) ||
    (decide ('a'.val ≤ c.val) && decide (c.val ≤ 'z'.val))) ||
    (decide ('0'.val ≤ c.val) && decide (c.val ≤ '9'.val)) || c == '_') = true at isWord
  simp only [Bool.or_eq_true, Bool.and_eq_true, decide_eq_true_eq, UInt32.le_iff_toNat_le,
    beq_iff_eq] at isWord
  rcases isWord with range | rfl
  · change ((65 ≤ c.toNat ∧ c.toNat ≤ 90) ∨ (97 ≤ c.toNat ∧ c.toNat ≤ 122)) ∨
      (48 ≤ c.toNat ∧ c.toNat ≤ 57) at range
    omega
  · decide

theorem not_isBlank_of_isWordChar {c : Char} (isWord : isWordChar c = true) : isBlank c = false := by
  obtain ⟨low, high⟩ := toNat_of_isWordChar isWord
  simp only [isBlank, Bool.or_eq_false_iff, Bool.and_eq_false_iff, decide_eq_false_iff_not,
    beq_eq_false_iff_ne]
  omega

theorem dropWhile_isBlank_of_isWordChar {text : List Char}
    (word : ∀ c ∈ text, isWordChar c = true) : text.dropWhile isBlank = text := by
  cases text with
  | nil => rfl
  | cons first rest =>
    rw [List.dropWhile_cons_of_neg]
    simp only [not_isBlank_of_isWordChar (word first List.mem_cons_self), Bool.false_eq_true,
      not_false_eq_true]

theorem trim_of_isWord {text : String} (isWord : IsWord text) : trim text = text := by
  have backwards : ∀ c ∈ text.toList.reverse, isWordChar c = true := fun c member =>
    isWord.2 c (List.mem_reverse.mp member)
  rw [trim, dropWhile_isBlank_of_isWordChar isWord.2, dropWhile_isBlank_of_isWordChar backwards,
    List.reverse_reverse, String.ofList_toList]

theorem not_isEmpty_of_isWord {text : String} (isWord : IsWord text) : text.isEmpty = false := by
  rw [String.isEmpty, beq_eq_false_iff_ne, Ne, String.utf8ByteSize_eq_zero_iff]
  rintro rfl
  exact isWord.1 rfl

theorem lowerFrom_of_ascii {before text : List Char} (ascii : ∀ c ∈ text, c.toNat < 128) :
    lowerFrom before text = text.map Char.toLower := by
  induction text generalizing before with
  | nil => rfl
  | cons first rest ih =>
    obtain ⟨here, later⟩ := List.forall_mem_cons.mp ascii
    have notSigma : (first == 'Σ') = false := by
      rw [beq_eq_false_iff_ne]
      rintro rfl
      exact absurd here (by decide)
    have notDotted : (first == 'İ') = false := by
      rw [beq_eq_false_iff_ne]
      rintro rfl
      exact absurd here (by decide)
    rw [lowerFrom, ih later]
    simp only [lowerIn, notSigma, notDotted, lowerChar, here, Bool.false_eq_true, if_false,
      if_true, List.singleton_append, List.map_cons]

theorem lower_of_isWord {text : String} (isWord : IsWord text) : lower text = text.toLower := by
  have ascii : ∀ c ∈ text.toList, c.toNat < 128 := fun c member =>
    (toNat_of_isWordChar (isWord.2 c member)).2
  rw [lower, lowerFrom_of_ascii ascii]
  apply String.toList_injective
  change _ = (text.map Char.toLower).toList
  rw [String.toList_ofList, String.toList_map]

def IsLower (text : List Char) : Prop := ∀ c ∈ text, c.toNat < 128 ∧ c.toLower = c

theorem lowerFrom_of_isLower {before text : List Char} (isLower : IsLower text) :
    lowerFrom before text = text := by
  rw [lowerFrom_of_ascii fun c member => (isLower c member).1]
  exact (List.map_congr_left fun c member => (isLower c member).2).trans (List.map_id text)

theorem lower_of_isLower {text : String} (isLower : IsLower text.toList) : lower text = text := by
  rw [lower, lowerFrom_of_isLower isLower, String.ofList_toList]

end InputTape.Text
