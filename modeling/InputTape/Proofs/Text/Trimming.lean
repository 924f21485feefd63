import InputTape.Text.Blank
import InputTape.Text.LowerCase

/-! Blanks around a text, in lower case.

Lower case makes no text shorter, and only one letter makes it longer. So a text that stands between
blanks is not the same in lower case without them.
-/

set_option autoImplicit false

namespace InputTape.Text

theorem length_lowerFrom (before text : List Char) :
    (lowerFrom before text).length = text.length + text.count 'İ' := by
  induction text generalizing before with
  | nil => rfl
  | cons first rest ih =>
    rw [lowerFrom, List.length_append, ih]
    by_cases dotted : first = 'İ'
    · subst dotted
      have two : (lowerIn before 'İ' rest).length = 2 := rfl
      rw [two, List.count_cons_self, List.length_cons]
      omega
    · have one : (lowerIn before first rest).length = 1 := by
        simp [lowerIn, dotted, apply_ite List.length]
      rw [one, List.count_cons_of_ne dotted, List.length_cons]
      omega

theorem length_lower (text : String) :
    (lower text).toList.length = text.toList.length + text.toList.count 'İ' := by
  rw [lower, String.toList_ofList, length_lowerFrom]

theorem exists_around (text : String) :
    ∃ front back, text.toList = front ++ (trim text).toList ++ back := by
  refine ⟨text.toList.takeWhile isBlank,
    ((text.toList.dropWhile isBlank).reverse.takeWhile isBlank).reverse, ?_⟩
  rw [trim, String.toList_ofList, List.append_assoc, ← List.reverse_append,
    List.takeWhile_append_dropWhile, List.reverse_reverse, List.takeWhile_append_dropWhile]

/-- A text is the same in lower case without the blanks around it only if there are none. -/
theorem trim_of_lower_trim {text : String} (same : lower (trim text) = lower text) :
    trim text = text := by
  obtain ⟨front, back, around⟩ := exists_around text
  have lengths := congrArg (·.toList.length) same
  simp only [length_lower, around, List.length_append, List.count_append] at lengths
  have noFront : front = [] := List.length_eq_zero_iff.mp (by omega)
  have noBack : back = [] := List.length_eq_zero_iff.mp (by omega)
  rw [noFront, noBack, List.nil_append, List.append_nil] at around
  exact String.toList_injective around.symm

end InputTape.Text
