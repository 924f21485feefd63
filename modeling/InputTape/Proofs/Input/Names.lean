import InputTape.Input.Key
import InputTape.Input.Mouse
import InputTape.Script.Token

/-! What a name stands for is what is spelled like it, in any letter case. -/

set_option autoImplicit false

namespace InputTape

variable {name : String}

/-- If no earlier value is spelled like this one, its spelling finds it and nothing else does. -/
theorem find?_spelling {α : Type} {all : List α} (spelling : α → String) {value : α}
    (own : all.find? (spelling · == spelling value) = some value) :
    all.find? (spelling · == name) = some value ↔ spelling value = name := by
  constructor
  · intro found
    simpa using List.find?_some found
  · rintro rfl
    exact own

theorem MouseAction.ofName?_eq_some {action : MouseAction} :
    MouseAction.ofName? name = some action ↔ action.name.toLower = name.toLower := by
  refine find?_spelling (fun action : MouseAction => action.name.toLower) ?_
  cases action <;> decide +kernel

theorem KeyAction.ofName?_eq_some {action : KeyAction} :
    KeyAction.ofName? name = some action ↔ action.name.toLower = name.toLower := by
  refine find?_spelling (fun action : KeyAction => action.name.toLower) ?_
  cases action <;> decide +kernel

theorem Script.Keyword.ofWord?_eq_some {keyword : Script.Keyword} :
    Script.Keyword.ofWord? name = some keyword ↔ keyword.spelling = name.toLower := by
  refine find?_spelling Keyword.spelling ?_
  cases keyword <;> decide +kernel

theorem Script.Keyword.ofWord?_eq_none :
    Script.Keyword.ofWord? name = none ↔
      ∀ keyword : Script.Keyword, keyword.spelling ≠ name.toLower := by
  simp only [Option.eq_none_iff_forall_ne_some, ne_eq, ofWord?_eq_some]

/-- No two rows share a spelling, so the first that is found is the only one. -/
theorem KeyCode.ofName?_eq_some {key : KeyCode} : KeyCode.ofName? name = some key ↔
    ∃ row ∈ keySpellings, row.spelling = name.toLower ∧ key = ⟨row.code⟩ := by
  have own : ∀ row ∈ keySpellings,
      (keySpellings.find? (·.spelling == row.spelling)).map (·.code) = some row.code := by
    decide +kernel
  constructor
  · intro named
    obtain ⟨row, found, rfl⟩ := Option.map_eq_some_iff.mp named
    have spells : row.spelling = name.toLower := by simpa using List.find?_some found
    exact ⟨row, List.mem_of_find?_eq_some found, spells, rfl⟩
  · rintro ⟨row, member, spells, rfl⟩
    obtain ⟨other, found, same⟩ := Option.map_eq_some_iff.mp (own row member)
    rw [KeyCode.ofName?, ← spells, found, Option.map_some, same]

end InputTape
