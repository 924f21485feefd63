import InputTape.Script.Line

/-! Where tokens come from.

Every token of a text was read somewhere in it, so what holds of whatever is read holds of the
tokens.
-/

set_option autoImplicit false

namespace InputTape.Script

theorem read_of_mem_lexemes {text : List Char} {lexeme : Lexeme} (member : lexeme ∈ lexemes text) :
    ∃ first rest, (readFrom first rest).1 = lexeme.reading := by
  induction text using lexemes.induct with
  | case1 => simp [lexemes] at member
  | case2 first rest reading count h ih =>
    rw [lexemes, h] at member
    rcases List.mem_cons.mp member with rfl | member
    · exact ⟨first, rest, by rw [h]⟩
    · exact ih member

theorem lexeme_of_mem_placeFrom {position : Position} {found : List Lexeme} {token : Token}
    (member : .token token ∈ placeFrom position found) :
    ∃ lexeme ∈ found, lexeme.reading = .token token.kind token.text.toList := by
  induction found generalizing position with
  | nil => simp [placeFrom] at member
  | cons lexeme more ih =>
    rw [placeFrom] at member
    rcases List.mem_cons.mp member with here | member
    · refine ⟨lexeme, List.mem_cons_self, ?_⟩
      split at here
      · next kind text reading =>
        simp only [Item.token.injEq] at here
        subst here
        simp only [reading, String.toList_ofList]
      · cases here
    · obtain ⟨other, later, reading⟩ := ih member
      exact ⟨other, List.mem_cons_of_mem _ later, reading⟩

theorem read_of_mem_items {text : String} {token : Token} (member : .token token ∈ items text) :
    ∃ first rest, (readFrom first rest).1 = .token token.kind token.text.toList := by
  obtain ⟨lexeme, found, reading⟩ := lexeme_of_mem_placeFrom member
  obtain ⟨first, rest, read⟩ := read_of_mem_lexemes found
  exact ⟨first, rest, read.trans reading⟩

end InputTape.Script
