import InputTape.Playback.Execution
import InputTape.Proofs.Script.Drafting
import InputTape.Proofs.Script.HiddenLabels

/-! Where the names in a compiled sequence lead.

Names are looked up anew whenever a jump or a branch is fired. In a sequence that realizes a
layout a name finds the one label that is the same in lower case.
-/

set_option autoImplicit false

namespace InputTape.Script

open Playback (Playhead Directive nonBlank? toName jumpDirective branchDirective execute)
open Text (IsWord)

theorem targetName?_unaimed (instruction : Instruction) :
    (unaimed instruction).targetName? = instruction.targetName? := by
  obtain ⟨gap, _ | name, operation⟩ := instruction <;> cases operation <;> rfl

theorem targetName?_plain {operation : Operation} {name : String} :
    (Instruction.plain operation).targetName? = some name ↔ operation = .label name := by
  cases operation <;> simp [Instruction.plain, Instruction.targetName?]

namespace Realizes

variable {sequence : Sequence} {operations : List Operation}

theorem size (realizes : Realizes sequence operations) : sequence.size = operations.length := by
  have lengths := congrArg List.length realizes
  rwa [List.length_map, List.length_map, Array.length_toList] at lengths

theorem get? (realizes : Realizes sequence operations) {index : Nat} {operation : Operation}
    (there : operations[index]? = some operation) :
    ∃ instruction, sequence.get? index = some instruction ∧
      unaimed instruction = .plain operation := by
  have entries := congrArg (·[index]?) realizes
  simp only [List.getElem?_map, there, Option.map_some, Option.map_eq_some_iff] at entries
  obtain ⟨instruction, found, same⟩ := entries
  exact ⟨instruction, by rwa [Array.getElem?_toList] at found, same⟩

theorem operation (realizes : Realizes sequence operations) {index : Nat}
    {instruction : Instruction} (found : sequence.get? index = some instruction) :
    ∃ operation, operations[index]? = some operation ∧ unaimed instruction = .plain operation := by
  obtain ⟨inside, -⟩ := Array.getElem?_eq_some_iff.mp found
  have bound : index < operations.length := realizes.size ▸ inside
  obtain ⟨other, again, same⟩ := realizes.get? (List.getElem?_eq_getElem bound)
  rw [found, Option.some.injEq] at again
  subst again
  exact ⟨_, List.getElem?_eq_getElem bound, same⟩

end Realizes

section

variable {statements : List Statement} {operations : List Operation} {sequence : Sequence}
  {playhead : Playhead} {name other : String} {index : Nat}

theorem find?_label (laid : LaidOut statements operations) (realizes : Realizes sequence operations)
    (same : playhead.sequence = sequence) (isWord : IsWord name)
    (marks : operations[index]? = some (.label other))
    (lower : Text.lower other = Text.lower name) : playhead.find? name = some index := by
  obtain ⟨instruction, found, unaims⟩ := realizes.get? marks
  obtain ⟨inside, here⟩ := Array.getElem?_eq_some_iff.mp found
  unfold Playhead.find?
  simp only [Text.trim_of_isWord isWord, Text.not_isEmpty_of_isWord isWord, Bool.false_eq_true,
    if_false, same]
  rw [Array.findIdx?_eq_some_iff_getElem]
  refine ⟨inside, ?_, ?_⟩
  · rw [here, ← targetName?_unaimed, unaims, targetName?_plain.mpr rfl]
    simp only [Option.any_some, beq_iff_eq]
    exact lower
  -- An earlier instruction with the name would be a second label of it.
  · intro earlier before hit
    rw [← targetName?_unaimed, Option.any_eq_true] at hit
    obtain ⟨found, named, again⟩ := hit
    obtain ⟨operation, there, same⟩ := realizes.operation (Array.getElem?_eq_getElem _)
    rw [same, targetName?_plain] at named
    subst named
    have lowers := (beq_iff_eq.mp again).trans lower.symm
    exact absurd (laid.distinct there marks lowers) (Nat.ne_of_lt before)

theorem nonBlank?_of_isWord (isWord : IsWord name) : nonBlank? (some name) = some name := by
  unfold nonBlank?
  simp only [Option.filter, Text.trim_of_isWord isWord, Text.not_isEmpty_of_isWord isWord,
    Bool.not_false, if_true]

def JumpsToWord : Operation → Prop
  | .jump name _ => ∃ word, name = some word ∧ IsWord word
  | _ => True

/-- Places that jumps were given do not count where they have names. -/
theorem execute_unaimed {instruction : Instruction} {operation : Operation}
    (same : unaimed instruction = .plain operation)
    (named : JumpsToWord operation) :
    execute playhead instruction.operation = execute playhead operation := by
  obtain ⟨gap, own, performed⟩ := instruction
  cases performed with
  | jump target place =>
    cases same
    obtain ⟨name, rfl, isWord⟩ := named
    simp only [execute, jumpDirective, nonBlank?_of_isWord isWord]
  | _ =>
    cases same
    rfl

end
end InputTape.Script
