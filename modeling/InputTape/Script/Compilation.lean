import InputTape.Script.Draft

/-! From script text to a sequence.

Lines are read and laid out one after the other, and the first problem ends it. Every problem is
reported on the line of the statement that has it.
-/

set_option autoImplicit false

namespace InputTape.Script

/-- Read a line and lay out its statement. Nothing may stand behind a statement. -/
def Draft.addLine (draft : Draft) (number : Nat) (line : Line) : Except CompileError Draft :=
  let result : Except Problem Draft := do
    match ← statement?.run line with
    | (none, _) => return draft
    | (some statement, rest) =>
      let longer ← draft.add number statement
      discard <| LineReader.finish.run rest
      return longer
  result.mapError (⟨·, number⟩)

def Draft.addLines (draft : Draft) (number : Nat) : List Line → Except CompileError Draft
  | [] => .ok draft
  | line :: more => do (← draft.addLine number line).addLines (number + 1) more

def compile (text : String) : Except CompileError Sequence := do
  (← Draft.empty.addLines 1 (lines text)).finish

end InputTape.Script
