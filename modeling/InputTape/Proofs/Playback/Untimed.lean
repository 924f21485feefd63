import InputTape.Proofs.Playback.History

/-! Playbacks without their timing.

A gap or the length of a delay says when something is done and never what. So all that an
instruction does, and where it leads, is the same once the times are struck out.
-/

set_option autoImplicit false

namespace InputTape

namespace Operation

def untimed : Operation → Operation
  | .delay _ => .delay 0
  | operation => operation

end Operation

namespace Instruction

/-- Without the gap, and without the length of a delay. -/
def untimed (instruction : Instruction) : Instruction :=
  { instruction with gap := 0, operation := instruction.operation.untimed }

@[simp] theorem targetName?_untimed (instruction : Instruction) :
    instruction.untimed.targetName? = instruction.targetName? := by
  obtain ⟨gap, _ | name, operation⟩ := instruction <;> cases operation <;> rfl

end Instruction

namespace Sequence

def untimed (sequence : Sequence) : Sequence := ⟨sequence.instructions.map Instruction.untimed⟩

@[simp] theorem size_untimed (sequence : Sequence) : sequence.untimed.size = sequence.size := by
  simp [untimed, size]

@[simp] theorem get?_untimed (sequence : Sequence) (index : Nat) :
    sequence.untimed.get? index = (sequence.get? index).map Instruction.untimed := by
  simp [untimed, get?]

end Sequence

def PlaybackError.untimed (error : PlaybackError) : PlaybackError :=
  { error with instruction := error.instruction.untimed }

namespace Playback

namespace Playhead

def untimed (playhead : Playhead) : Playhead :=
  { playhead with sequence := playhead.sequence.untimed }

section

variable (playhead : Playhead)

@[simp] theorem untimed_hasLoader : playhead.untimed.hasLoader = playhead.hasLoader := rfl

@[simp] theorem current?_untimed :
    playhead.untimed.current? = playhead.current?.map Instruction.untimed := by
  simp [current?, untimed]

@[simp] theorem advance?_untimed :
    playhead.untimed.advance? = playhead.advance?.map untimed := by
  unfold advance?
  simp only [untimed, Sequence.size_untimed]
  split <;> rfl

@[simp] theorem jump_untimed (index : Nat) :
    playhead.untimed.jump index = (playhead.jump index).map untimed := by
  unfold jump
  simp only [untimed, Sequence.size_untimed]
  split <;> rfl

@[simp] theorem find?_untimed (name : String) : playhead.untimed.find? name = playhead.find? name := by
  simp [find?, untimed, Sequence.untimed, Array.findIdx?_map, Function.comp_def]

@[simp] theorem resolve_untimed (path : FilePath) :
    playhead.untimed.resolve path = playhead.resolve path := rfl

@[simp] theorem load_untimed (path : FilePath) :
    playhead.untimed.load path = playhead.load path := rfl

end

section

variable {playhead head : Playhead}

theorem exists_of_map_eq {α β : Type} {f : α → β} {one two : Option α}
    (same : one.map f = two.map f) : (one = none ∧ two = none) ∨
      ∃ value other, one = some value ∧ two = some other ∧ f value = f other := by
  cases one <;> cases two <;> simp_all

theorem current?_alike (heads : playhead.untimed = head.untimed) :
    (playhead.current? = none ∧ head.current? = none) ∨ ∃ instruction again,
      playhead.current? = some instruction ∧ head.current? = some again ∧
        instruction.untimed = again.untimed := by
  apply exists_of_map_eq
  rw [← current?_untimed, heads, current?_untimed]

theorem advance?_alike (heads : playhead.untimed = head.untimed) :
    (playhead.advance? = none ∧ head.advance? = none) ∨ ∃ next again,
      playhead.advance? = some next ∧ head.advance? = some again ∧
        next.untimed = again.untimed := by
  apply exists_of_map_eq
  rw [← advance?_untimed, heads, advance?_untimed]

theorem jump_alike (heads : playhead.untimed = head.untimed) (index : Nat) :
    (∃ error, playhead.jump index = .error error ∧ head.jump index = .error error) ∨
      ∃ next again, playhead.jump index = .ok next ∧ head.jump index = .ok again ∧
        next.untimed = again.untimed := by
  have jumps : (playhead.jump index).map untimed = (head.jump index).map untimed := by
    rw [← jump_untimed, heads, jump_untimed]
  cases here : playhead.jump index <;> cases there : head.jump index <;>
    simp_all [Except.map]

end
end Playhead

section

variable (playhead : Playhead)

@[simp] theorem toName_untimed (name : String) :
    toName playhead.untimed name = toName playhead name := by
  simp [toName]

@[simp] theorem jumpDirective_untimed (name : Option String) (index : Option Nat) :
    jumpDirective playhead.untimed name index = jumpDirective playhead name index := by
  simp [jumpDirective]

@[simp] theorem branchDirective_untimed (holds : Bool) (target : BranchTarget) :
    branchDirective playhead.untimed holds target = branchDirective playhead holds target := by
  simp [branchDirective]

/-- What an instruction does has nothing to do with any gap or delay. -/
theorem execute_untimed (operation : Operation) :
    execute playhead.untimed operation.untimed = execute playhead operation := by
  cases operation <;> simp [execute, Operation.untimed]

end

def Tally.untimed (tally : Tally) : Tally := { tally with samples := #[], maxLateness := 0 }

theorem Tally.untimed_eq {tally other : Tally} : tally.untimed = other.untimed ↔
    tally.executed = other.executed ∧ tally.transfers = other.transfers := by
  simp [untimed]

def State.untimed (state : State) : State := ⟨state.playhead.untimed, 0, state.tally.untimed⟩

def Report.untimed (report : Report) : Report := { report with tally := report.tally.untimed }

def Dispatch.untimed (dispatch : Dispatch) : Dispatch :=
  ⟨dispatch.instruction.untimed, 0, dispatch.directive, dispatch.tally.untimed⟩

def Arrival.untimed : Arrival → Arrival
  | .ended report => .ended report.untimed
  | .dispatched dispatch => .dispatched dispatch.untimed

def Progress.untimed : Progress → Progress
  | .playing state => .playing state.untimed
  | .ended report => .ended report.untimed

def struck {α : Type} (untimed : α → α) : Except PlaybackError α → Except PlaybackError α
  | .ok value => .ok (untimed value)
  | .error error => .error error.untimed

end Playback
end InputTape
