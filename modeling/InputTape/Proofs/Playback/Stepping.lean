import InputTape.Proofs.Playback.Counting
import InputTape.Proofs.Script.Machine

/-! A step of a playback beside what its instruction does.

A step waits, looks at the clock and takes notes around its instruction, and none of that is a
call. So what the instruction is followed by decides what the step is followed by, unless the step
is broken off.
-/

set_option autoImplicit false

namespace InputTape.Playback

open Interaction (Follows Always)
open Script.Machine (Trouble)

section

variable (state : State) (good : Nat → Nat → Prop)

/-- A step that was cancelled, or had to wait for a time that cannot be told. -/
inductive BrokenOff : Except PlaybackError Progress → Prop where
  | cancelled {tally : Tally} : tally.transfers = state.tally.transfers →
      BrokenOff (.ok (.ended ⟨.cancelled, tally⟩))
  | tooLong {index : Nat} {instruction : Instruction} {milliseconds : Float} :
      BrokenOff (.error ⟨index, instruction, .execution (.delayTooLong milliseconds)⟩)

inductive Leads : Except Failure Directive → Except Trouble (Option Nat) → Prop where
  | next {place : Nat} : good (state.playhead.index + 1) place →
      Leads (.ok .next) (.ok (some place))
  | jump {index place : Nat} : index < state.playhead.sequence.size → good index place →
      Leads (.ok (.jump index)) (.ok (some place))
  | stop : Leads (.ok .stop) (.ok none)
  | failed {error : ExecutionError} : Leads (.error (.execution error)) (.error (.failed error))

/-- A step ends at an index that is good for where the machine goes, in the same sequence. Behind
the last instruction the playback is over. -/
inductive Lands : Except PlaybackError Progress → Except Trouble (Option Nat) → Prop where
  | playing {next : State} {place : Nat} :
      next.playhead.sequence = state.playhead.sequence →
      next.playhead.index < state.playhead.sequence.size →
      next.tally.transfers = state.tally.transfers → good next.playhead.index place →
      Lands (.ok (.playing next)) (.ok (some place))
  | completed {tally : Tally} {place : Nat} : tally.transfers = state.tally.transfers →
      good state.playhead.sequence.size place →
      Lands (.ok (.ended ⟨.completed, tally⟩)) (.ok (some place))
  | stopped {tally : Tally} : tally.transfers = state.tally.transfers →
      Lands (.ok (.ended ⟨.stopped, tally⟩)) (.ok none)
  | failed {index : Nat} {instruction : Instruction} {error : ExecutionError} :
      Lands (.error ⟨index, instruction, .execution error⟩) (.error (.failed error))

end

section

variable {options : Options} {state : State} {instruction : Instruction}
  {good : Nat → Nat → Prop}

theorem follows_schedule {time : Time} {milliseconds : Float} {next : Time → Play Progress}
    {right : Interaction Request Request.Answer (Except Trouble (Option Nat))}
    (rest : ∀ later, Follows Request.IsCall (BrokenOff state) (Lands state good) (next later).run
      right) :
    Follows Request.IsCall (BrokenOff state) (Lands state good)
      (schedule options state instruction time milliseconds >>= next).run right := by
  unfold schedule
  cases options.after? time milliseconds with
  | none => exact .early .tooLong
  | some later => exact rest later

theorem follows_goOn {deadline : Time} {tally : Tally} {place : Nat}
    (inside : state.playhead.index < state.playhead.sequence.size)
    (counted : tally.transfers = state.tally.transfers)
    (next : good (state.playhead.index + 1) place) :
    Follows Request.IsCall (BrokenOff state) (Lands state good)
      (goOn options state instruction deadline tally).run (.done (.ok (some place))) := by
  unfold goOn
  refine follows_schedule fun later => ?_
  unfold Playhead.advance?
  split
  · next playhead advanced =>
    split at advanced
    · next bound =>
      cases advanced
      exact .done (.playing rfl bound counted next)
    · cases advanced
  · next stays =>
    split at stays
    · cases stays
    -- Behind the last instruction its delay is waited for, and then the playback is over.
    · next ended =>
      have last : state.playhead.index + 1 = state.playhead.sequence.size := by omega
      rw [last] at next
      split
      · refine .alone id fun outcome => ?_
        cases outcome with
        | reached => exact .done (.completed counted next)
        | cancelled => exact .early (.cancelled counted)
      · exact .done (.completed counted next)

theorem follows_goTo {index : Nat} {tally : Tally} {place : Nat}
    (inside : index < state.playhead.sequence.size)
    (counted : tally.transfers = state.tally.transfers) (next : good index place) :
    Follows Request.IsCall (BrokenOff state) (Lands state good)
      (goTo state instruction index tally).run (.done (.ok (some place))) := by
  unfold goTo Playhead.jump
  rw [if_pos inside]
  exact .alone id fun now => .done (.playing rfl inside counted next)

theorem follows_fire {attempt : Attempt Trouble (Option Nat)} {deadline : Time}
    (inside : state.playhead.index < state.playhead.sequence.size)
    (follows : Follows Request.IsCall (fun _ => False) (Leads state good)
      (execute state.playhead instruction.operation).run attempt.run) :
    Follows Request.IsCall (BrokenOff state) (Lands state good)
      (fire options state instruction deadline).run attempt.run := by
  unfold fire
  -- What is recorded of firing makes no calls; then both do what the instruction says.
  rw [run_bind]
  refine Follows.after_quiet (always_recordFiring options state deadline) ?_
  rintro _ ⟨tally, rfl, -, counted⟩
  refine .alone id fun _ => ?_
  change Follows _ _ _ (ExceptT.run (blaming _ _ >>= _)) _
  rw [run_bind, run_blaming, Interaction.bind_assoc, ← Interaction.bind_done attempt.run]
  refine follows.bind ?_ fun _ _ => False.elim
  intro result other leads
  cases leads with
  | next next => exact follows_goOn inside counted next
  | jump bound next => exact follows_goTo bound counted next
  | stop => exact .done (.stopped counted)
  | failed => exact .done .failed

/-- A step is followed by whatever its instruction is followed by. -/
theorem follows_step {attempt : Attempt Trouble (Option Nat)}
    (current : state.playhead.current? = some instruction)
    (follows : Follows Request.IsCall (fun _ => False) (Leads state good)
      (execute state.playhead instruction.operation).run attempt.run) :
    Follows Request.IsCall (BrokenOff state) (Lands state good) (step options state).run
      attempt.run := by
  obtain ⟨inside, -⟩ := Array.getElem?_eq_some_iff.mp current
  unfold step
  rw [run_ask_bind]
  refine .alone id fun isCancelled => ?_
  cases isCancelled with
  | true => exact .early (.cancelled rfl)
  | false =>
    rw [if_neg Bool.false_ne_true, current]
    refine follows_schedule fun deadline => .alone id fun outcome => ?_
    cases outcome with
    | cancelled => exact .early (.cancelled rfl)
    | reached => exact follows_fire inside follows

theorem follows_end {place : Nat} (ended : state.playhead.current? = none)
    (ends : good state.playhead.sequence.size place) :
    Follows Request.IsCall (BrokenOff state) (Lands state good) (step options state).run
      (.done (.ok (some place))) := by
  unfold step
  rw [run_ask_bind]
  refine .alone id fun isCancelled => ?_
  cases isCancelled with
  | true => exact .early (.cancelled rfl)
  | false =>
    rw [if_neg Bool.false_ne_true, ended]
    exact .done (.completed rfl ends)

end
end InputTape.Playback
