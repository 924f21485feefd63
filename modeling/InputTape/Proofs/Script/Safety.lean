import InputTape.Proofs.Script.Refinement

/-! A compiled script never goes wrong in its flow.

Every step of its playback is followed by the machine, which knows no indices and no files. So no
jump misses its target, no file is asked for, and no transfer is counted, whatever the answers.
-/

set_option autoImplicit false

namespace InputTape.Script

open Interaction (Always)
open Playback (Attempt Request ExecutionError State Options Report Tally Progress BrokenOff Lands
  acts_perform acts_runLines acts_test always_work playFrom play)
open Machine (Trouble go)

/-- A playback that has not failed in its flow, and has made no transfer. -/
inductive FlowsWell : Except PlaybackError (Option Report) → Prop where
  | unfinished : FlowsWell (.ok none)
  | finished {report : Report} : report.tally.transfers = 0 → FlowsWell (.ok (some report))
  | failed {index : Nat} {instruction : Instruction} {error : ExecutionError} :
      FlowsWell (.error ⟨index, instruction, .execution error⟩)

def NoLoad (request : Request) : Prop := request.IsCall → request.IsAction

theorem acts_go (way : Option Nat) : (go way).run.Always Request.IsAction (fun _ => True) := by
  cases way <;> exact trivial

theorem acts_step (statements : List Statement) (place : Nat) (statement : Statement) :
    (Machine.step statements place statement).run.Always Request.IsAction (fun _ => True) := by
  cases statement with
  | delay | label | endIf | exit => exact trivial
  | mouse => exact always_work (acts_perform _) fun _ => trivial
  | key => exact always_work (acts_perform _) fun _ => trivial
  | script => exact always_work (acts_runLines 1 _) fun _ => trivial
  | ifBlock condition negated =>
    refine always_work (acts_test condition) fun holds => ?_
    cases holds != negated with
    | true => exact trivial
    | false => exact acts_go _
  | whileBlock condition negated =>
    refine always_work (acts_test condition) fun holds => ?_
    cases holds != negated with
    | true => exact trivial
    | false => exact acts_go _
  | elseBlock | endWhile | leave | goto => exact acts_go _

section

variable {statements : List Statement} {operations : List Operation} {sequence : Sequence}
  (laid : LaidOut statements operations) (realizes : Realizes sequence operations)

include laid realizes

theorem flowsWell_playFrom (options : Options) (steps : Nat) {state : State} {place : Nat}
    (same : state.playhead.sequence = sequence) (counted : state.tally.transfers = 0)
    (meets : Meets statements operations state.playhead.index place) :
    (playFrom options steps state).run.Always NoLoad FlowsWell := by
  induction steps generalizing state place with
  | zero => exact .unfinished
  | succ steps ih =>
    -- Wherever a step ends, no transfer was counted and the machine is met again.
    have behind : ∀ {good : Nat → Nat → Prop} {result},
        (∀ index place, good index place → Meets statements operations index place) →
        (BrokenOff state result ∨ ∃ move, Lands state good result move) →
        (resume options steps result).Always NoLoad FlowsWell := by
      intro good result met ends
      rcases ends with broken | ⟨move, lands⟩
      · cases broken with
        | cancelled none => exact .finished (none.trans counted)
        | tooLong => exact .failed
      · cases lands with
        | playing kept _ none reached =>
          exact ih (kept.trans same) (none.trans counted) (met _ _ reached)
        | completed none => exact .finished (none.trans counted)
        | stopped none => exact .finished (none.trans counted)
        | failed => exact .failed
    rw [playFrom_succ]
    rcases follows_or_stays laid realizes same options meets with stays | ⟨statement, -, moves⟩
    · have quiet : (Interaction.done (.ok (some place)) : Interaction Request Request.Answer
          (Except Trouble (Option Nat))).Always Request.IsAction (fun _ => True) := trivial
      exact (stays.always quiet).bind fun _ => behind fun _ _ => And.right
    · exact (moves.always (acts_step statements place statement)).bind fun _ =>
        behind fun _ _ => id

end

theorem flowsWell_play {text : String} {sequence : Sequence}
    (compiled : compile text = .ok sequence) (options : Options) (hasLoader : Bool) (steps : Nat) :
    (play options hasLoader steps sequence).run.Always NoLoad FlowsWell := by
  obtain ⟨operations, laid, realizes⟩ := compile_ok compiled
  obtain ⟨next, layout⟩ := laid.layout
  have meets : Meets (statements text) operations 0 0 := meets_cut (Cut.atStart layout)
  unfold play Playback.note
  refine ⟨id, fun _ => ⟨id, fun now => ?_⟩⟩
  change (ExceptT.run (playFrom _ _ _ >>= _)).Always _ _
  rw [Playback.run_bind]
  refine (flowsWell_playFrom laid realizes options steps rfl rfl meets).bind fun result well => ?_
  cases well with
  | unfinished => exact .unfinished
  | finished none => exact ⟨id, fun _ => .finished none⟩
  | failed => exact .failed

/-- Whatever the surroundings answer, the playback of a compiled script does not fail for where it
is led, asks for no file, and reports no transfer. -/
theorem play_compiled_safe {text : String} {sequence : Sequence}
    (compiled : compile text = .ok sequence) (options : Options) (hasLoader : Bool) (steps : Nat)
    {σ : Type} (answer : (request : Request) → σ → request.Answer × σ) (state : σ) :
    (∀ index instruction error, ((play options hasLoader steps sequence).run.run answer state).1 ≠
      .error ⟨index, instruction, .flow error⟩) ∧
    (∀ exchange ∈ (play options hasLoader steps sequence).run.transcript answer state,
      ∀ path, exchange.request ≠ .load path) ∧
    ∀ report, ((play options hasLoader steps sequence).run.run answer state).1 = .ok (some report) →
      report.tally.transfers = 0 := by
  have always := flowsWell_play compiled options hasLoader steps
  have well := always.run answer state
  refine ⟨fun index instruction error failed => ?_, fun exchange member path load => ?_,
    fun report ended => ?_⟩
  · rw [failed] at well
    cases well
  · have noLoad := always.transcript answer state exchange member
    rw [load] at noLoad
    exact noLoad trivial
  · rw [ended] at well
    cases well with
    | finished none => exact none

theorem play_compiled_safe_loop : compile loopText = .ok loopSequence ∧
    ∀ report, ((play ⟨1, false, 0⟩ true 9 loopSequence).run.run counting.answer (0, ())).1 =
      .ok (some report) → report.tally.transfers = 0 :=
  ⟨compile_loopText,
    (play_compiled_safe compile_loopText ⟨1, false, 0⟩ true 9 counting.answer (0, ())).2.2⟩

end InputTape.Script
