import InputTape.Proofs.Playback.History

/-! What a round can be.

`Approaches` lists all that can be asked and answered on the way to an instruction, with what that
comes to, and `Concludes` all that can be behind it. What is done in between is whatever the
instruction does.
-/

set_option autoImplicit false

namespace InputTape.Playback

open Interaction (Traces Exchange traces_ask traces_bind traces_done)

def delay? (instruction : Instruction) : Option Float :=
  match instruction.operation with
  | .delay milliseconds => some milliseconds
  | _ => none

section

variable (options : Options) (state : State)

def remark (level : Journal.Level) (text : String) : Exchange Request Request.Answer :=
  ⟨.note ⟨level, text⟩, ()⟩

def remarks (instruction : Instruction) (deadline now : Time) :
    List (Exchange Request Request.Answer) :=
  let sample : Sample := ⟨state.playhead.index, deadline, now⟩
  let index := toString sample.index
  remark .trace ("[" ++ index ++ "] fired " ++ sample.lateness.text ++ " late") ::
    ((if options.latenessWarning < sample.lateness then
        [remark .warn ("instruction " ++ index ++ " fired " ++ sample.lateness.text ++ " late")]
      else []) ++ [remark .debug ("[" ++ index ++ "] " ++ instruction.text)])

def leadIn (instruction : Instruction) (deadline now : Time) :
    List (Exchange Request Request.Answer) :=
  ⟨.isCancelled, false⟩ :: ⟨.wait deadline, .reached⟩ :: ⟨.clock, now⟩ ::
    remarks options state instruction deadline now

def counted (deadline now : Time) : Tally :=
  let tally := state.tally.record options.captureTiming ⟨state.playhead.index, deadline, now⟩
  { tally with executed := tally.executed + 1 }

/-- What can be asked on the way to an instruction and by it, and what that comes to. -/
inductive Approaches : List (Exchange Request Request.Answer) → Except PlaybackError Arrival → Prop
    where
  | cancelled : Approaches [⟨.isCancelled, true⟩] (.ok (.ended ⟨.cancelled, state.tally⟩))
  | completed : state.playhead.current? = none →
      Approaches [⟨.isCancelled, false⟩] (.ok (.ended ⟨.completed, state.tally⟩))
  | tooLong {instruction : Instruction} : state.playhead.current? = some instruction →
      options.after? state.scheduled instruction.gap = none →
      Approaches [⟨.isCancelled, false⟩]
        (.error (blame state instruction (.execution (.delayTooLong instruction.gap))))
  | interrupted {instruction : Instruction} {deadline : Time} :
      state.playhead.current? = some instruction →
      options.after? state.scheduled instruction.gap = some deadline →
      Approaches [⟨.isCancelled, false⟩, ⟨.wait deadline, .cancelled⟩]
        (.ok (.ended ⟨.cancelled, state.tally⟩))
  | failed {instruction : Instruction} {deadline now : Time}
      {asked : List (Exchange Request Request.Answer)} {failure : Failure} :
      state.playhead.current? = some instruction →
      options.after? state.scheduled instruction.gap = some deadline →
      (execute state.playhead instruction.operation).run.Traces asked (.error failure) →
      Approaches (leadIn options state instruction deadline now ++ asked)
        (.error (blame state instruction failure))
  | dispatched {instruction : Instruction} {deadline now : Time}
      {asked : List (Exchange Request Request.Answer)} {directive : Directive} :
      state.playhead.current? = some instruction →
      options.after? state.scheduled instruction.gap = some deadline →
      (execute state.playhead instruction.operation).run.Traces asked (.ok directive) →
      Approaches (leadIn options state instruction deadline now ++ asked)
        (.ok (.dispatched ⟨instruction, deadline, directive,
          counted options state deadline now⟩))

/-- The time that is let pass behind an instruction, in milliseconds. -/
def pauseOf (instruction : Instruction) : Float := (delay? instruction).getD 0

/-- What can be asked behind an instruction that was done, and what that comes to. -/
inductive Concludes (dispatch : Dispatch) :
    List (Exchange Request Request.Answer) → Except PlaybackError Progress → Prop where
  | tooLong : dispatch.directive = .next →
      options.after? dispatch.deadline (pauseOf dispatch.instruction) = none →
      Concludes dispatch [] (.error (blame state dispatch.instruction
        (.execution (.delayTooLong (pauseOf dispatch.instruction)))))
  | next {later : Time} {playhead : Playhead} : dispatch.directive = .next →
      options.after? dispatch.deadline (pauseOf dispatch.instruction) = some later →
      state.playhead.advance? = some playhead →
      Concludes dispatch [] (.ok (.playing ⟨playhead, later, dispatch.tally⟩))
  | completed {later : Time} : dispatch.directive = .next →
      options.after? dispatch.deadline (pauseOf dispatch.instruction) = some later →
      state.playhead.advance? = none → ¬ dispatch.deadline < later →
      Concludes dispatch [] (.ok (.ended ⟨.completed, dispatch.tally⟩))
  | waited {later : Time} : dispatch.directive = .next →
      options.after? dispatch.deadline (pauseOf dispatch.instruction) = some later →
      state.playhead.advance? = none → dispatch.deadline < later →
      Concludes dispatch [⟨.wait later, .reached⟩] (.ok (.ended ⟨.completed, dispatch.tally⟩))
  | interrupted {later : Time} : dispatch.directive = .next →
      options.after? dispatch.deadline (pauseOf dispatch.instruction) = some later →
      state.playhead.advance? = none → dispatch.deadline < later →
      Concludes dispatch [⟨.wait later, .cancelled⟩] (.ok (.ended ⟨.cancelled, dispatch.tally⟩))
  | outside {index : Nat} {error : FlowError} : dispatch.directive = .jump index →
      state.playhead.jump index = .error error →
      Concludes dispatch [] (.error (blame state dispatch.instruction (.flow error)))
  | jumped {index : Nat} {playhead : Playhead} {now : Time} : dispatch.directive = .jump index →
      state.playhead.jump index = .ok playhead →
      Concludes dispatch [⟨.clock, now⟩] (.ok (.playing ⟨playhead, now, dispatch.tally⟩))
  | stopped : dispatch.directive = .stop →
      Concludes dispatch [] (.ok (.ended ⟨.stopped, dispatch.tally⟩))
  | noLoader {path : FilePath} : dispatch.directive = .transfer path →
      state.playhead.hasLoader = false →
      Concludes dispatch [] (.error (blame state dispatch.instruction (.flow (.noLoader path))))
  | notLoaded {path : FilePath} {error : SequenceError} : dispatch.directive = .transfer path →
      state.playhead.hasLoader = true →
      Concludes dispatch [⟨.load (state.playhead.resolve path), .error error⟩]
        (.error (blame state dispatch.instruction
          (.flow (.notLoaded (state.playhead.resolve path) error))))
  | transferred {path : FilePath} {sequence : Sequence} {now : Time} :
      dispatch.directive = .transfer path → state.playhead.hasLoader = true →
      Concludes dispatch [⟨.load (state.playhead.resolve path), .ok sequence⟩,
          remark .info ("transferring to " ++ state.playhead.resolve path ++ " ("
            ++ toString sequence.size ++ " instructions)"), ⟨.clock, now⟩]
        (.ok (.playing ⟨.start sequence (state.playhead.resolve path).parent?
          state.playhead.hasLoader, now,
          { dispatch.tally with transfers := dispatch.tally.transfers + 1 }⟩))

end

section

variable {options : Options} {state : State}

theorem quiet_leadIn (instruction : Instruction) (deadline now : Time) :
    ∀ exchange ∈ leadIn options state instruction deadline now, ¬ exchange.request.IsCall := by
  unfold leadIn remarks
  by_cases late : options.latenessWarning < Sample.lateness ⟨state.playhead.index, deadline, now⟩
  · simp [late, remark, Request.IsCall]
  · simp [late, remark, Request.IsCall]

theorem traces_ask_bind {ε α : Type} {request : Request} {next : request.Answer → Attempt ε α}
    {exchanges : List (Exchange Request Request.Answer)} {result : Except ε α} :
    (ask request >>= next).run.Traces exchanges result ↔ ∃ answer more,
      exchanges = ⟨request, answer⟩ :: more ∧ (next answer).run.Traces more result := by
  rw [run_ask_bind, traces_ask]

theorem traces_note {ε α : Type} {level : Journal.Level} {text : String} {next : Attempt ε α}
    {exchanges : List (Exchange Request Request.Answer)} {result : Except ε α} :
    (note level text >>= fun _ => next).run.Traces exchanges result ↔
      ∃ more, exchanges = remark level text :: more ∧ next.run.Traces more result := by
  unfold note
  rw [traces_ask_bind]
  exact ⟨fun ⟨_, rest⟩ => rest, fun rest => ⟨(), rest⟩⟩

theorem traces_blaming {ε δ α β : Type} {blame : δ → ε} {work : Attempt δ α} {next : α → Attempt ε β}
    {exchanges : List (Exchange Request Request.Answer)} {result : Except ε β} :
    (blaming blame work >>= next).run.Traces exchanges result ↔ ∃ front done back,
      exchanges = front ++ back ∧ work.run.Traces front done ∧
      match done with
      | .error error => back = [] ∧ result = .error (blame error)
      | .ok value => (next value).run.Traces back result := by
  rw [run_bind, run_blaming, Interaction.bind_assoc, traces_bind]
  constructor
  · rintro ⟨front, done, back, rfl, works, rest⟩
    refine ⟨front, done, back, rfl, works, ?_⟩
    cases done with
    | error error => exact traces_done.mp rest
    | ok value => exact rest
  · rintro ⟨front, done, back, rfl, works, rest⟩
    refine ⟨front, done, back, rfl, works, ?_⟩
    cases done with
    | error error => exact traces_done.mpr rest
    | ok value => exact rest

theorem traces_recordFiring {α : Type} {deadline : Time} {next : Tally → Play α}
    {exchanges : List (Exchange Request Request.Answer)} {result : Except PlaybackError α}
    (instruction : Instruction) :
    (recordFiring options state deadline >>= fun tally => do
        note .debug ("[" ++ toString state.playhead.index ++ "] " ++ instruction.text)
        next tally).run.Traces exchanges result ↔
      ∃ now more, exchanges =
          ⟨.clock, now⟩ :: remarks options state instruction deadline now ++ more ∧
        (next (state.tally.record options.captureTiming
          ⟨state.playhead.index, deadline, now⟩)).run.Traces more result := by
  unfold recordFiring remarks
  simp only [bind_assoc]
  rw [traces_ask_bind]
  apply exists_congr
  intro now
  simp only [traces_note]
  split
  · simp only [bind_assoc, pure_bind, traces_note]
    constructor
    · rintro ⟨_, rfl, _, rfl, _, rfl, more, rfl, rest⟩
      exact ⟨more, rfl, rest⟩
    · rintro ⟨more, rfl, rest⟩
      exact ⟨_, rfl, _, rfl, _, rfl, more, rfl, rest⟩
  · simp only [pure_bind, traces_note]
    constructor
    · rintro ⟨_, rfl, _, rfl, more, rfl, rest⟩
      exact ⟨more, rfl, rest⟩
    · rintro ⟨more, rfl, rest⟩
      exact ⟨_, rfl, _, rfl, more, rfl, rest⟩

theorem traces_carryOut {instruction : Instruction} {deadline : Time}
    {exchanges : List (Exchange Request Request.Answer)} {result : Except PlaybackError Arrival} :
    (carryOut options state instruction deadline).run.Traces exchanges result ↔
      ∃ now asked done, exchanges =
          ⟨.clock, now⟩ :: remarks options state instruction deadline now ++ asked ∧
        (execute state.playhead instruction.operation).run.Traces asked done ∧
        result = match done with
          | .error failure => .error (blame state instruction failure)
          | .ok directive => .ok (.dispatched ⟨instruction, deadline, directive,
              counted options state deadline now⟩) := by
  unfold carryOut
  rw [traces_recordFiring]
  apply exists_congr
  intro now
  simp only [traces_blaming]
  constructor
  · rintro ⟨_, rfl, asked, done, back, rfl, works, rest⟩
    cases done with
    | error failure =>
      obtain ⟨rfl, rfl⟩ := rest
      exact ⟨asked, _, by rw [List.append_nil], works, rfl⟩
    | ok directive =>
      obtain ⟨rfl, rfl⟩ := traces_done.mp rest
      exact ⟨asked, _, by rw [List.append_nil], works, rfl⟩
  · rintro ⟨asked, done, rfl, works, rfl⟩
    refine ⟨asked, rfl, asked, done, [], (List.append_nil asked).symm, works, ?_⟩
    cases done with
    | error failure => exact ⟨rfl, rfl⟩
    | ok directive => exact .done

theorem traces_schedule {α : Type} {instruction : Instruction} {time : Time} {milliseconds : Float}
    {next : Time → Play α} {exchanges : List (Exchange Request Request.Answer)}
    {result : Except PlaybackError α} :
    (schedule options state instruction time milliseconds >>= next).run.Traces exchanges result ↔
      match options.after? time milliseconds with
      | some later => (next later).run.Traces exchanges result
      | none => exchanges = [] ∧
          result = .error (blame state instruction (.execution (.delayTooLong milliseconds))) := by
  unfold schedule
  cases options.after? time milliseconds with
  | none => exact traces_done
  | some later => rfl

theorem traces_approach {near : List (Exchange Request Request.Answer)}
    {result : Except PlaybackError Arrival} :
    (approach options state).run.Traces near result ↔ Approaches options state near result := by
  unfold approach
  rw [traces_ask_bind]
  constructor
  · rintro ⟨isCancelled, more, rfl, rest⟩
    cases isCancelled with
    | true =>
      obtain ⟨rfl, rfl⟩ := traces_done.mp rest
      exact .cancelled
    | false =>
      rw [if_neg Bool.false_ne_true] at rest
      cases current : state.playhead.current? with
      | none =>
        rw [current] at rest
        obtain ⟨rfl, rfl⟩ := traces_done.mp rest
        exact .completed current
      | some instruction =>
        simp only [current, traces_schedule] at rest
        cases due : options.after? state.scheduled instruction.gap with
        | none =>
          rw [due] at rest
          obtain ⟨rfl, rfl⟩ := rest
          exact .tooLong current due
        | some deadline =>
          rw [due] at rest
          obtain ⟨outcome, _, rfl, waited⟩ := traces_ask_bind.mp rest
          cases outcome with
          | cancelled =>
            obtain ⟨rfl, rfl⟩ := traces_done.mp waited
            exact .interrupted current due
          | reached =>
            obtain ⟨now, asked, done, rfl, works, rfl⟩ := traces_carryOut.mp waited
            cases done with
            | error failure => exact .failed current due works
            | ok directive => exact .dispatched current due works
  · intro approaches
    cases approaches with
    | cancelled => exact ⟨true, [], rfl, .done⟩
    | completed current =>
      refine ⟨false, [], rfl, ?_⟩
      rw [if_neg Bool.false_ne_true, current]
      exact .done
    | tooLong current due =>
      refine ⟨false, [], rfl, ?_⟩
      simp only [Bool.false_eq_true, if_false, current, traces_schedule, due, and_self]
    | interrupted current due =>
      refine ⟨false, _, rfl, ?_⟩
      simp only [Bool.false_eq_true, if_false, current, traces_schedule, due]
      exact .ask .done
    | failed current due works =>
      refine ⟨false, _, rfl, ?_⟩
      simp only [Bool.false_eq_true, if_false, current, traces_schedule, due]
      exact .ask (traces_carryOut.mpr ⟨_, _, _, rfl, works, rfl⟩)
    | dispatched current due works =>
      refine ⟨false, _, rfl, ?_⟩
      simp only [Bool.false_eq_true, if_false, current, traces_schedule, due]
      exact .ask (traces_carryOut.mpr ⟨_, _, _, rfl, works, rfl⟩)

variable {dispatch : Dispatch} {far : List (Exchange Request Request.Answer)}
  {result : Except PlaybackError Progress}

theorem goOn_eq (options : Options) (state : State) (instruction : Instruction) (deadline : Time)
    (tally : Tally) : goOn options state instruction deadline tally = (do
      let later ← schedule options state instruction deadline ((delay? instruction).getD 0)
      match state.playhead.advance? with
      | some playhead => return .playing ⟨playhead, later, tally⟩
      | none =>
        if deadline < later then
          match ← ask (.wait later) with
          | .cancelled => return .ended ⟨.cancelled, tally⟩
          | .reached => return .ended ⟨.completed, tally⟩
        else return .ended ⟨.completed, tally⟩) := by
  obtain ⟨gap, name, operation⟩ := instruction
  cases operation <;> rfl

theorem traces_goOn {instruction : Instruction} {deadline : Time} {tally : Tally} :
    (goOn options state instruction deadline tally).run.Traces far result ↔
      match options.after? deadline (pauseOf instruction), state.playhead.advance? with
      | none, _ => far = [] ∧ result =
          .error (blame state instruction (.execution (.delayTooLong (pauseOf instruction))))
      | some later, some playhead => far = [] ∧ result = .ok (.playing ⟨playhead, later, tally⟩)
      | some later, none =>
        if deadline < later then
          far = [⟨.wait later, .cancelled⟩] ∧ result = .ok (.ended ⟨.cancelled, tally⟩) ∨
            far = [⟨.wait later, .reached⟩] ∧ result = .ok (.ended ⟨.completed, tally⟩)
        else far = [] ∧ result = .ok (.ended ⟨.completed, tally⟩) := by
  rw [goOn_eq, traces_schedule, ← pauseOf]
  cases options.after? deadline (pauseOf instruction) with
  | none => rfl
  | some later =>
    cases state.playhead.advance? with
    | some playhead => exact traces_done
    | none =>
      by_cases further : deadline < later
      · simp only [further, if_true]
        constructor
        · intro traces
          obtain ⟨outcome, _, rfl, waited⟩ := traces_ask_bind.mp traces
          cases outcome with
          | cancelled =>
            obtain ⟨rfl, rfl⟩ := traces_done.mp waited
            exact .inl ⟨rfl, rfl⟩
          | reached =>
            obtain ⟨rfl, rfl⟩ := traces_done.mp waited
            exact .inr ⟨rfl, rfl⟩
        · rintro (⟨rfl, rfl⟩ | ⟨rfl, rfl⟩) <;> exact .ask .done
      · simp only [further, if_false]
        exact traces_done

theorem concludes_goOn (leads : dispatch.directive = .next)
    (traces : (goOn options state dispatch.instruction dispatch.deadline dispatch.tally).run.Traces
      far result) : Concludes options state dispatch far result := by
  rw [traces_goOn] at traces
  cases moved : options.after? dispatch.deadline (pauseOf dispatch.instruction) with
  | none =>
    rw [moved] at traces
    obtain ⟨rfl, rfl⟩ := traces
    exact .tooLong leads moved
  | some later =>
    cases advanced : state.playhead.advance? with
    | some playhead =>
      rw [moved, advanced] at traces
      obtain ⟨rfl, rfl⟩ := traces
      exact .next leads moved advanced
    | none =>
      simp only [moved, advanced] at traces
      split at traces
      · next further =>
        rcases traces with ⟨rfl, rfl⟩ | ⟨rfl, rfl⟩
        · exact .interrupted leads moved advanced further
        · exact .waited leads moved advanced further
      · next further =>
        obtain ⟨rfl, rfl⟩ := traces
        exact .completed leads moved advanced further

theorem concludes_goTo {index : Nat} (leads : dispatch.directive = .jump index)
    (traces : (goTo state dispatch.instruction index dispatch.tally).run.Traces far result) :
    Concludes options state dispatch far result := by
  unfold goTo at traces
  cases jumped : state.playhead.jump index with
  | error error =>
    rw [jumped] at traces
    obtain ⟨rfl, rfl⟩ := traces_done.mp traces
    exact .outside leads jumped
  | ok playhead =>
    rw [jumped] at traces
    obtain ⟨now, _, rfl, rest⟩ := traces_ask_bind.mp traces
    obtain ⟨rfl, rfl⟩ := traces_done.mp rest
    exact .jumped leads jumped

theorem concludes_transferTo {path : FilePath} (leads : dispatch.directive = .transfer path)
    (traces : (transferTo state dispatch.instruction path dispatch.tally).run.Traces far result) :
    Concludes options state dispatch far result := by
  unfold transferTo at traces
  obtain ⟨front, done, back, rfl, loads, rest⟩ := traces_blaming.mp traces
  unfold Playhead.load at loads
  cases loader : state.playhead.hasLoader with
  | false =>
    rw [loader] at loads
    obtain ⟨rfl, rfl⟩ := traces_done.mp loads
    obtain ⟨rfl, rfl⟩ := rest
    exact .noLoader leads loader
  | true =>
    rw [loader] at loads
    obtain ⟨loaded, _, rfl, settled⟩ := traces_ask_bind.mp loads
    obtain ⟨rfl, rfl⟩ := traces_done.mp settled
    cases loaded with
    | error error =>
      obtain ⟨rfl, rfl⟩ := rest
      exact .notLoaded leads loader
    | ok sequence =>
      obtain ⟨_, rfl, started⟩ := traces_note.mp rest
      obtain ⟨now, _, rfl, ends⟩ := traces_ask_bind.mp started
      obtain ⟨rfl, rfl⟩ := traces_done.mp ends
      exact .transferred leads loader

theorem traces_conclude :
    (conclude options state dispatch).run.Traces far result ↔
      Concludes options state dispatch far result := by
  unfold conclude
  constructor
  · intro traces
    cases leads : dispatch.directive with
    | next =>
      rw [leads] at traces
      exact concludes_goOn leads traces
    | jump index =>
      rw [leads] at traces
      exact concludes_goTo leads traces
    | stop =>
      rw [leads] at traces
      obtain ⟨rfl, rfl⟩ := traces_done.mp traces
      exact .stopped leads
    | transfer path =>
      rw [leads] at traces
      exact concludes_transferTo leads traces
  · intro concludes
    cases concludes with
    | tooLong leads moved =>
      rw [leads]
      exact traces_goOn.mpr (by simp [moved])
    | next leads moved advanced =>
      rw [leads]
      exact traces_goOn.mpr (by simp [moved, advanced])
    | completed leads moved advanced further
    | waited leads moved advanced further
    | interrupted leads moved advanced further =>
      rw [leads]
      exact traces_goOn.mpr (by simp [moved, advanced, further])
    | outside leads jumped =>
      simp only [leads, goTo, jumped]
      exact .done
    | jumped leads jumped =>
      simp only [leads, goTo, jumped]
      exact .ask .done
    | stopped leads =>
      rw [leads]
      exact .done
    | noLoader leads loader =>
      rw [leads]
      unfold transferTo Playhead.load
      rw [loader]
      exact .done
    | notLoaded leads loader =>
      rw [leads]
      unfold transferTo Playhead.load
      rw [loader]
      exact .ask .done
    | transferred leads loader =>
      rw [leads]
      unfold transferTo Playhead.load
      rw [loader]
      exact .ask (.ask (.ask .done))

end

end InputTape.Playback
