import InputTape.Proofs.Playback.Counting
import InputTape.Proofs.Playback.Endings
import InputTape.Proofs.Playback.Untimed

/-! Timing never influences what is done.

Two playbacks of sequences that differ in their times only go side by side, one instruction of each
at a time, whatever the clock says on either side, however long the waits last and whatever the
speed. They part only where one of them is cancelled, or would have to wait for a time that cannot
be told.
-/

set_option autoImplicit false

namespace InputTape.Playback

open Interaction (Parallel)

/-! ## Side by side -/

/-- Cancelled, or without a time to wait for. -/
inductive Disturbed {α : Type} (report? : α → Option Report) : Except PlaybackError α → Prop where
  | cancelled {value : α} {tally : Tally} : report? value = some ⟨.cancelled, tally⟩ →
      Disturbed report? (.ok value)
  | tooLong {index : Nat} {instruction : Instruction} {milliseconds : Float} :
      Disturbed report? (.error ⟨index, instruction, .execution (.delayTooLong milliseconds)⟩)

def Arrival.report? : Arrival → Option Report
  | .ended report => some report
  | .dispatched _ => none

def Progress.report? : Progress → Option Report
  | .ended report => some report
  | .playing _ => none

/-- Work side by side that ends the same but for times, unless either side is disturbed. -/
abbrev SideBySide {α : Type} (report? : α → Option Report) (untimed : α → α)
    (left right : Interaction Request Request.Answer (Except PlaybackError α)) : Prop :=
  left.Parallel Request.IsCall (Disturbed report?) (Disturbed report?)
    (fun value other => struck untimed value = struck untimed other) right

section

variable {options more : Options} {state other : State} {instruction : Instruction}

theorem SideBySide.symm {α : Type} {report? : α → Option Report} {untimed : α → α}
    {left right : Interaction Request Request.Answer (Except PlaybackError α)}
    (side : SideBySide report? untimed left right) : SideBySide report? untimed right left := by
  have turned := Parallel.symm side
  simpa only [eq_comm] using turned

def arrived (state : State) (instruction : Instruction) (deadline : Time) (tally : Tally) :
    Except Failure Directive → Except PlaybackError Arrival
  | .ok directive => .ok (.dispatched ⟨instruction, deadline, directive,
      { tally with executed := tally.executed + 1 }⟩)
  | .error failure => .error (blame state instruction failure)

theorem run_carryOut (deadline : Time) :
    (carryOut options state instruction deadline).run =
      (recordFiring options state deadline).run.bind fun recorded => match recorded with
        | .ok tally =>
          .ask (.note ⟨.debug, "[" ++ toString state.playhead.index ++ "] " ++ instruction.text⟩)
            fun _ => (execute state.playhead instruction.operation).run.bind fun result =>
              .done (arrived state instruction deadline tally result)
        | .error error => .done (.error error) := by
  unfold carryOut note
  rw [run_bind]
  congr 1
  funext recorded
  cases recorded with
  | error error => rfl
  | ok tally =>
    change Interaction.ask _ _ = _
    congr 1
    funext _
    change ExceptT.run (blaming _ _ >>= _) = _
    rw [run_bind, run_blaming, Interaction.bind_assoc]
    congr 1
    funext result
    cases result <;> rfl

def undisturbed (state : State) (deadline : Time) (tally : Tally) :
    Interaction Request Request.Answer (Except PlaybackError Arrival) :=
  match state.playhead.current? with
  | none => .done (.ok (.ended ⟨.completed, state.tally⟩))
  | some instruction => (execute state.playhead instruction.operation).run.bind fun result =>
      .done (arrived state instruction deadline tally result)

theorem sideBySide_approach_left
    {right : Interaction Request Request.Answer (Except PlaybackError Arrival)}
    (rest : ∀ deadline tally, tally.untimed = state.tally.untimed →
      SideBySide Arrival.report? Arrival.untimed (undisturbed state deadline tally) right) :
    SideBySide Arrival.report? Arrival.untimed (approach options state).run right := by
  unfold undisturbed at rest
  unfold approach
  rw [run_ask_bind]
  apply Parallel.left id
  intro isCancelled
  cases isCancelled with
  | true => exact .offLeft (.cancelled rfl)
  | false =>
    rw [if_neg Bool.false_ne_true]
    cases current : state.playhead.current? with
    | none =>
      rw [current] at rest
      exact rest 0 state.tally rfl
    | some instruction =>
      simp only [current, schedule] at rest ⊢
      cases options.after? state.scheduled instruction.gap with
      | none => exact .offLeft .tooLong
      | some deadline =>
        apply Parallel.left id
        intro outcome
        cases outcome with
        | cancelled => exact .offLeft (.cancelled rfl)
        | reached =>
          change SideBySide _ _ (carryOut options state instruction deadline).run _
          rw [run_carryOut]
          -- The clock and the notes behind it ask nothing of the world.
          apply Parallel.after_quiet (always_recordFiring options state deadline)
          rintro _ ⟨tally, rfl, executed, transfers⟩
          apply Parallel.left id
          intro _
          exact rest deadline tally (Tally.untimed_eq.mpr ⟨executed, transfers⟩)

theorem plain_of_timeless {request : Request} (timeless : request.IsTimeless) :
    request.IsCall ∨ Subsingleton request.Answer := by
  rcases timeless with acts | ⟨entry, rfl⟩
  · exact .inl acts.isCall
  · exact .inr inferInstance

theorem alike_state (alike : state.untimed = other.untimed) :
    state.playhead.untimed = other.playhead.untimed ∧ state.playhead.index = other.playhead.index ∧
      state.tally.untimed = other.tally.untimed := by
  have heads : state.playhead.untimed = other.playhead.untimed := congrArg State.playhead alike
  have index : state.playhead.untimed.index = other.playhead.untimed.index := by rw [heads]
  exact ⟨heads, index, congrArg State.tally alike⟩

theorem execute_congr {playhead head : Playhead} {operation again : Operation}
    (heads : playhead.untimed = head.untimed) (operations : operation.untimed = again.untimed) :
    execute playhead operation = execute head again := by
  rw [← execute_untimed, heads, operations, execute_untimed]

/-- Two sides come to their instructions together. -/
theorem sideBySide_approach (alike : state.untimed = other.untimed) :
    SideBySide Arrival.report? Arrival.untimed (approach options state).run
      (approach more other).run := by
  obtain ⟨heads, index, tallies⟩ := alike_state alike
  apply sideBySide_approach_left
  intro deadline tally counted
  apply SideBySide.symm
  apply sideBySide_approach_left
  intro later sum summed
  apply SideBySide.symm
  unfold undisturbed
  rcases Playhead.current?_alike heads with ⟨here, there⟩ | ⟨instruction, again, here, there, same⟩
  · rw [here, there]
    apply Parallel.done
    simp [struck, Arrival.untimed, Report.untimed, tallies]
  -- What the instruction does is one and the same work on both sides.
  · simp only [here, there, execute_congr heads (congrArg Instruction.operation same)]
    apply Parallel.after_same ((timeless_execute _ _).mono (fun _ => plain_of_timeless) fun _ => id)
    intro result
    apply Parallel.done
    cases result with
    | error failure => simp [arrived, struck, PlaybackError.untimed, blame, same, index]
    | ok directive =>
      obtain ⟨executed, transfers⟩ :=
        Tally.untimed_eq.mp (counted.trans (tallies.trans summed.symm))
      simp [arrived, struck, Arrival.untimed, Dispatch.untimed, same, Tally.untimed_eq,
        executed, transfers]

def onward (state : State) (later : Time) (tally : Tally) : Progress :=
  match state.playhead.advance? with
  | some playhead => .playing ⟨playhead, later, tally⟩
  | none => .ended ⟨.completed, tally⟩

theorem sideBySide_goOn_left {deadline : Time} {tally : Tally}
    {right : Interaction Request Request.Answer (Except PlaybackError Progress)}
    (rest : ∀ later, SideBySide Progress.report? Progress.untimed
      (.done (.ok (onward state later tally))) right) :
    SideBySide Progress.report? Progress.untimed
      (goOn options state instruction deadline tally).run right := by
  rw [goOn_eq]
  simp only [schedule, onward] at rest ⊢
  cases options.after? deadline ((delay? instruction).getD 0) with
  | none => exact .offLeft .tooLong
  | some later =>
    simp only [pure_bind]
    cases advanced : state.playhead.advance? with
    | some playhead =>
      simp only [advanced] at rest
      exact rest later
    | none =>
      simp only [advanced] at rest ⊢
      split
      · apply Parallel.left id
        intro outcome
        cases outcome with
        | cancelled => exact .offLeft (.cancelled rfl)
        | reached => exact rest later
      · exact rest later

theorem onward_untimed {later again : Time} {tally sum : Tally} (alike : state.untimed = other.untimed)
    (counted : tally.untimed = sum.untimed) :
    (onward state later tally).untimed = (onward other again sum).untimed := by
  obtain ⟨heads, -, -⟩ := alike_state alike
  unfold onward
  rcases Playhead.advance?_alike heads with ⟨here, there⟩ | ⟨playhead, head, here, there, same⟩
  · simp [here, there, Progress.untimed, Report.untimed, counted]
  · simp [here, there, Progress.untimed, State.untimed, counted, same]

theorem sideBySide_goTo {again : Instruction} {place : Nat} {tally sum : Tally}
    (alike : state.untimed = other.untimed) (same : instruction.untimed = again.untimed)
    (counted : tally.untimed = sum.untimed) :
    SideBySide Progress.report? Progress.untimed (goTo state instruction place tally).run
      (goTo other again place sum).run := by
  obtain ⟨heads, index, -⟩ := alike_state alike
  unfold goTo
  rcases Playhead.jump_alike heads place with
    ⟨error, here, there⟩ | ⟨playhead, head, here, there, jumped⟩
  · rw [here, there]
    apply Parallel.done
    simp [struck, PlaybackError.untimed, blame, same, index]
  -- Each side reads its own clock.
  · rw [here, there]
    apply Parallel.left id
    intro now
    apply Parallel.right id
    intro later
    apply Parallel.done
    simp [struck, Progress.untimed, State.untimed, counted, jumped]

theorem plain_load (playhead : Playhead) (path : FilePath) : (playhead.load path).run.Always
    (fun request => request.IsCall ∨ Subsingleton request.Answer) (fun _ => True) := by
  unfold Playhead.load
  split
  · exact ⟨.inl trivial, fun _ => trivial⟩
  · exact trivial

theorem sideBySide_transferTo {again : Instruction} {path : FilePath} {tally sum : Tally}
    (alike : state.untimed = other.untimed) (same : instruction.untimed = again.untimed)
    (counted : tally.untimed = sum.untimed) :
    SideBySide Progress.report? Progress.untimed (transferTo state instruction path tally).run
      (transferTo other again path sum).run := by
  obtain ⟨heads, index, -⟩ := alike_state alike
  obtain ⟨executed, transfers⟩ := Tally.untimed_eq.mp counted
  have loads : state.playhead.load path = other.playhead.load path := by
    rw [← Playhead.load_untimed, heads, Playhead.load_untimed]
  have resolves : state.playhead.resolve path = other.playhead.resolve path := by
    rw [← Playhead.resolve_untimed, heads, Playhead.resolve_untimed]
  have loader : state.playhead.hasLoader = other.playhead.hasLoader := by
    rw [← Playhead.untimed_hasLoader, heads, Playhead.untimed_hasLoader]
  unfold transferTo
  rw [run_bind, run_bind, run_blaming, run_blaming, Interaction.bind_assoc, Interaction.bind_assoc,
    loads]
  apply Parallel.after_same (plain_load _ _)
  intro loaded
  cases loaded with
  | error error =>
    apply Parallel.done
    simp [struck, PlaybackError.untimed, blame, same, index]
  | ok sequence =>
    apply Parallel.left id
    intro _
    apply Parallel.left id
    intro now
    apply Parallel.right id
    intro _
    apply Parallel.right id
    intro later
    apply Parallel.done
    simp [struck, Progress.untimed, State.untimed, Tally.untimed_eq, resolves, executed, transfers,
      loader]

theorem sideBySide_conclude {dispatch again : Dispatch} (alike : state.untimed = other.untimed)
    (same : dispatch.untimed = again.untimed) :
    SideBySide Progress.report? Progress.untimed (conclude options state dispatch).run
      (conclude more other again).run := by
  simp only [Dispatch.untimed, Dispatch.mk.injEq, true_and] at same
  obtain ⟨instruction, directive, counted⟩ := same
  unfold conclude
  rw [directive]
  cases again.directive with
  | next =>
    apply sideBySide_goOn_left
    intro later
    apply SideBySide.symm
    apply sideBySide_goOn_left
    intro elsewhere
    apply Parallel.done
    simp only [struck, Except.ok.injEq]
    exact onward_untimed alike.symm counted.symm
  | jump place => exact sideBySide_goTo alike instruction counted
  | stop =>
    apply Parallel.done
    simp [struck, Progress.untimed, Report.untimed, counted]
  | transfer path => exact sideBySide_transferTo alike instruction counted

end

/-! ## Rounds -/

def visited (rounds : List Round) : List Nat :=
  rounds.filterMap fun round => round.dispatch.map fun _ => round.playhead.index

structure Round.Alike (round other : Round) : Prop where
  visits : visited [round] = visited [other]
  calls : calls round.exchanges = calls other.exchanges
  result : struck Progress.untimed round.result = struck Progress.untimed other.result

section

variable (options more : Options) {state other : State}

theorem visited_cons (first : Round) (rounds : List Round) :
    visited (first :: rounds) = visited [first] ++ visited rounds :=
  List.filterMap_append (l := [first])

theorem round_disturbed {σ : Type} {answer : (request : Request) → σ → request.Answer × σ}
    {surroundings : σ}
    (off : Disturbed Arrival.report? ((approach options state).run.run answer surroundings).1) :
    Disturbed Progress.report? (round options answer state surroundings).1.result := by
  unfold round
  generalize (approach options state).run.run answer surroundings = arrival at off ⊢
  obtain ⟨error | (report | dispatch), between⟩ := arrival
  · cases off
    exact .tooLong
  · obtain ⟨⟨⟩⟩ := off
    exact .cancelled rfl
  · obtain ⟨⟨⟩⟩ := off

theorem round_untimed {World Early Late : Type} {left : Surroundings World Early}
    {right : Surroundings World Late} (same : left.call = right.call)
    (alike : state.untimed = other.untimed) (world : World) (early : Early) (late : Late) :
    let one := round options left.answer state (world, early)
    let two := round more right.answer other (world, late)
    Disturbed Progress.report? one.1.result ∨ Disturbed Progress.report? two.1.result ∨
      one.1.Alike two.1 ∧ one.2.1 = two.2.1 := by
  intro one two
  obtain ⟨-, index, -⟩ := alike_state alike
  rcases left.course_of_parallel same (sideBySide_approach alike) world early late with
    off | off | ⟨asks, ends, leaves⟩
  · exact .inl (round_disturbed options off)
  · exact .inr (.inl (round_disturbed more off))
  · simp only [one, two, round]
    simp only [Surroundings.course] at asks ends leaves
    generalize (approach options state).run.run left.answer (world, early) = arrival at ends leaves ⊢
    generalize (approach more other).run.run right.answer (world, late) = again at ends leaves ⊢
    obtain ⟨arrival, world, early⟩ := arrival
    obtain ⟨again, there, late⟩ := again
    obtain rfl : world = there := leaves
    rcases arrival with error | (report | dispatch)
    · cases again with
      | ok value => cases ends
      | error fault =>
        refine .inr (.inr ⟨⟨rfl, ?_, ?_⟩, rfl⟩)
        · simpa [Round.exchanges] using asks
        · simpa [struck] using ends
    · rcases again with fault | (final | next)
      · cases ends
      · refine .inr (.inr ⟨⟨rfl, ?_, ?_⟩, rfl⟩)
        · simpa [Round.exchanges] using asks
        · simpa [struck, Arrival.untimed, Progress.untimed] using ends
      · cases ends
    · rcases again with fault | (final | next)
      · cases ends
      · cases ends
      -- Both have done the same instruction, and go on behind it.
      · simp only [struck, Arrival.untimed, Except.ok.injEq, Arrival.dispatched.injEq] at ends
        rcases left.course_of_parallel same (sideBySide_conclude alike ends) world early late with
          off | off | ⟨concludes, results, leaves⟩
        · exact .inl off
        · exact .inr (.inl off)
        · refine .inr (.inr ⟨⟨?_, ?_, results⟩, leaves⟩)
          · simp [visited, index]
          · simp only [Round.exchanges, calls_append, asks]
            exact congrArg _ concludes

theorem ending_disturbed {σ : Type} {answer : (request : Request) → σ → request.Answer × σ}
    {surroundings : σ} {steps : Nat} {round : Round}
    (off : Disturbed Progress.report? round.result) :
    Disturbed id (ending (round :: further options answer steps round surroundings)) := by
  rw [ending_further]
  rcases result : round.result with error | (next | report) <;> rw [result] at off
  · cases off
    exact .tooLong
  · obtain ⟨⟨⟩⟩ := off
  · obtain ⟨⟨⟩⟩ := off
    exact .cancelled rfl

/-- Playbacks that differ in their times only go on round by round beside each other. -/
theorem rounds_untimed {World Early Late : Type} {left : Surroundings World Early}
    {right : Surroundings World Late} (same : left.call = right.call) (steps : Nat)
    (alike : state.untimed = other.untimed) (world : World) (early : Early) (late : Late) :
    let one := rounds options left.answer steps state (world, early)
    let two := rounds more right.answer steps other (world, late)
    Disturbed id (ending one) ∨ Disturbed id (ending two) ∨
      visited one = visited two ∧
      calls (one.flatMap Round.exchanges) = calls (two.flatMap Round.exchanges) ∧
      struck (Option.map Report.untimed) (ending one) =
        struck (Option.map Report.untimed) (ending two) := by
  induction steps generalizing state other world early late with
  | zero => exact .inr (.inr ⟨rfl, rfl, rfl⟩)
  | succ steps ih =>
    have first := round_untimed options more same alike world early late
    simp only [rounds_succ]
    generalize round options left.answer state (world, early) = one at first ⊢
    generalize round more right.answer other (world, late) = two at first ⊢
    obtain ⟨one, world, early⟩ := one
    obtain ⟨two, there, late⟩ := two
    -- Unless one of the two is disturbed, both rounds do the same and leave the world the same.
    rcases first with off | off | ⟨⟨visits, asks, result⟩, leaves⟩
    · exact .inl (ending_disturbed options off)
    · exact .inr (.inl (ending_disturbed more off))
    · obtain rfl : world = there := leaves
      rw [visited_cons, visited_cons two, List.flatMap_cons, List.flatMap_cons, calls_append,
        calls_append, visits, asks]
      obtain ⟨playhead, dispatch, near, far, comes⟩ := one
      obtain ⟨head, again, close, distant, goes⟩ := two
      simp only at result
      rcases comes with error | (next | report)
      · rcases goes with fault | value
        · refine .inr (.inr ⟨rfl, rfl, ?_⟩)
          rw [ending_further, ending_further]
          simpa [struck] using result
        · cases result
      · rcases goes with fault | (onward | final)
        · cases result
        · simp only [struck, Progress.untimed, Except.ok.injEq, Progress.playing.injEq] at result
          rw [ending_cons _ rfl, ending_cons _ rfl]
          rcases ih result world early late with off | off | ⟨visits, asks, ends⟩
          · exact .inl off
          · exact .inr (.inl off)
          · exact .inr (.inr ⟨congrArg _ visits, congrArg _ asks, ends⟩)
        · cases result
      · rcases goes with fault | (onward | final)
        · cases result
        · cases result
        · simp only [struck, Progress.untimed, Except.ok.injEq, Progress.ended.injEq] at result
          refine .inr (.inr ⟨rfl, rfl, ?_⟩)
          rw [ending_further, ending_further]
          simp [struck, result]

end

/-! ## Whole playbacks -/

section

variable {World Early Late : Type} (left : Surroundings World Early) (right : Surroundings World Late)
  (options more : Options) (hasLoader : Bool) (steps : Nat) (sequence other : Sequence)

theorem calls_opening (now : Time) : calls (opening sequence now) = [] := by
  rw [opening, calls_cons_quiet id, calls_cons_quiet id]
  rfl

theorem calls_closing (result : Except PlaybackError (Option Report)) :
    calls (closing result) = [] := by
  rcases result with error | (_ | report)
  · rfl
  · rfl
  · exact calls_cons_quiet id _ _

theorem course_play_rounds (world : World) (early : Early) :
    let rounds := (history options hasLoader steps sequence left.answer (world, early)).rounds
    left.course (play options hasLoader steps sequence).run (world, early) =
      ⟨calls (rounds.flatMap Round.exchanges), ending rounds,
        (calls (rounds.flatMap Round.exchanges)).foldl
          (fun world exchange => (left.call exchange.request world).2) world⟩ := by
  intro rounds
  have asks : calls ((play options hasLoader steps sequence).run.transcript left.answer
      (world, early)) = calls (rounds.flatMap Round.exchanges) := by
    rw [transcript_play, calls_append, calls_append, calls_opening, calls_closing,
      List.append_nil, List.nil_append]
  rw [Surroundings.course, run_play, Interaction.run_replay, left.world_replay, asks]

theorem history_rounds_eq (world : World) (early : Early) :
    ∃ now later, (history options hasLoader steps sequence left.answer (world, early)).rounds =
      rounds options left.answer steps (starting sequence hasLoader now) (world, later) := by
  refine ⟨_, _, (history_rounds ..).trans (congrArg _ (Prod.ext ?_ rfl))⟩
  rw [left.world_replay, calls_opening]
  rfl

/-- What a playback does has nothing to do with when it does it. Where sequences differ in their
gaps and delays only, and calls are answered alike, the playbacks at any speeds do the same
instructions, make the same calls and end the same. The clocks, the waits and whatever else is around
them may differ, as long as neither is cancelled or has no time to wait for. -/
theorem play_untimed (same : left.call = right.call) (alike : sequence.untimed = other.untimed)
    (world : World) (early : Early) (late : Late) :
    let one := left.course (play options hasLoader steps sequence).run (world, early)
    let two := right.course (play more hasLoader steps other).run (world, late)
    ¬ Disturbed id one.value → ¬ Disturbed id two.value →
    visited (history options hasLoader steps sequence left.answer (world, early)).rounds =
      visited (history more hasLoader steps other right.answer (world, late)).rounds ∧
    one.Agree (fun value other => struck (Option.map Report.untimed) value =
      struck (Option.map Report.untimed) other) two := by
  intro one two calm still
  obtain ⟨now, before, rounds⟩ :=
    history_rounds_eq left options hasLoader steps sequence world early
  obtain ⟨reading, behind, others⟩ := history_rounds_eq right more hasLoader steps other world late
  have starts : (starting sequence hasLoader now).untimed =
      (starting other hasLoader reading).untimed := by
    simp [starting, State.untimed, Playhead.start, Playhead.untimed, alike]
  simp only [one, two, course_play_rounds] at calm still ⊢
  rw [rounds] at calm ⊢
  rw [others] at still ⊢
  rcases rounds_untimed options more same steps starts world before behind with
    off | off | ⟨visits, asks, ends⟩
  · exact absurd off calm
  · exact absurd off still
  · exact ⟨visits, asks, ends, by simp only [asks, same]⟩

end

theorem not_disturbed_of_completed {ended : Except PlaybackError (Option Report)} {tally : Tally}
    (completed : ended = .ok (some ⟨.completed, tally⟩)) : ¬ Disturbed id ended := by
  intro off
  rw [completed] at off
  obtain ⟨⟨⟩⟩ := off

def tardy : Surroundings Nat Time where
  call request world := ((late request 0).1, world + 1)
  notice _ _ now := now
  attend request _ now := late request now

def timeless : Surroundings Nat Unit where
  call request world := ((late request 0).1, world + 1)
  notice _ _ _ := ()
  attend request _ _ := ((late request 0).1, ())

def slow : Sequence :=
  ⟨#[⟨10, none, .key .down ⟨65⟩⟩, ⟨5, none, .delay 20⟩, ⟨2, none, .jump none (some 4)⟩,
    ⟨0, none, .exit⟩, ⟨30, none, .key .up ⟨65⟩⟩]⟩

def brisk : Sequence :=
  ⟨#[.plain (.key .down ⟨65⟩), .plain (.delay 0), .plain (.jump none (some 4)), .plain .exit,
    .plain (.key .up ⟨65⟩)]⟩

theorem play_untimed_slow :
    let one := tardy.course (play ⟨2, true, 0⟩ false 9 slow).run (0, 100)
    let two := timeless.course (play ⟨1, false, 5⟩ false 9 brisk).run (0, ())
    visited (history ⟨1, false, 5⟩ false 9 brisk timeless.answer (0, ())).rounds = [0, 1, 2, 4] ∧
    visited (history ⟨2, true, 0⟩ false 9 slow tardy.answer (0, 100)).rounds =
      visited (history ⟨1, false, 5⟩ false 9 brisk timeless.answer (0, ())).rounds ∧
    one.Agree (fun value other => struck (Option.map Report.untimed) value =
      struck (Option.map Report.untimed) other) two := by
  intro one two
  have calm : ¬ Disturbed id one.value := not_disturbed_of_completed rfl
  have still : ¬ Disturbed id two.value := not_disturbed_of_completed rfl
  have alike : slow.untimed = brisk.untimed := by
    simp [slow, brisk, Sequence.untimed, Instruction.untimed, Operation.untimed, Instruction.plain]
  exact ⟨by decide, play_untimed tardy timeless ⟨2, true, 0⟩ ⟨1, false, 5⟩ false 9 slow brisk rfl
    alike 0 100 () calm still⟩

end InputTape.Playback
