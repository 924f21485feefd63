import InputTape.Proofs.Playback.Endings
import InputTape.Proofs.Playback.Faults

/-! Cancelling a playback.

A cancellation is looked for in front of every instruction and in every wait. So an instruction that
is being done is done to its end, and nothing is done behind it, also not in a sequence that it
transfers to. However a wait is answered, this is all there is to it.
-/

set_option autoImplicit false

namespace InputTape.Playback

open Interaction (Exchange Traces replay replay_append)

/-- Surroundings with a cancellation that is told of when asked for, and that is for good. -/
structure Cancels {σ : Type} (answer : (request : Request) → σ → request.Answer × σ)
    (isSet : σ → Prop) : Prop where
  told : ∀ surroundings, (answer .isCancelled surroundings).1 = true ↔ isSet surroundings
  stays : ∀ request surroundings, isSet surroundings → isSet (answer request surroundings).2

def Round.IsLast (round : Round) : Prop :=
  round.dispatch.map Dispatch.directive = some .next ∧
    round.playhead.index + 1 = round.playhead.sequence.size

def cancelledRound (state : State) : Round :=
  ⟨state.playhead, none, [⟨.isCancelled, true⟩], [], .ok (.ended ⟨.cancelled, state.tally⟩)⟩

section

variable {σ : Type} {answer : (request : Request) → σ → request.Answer × σ} {isSet : σ → Prop}
  {surroundings : σ} {options : Options} {state : State}

theorem Cancels.replay (cancels : Cancels answer isSet)
    (exchanges : List (Exchange Request Request.Answer)) (set : isSet surroundings) :
    isSet (replay answer exchanges surroundings) := by
  induction exchanges generalizing surroundings with
  | nil => exact set
  | cons exchange more ih => exact ih (cancels.stays exchange.request surroundings set)

theorem Cancels.round (cancels : Cancels answer isSet) (set : isSet surroundings) :
    (round options answer state surroundings).1 = cancelledRound state := by
  have told := (cancels.told surroundings).mpr set
  unfold Playback.round approach
  rw [run_ask_bind]
  simp only [Interaction.transcript, Interaction.run, told, if_true]
  rfl

theorem Cancels.rounds (cancels : Cancels answer isSet) (set : isSet surroundings) (steps : Nat) :
    rounds options answer steps state surroundings = [] ∧ steps = 0 ∨
      rounds options answer steps state surroundings = [cancelledRound state] := by
  cases steps with
  | zero => exact .inl ⟨rfl, rfl⟩
  | succ steps =>
    right
    have only := @Cancels.round _ _ _ _ options state cancels set
    unfold Playback.rounds
    generalize Playback.round options answer state surroundings = played at only ⊢
    obtain ⟨first, later⟩ := played
    cases only
    rfl

end

/-! ## Rounds in which something is done -/

section

variable {options : Options} {state : State} {playhead : Playhead} {round : Round}
  {asked far : List (Exchange Request Request.Answer)} {exchange : Exchange Request Request.Answer}

theorem mem_unnoted_of_acts (member : exchange ∈ asked) (acts : exchange.request.IsAction) :
    exchange ∈ unnoted asked := by
  refine List.mem_filter.mpr ⟨member, ?_⟩
  obtain ⟨request, answer⟩ := exchange
  cases request <;> first | rfl | exact absurd acts id

theorem Does.acts {operation : Operation} {directive : Directive}
    (does : Does playhead operation asked directive) (member : exchange ∈ asked) :
    (∀ milliseconds, operation ≠ .delay milliseconds) ∧ directive ≠ .stop := by
  cases does with
  | label | delay | exit | jump => cases member
  | mouse | key | script => exact ⟨nofun, nofun⟩
  | branch tests directs =>
    refine ⟨nofun, ?_⟩
    rintro rfl
    unfold branchDirective at directs
    split at directs
    · cases directs
    · obtain ⟨_, _, ⟨⟩⟩ := toName_eq_ok.mp directs
    · split at directs <;> cases directs

theorem Concludes.not_acts {dispatch : Dispatch} {result : Except PlaybackError Progress}
    (concludes : Concludes options state dispatch far result) :
    ∀ exchange ∈ far, ¬ exchange.request.IsAction := by
  cases concludes <;> simp [Request.IsAction, remark]

theorem Approaches.not_acts {arrival : Except PlaybackError Arrival}
    (approaches : Approaches options state asked arrival) (member : exchange ∈ asked)
    (acts : exchange.request.IsAction) :
    (∃ error, arrival = .error error) ∨ ∃ dispatch, arrival = .ok (.dispatched dispatch) ∧
      state.playhead.current? = some dispatch.instruction ∧
      (∀ milliseconds, dispatch.instruction.operation ≠ .delay milliseconds) ∧
      dispatch.directive ≠ .stop := by
  cases approaches with
  | tooLong | failed => exact .inl ⟨_, rfl⟩
  | cancelled | completed =>
    rw [List.mem_singleton.mp member] at acts
    exact absurd acts id
  | interrupted =>
    rcases List.mem_pair.mp member with rfl | rfl <;> exact absurd acts id
  | dispatched current due works =>
    rcases List.mem_append.mp member with leads | working
    · exact absurd acts.isCall (quiet_leadIn _ _ _ _ leads)
    · refine .inr ⟨_, rfl, current, ?_⟩
      exact (does_of_execute works).acts (mem_unnoted_of_acts working acts)

theorem Playhead.advance?_eq_none {instruction : Instruction}
    (current : playhead.current? = some instruction) :
    playhead.advance? = none ↔ playhead.index + 1 = playhead.sequence.size := by
  have inside : playhead.index < playhead.sequence.size :=
    (Array.getElem?_eq_some_iff.mp current).1
  unfold Playhead.advance?
  split
  · simp
    omega
  · simp
    omega

/-- What a round comes to in which something was done, unless it fails: it goes on, or it was the
last one of its sequence. -/
theorem Round.Of.acted (isRound : Round.Of options state round) (member : exchange ∈ round.exchanges)
    (acts : exchange.request.IsAction) :
    (∃ error, round.result = .error error) ∨
    (∃ next, round.result = .ok (.playing next) ∧ ¬ round.IsLast) ∨
    ∃ report, round.result = .ok (.ended report) ∧ report.outcome = .completed ∧ round.IsLast := by
  cases isRound with
  | failed => exact .inl ⟨_, rfl⟩
  | ended approaches =>
    rw [Round.exchanges, List.append_nil] at member
    rcases (traces_approach.mp approaches).not_acts member acts with ⟨_, same⟩ | ⟨_, same, _⟩
    · cases same
    · cases same
  | @dispatched dispatch near far result approaches concludes =>
    have concludes := traces_conclude.mp concludes
    rcases List.mem_append.mp member with near' | far'
    · obtain ⟨_, same⟩ | ⟨_, same, current, timeless, goes⟩ :=
        (traces_approach.mp approaches).not_acts near' acts
      · cases same
      cases same
      -- An action takes no time, so if it is the last there is nothing to wait for behind it.
      have last := Playhead.advance?_eq_none current
      have still : ∀ later, options.after? dispatch.deadline (pauseOf dispatch.instruction) =
          some later → ¬ dispatch.deadline < later := by
        intro later moved
        rw [after?_pauseOf timeless, Option.some.injEq] at moved
        rw [moved]
        exact Nat.lt_irrefl later
      cases concludes with
      | tooLong | outside | noLoader | notLoaded => exact .inl ⟨_, rfl⟩
      | next leads _ advanced =>
        refine .inr (.inl ⟨_, rfl, fun isLast => ?_⟩)
        rw [last.mpr isLast.2] at advanced
        cases advanced
      | completed leads _ advanced =>
        refine .inr (.inr ⟨_, rfl, rfl, ?_, last.mp advanced⟩)
        exact congrArg some leads
      | waited _ moved _ further => exact absurd further (still _ moved)
      | interrupted _ moved _ further => exact absurd further (still _ moved)
      | jumped leads | transferred leads =>
        refine .inr (.inl ⟨_, rfl, fun isLast => ?_⟩)
        have same := isLast.1
        rw [Option.map_some, leads] at same
        cases same
      | stopped leads => exact absurd leads goes
    · exact absurd acts (concludes.not_acts exchange far')

theorem Approaches.interrupted_of_mem {deadline : Time} {arrival : Except PlaybackError Arrival}
    (approaches : Approaches options state asked arrival)
    (member : ⟨.wait deadline, .cancelled⟩ ∈ asked) :
    asked = [⟨.isCancelled, false⟩, ⟨.wait deadline, .cancelled⟩] ∧
      arrival = .ok (.ended ⟨.cancelled, state.tally⟩) := by
  cases approaches with
  | cancelled | completed | tooLong => simp at member
  | interrupted =>
    rcases List.mem_pair.mp member with same | same <;> cases same
    exact ⟨rfl, rfl⟩
  | failed _ _ works | dispatched _ _ works =>
    exfalso
    rcases List.mem_append.mp member with leads | working
    · simp only [leadIn, remarks] at leads
      split at leads <;> simp [remark] at leads
    · have timeless := (works.always (timeless_execute _ _)).1 _ working
      exact noWait_of_isTimeless timeless deadline rfl

/-- A round with a wait that was cancelled ends the playback. What was waited for is not done. -/
theorem Round.Of.interrupted {deadline : Time} (isRound : Round.Of options state round)
    (member : ⟨.wait deadline, .cancelled⟩ ∈ round.exchanges) :
    round.dispatch = none ∧
      round.exchanges = [⟨.isCancelled, false⟩, ⟨.wait deadline, .cancelled⟩] ∧
      round.result = .ok (.ended ⟨.cancelled, state.tally⟩) ∨
    ∃ dispatch, round.dispatch = some dispatch ∧ round.IsLast ∧
      round.far = [⟨.wait deadline, .cancelled⟩] ∧
      round.result = .ok (.ended ⟨.cancelled, dispatch.tally⟩) := by
  cases isRound with
  | failed approaches =>
    rw [Round.exchanges, List.append_nil] at member
    have same := ((traces_approach.mp approaches).interrupted_of_mem member).2
    cases same
  | ended approaches =>
    rw [Round.exchanges, List.append_nil] at member
    obtain ⟨rfl, same⟩ := (traces_approach.mp approaches).interrupted_of_mem member
    cases same
    exact .inl ⟨rfl, rfl, rfl⟩
  | @dispatched dispatch near far result approaches concludes =>
    have approaches := traces_approach.mp approaches
    rcases List.mem_append.mp member with near' | far'
    · have same := (approaches.interrupted_of_mem near').2
      cases same
    · right
      refine ⟨dispatch, rfl, ?_⟩
      cases approaches with
      | dispatched current =>
        cases traces_conclude.mp concludes with
        | interrupted leads _ advanced =>
          rw [List.mem_singleton] at far'
          cases far'
          exact ⟨⟨congrArg some leads, (Playhead.advance?_eq_none current).mp advanced⟩, rfl, rfl⟩
        -- No other conclusion asks for a wait that is cancelled.
        | _ => simp [remark] at far'

end

/-! ## Whole playbacks -/

section

variable {σ : Type} (options : Options) (hasLoader : Bool) (steps : Nat) (sequence : Sequence)
  {answer : (request : Request) → σ → request.Answer × σ} {isSet : σ → Prop} (surroundings : σ)

/-- Whenever a playback is cancelled, the instruction that is being done is the last one, and the
playback is reported as cancelled, unless nothing was left of it. -/
theorem play_cancels (cancels : Cancels answer isSet) :
    let history := history options hasLoader steps sequence answer surroundings
    let asked := (play options hasLoader steps sequence).run.transcript answer surroundings
    let ended := ((play options hasLoader steps sequence).run.run answer surroundings).1
    asked = opening sequence history.start ++ history.rounds.flatMap Round.exchanges
      ++ closing ended ∧
    -- Before the start.
    (isSet surroundings → (∀ exchange ∈ asked, ¬ exchange.request.IsCall) ∧
      (0 < steps → ended = .ok (some ⟨.cancelled, .zero⟩))) ∧
    -- While something is done.
    (∀ earlier round later front call own, history.rounds = earlier ++ round :: later →
      round.exchanges = front ++ call :: own → call.request.IsAction →
      isSet (replay answer (opening sequence history.start ++ earlier.flatMap Round.exchanges
        ++ front ++ [call]) surroundings) →
      (∀ exchange ∈ later.flatMap Round.exchanges, ¬ exchange.request.IsCall) ∧
      ((∀ error, round.result ≠ .error error) → earlier.length + 1 < steps →
        ∃ report, ended = .ok (some report) ∧
          (report.outcome = .completed ∧ round.IsLast ∨
            report.outcome = .cancelled ∧ ¬ round.IsLast))) ∧
    -- While something is waited for.
    (∀ earlier round later deadline, history.rounds = earlier ++ round :: later →
      ⟨.wait deadline, .cancelled⟩ ∈ round.exchanges →
      later = [] ∧ ∃ report, ended = .ok (some report) ∧ report.outcome = .cancelled ∧
        (round.dispatch = none ∧
          round.exchanges = [⟨.isCancelled, false⟩, ⟨.wait deadline, .cancelled⟩] ∧
          report.tally = (standing (starting sequence hasLoader history.start) earlier).tally ∨
        ∃ dispatch, round.dispatch = some dispatch ∧ round.IsLast ∧
          round.far = [⟨.wait deadline, .cancelled⟩] ∧ report.tally = dispatch.tally)) := by
  intro history asked ended
  have told : ended = ending history.rounds := run_play ..
  have here {earlier later : List Round} {round : Round}
      (split : history.rounds = earlier ++ round :: later) :=
    history_split options hasLoader steps sequence answer surroundings split
  refine ⟨?_, ?_, ?_, ?_⟩
  · rw [told]
    exact transcript_play ..
  · intro set
    have rounds := @Cancels.rounds _ _ _ _ options (starting sequence hasLoader history.start)
      cancels (cancels.replay (opening sequence history.start) set) steps
    rw [← history_rounds] at rounds
    have asks := transcript_play options hasLoader steps sequence answer surroundings
    refine ⟨?_, fun some => ?_⟩
    · change asked = _ at asks
      rw [asks]
      rcases rounds with ⟨none, -⟩ | only
      · rw [none]
        simp [opening, closing, ending, Request.IsCall]
      · rw [only]
        simp [opening, closing, ending, cancelledRound, Round.exchanges, Request.IsCall]
    · rcases rounds with ⟨-, rfl⟩ | only
      · cases some
      · rw [told, only]
        rfl
  · intro earlier round later front call own split cut acts set
    obtain ⟨left, count, same, behind⟩ := here split
    have isRound := same ▸ round_of ..
    have member : call ∈ round.exchanges := by
      rw [cut]
      exact List.mem_append_right _ List.mem_cons_self
    rcases isRound.acted member acts with ⟨error, fails⟩ | ⟨next, goes, more⟩ |
      ⟨report, ends, completed, isLast⟩
    · rw [further, fails] at behind
      rw [behind]
      refine ⟨by simp, fun whole => absurd fails (whole error)⟩
    · have before := cancels.replay own set
      rw [← replay_append] at before
      have now := @Cancels.rounds _ _ _ _ options next cancels before left
      simp only [further, goes, cut, List.append_assoc, List.singleton_append] at behind now
      rw [← behind] at now
      rcases now with ⟨nothing, none⟩ | only
      · refine ⟨by simp [nothing], fun _ enough => ?_⟩
        rw [none] at count
        omega
      · refine ⟨by simp [only, cancelledRound, Round.exchanges, Request.IsCall], fun _ _ =>
          ⟨⟨.cancelled, next.tally⟩, ?_, .inr ⟨rfl, more⟩⟩⟩
        rw [told, split, only, List.append_cons, ending_of_ended]
        rfl
    · rw [further, ends] at behind
      rw [behind] at split ⊢
      refine ⟨by simp, fun _ _ => ⟨report, ?_, .inl ⟨completed, isLast⟩⟩⟩
      rw [told, split, ending_of_ended ends]
  · intro earlier round later deadline split member
    obtain ⟨left, count, same, behind⟩ := here split
    have isRound := same ▸ round_of ..
    rcases isRound.interrupted member with ⟨none, exchanges, ends⟩ | ⟨dispatch, some, isLast, far, ends⟩
    · rw [further, ends] at behind
      refine ⟨behind, ⟨.cancelled, _⟩, ?_, rfl, .inl ⟨none, exchanges, rfl⟩⟩
      rw [told, split, behind, ending_of_ended ends]
    · rw [further, ends] at behind
      refine ⟨behind, ⟨.cancelled, _⟩, ?_, rfl, .inr ⟨dispatch, some, isLast, far, rfl⟩⟩
      rw [told, split, behind, ending_of_ended ends]

end

def stopping : (request : Request) → Bool → request.Answer × Bool
  | .gesture _, _ => (.ok (), true)
  | .pixel _ _, set => (.opaqueRgb 0 0 0, set)
  | .evaluate _, set => (.ok .nil, set)
  | .load _, set => (.ok ⟨#[]⟩, set)
  | .wait _, set => (if set then .cancelled else .reached, set)
  | .clock, set => (0, set)
  | .isCancelled, set => (set, set)
  | .note _, set => ((), set)

theorem stopping_cancels : Cancels stopping (· = true) where
  told _ := Iff.rfl
  stays request set isSet := by cases request <;> first | exact isSet | rfl

def typing : Sequence := ⟨#[.plain (.key .down ⟨65⟩), .plain (.key .up ⟨65⟩)]⟩

def pressing : Exchange Request Request.Answer := ⟨.gesture (.keyDown ⟨65⟩), .ok ()⟩

-- The key is not let go.
theorem play_cancels_typing :
    ∃ round last, (history ⟨1, false, 0⟩ false 3 typing stopping false).rounds = [round, last] ∧
      round.exchanges.getLast? = some pressing ∧
      (∀ exchange ∈ last.exchanges, ¬ exchange.request.IsCall) ∧
      ∃ report, ((play ⟨1, false, 0⟩ false 3 typing).run.run stopping false).1 =
        .ok (some report) ∧ report.outcome = .cancelled := by
  obtain ⟨round, last, both, pressed, ⟨next, goes⟩, more⟩ : ∃ round last,
      (history ⟨1, false, 0⟩ false 3 typing stopping false).rounds = [round, last] ∧
      round.exchanges.getLast? = some pressing ∧ (∃ next, round.result = .ok (.playing next)) ∧
      round.playhead.index + 1 ≠ round.playhead.sequence.size :=
    ⟨_, _, rfl, rfl, ⟨_, rfl⟩, by decide⟩
  obtain ⟨front, cut⟩ := List.getLast?_eq_some_iff.mp pressed
  have set : replay stopping (opening typing 0 ++ [] ++ front ++ [pressing]) false = true := by
    rw [replay_append]
    rfl
  obtain ⟨quiet, reports⟩ := (play_cancels ⟨1, false, 0⟩ false 3 typing false
    stopping_cancels).2.2.1 [] round [last] front pressing [] both cut trivial set
  have whole : ∀ error, round.result ≠ .error error := by
    intro error fails
    cases goes.symm.trans fails
  obtain ⟨report, ended, ⟨-, isLast⟩ | ⟨cancelled, -⟩⟩ := reports whole (by decide)
  · exact absurd isLast.2 more
  · exact ⟨round, last, both, pressed, by simpa using quiet, report, ended, cancelled⟩

end InputTape.Playback
