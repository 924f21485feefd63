import InputTape.Proofs.Playback.Transfers

/-! A report tells what was done.

What a round has fired can be seen from what was asked in it. Every round adds just that to the
tally, and one more transfer if it has loaded a sequence, so the tally of a whole playback is that of
all its rounds together.
-/

set_option autoImplicit false

namespace InputTape.Playback

open Interaction (Exchange)

/-! ## What was fired -/

/-- What a round has fired. It fires nothing if it only asks whether to go on, or is cancelled while
it waits. Else it waits until its instruction is due, reads the clock and does the instruction. -/
inductive Round.Fires (round : Round) : List Sample → Prop where
  | nothing : round.dispatch = none →
      (∀ exchange ∈ round.exchanges, exchange.request = .isCancelled ∨
        ∃ deadline, exchange = ⟨.wait deadline, .cancelled⟩) →
      Fires round []
  | instruction {dispatch : Dispatch} {now : Time}
      {noted asked : List (Exchange Request Request.Answer)} :
      round.dispatch = some dispatch → round.playhead.current? = some dispatch.instruction →
      round.near = ⟨.isCancelled, false⟩ :: ⟨.wait dispatch.deadline, .reached⟩ ::
        ⟨.clock, now⟩ :: (noted ++ asked) →
      (∀ exchange ∈ noted, ∃ entry, exchange.request = .note entry) →
      (execute round.playhead dispatch.instruction.operation).run.Traces asked
        (.ok dispatch.directive) →
      Fires round [⟨round.playhead.index, dispatch.deadline, now⟩]

inductive Fired : List Round → List Sample → Prop where
  | nil : Fired [] []
  | cons {round : Round} {more : List Round} {here later : List Sample} :
      round.Fires here → Fired more later → Fired (round :: more) (here ++ later)

/-- Every instruction that was dispatched was fired once, and nothing else was. -/
theorem Fired.length {rounds : List Round} {fired : List Sample} (all : Fired rounds fired) :
    fired.length = (dispatched rounds).length := by
  induction all with
  | nil => rfl
  | cons fires _ ih =>
    cases fires with
    | nothing none => simpa [dispatched, none] using ih
    | instruction does => simpa [dispatched, does] using ih

/-! ## Its tally -/

def greatestLateness (fired : List Sample) : Duration := (fired.map Sample.lateness).max?.getD 0

theorem greatestLateness_cons (sample : Sample) (more : List Sample) :
    greatestLateness (sample :: more) = max sample.lateness (greatestLateness more) := by
  unfold greatestLateness
  rw [List.map_cons, List.max?_cons]
  cases (more.map Sample.lateness).max? <;> simp

theorem greatestLateness_append (first second : List Sample) :
    greatestLateness (first ++ second) =
      max (greatestLateness first) (greatestLateness second) := by
  induction first with
  | nil => simp [greatestLateness]
  | cons sample more ih =>
    rw [List.cons_append, greatestLateness_cons, greatestLateness_cons, ih, Nat.max_assoc]

def Tally.of (keep : Bool) (fired : List Sample) (transfers : Nat) : Tally where
  executed := fired.length
  transfers := transfers
  samples := if keep then fired.toArray else #[]
  maxLateness := greatestLateness fired

theorem Tally.of_nil (keep : Bool) : Tally.of keep [] 0 = .zero := by
  cases keep <;> rfl

theorem Tally.of_append (keep : Bool) (first second : List Sample) (before behind : Nat) :
    Tally.of keep (first ++ second) (before + behind) =
      (Tally.of keep first before).andThen (.of keep second behind) := by
  cases keep <;> simp [Tally.of, Tally.andThen, greatestLateness_append]

/-! ## Rounds -/

def Progress.tally : Progress → Tally
  | .playing state => state.tally
  | .ended report => report.tally

section

variable {options : Options} {state : State}

theorem counted_eq (deadline now : Time) :
    counted options state deadline now = state.tally.andThen
      (.of options.captureTiming [⟨state.playhead.index, deadline, now⟩] 0) := by
  cases keeps : options.captureTiming <;>
    simp [counted, keeps, Tally.record, Tally.andThen, Tally.of, greatestLateness]

theorem notes_remarks (instruction : Instruction) (deadline now : Time) :
    ∀ exchange ∈ remarks options state instruction deadline now,
      ∃ entry, exchange.request = .note entry := by
  unfold remarks
  by_cases late : options.latenessWarning < Sample.lateness ⟨state.playhead.index, deadline, now⟩
  · simp [late, remark]
  · simp [late, remark]

theorem Concludes.tally {dispatch : Dispatch} {far : List (Exchange Request Request.Answer)}
    {progress : Progress} (concludes : Concludes options state dispatch far (.ok progress)) :
    progress.tally = { dispatch.tally with
      transfers := dispatch.tally.transfers + (loads far).length } := by
  cases concludes <;> rfl

theorem Round.Of.counts {round : Round} (isRound : Round.Of options state round)
    {progress : Progress} (goes : round.result = .ok progress) :
    ∃ fired, round.Fires fired ∧ progress.tally = state.tally.andThen
      (.of options.captureTiming fired (loads round.exchanges).length) := by
  cases isRound with
  | failed => cases goes
  | ended approaches =>
    cases goes
    refine ⟨[], ?_, ?_⟩
    · refine .nothing rfl ?_
      cases traces_approach.mp approaches <;> simp [Round.exchanges]
    · rw [Round.exchanges, List.append_nil, loads_eq_nil (traces_approach.mp approaches).noLoad,
        List.length_nil, Tally.of_nil, Tally.andThen_zero]
      cases traces_approach.mp approaches <;> rfl
  -- Nothing is loaded on the way to an instruction, so a transfer is counted behind it or not at all.
  | dispatched approaches concludes =>
    cases goes
    have quiet := loads_eq_nil (traces_approach.mp approaches).noLoad
    have counts := (traces_conclude.mp concludes).tally
    rw [Round.exchanges, loads_append, quiet, List.nil_append, counts]
    cases traces_approach.mp approaches with
    | dispatched current _ works =>
      refine ⟨_, .instruction rfl current rfl (notes_remarks _ _ _) works, ?_⟩
      simp [counted_eq, Tally.andThen, Tally.of]

variable {σ : Type} {answer : (request : Request) → σ → request.Answer × σ}

theorem fired_rounds (steps : Nat) (state : State) (surroundings : σ) {report : Report}
    (ends : ending (rounds options answer steps state surroundings) = .ok (some report)) :
    ∃ fired, Fired (rounds options answer steps state surroundings) fired ∧
      report.tally = state.tally.andThen (.of options.captureTiming fired
        (loads ((rounds options answer steps state surroundings).flatMap
          Round.exchanges)).length) := by
  -- The tally of the first round is what is counted before the others.
  induction steps generalizing state surroundings with
  | zero => cases ends
  | succ steps ih =>
    have isRound := round_of options answer state surroundings
    rw [rounds_succ] at ends ⊢
    generalize Playback.round options answer state surroundings = played at ends isRound ⊢
    rw [ending_further] at ends
    unfold further
    rcases came : played.1.result with error | (next | last)
    · rw [came] at ends
      cases ends
    · simp only [came] at ends ⊢
      obtain ⟨here, fires, counts⟩ := isRound.counts came
      obtain ⟨later, all, total⟩ := ih next played.2 ends
      refine ⟨here ++ later, .cons fires all, ?_⟩
      rw [total, show next.tally = _ from counts, Tally.andThen_assoc, ← Tally.of_append,
        List.flatMap_cons, loads_append, List.length_append]
    · simp only [came, Except.ok.injEq, Option.some.injEq] at ends
      subst ends
      obtain ⟨here, fires, counts⟩ := isRound.counts came
      refine ⟨here ++ [], .cons fires .nil, ?_⟩
      rw [List.append_nil, List.flatMap_singleton]
      exact counts

end

/-! ## Whole playbacks -/

section

variable {σ : Type} (options : Options) (hasLoader : Bool) (steps : Nat) (sequence : Sequence)
  (answer : (request : Request) → σ → request.Answer × σ) (surroundings : σ)

theorem loads_opening (now : Time) : loads (opening sequence now) = [] := rfl

theorem loads_closing (result : Except PlaybackError (Option Report)) :
    loads (closing result) = [] := by
  rcases result with error | (_ | report) <;> rfl

theorem play_unsampled (keep : Bool) :
    play { options with captureTiming := false } hasLoader steps sequence =
      Option.map (Report.recounted Tally.unsampled) <$>
        play { options with captureTiming := keep } hasLoader steps sequence := by
  unfold play
  simp only [map_bind]
  congr 1
  funext _
  congr 1
  funext now
  -- Where a playback starts there are no samples yet to be left out.
  have goes := playFrom_recounted (recounts_unsampled options keep)
    (starting sequence hasLoader now) steps
  change playFrom _ _ (starting sequence hasLoader now) >>= _ = _
  rw [show starting sequence hasLoader now =
    (starting sequence hasLoader now).recounted Tally.unsampled from rfl, goes, bind_map_left]
  congr 1
  funext reported
  cases reported <;> rfl

/-- Whatever the surroundings, a playback that ends reports what its rounds have done: it counts every
instruction that was dispatched and every sequence that was loaded, and tells the greatest lateness
of all that was fired. The samples, if they are kept, are of all that was fired, in order. If they
are not, then nothing else is asked or reported for that. -/
theorem play_reports {report : Report} :
    let history := history options hasLoader steps sequence answer surroundings
    let asked := (play options hasLoader steps sequence).run.transcript answer surroundings
    let ended := ((play options hasLoader steps sequence).run.run answer surroundings).1
    let sampled := (play { options with captureTiming := true } hasLoader steps sequence).run
    let unsampled := (play { options with captureTiming := false } hasLoader steps sequence).run
    ended = .ok (some report) →
    (∃ fired, Fired history.rounds fired ∧
      asked = opening sequence history.start ++ history.rounds.flatMap Round.exchanges ++
        closing ended ∧
      report.tally.executed = (dispatched history.rounds).length ∧
      report.tally.transfers = (loads asked).length ∧
      report.tally.maxLateness = (fired.map Sample.lateness).max?.getD 0 ∧
      (options.captureTiming = true → report.tally.samples.toList = fired ∧
        report.tally.samples.size = report.tally.executed ∧ report.tally.maxLateness =
          (report.tally.samples.toList.map Sample.lateness).max?.getD 0) ∧
      (options.captureTiming = false → report.tally.samples = #[])) ∧
    unsampled.transcript answer surroundings = sampled.transcript answer surroundings ∧
    unsampled.run answer surroundings =
      ((sampled.run answer surroundings).1.map
        (Option.map fun report => ⟨report.outcome, { report.tally with samples := #[] }⟩),
        (sampled.run answer surroundings).2) := by
  intro history asked ended sampled unsampled reports
  have told : ended = ending history.rounds := run_play ..
  have split : asked = opening sequence history.start ++ history.rounds.flatMap Round.exchanges
      ++ closing ended := told ▸ transcript_play ..
  -- Without samples it is the same playback, with its report told without them.
  have same : unsampled = sampled.bind fun result =>
      .done (result.map (Option.map (Report.recounted Tally.unsampled))) := by
    simp only [unsampled, sampled]
    rw [play_unsampled options hasLoader steps sequence true, run_map]
  obtain ⟨fired, all, counts⟩ := fired_rounds steps _ _ (told ▸ reports)
  have tallied : report.tally = .of options.captureTiming fired (loads asked).length := by
    rw [split, loads_append, loads_append, loads_opening, loads_closing, List.append_nil]
    exact counts.trans (Tally.zero_andThen _)
  refine ⟨⟨fired, all, split, ?_, ?_, ?_, ?_, ?_⟩, ?_, ?_⟩
  · rw [tallied]
    exact all.length
  · rw [tallied]
    rfl
  · rw [tallied]
    rfl
  · intro keeps
    rw [tallied, keeps]
    exact ⟨rfl, rfl, rfl⟩
  · intro drops
    rw [tallied, drops]
    rfl
  · rw [same, Interaction.transcript_bind]
    simp [Interaction.transcript]
  · rw [same, Interaction.run_bind]
    rfl

end

-- Two instructions are fired in the first sequence, one in the second and two in the third.
theorem play_reports_threeFiles :
    let ended := ((play ⟨1, true, 0⟩ true 9 firstOfThree).run.run shelf 100).1
    ∃ report, ended = .ok (some report) ∧
      report.tally.samples.toList.map Sample.index = [0, 1, 0, 0, 1] ∧
      report.tally.samples.toList.map Sample.lateness = [7, 14, 7, 7, 14] ∧
      report.tally.executed = 5 ∧ report.tally.transfers = 2 ∧ report.tally.maxLateness = 14 ∧
      report.tally.samples.size = report.tally.executed := by
  intro ended
  have reports : ended = .ok (some ⟨.stopped, ⟨5, 2, #[⟨0, 100, 107⟩, ⟨1, 100, 114⟩,
      ⟨0, 115, 122⟩, ⟨0, 2000123, 2000130⟩, ⟨1, 2000123, 2000137⟩], 14⟩⟩) := by rfl
  obtain ⟨⟨fired, -, -, -, -, -, kept, -⟩, -⟩ :=
    play_reports ⟨1, true, 0⟩ true 9 firstOfThree shelf 100 reports
  exact ⟨_, reports, by decide, by decide, rfl, rfl, rfl, (kept rfl).2.1⟩

end InputTape.Playback
