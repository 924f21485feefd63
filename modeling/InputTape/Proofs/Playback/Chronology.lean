import InputTape.Proofs.Playback.Endings
import InputTape.Proofs.Playback.Rounds

/-! Time goes on in a playback.

If the clock never goes back, and no wait is over before its deadline, then no deadline lies before
an earlier one. Within a run the gaps and delays only add to a deadline. Where the schedule starts
anew, it starts from a reading of the clock, and the clock has passed the deadlines by then. So no
instruction is fired before it is due, and its lateness is what has passed since.
-/

set_option autoImplicit false

namespace InputTape.Playback

open Interaction (Traces Exchange)

/-! ## The clock -/

/-- What an exchange tells of the time: it is at least that late behind it. -/
def past? : Exchange Request Request.Answer → Option Time
  | ⟨.clock, now⟩ => some now
  | ⟨.wait deadline, .reached⟩ => some deadline
  | _ => none

def reading? : Exchange Request Request.Answer → Option Time
  | ⟨.clock, now⟩ => some now
  | _ => none

/-- The clock never goes back, and no wait is over before its deadline: whatever the clock is read
as, that is not before an earlier reading or a deadline that was reached. -/
def ClockGoesOn (exchanges : List (Exchange Request Request.Answer)) : Prop :=
  exchanges.Pairwise fun earlier later =>
    ∀ known ∈ past? earlier, ∀ now ∈ reading? later, known ≤ now

instance : DecidablePred ClockGoesOn := fun exchanges => by
  unfold ClockGoesOn
  infer_instance

section

variable {first second : List (Exchange Request Request.Answer)} {deadline now : Time}

theorem ClockGoesOn.left (goesOn : ClockGoesOn (first ++ second)) : ClockGoesOn first :=
  (List.pairwise_append.mp goesOn).1

theorem ClockGoesOn.right (goesOn : ClockGoesOn (first ++ second)) : ClockGoesOn second :=
  (List.pairwise_append.mp goesOn).2.1

theorem ClockGoesOn.le (goesOn : ClockGoesOn (first ++ second))
    (waited : ⟨.wait deadline, .reached⟩ ∈ first) (read : ⟨.clock, now⟩ ∈ second) :
    deadline ≤ now :=
  (List.pairwise_append.mp goesOn).2.2 _ waited _ read deadline rfl now rfl

end

/-! ## Rounds -/

def Tally.IsLate (tally : Tally) : Prop :=
  ∀ sample ∈ tally.samples, sample.scheduled ≤ sample.actual

structure Chronological (state : State) (round : Round) : Prop where
  /-- Its deadlines lie in order, and behind those before. -/
  ordered : (waits round.exchanges).Pairwise (· ≤ ·)
  behind : ∀ deadline ∈ waits round.exchanges, state.scheduled ≤ deadline
  /-- Whatever comes next is due behind them. -/
  onward : ∀ next, round.result = .ok (.playing next) → state.scheduled ≤ next.scheduled ∧
    ∀ deadline ∈ waits round.exchanges, deadline ≤ next.scheduled
  /-- An instruction is fired when it is due or later. -/
  fired : ∀ now ∈ readings round.near, ∃ deadline, waits round.near = [deadline] ∧ deadline ≤ now
  late : state.tally.IsLate → (∀ next, round.result = .ok (.playing next) → next.tally.IsLate) ∧
    ∀ report, round.result = .ok (.ended report) → report.tally.IsLate

section

variable {options : Options} {state : State} {instruction : Instruction} {deadline now : Time}
  {asked near far : List (Exchange Request Request.Answer)}

theorem le_of_after? {time later : Time} {milliseconds : Float}
    (moved : options.after? time milliseconds = some later) : time ≤ later := by
  obtain ⟨wait, -, rfl⟩ := after?_eq_some moved
  exact Nat.le_add_right time wait

theorem mem_leadIn : ⟨.wait deadline, .reached⟩ ∈ leadIn options state instruction deadline now :=
  List.mem_cons_of_mem _ List.mem_cons_self

theorem le_of_leadIn (goesOn : ClockGoesOn (leadIn options state instruction deadline now ++ asked)) :
    deadline ≤ now := by
  have cut : leadIn options state instruction deadline now =
      [⟨.isCancelled, false⟩, ⟨.wait deadline, .reached⟩] ++
        ⟨.clock, now⟩ :: remarks options state instruction deadline now := rfl
  have goesOn := goesOn.left
  rw [cut] at goesOn
  exact goesOn.le (List.mem_cons_of_mem _ List.mem_cons_self) List.mem_cons_self

theorem isLate_counted (late : state.tally.IsLate) (behind : deadline ≤ now) :
    (counted options state deadline now).IsLate := by
  intro sample member
  unfold counted Tally.record at member
  simp only at member
  split at member
  · rcases Array.mem_push.mp member with before | rfl
    · exact late sample before
    · exact behind
  · exact late sample member

/-- An approach that does nothing waits at most for a time that is not before the schedule. -/
theorem chronological_without {result : Except PlaybackError Progress}
    (still : readings near = [])
    (waited : waits near = [] ∨ ∃ deadline, waits near = [deadline] ∧ state.scheduled ≤ deadline)
    (stays : ∀ next, result ≠ .ok (.playing next))
    (kept : ∀ report, result = .ok (.ended report) → report.tally = state.tally) :
    Chronological state ⟨state.playhead, none, near, [], result⟩ := by
  have behind : ∀ deadline ∈ waits (near ++ []), state.scheduled ≤ deadline := by
    intro deadline member
    rw [List.append_nil] at member
    rcases waited with none | ⟨only, same, after⟩
    · rw [none] at member
      cases member
    · rw [same, List.mem_singleton] at member
      exact member ▸ after
  refine ⟨?_, behind, fun next playing => absurd playing (stays next), ?_, fun late => ?_⟩
  · rw [Round.exchanges, List.append_nil]
    rcases waited with none | ⟨only, same, -⟩
    · rw [none]
      exact .nil
    · rw [same]
      exact List.pairwise_singleton _ _
  · intro now read
    rw [still] at read
    cases read
  · refine ⟨fun next playing => absurd playing (stays next), fun report ended => ?_⟩
    rw [kept report ended]
    exact late

/-- An instruction that fails was fired when it was due or later. -/
theorem chronological_failed {failure : Failure} {error : PlaybackError}
    (due : options.after? state.scheduled instruction.gap = some deadline)
    (works : (execute state.playhead instruction.operation).run.Traces asked (.error failure))
    (goesOn : ClockGoesOn (leadIn options state instruction deadline now ++ asked)) :
    Chronological state ⟨state.playhead, none,
      leadIn options state instruction deadline now ++ asked, [], .error error⟩ := by
  obtain ⟨noWait, noReading⟩ := still_execute works
  have waited : waits (leadIn options state instruction deadline now ++ asked) = [deadline] := by
    rw [waits_append, waits_leadIn, noWait, List.append_nil]
  have read : readings (leadIn options state instruction deadline now ++ asked) = [now] := by
    rw [readings_append, readings_leadIn, noReading, List.append_nil]
  refine ⟨?_, ?_, nofun, ?_, fun _ => ⟨nofun, nofun⟩⟩
  · rw [Round.exchanges, List.append_nil, waited]
    exact List.pairwise_singleton _ _
  · rw [Round.exchanges, List.append_nil, waited]
    exact List.forall_mem_singleton.mpr (le_of_after? due)
  · rw [read]
    exact List.forall_mem_singleton.mpr ⟨deadline, waited, le_of_leadIn goesOn⟩

theorem Concludes.chronological {dispatch : Dispatch} {result : Except PlaybackError Progress}
    (concludes : Concludes options state dispatch far result)
    (waited : ⟨.wait dispatch.deadline, .reached⟩ ∈ near) (goesOn : ClockGoesOn (near ++ far)) :
    (waits far).Pairwise (· ≤ ·) ∧ (∀ later ∈ waits far, dispatch.deadline ≤ later) ∧
      (∀ next, result = .ok (.playing next) →
        waits far = [] ∧ dispatch.deadline ≤ next.scheduled ∧
          next.tally.samples = dispatch.tally.samples) ∧
      ∀ report, result = .ok (.ended report) → report.tally = dispatch.tally := by
  cases concludes with
  | tooLong | outside | noLoader | notLoaded => exact ⟨.nil, nofun, nofun, nofun⟩
  | next _ moved =>
    refine ⟨.nil, nofun, ?_, nofun⟩
    rintro _ ⟨⟩
    exact ⟨rfl, le_of_after? moved, rfl⟩
  | completed | stopped =>
    refine ⟨.nil, nofun, nofun, ?_⟩
    rintro _ ⟨⟩
    rfl
  | waited _ moved | interrupted _ moved =>
    refine ⟨List.pairwise_singleton _ _, List.forall_mem_singleton.mpr (le_of_after? moved),
      nofun, ?_⟩
    rintro _ ⟨⟩
    rfl
  -- The schedule starts anew from a reading behind the wait for the instruction.
  | jumped =>
    refine ⟨.nil, nofun, ?_, nofun⟩
    rintro _ ⟨⟩
    exact ⟨rfl, goesOn.le waited List.mem_cons_self, rfl⟩
  | transferred =>
    refine ⟨.nil, nofun, ?_, nofun⟩
    rintro _ ⟨⟩
    exact ⟨rfl, goesOn.le waited (by simp), rfl⟩

theorem chronological_dispatched {directive : Directive}
    {result : Except PlaybackError Progress}
    (due : options.after? state.scheduled instruction.gap = some deadline)
    (works : (execute state.playhead instruction.operation).run.Traces asked (.ok directive))
    (concludes : Concludes options state
      ⟨instruction, deadline, directive, counted options state deadline now⟩ far result)
    (goesOn : ClockGoesOn ((leadIn options state instruction deadline now ++ asked) ++ far)) :
    Chronological state ⟨state.playhead,
      some ⟨instruction, deadline, directive, counted options state deadline now⟩,
      leadIn options state instruction deadline now ++ asked, far, result⟩ := by
  obtain ⟨noWait, noReading⟩ := still_execute works
  have waited : waits (leadIn options state instruction deadline now ++ asked) = [deadline] := by
    rw [waits_append, waits_leadIn, noWait, List.append_nil]
  have read : readings (leadIn options state instruction deadline now ++ asked) = [now] := by
    rw [readings_append, readings_leadIn, noReading, List.append_nil]
  obtain ⟨ordered, behind, onward, ended⟩ :=
    concludes.chronological (List.mem_append_left _ mem_leadIn) goesOn
  have since : state.scheduled ≤ deadline := le_of_after? due
  have fired : deadline ≤ now := le_of_leadIn goesOn.left
  refine ⟨?_, ?_, ?_, ?_, fun late => ⟨?_, ?_⟩⟩
  · rw [Round.exchanges, waits_append, waited]
    exact List.pairwise_cons.mpr ⟨behind, ordered⟩
  · rw [Round.exchanges, waits_append, waited]
    exact List.forall_mem_cons.mpr ⟨since, fun later member =>
      Nat.le_trans since (behind later member)⟩
  · intro next playing
    obtain ⟨none, after, -⟩ := onward next playing
    rw [Round.exchanges, waits_append, waited, none]
    exact ⟨Nat.le_trans since after, List.forall_mem_singleton.mpr after⟩
  · rw [read]
    exact List.forall_mem_singleton.mpr ⟨deadline, waited, fired⟩
  · intro next playing
    unfold Tally.IsLate
    rw [(onward next playing).2.2]
    exact isLate_counted late fired
  · intro report ends
    rw [ended report ends]
    exact isLate_counted late fired

theorem chronological_round {round : Round} (played : Round.Of options state round)
    (goesOn : ClockGoesOn round.exchanges) : Chronological state round := by
  cases played with
  | failed traces =>
    rw [Round.exchanges, List.append_nil] at goesOn
    cases traces_approach.mp traces with
    | tooLong => exact chronological_without rfl (.inl rfl) nofun nofun
    | failed _ due works => exact chronological_failed due works goesOn
  | ended traces =>
    cases traces_approach.mp traces with
    | cancelled | completed =>
      refine chronological_without rfl (.inl rfl) nofun ?_
      rintro _ ⟨⟩
      rfl
    | interrupted _ due =>
      refine chronological_without rfl (.inr ⟨_, rfl, le_of_after? due⟩) nofun ?_
      rintro _ ⟨⟩
      rfl
  | dispatched traces concluded =>
    cases traces_approach.mp traces with
    | dispatched _ due works =>
      exact chronological_dispatched due works (traces_conclude.mp concluded) goesOn

end

/-! ## Whole playbacks -/

section

variable {σ : Type} (options : Options)
  (answer : (request : Request) → σ → request.Answer × σ)

structure AllChronological (state : State) (rounds : List Round) : Prop where
  ordered : (waits (rounds.flatMap Round.exchanges)).Pairwise (· ≤ ·)
  behind : ∀ deadline ∈ waits (rounds.flatMap Round.exchanges), state.scheduled ≤ deadline
  fired : ∀ round ∈ rounds, ∀ now ∈ readings round.near,
    ∃ deadline, waits round.near = [deadline] ∧ deadline ≤ now
  late : ∀ report, ending rounds = .ok (some report) → report.tally.IsLate

theorem allChronological_nil (state : State) : AllChronological state [] where
  ordered := .nil
  behind _ member := by cases member
  fired _ member := by cases member
  late _ ended := by cases ended

theorem Chronological.last {state : State} {round : Round}
    (chronological : Chronological state round) (late : state.tally.IsLate) :
    AllChronological state [round] := by
  refine ⟨?_, ?_, List.forall_mem_singleton.mpr chronological.fired, fun report ended => ?_⟩
  · rw [List.flatMap_singleton]
    exact chronological.ordered
  · rw [List.flatMap_singleton]
    exact chronological.behind
  · refine (chronological.late late).2 report ?_
    simp only [ending, List.getLast?_singleton, Option.map_some] at ended
    split at ended
    · cases ended
    · next same =>
      cases ended
      exact Option.some.inj same
    · cases ended

theorem Chronological.cons {state next : State} {round : Round} {more : List Round}
    (chronological : Chronological state round) (playing : round.result = .ok (.playing next))
    (rest : AllChronological next more) : AllChronological state (round :: more) := by
  obtain ⟨since, before⟩ := chronological.onward next playing
  refine ⟨?_, ?_, List.forall_mem_cons.mpr ⟨chronological.fired, rest.fired⟩, ?_⟩
  · rw [List.flatMap_cons, waits_append]
    refine List.pairwise_append.mpr ⟨chronological.ordered, rest.ordered, ?_⟩
    intro deadline member other further
    exact Nat.le_trans (before deadline member) (rest.behind other further)
  · rw [List.flatMap_cons, waits_append]
    refine List.forall_mem_append.mpr ⟨chronological.behind, fun deadline member => ?_⟩
    exact Nat.le_trans since (rest.behind deadline member)
  · rw [ending_cons _ playing]
    exact rest.late

theorem allChronological_rounds (steps : Nat) (state : State) (surroundings : σ)
    (late : state.tally.IsLate)
    (goesOn : ClockGoesOn
      ((rounds options answer steps state surroundings).flatMap Round.exchanges)) :
    AllChronological state (rounds options answer steps state surroundings) := by
  induction steps generalizing state surroundings with
  | zero => exact allChronological_nil state
  | succ steps ih =>
    have isRound := round_of options answer state surroundings
    rw [rounds_succ] at goesOn ⊢
    generalize Playback.round options answer state surroundings = played at goesOn isRound ⊢
    rw [List.flatMap_cons] at goesOn
    have chronological := chronological_round isRound goesOn.left
    have here := chronological.late late
    unfold further at goesOn ⊢
    rcases came : played.1.result with error | (next | report)
    · exact chronological.last late
    · simp only [came] at goesOn
      exact chronological.cons came (ih next played.2 (here.1 next came) goesOn.right)
    · exact chronological.last late

theorem waits_closing (ended : Except PlaybackError (Option Report)) :
    waits (closing ended) = [] := by
  rcases ended with error | (_ | report) <;> rfl

/-- With a clock that never goes back, and waits that are over only when their deadline has come, the
deadlines of a whole playback lie in order, and nothing is fired before it is due. So no lateness
is cut off: fired is when it was due and so much later. -/
theorem play_chronological (hasLoader : Bool) (steps : Nat) (sequence : Sequence) (surroundings : σ) :
    let history := history options hasLoader steps sequence answer surroundings
    let asked := (play options hasLoader steps sequence).run.transcript answer surroundings
    let ended := ((play options hasLoader steps sequence).run.run answer surroundings).1
    ClockGoesOn asked →
    (waits asked).Pairwise (· ≤ ·) ∧
    (∀ round ∈ history.rounds, ∀ now ∈ readings round.near,
      ∃ deadline, waits round.near = [deadline] ∧ deadline ≤ now) ∧
    ∀ report, ended = .ok (some report) → ∀ sample ∈ report.tally.samples,
      sample.scheduled ≤ sample.actual ∧ sample.scheduled + sample.lateness = sample.actual := by
  intro history asked ended goesOn
  have told : ended = ending history.rounds := run_play ..
  have split : asked = opening sequence history.start ++ history.rounds.flatMap Round.exchanges
      ++ closing (ending history.rounds) := transcript_play ..
  rw [split] at goesOn ⊢
  have fresh : (starting sequence hasLoader history.start).tally.IsLate := by
    intro sample member
    cases Array.not_mem_empty sample member
  have all := allChronological_rounds options answer steps _ _ fresh goesOn.left.right
  refine ⟨?_, all.fired, fun report reported sample member => ?_⟩
  · rw [waits_append, waits_append, waits_closing, List.append_nil]
    exact all.ordered
  · rw [told] at reported
    have behind : sample.scheduled ≤ sample.actual := all.late report reported sample member
    exact ⟨behind, Nat.add_sub_cancel' behind⟩

end

def skipping : Sequence :=
  ⟨#[⟨10, none, .delay 20⟩, ⟨-5, none, .jump none (some 2)⟩, ⟨1, none, .delay 3⟩]⟩

-- The clock is seven late behind the wait for the jump, and the schedule goes on from there.
theorem play_chronological_late :
    let asked := (play ⟨1, true, 0⟩ false 4 skipping).run.transcript late 100
    ClockGoesOn asked ∧ waits asked = [10000100, 30000100, 31000107, 34000107] ∧
      (waits asked).Pairwise (· ≤ ·) := by
  intro asked
  have goesOn : ClockGoesOn asked := by decide
  exact ⟨goesOn, by decide, (play_chronological ⟨1, true, 0⟩ late false 4 skipping 100 goesOn).1⟩

end InputTape.Playback
