import InputTape.Proofs.Playback.Counting
import InputTape.Proofs.Playback.FailStop

/-! A transfer leads nowhere back.

A playback that transfers to another sequence goes on as if that sequence were played from its
start, with nothing counted yet, in the surroundings that were left by then. Nothing is done behind
that, and what was counted before is only added to. So a playback is a chain of legs, one for each
sequence that it comes to, and its result is that of the last leg with all counts put together.
-/

set_option autoImplicit false

namespace InputTape.Playback

open Interaction (Exchange replay replay_append)

/-! ## Loading -/

def loaded? : Exchange Request Request.Answer → Option (FilePath × Sequence)
  | ⟨.load path, .ok sequence⟩ => some (path, sequence)
  | _ => none

def loads (exchanges : List (Exchange Request Request.Answer)) : List (FilePath × Sequence) :=
  exchanges.filterMap loaded?

def transferNote (path : FilePath) (target : Sequence) : Exchange Request Request.Answer :=
  remark .info ("transferring to " ++ path ++ " (" ++ toString target.size ++ " instructions)")

structure Round.Transfers (round : Round) (dispatch : Dispatch) (path : FilePath)
    (target : Sequence) (now : Time) : Prop where
  does : round.dispatch = some dispatch
  leads : ∃ name, dispatch.directive = .transfer name ∧ path = round.playhead.resolve name
  quiet : loads round.near = []
  asks : round.far = [⟨.load path, .ok target⟩, transferNote path target, ⟨.clock, now⟩]
  goesOn : round.result = .ok (.playing ⟨.start target path.parent? round.playhead.hasLoader, now,
    { dispatch.tally with transfers := dispatch.tally.transfers + 1 }⟩)

section

variable {options : Options} {state : State} {round : Round}

theorem loads_append (first second : List (Exchange Request Request.Answer)) :
    loads (first ++ second) = loads first ++ loads second := List.filterMap_append ..

theorem loads_eq_nil {exchanges : List (Exchange Request Request.Answer)}
    (none : ∀ exchange ∈ exchanges, NoLoad exchange.request) : loads exchanges = [] := by
  rw [loads, List.filterMap_eq_nil_iff]
  intro exchange member
  unfold loaded?
  split
  · exact absurd rfl (none _ member _)
  · rfl

theorem exists_first_load {rounds : List Round}
    (some : loads (rounds.flatMap Round.exchanges) ≠ []) :
    ∃ earlier first later, rounds = earlier ++ first :: later ∧
      loads (earlier.flatMap Round.exchanges) = [] ∧ loads first.exchanges ≠ [] := by
  induction rounds with
  | nil => exact absurd rfl some
  | cons first more ih =>
    rw [List.flatMap_cons, loads_append] at some
    by_cases here : loads first.exchanges = []
    · rw [here, List.nil_append] at some
      obtain ⟨earlier, next, later, rfl, before, loads⟩ := ih some
      exact ⟨first :: earlier, next, later, rfl, by simp [loads_append, here, before], loads⟩
    · exact ⟨[], first, more, rfl, rfl, here⟩

theorem exists_behind {α : Type} {first second before after : List α} {value : α}
    (same : first ++ second = before ++ value :: after) (absent : value ∉ first) :
    ∃ more, before = first ++ more ∧ second = more ++ value :: after := by
  rcases List.append_eq_append_iff.mp same with ⟨more, rfl, rfl⟩ | ⟨more, rfl, rest⟩
  · exact ⟨more, rfl, rfl⟩
  · cases more with
    | nil => exact ⟨[], by simp, rest.symm⟩
    | cons one more =>
      obtain ⟨rfl, -⟩ := List.cons.inj rest
      simp at absent

theorem exists_before {α : Type} {first second before after : List α} {value : α}
    (same : first ++ second = before ++ value :: after) (absent : value ∉ second) :
    ∃ more, first = before ++ value :: more ∧ after = more ++ second := by
  rcases List.append_eq_append_iff.mp same with ⟨more, -, rfl⟩ | ⟨more, rfl, rest⟩
  · simp at absent
  · cases more with
    | nil =>
      rw [List.nil_append] at rest
      rw [← rest] at absent
      simp at absent
    | cons one more =>
      obtain ⟨rfl, rfl⟩ := List.cons.inj rest
      exact ⟨more, rfl, rfl⟩

theorem Round.Of.transfers (isRound : Round.Of options state round)
    (some : loads round.exchanges ≠ []) :
    ∃ dispatch path target now, round.Transfers dispatch path target now := by
  cases isRound with
  | ended approaches | failed approaches =>
    rw [Round.exchanges, List.append_nil, loads_eq_nil (traces_approach.mp approaches).noLoad] at some
    exact absurd rfl some
  | dispatched approaches concludes =>
    have quiet := loads_eq_nil (traces_approach.mp approaches).noLoad
    rw [Round.exchanges, loads_append, quiet, List.nil_append] at some
    cases traces_conclude.mp concludes with
    | transferred leads => exact ⟨_, _, _, _, rfl, ⟨_, leads, rfl⟩, quiet, rfl, rfl⟩
    | _ => exact absurd rfl some

theorem Round.Of.moves (isRound : Round.Of options state round) :
    (loads round.exchanges = [] ∧
      ∃ index, (round.leaves state).playhead = { state.playhead with index := index }) ∨
    ∃ path target, loads round.exchanges = [(path, target)] ∧
      (round.leaves state).playhead = .start target path.parent? state.playhead.hasLoader := by
  cases isRound with
  | ended approaches | failed approaches =>
    rw [Round.exchanges, List.append_nil, loads_eq_nil (traces_approach.mp approaches).noLoad]
    exact .inl ⟨rfl, state.playhead.index, rfl⟩
  | dispatched approaches concludes =>
    rw [Round.exchanges, loads_append, loads_eq_nil (traces_approach.mp approaches).noLoad]
    cases traces_conclude.mp concludes with
    | next _ _ advanced => exact .inl ⟨rfl, _, Playhead.advance?_eq_some advanced⟩
    | jumped _ jumped => exact .inl ⟨rfl, _, Playhead.jump_eq_ok jumped⟩
    | transferred => exact .inr ⟨_, _, rfl, rfl⟩
    | _ => exact .inl ⟨rfl, state.playhead.index, rfl⟩

theorem Round.Of.hasLoader (isRound : Round.Of options state round) :
    (round.leaves state).playhead.hasLoader = state.playhead.hasLoader := by
  rcases isRound.moves with ⟨-, index, same⟩ | ⟨path, target, -, same⟩
  · rw [same]
  · rw [same]
    rfl

theorem Round.Of.playhead (isRound : Round.Of options state round) :
    round.playhead = state.playhead := by
  cases isRound <;> rfl

theorem standing_hasLoader {σ : Type} {answer : (request : Request) → σ → request.Answer × σ}
    {steps : Nat} {surroundings : σ} {earlier later : List Round}
    (split : rounds options answer steps state surroundings = earlier ++ later) :
    (standing state earlier).playhead.hasLoader = state.playhead.hasLoader := by
  refine standing_of (motive := fun standing _ =>
    standing.playhead.hasLoader = state.playhead.hasLoader) options answer rfl ?_ split
  intro before _ round same isRound
  rw [isRound.hasLoader, same]

end

/-! ## Legs -/

section

variable {σ : Type} (options : Options) (answer : (request : Request) → σ → request.Answer × σ)
  (steps : Nat) (state : State) (before : Tally) (surroundings : σ)

def combined (before : Tally) (result : Except PlaybackError (Option Report)) :
    Except PlaybackError (Option Report) :=
  result.map (Option.map (·.behind before))

@[simp] theorem combined_zero (result : Except PlaybackError (Option Report)) :
    combined .zero result = result := by
  rcases result with error | (_ | report) <;> simp [combined, Except.map, Report.behind]

theorem combined_combined (first second : Tally) (result : Except PlaybackError (Option Report)) :
    combined first (combined second result) = combined (first.andThen second) result := by
  rcases result with error | (_ | report) <;>
    simp [combined, Except.map, Report.behind, Tally.andThen_assoc]

theorem ending_rounds_behind :
    ending (rounds options answer steps (state.behind before) surroundings) =
      combined before (ending (rounds options answer steps state surroundings)) := by
  rw [← run_playFrom, ← run_playFrom, playFrom_behind, run_map, Interaction.run_bind]
  rfl

theorem exchanges_rounds_behind :
    (rounds options answer steps (state.behind before) surroundings).flatMap Round.exchanges =
      (rounds options answer steps state surroundings).flatMap Round.exchanges := by
  rw [← transcript_playFrom, ← transcript_playFrom, playFrom_behind, run_map,
    Interaction.transcript_bind]
  simp [Interaction.transcript]

end

/-- A sequence to be played from its start, with nothing counted yet. -/
structure Leg (σ : Type) where
  sequence : Sequence
  /-- Where its relative paths are looked up. -/
  origin : Option FilePath
  steps : Nat
  surroundings : σ

namespace Leg

variable {σ : Type} (options : Options) (hasLoader : Bool)
  (answer : (request : Request) → σ → request.Answer × σ) (leg : Leg σ)

def start : State :=
  ⟨.start leg.sequence leg.origin hasLoader, (answer .clock leg.surroundings).1, .zero⟩

/-- The schedule of a leg starts from the clock. -/
def attempt : Play (Option Report) := do
  playFrom options leg.steps ⟨.start leg.sequence leg.origin hasLoader, ← ask .clock, .zero⟩

def result : Except PlaybackError (Option Report) :=
  ((leg.attempt options hasLoader).run.run answer leg.surroundings).1

def asked : List (Exchange Request Request.Answer) :=
  (leg.attempt options hasLoader).run.transcript answer leg.surroundings

def rounds : List Round :=
  Playback.rounds options answer leg.steps (leg.start hasLoader answer)
    (answer .clock leg.surroundings).2

theorem result_eq : leg.result options hasLoader answer = ending (leg.rounds options hasLoader answer) :=
  run_playFrom ..

theorem asked_eq : leg.asked options hasLoader answer =
    ⟨.clock, (answer .clock leg.surroundings).1⟩ ::
      (leg.rounds options hasLoader answer).flatMap Round.exchanges :=
  congrArg (_ :: ·) (transcript_playFrom ..)

/-- A leg leads to another with the first of its rounds that loads a sequence: what it has counted
by then, what was asked, and the leg that comes behind it. -/
inductive HandsOver : Tally → List (Exchange Request Request.Answer) → Leg σ → Prop where
  | transfer {earlier later : List Round} {round : Round} {dispatch : Dispatch} {path : FilePath}
      {target : Sequence} {now : Time} {left : Nat}
      {asked : List (Exchange Request Request.Answer)} :
      leg.rounds options hasLoader answer = earlier ++ round :: later →
      leg.steps = earlier.length + left + 1 → loads (earlier.flatMap Round.exchanges) = [] →
      round.Transfers dispatch path target now →
      asked = ⟨.clock, (answer .clock leg.surroundings).1⟩ :: earlier.flatMap Round.exchanges ++
        round.near ++ [⟨.load path, .ok target⟩, transferNote path target] →
      HandsOver { dispatch.tally with transfers := dispatch.tally.transfers + 1 } asked
        ⟨target, path.parent?, left, replay answer asked leg.surroundings⟩

/-- Legs one behind the other: what each of them has counted, all that was asked in them, and the
leg that comes behind them. -/
inductive Chain : Leg σ → List Tally → List (Exchange Request Request.Answer) → Leg σ → Prop where
  | here {leg : Leg σ} : Chain leg [] [] leg
  | onward {leg next last : Leg σ} {tally : Tally} {tallies : List Tally}
      {asked more : List (Exchange Request Request.Answer)} :
      leg.HandsOver options hasLoader answer tally asked next → Chain next tallies more last →
      Chain leg (tally :: tallies) (asked ++ more) last

variable {options hasLoader answer leg} {next last : Leg σ} {tally : Tally} {tallies : List Tally}
  {front : List (Exchange Request Request.Answer)}

/-- Behind a transfer a leg has the rounds of the next leg, with more counted before. -/
theorem HandsOver.rounds (hands : leg.HandsOver options hasLoader answer tally front next) :
    ∃ earlier round playing later,
      leg.rounds options hasLoader answer = earlier ++ round :: later ∧
      round.result = .ok (.playing playing) ∧
      ⟨.clock, (answer .clock leg.surroundings).1⟩ ::
          earlier.flatMap Round.exchanges ++ round.exchanges =
        front ++ [⟨.clock, (answer .clock next.surroundings).1⟩] ∧
      later = Playback.rounds options answer next.steps ((next.start hasLoader answer).behind tally)
        (answer .clock next.surroundings).2 := by
  cases hands with
  | @transfer earlier later round dispatch path target now left front split count none transfers same =>
    obtain ⟨rest, counted, here, behind⟩ := rounds_split options answer _ _ _ split
    obtain rfl : left = rest := by omega
    have whole : round.exchanges = (round.near ++
        [⟨.load path, .ok target⟩, transferNote path target]) ++ [⟨.clock, now⟩] := by
      rw [Round.exchanges, transfers.asks, List.append_assoc]
      rfl
    have all : ⟨.clock, (answer .clock leg.surroundings).1⟩ ::
        earlier.flatMap Round.exchanges ++ round.exchanges = front ++ [⟨.clock, now⟩] := by
      rw [same, whole]
      simp
    -- The clock is read in what was left of the surroundings by then.
    have told : now = (answer .clock (replay answer front leg.surroundings)).1 := by
      have steps := (round_step options answer (standing (leg.start hasLoader answer) earlier)
        (replay answer (earlier.flatMap Round.exchanges) (answer .clock leg.surroundings).2)).2
      rw [← here, whole] at steps
      rw [same]
      simpa [replay] using Interaction.answer_of_transcript steps
    have loader : round.playhead.hasLoader = hasLoader := by
      rw [(Round.Of.of_split split).playhead]
      exact standing_hasLoader split
    have remains : replay answer (earlier.flatMap Round.exchanges ++ round.exchanges)
        (answer .clock leg.surroundings).2 =
          (answer .clock (replay answer front leg.surroundings)).2 := by
      have replayed := congrArg (replay answer · leg.surroundings) all
      simp only [replay_append answer front] at replayed
      exact replayed
    refine ⟨earlier, round, _, later, split, transfers.goesOn, ?_, ?_⟩
    · rw [all, told]
    · rw [behind, further, transfers.goesOn, loader, remains]
      simp [start, State.behind, ← told]

theorem HandsOver.result (hands : leg.HandsOver options hasLoader answer tally front next) :
    leg.result options hasLoader answer = combined tally (next.result options hasLoader answer) := by
  obtain ⟨earlier, round, playing, later, split, plays, -, rest⟩ := hands.rounds
  rw [result_eq, split, ending_behind earlier plays, rest, ending_rounds_behind, result_eq]
  rfl

theorem HandsOver.asked (hands : leg.HandsOver options hasLoader answer tally front next) :
    leg.asked options hasLoader answer = front ++ next.asked options hasLoader answer := by
  obtain ⟨earlier, round, playing, later, split, -, same, rest⟩ := hands.rounds
  calc leg.asked options hasLoader answer
      = (⟨.clock, (answer .clock leg.surroundings).1⟩ :: earlier.flatMap Round.exchanges ++
          round.exchanges) ++ later.flatMap Round.exchanges := by
        rw [asked_eq, split]
        simp
    _ = front ++ next.asked options hasLoader answer := by
        rw [same, rest, exchanges_rounds_behind, asked_eq]
        simp [Leg.rounds]

theorem HandsOver.steps_lt (hands : leg.HandsOver options hasLoader answer tally front next) :
    next.steps < leg.steps := by
  cases hands
  simp only
  omega

/-- Along a chain nothing comes behind the last leg, and only the counts of the others are added to
what it comes to. -/
theorem Chain.result (chain : Chain options hasLoader answer leg tallies front last) :
    leg.result options hasLoader answer =
      combined (Tally.total tallies) (last.result options hasLoader answer) := by
  induction chain with
  | here => simp
  | onward hands _ ih => rw [hands.result, ih, combined_combined, Tally.total_cons]

theorem Chain.asked (chain : Chain options hasLoader answer leg tallies front last) :
    leg.asked options hasLoader answer = front ++ last.asked options hasLoader answer := by
  induction chain with
  | here => simp
  | onward hands _ ih => rw [hands.asked, ih, List.append_assoc]

theorem exists_handsOver (some : loads (leg.asked options hasLoader answer) ≠ []) :
    ∃ tally before path target left, loads before = [] ∧
      let front := before ++ [⟨.load path, .ok target⟩, transferNote path target]
      leg.HandsOver options hasLoader answer tally front
        ⟨target, path.parent?, left, replay answer front leg.surroundings⟩ := by
  rw [asked_eq] at some
  obtain ⟨earlier, round, later, split, none, loads⟩ := exists_first_load some
  obtain ⟨left, count, -, -⟩ := rounds_split options answer _ _ _ split
  obtain ⟨dispatch, path, target, now, transfers⟩ := (Round.Of.of_split split).transfers loads
  refine ⟨_, ⟨.clock, (answer .clock leg.surroundings).1⟩ :: earlier.flatMap Round.exchanges ++
    round.near, path, target, left, ?_, .transfer split count none transfers rfl⟩
  rw [loads_append, transfers.quiet, List.append_nil]
  exact none

/-- Whatever is loaded on the way, a chain leads there. -/
theorem exists_chain {before after : List (Exchange Request Request.Answer)} {path : FilePath}
    {target : Sequence}
    (split : leg.asked options hasLoader answer = before ++ ⟨.load path, .ok target⟩ :: after) :
    ∃ tallies left, tallies.length = (loads before).length + 1 ∧
      let front := before ++ [⟨.load path, .ok target⟩, transferNote path target]
      Chain options hasLoader answer leg tallies front
        ⟨target, path.parent?, left, replay answer front leg.surroundings⟩ := by
  induction remaining : leg.steps using Nat.strongRecOn generalizing leg before with
  | ind steps ih =>
    have some : loads (leg.asked options hasLoader answer) ≠ [] := by
      simp [split, loads, loaded?]
    obtain ⟨tally, front, first, next, left, none, hands⟩ := exists_handsOver some
    have absent : ⟨.load path, .ok target⟩ ∉ front := by
      intro member
      have found : (path, target) ∈ loads front := List.mem_filterMap.mpr ⟨_, member, rfl⟩
      rw [none] at found
      cases found
    have both := hands.asked.symm.trans split
    rw [List.append_assoc] at both
    obtain ⟨more, rfl, rest⟩ := exists_behind both absent
    -- Either this is what the leg itself loads, or a later leg loads it.
    cases more with
    | nil =>
      obtain ⟨⟨⟩, -⟩ := List.cons.inj rest
      exact ⟨[tally], left, by simp [none], by simpa using Chain.onward hands .here⟩
    | cons _ more =>
      obtain ⟨rfl, behind⟩ := List.cons.inj rest
      have unlike : ⟨.load path, .ok target⟩ ∉ [transferNote first next] := by
        simp [transferNote, remark]
      obtain ⟨more, rfl, later⟩ := exists_behind behind unlike
      obtain ⟨tallies, again, count, chain⟩ := ih _ (remaining ▸ hands.steps_lt) later rfl
      refine ⟨tally :: tallies, again, ?_, ?_⟩
      · rw [loads_append, none, List.length_cons, count]
        rfl
      · have whole := Chain.onward hands chain
        simp only [← replay_append] at whole
        simpa using whole

end Leg

/-! ## Whole playbacks -/

section

variable {σ : Type} (options : Options) (hasLoader : Bool) (steps : Nat) (sequence : Sequence)
  (answer : (request : Request) → σ → request.Answer × σ) (surroundings : σ)

/-- A playback is the leg of its own sequence, with a note before it and one behind it. -/
theorem play_eq_attempt : (play options hasLoader steps sequence).run =
    .ask (.note (openingNote sequence)) fun _ =>
      (Leg.attempt options hasLoader ⟨sequence, none, steps, surroundings⟩).run.bind wrapUp := by
  rw [play_eq]
  rfl

theorem load_not_mem_closing {path : FilePath} {loaded : (Request.load path).Answer}
    (result : Except PlaybackError (Option Report)) :
    ⟨.load path, loaded⟩ ∉ closing result := by
  rcases result with error | (_ | report) <;> simp [closing]

/-- Wherever a playback loads a sequence, and however many were loaded before, it goes on from there
as that sequence played by itself: from its first instruction, with the schedule started from the
clock, and with relative paths looked up where the file is. What was counted in each sequence before
is added to what that comes to, and nothing else of them is left. -/
theorem play_tailCalls {before after : List (Exchange Request Request.Answer)} {path : FilePath}
    {target : Sequence} :
    let asked := (play options hasLoader steps sequence).run.transcript answer surroundings
    let ended := ((play options hasLoader steps sequence).run.run answer surroundings).1
    let opened : Exchange Request Request.Answer := ⟨.note (openingNote sequence), ()⟩
    let front := before ++ [⟨.load path, .ok target⟩, transferNote path target]
    asked = before ++ ⟨.load path, .ok target⟩ :: after →
    ∃ tallies left,
      let first : Leg σ := ⟨sequence, none, steps, replay answer [opened] surroundings⟩
      let last : Leg σ := ⟨target, path.parent?, left, replay answer front surroundings⟩
      (∃ between, front = opened :: between ∧
        Leg.Chain options hasLoader answer first tallies between last) ∧
      tallies.length = (loads before).length + 1 ∧
      ended = combined (Tally.total tallies) (last.result options hasLoader answer) ∧
      asked = front ++ last.asked options hasLoader answer ++ closing ended := by
  intro asked ended opened front split
  let first : Leg σ := ⟨sequence, none, steps, replay answer [opened] surroundings⟩
  have played : ended = first.result options hasLoader answer := by
    simp only [ended]
    rw [play_eq_attempt options hasLoader steps sequence first.surroundings, Interaction.run,
      Interaction.run_bind, run_wrapUp]
    rfl
  have told : asked = opened :: (first.asked options hasLoader answer ++ closing ended) := by
    simp only [asked, played]
    rw [play_eq_attempt options hasLoader steps sequence first.surroundings, Interaction.transcript,
      Interaction.transcript_bind, transcript_wrapUp]
    rfl
  -- What opens and closes the playback loads nothing, so it is loaded in the first leg.
  rw [told, ← List.singleton_append] at split
  obtain ⟨between, rfl, inside⟩ := exists_behind split (by simp [opened])
  obtain ⟨rest, within, rfl⟩ := exists_before inside (load_not_mem_closing _)
  obtain ⟨tallies, left, count, chain⟩ := Leg.exists_chain within
  have there : replay answer front surroundings = replay answer
      (between ++ [⟨.load path, .ok target⟩, transferNote path target]) first.surroundings := by
    simp only [front, first, List.append_assoc, replay_append]
  refine ⟨tallies, left, ⟨_, List.append_assoc .., there ▸ chain⟩, ?_, ?_, ?_⟩
  · rw [count, loads_append]
    rfl
  · rw [played, chain.result, ← there]
  · rw [told, chain.asked, ← there]
    simp [front]

end

def toFile (path : FilePath) : Operation :=
  .branch (.expression "true") ⟨none, some path⟩ .next

def firstOfThree : Sequence := ⟨#[.plain (.label "a"), .plain (toFile "b/second"), .plain .exit]⟩

def secondOfThree : Sequence := ⟨#[.plain (toFile "third"), .plain (.label "a")]⟩

def thirdOfThree : Sequence := ⟨#[⟨2, none, .label "b"⟩, .plain .exit]⟩

def shelf (request : Request) (now : Time) : request.Answer × Time :=
  match request with
  | .evaluate _ => (.ok (.bool true), now)
  | .load path => (.ok (if path = "b/third" then thirdOfThree else secondOfThree), now + 1)
  | request => late request now

-- The third sequence is found beside the second, and its instructions are counted behind three.
theorem play_tailCalls_twice :
    let asked := (play ⟨1, false, 0⟩ true 9 firstOfThree).run.transcript shelf 100
    let ended := ((play ⟨1, false, 0⟩ true 9 firstOfThree).run.run shelf 100).1
    asked = asked.take 27 ++ ⟨.load "b/third", .ok thirdOfThree⟩ :: asked.drop 28 ∧
    ended = .ok (some ⟨.stopped, ⟨5, 2, #[], 14⟩⟩) ∧
    ∃ tallies left surroundings, tallies.length = 2 ∧ ended = combined (Tally.total tallies)
      (Leg.result ⟨1, false, 0⟩ true shelf ⟨thirdOfThree, some "b", left, surroundings⟩) := by
  intro asked ended
  have split : asked = asked.take 27 ++ ⟨.load "b/third", .ok thirdOfThree⟩ :: asked.drop 28 := by
    rfl
  obtain ⟨tallies, left, -, count, comes, -⟩ :=
    play_tailCalls ⟨1, false, 0⟩ true 9 firstOfThree shelf 100 split
  have beside : FilePath.parent? "b/third" = some "b" := by decide
  rw [beside] at comes
  exact ⟨split, by rfl, tallies, left, _, count, comes⟩

end InputTape.Playback
