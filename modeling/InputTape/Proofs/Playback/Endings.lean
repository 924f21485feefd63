import Mathlib.Data.List.Induction
import InputTape.Proofs.Playback.Schedule

/-! How playbacks end.

A playback ends as its last round does, and asks nothing behind it but to note that it has finished.
Every round is played where the rounds before it have left the playback, and in what they have left
of the surroundings.
-/

set_option autoImplicit false

namespace InputTape.Playback

open Interaction (Exchange replay replay_append run_replay)

def Round.leaves (state : State) (round : Round) : State :=
  match round.result with
  | .ok (.playing next) => next
  | _ => state

/-- Where a playback stands behind rounds, given where it started. -/
def standing (start : State) (earlier : List Round) : State := earlier.foldl Round.leaves start

/-- What rounds come to: what the last one ends with, if it ends the playback. -/
def ending (rounds : List Round) : Except PlaybackError (Option Report) :=
  match rounds.getLast?.map Round.result with
  | some (.error error) => .error error
  | some (.ok (.ended report)) => .ok (some report)
  | _ => .ok none

theorem ending_behind (earlier : List Round) {round : Round} {next : State}
    (plays : round.result = .ok (.playing next)) (later : List Round) :
    ending (earlier ++ round :: later) = ending later := by
  cases later with
  | nil => simp [ending, plays]
  | cons second more => simp [ending, List.getLast?_cons]

theorem ending_cons {round : Round} {next : State} (rounds : List Round)
    (plays : round.result = .ok (.playing next)) : ending (round :: rounds) = ending rounds :=
  ending_behind [] plays rounds

theorem ending_concat (earlier : List Round) (last : Round) :
    ending (earlier ++ [last]) = ending [last] := by
  simp [ending]

theorem ending_of_ended {earlier : List Round} {last : Round} {report : Report}
    (ends : last.result = .ok (.ended report)) :
    ending (earlier ++ [last]) = .ok (some report) := by
  rw [ending_concat, ending, List.getLast?_singleton, Option.map_some, ends]

theorem ending_eq_error {rounds : List Round} {error : PlaybackError} :
    ending rounds = .error error ↔
      ∃ earlier round, rounds = earlier ++ [round] ∧ round.result = .error error := by
  constructor
  · intro fails
    rcases List.eq_nil_or_concat rounds with rfl | ⟨earlier, round, rfl⟩
    · cases fails
    · rw [List.concat_eq_append, ending_concat] at fails
      refine ⟨earlier, round, List.concat_eq_append, ?_⟩
      unfold ending at fails
      simp only [List.getLast?_singleton, Option.map_some] at fails
      split at fails
      · next same =>
        cases fails
        exact Option.some.inj same
      · cases fails
      · cases fails
  · rintro ⟨earlier, round, rfl, fails⟩
    rw [ending_concat, ending, List.getLast?_singleton, Option.map_some, fails]

section

variable {σ : Type} (options : Options)
  (answer : (request : Request) → σ → request.Answer × σ)

theorem run_playFrom (steps : Nat) (state : State) (surroundings : σ) :
    ((playFrom options steps state).run.run answer surroundings).1 =
      ending (rounds options answer steps state surroundings) := by
  induction steps generalizing state surroundings with
  | zero => rfl
  | succ steps ih =>
    obtain ⟨ran, -⟩ := round_step options answer state surroundings
    unfold playFrom rounds
    rw [run_bind, Interaction.run_bind, ran]
    generalize round options answer state surroundings = played
    obtain ⟨⟨playhead, dispatch, near, far, result⟩, later⟩ := played
    rcases result with error | (next | report)
    · rfl
    · rw [ending_cons _ rfl]
      exact ih next later
    · rfl

theorem round_replay (state : State) (surroundings : σ) :
    (round options answer state surroundings).2 =
      replay answer (round options answer state surroundings).1.exchanges surroundings := by
  obtain ⟨ran, asked⟩ := round_step options answer state surroundings
  rw [← asked, ← run_replay, ran]

def further (steps : Nat) (round : Round) (surroundings : σ) : List Round :=
  match round.result with
  | .ok (.playing next) => rounds options answer steps next surroundings
  | _ => []

theorem rounds_succ (steps : Nat) (state : State) (surroundings : σ) :
    rounds options answer (steps + 1) state surroundings =
      (Playback.round options answer state surroundings).1 ::
        further options answer steps (Playback.round options answer state surroundings).1
          (Playback.round options answer state surroundings).2 := rfl

theorem ending_further (steps : Nat) (round : Round) (surroundings : σ) :
    ending (round :: further options answer steps round surroundings) = match round.result with
      | .error error => .error error
      | .ok (.ended report) => .ok (some report)
      | .ok (.playing next) => ending (rounds options answer steps next surroundings) := by
  obtain ⟨playhead, dispatch, near, far, error | (next | report)⟩ := round
  · rfl
  · exact ending_cons _ rfl
  · rfl

/-- Every round is played where those before it have led, and decides what comes behind it. -/
theorem rounds_split (steps : Nat) (state : State) (surroundings : σ) {earlier later : List Round}
    {round : Round}
    (split : rounds options answer steps state surroundings = earlier ++ round :: later) :
    ∃ left, steps = earlier.length + left + 1 ∧
      round = (Playback.round options answer (standing state earlier)
        (replay answer (earlier.flatMap Round.exchanges) surroundings)).1 ∧
      later = further options answer left round
        (replay answer (earlier.flatMap Round.exchanges ++ round.exchanges) surroundings) := by
  induction steps generalizing state surroundings earlier with
  | zero => cases earlier <;> cases split
  | succ steps ih =>
    -- Every round leaves the surroundings as its own exchanges do.
    have replayed := round_replay options answer state surroundings
    unfold rounds at split
    generalize played : Playback.round options answer state surroundings = first at split replayed
    obtain ⟨first, between⟩ := first
    cases earlier with
    | nil =>
      simp only [List.nil_append, List.cons.injEq] at split
      obtain ⟨rfl, rest⟩ := split
      refine ⟨steps, by simp, ?_, ?_⟩
      · simp [standing, replay, played]
      · simp only at replayed
        simp only [List.flatMap_nil, List.nil_append, ← replayed]
        exact rest.symm
    | cons again earlier =>
      simp only [List.cons_append, List.cons.injEq] at split
      obtain ⟨rfl, rest⟩ := split
      split at rest
      · next next plays =>
        obtain ⟨left, count, here, behind⟩ := ih next between rest
        refine ⟨left, by simp only [List.length_cons]; omega, ?_, ?_⟩
        · simp only [standing, List.foldl_cons, Round.leaves, plays, List.flatMap_cons, replay_append,
            ← replayed]
          exact here
        · simp only [List.flatMap_cons, List.append_assoc, replay_append, ← replayed] at behind ⊢
          exact behind
      · cases earlier <;> cases rest

theorem Round.Of.of_split {options : Options}
    {answer : (request : Request) → σ → request.Answer × σ} {steps : Nat} {state : State}
    {surroundings : σ} {earlier later : List Round} {round : Round}
    (split : rounds options answer steps state surroundings = earlier ++ round :: later) :
    Round.Of options (standing state earlier) round := by
  obtain ⟨_, _, here, _⟩ := rounds_split options answer steps state surroundings split
  rw [here]
  exact round_of ..

/-- What holds at the start, and is kept by every round, holds wherever a playback stands. -/
theorem standing_of {motive : State → List (Exchange Request Request.Answer) → Prop} {steps : Nat}
    {state : State} {surroundings : σ} {earlier later : List Round} (start : motive state [])
    (keeps : ∀ state asked round, motive state asked → Round.Of options state round →
      motive (round.leaves state) (asked ++ round.exchanges))
    (split : rounds options answer steps state surroundings = earlier ++ later) :
    motive (standing state earlier) (earlier.flatMap Round.exchanges) := by
  induction earlier using List.reverseRecOn generalizing later with
  | nil => exact start
  | append_singleton earlier round ih =>
    rw [List.append_assoc] at split
    have isRound := Round.Of.of_split split
    rw [standing, List.foldl_append, List.flatMap_append, List.flatMap_singleton]
    exact keeps _ _ round (ih split) isRound

end

/-! ## Whole playbacks -/

def closingNote (report : Report) : Journal.Entry :=
  ⟨.info, "playback finished: " ++ report.outcome.name ++ " after "
    ++ toString report.tally.executed ++ " instructions, " ++ toString report.tally.transfers
    ++ " transfers, max lateness " ++ report.tally.maxLateness.text⟩

def opening (sequence : Sequence) (now : Time) : List (Exchange Request Request.Answer) :=
  [⟨.note (openingNote sequence), ()⟩, ⟨.clock, now⟩]

def closing : Except PlaybackError (Option Report) → List (Exchange Request Request.Answer)
  | .ok (some report) => [⟨.note (closingNote report), ()⟩]
  | _ => []

def starting (sequence : Sequence) (hasLoader : Bool) (now : Time) : State :=
  ⟨.start sequence none hasLoader, now, .zero⟩

def wrapUp : Except PlaybackError (Option Report) →
    Interaction Request Request.Answer (Except PlaybackError (Option Report))
  | .ok (some report) => .ask (.note (closingNote report)) fun _ => .done (.ok (some report))
  | result => .done result

theorem play_eq (options : Options) (hasLoader : Bool) (steps : Nat) (sequence : Sequence) :
    (play options hasLoader steps sequence).run =
      .ask (.note (openingNote sequence)) fun _ => .ask .clock fun now =>
        (playFrom options steps (starting sequence hasLoader now)).run.bind wrapUp := by
  unfold play note
  rw [run_ask_bind]
  congr 1
  funext _
  rw [run_ask_bind]
  congr 1
  funext now
  rw [run_bind]
  congr 1
  funext result
  rcases result with error | (_ | report) <;> rfl

section

variable {σ : Type} (options : Options) (hasLoader : Bool) (steps : Nat) (sequence : Sequence)
  (answer : (request : Request) → σ → request.Answer × σ) (surroundings : σ)

theorem run_wrapUp (result : Except PlaybackError (Option Report)) :
    ((wrapUp result).run answer surroundings).1 = result := by
  rcases result with error | (_ | report) <;> rfl

theorem transcript_wrapUp (result : Except PlaybackError (Option Report)) :
    (wrapUp result).transcript answer surroundings = closing result := by
  rcases result with error | (_ | report) <;> rfl

theorem history_rounds :
    (history options hasLoader steps sequence answer surroundings).rounds =
      rounds options answer steps (starting sequence hasLoader
        (history options hasLoader steps sequence answer surroundings).start)
        (replay answer (opening sequence
          (history options hasLoader steps sequence answer surroundings).start) surroundings) := rfl

theorem run_play :
    ((play options hasLoader steps sequence).run.run answer surroundings).1 =
      ending (history options hasLoader steps sequence answer surroundings).rounds := by
  rw [play_eq, Interaction.run, Interaction.run, Interaction.run_bind, run_wrapUp, run_playFrom]
  rfl

theorem transcript_play :
    (play options hasLoader steps sequence).run.transcript answer surroundings =
      opening sequence (history options hasLoader steps sequence answer surroundings).start ++
      (history options hasLoader steps sequence answer surroundings).rounds.flatMap Round.exchanges
      ++ closing (ending (history options hasLoader steps sequence answer surroundings).rounds) := by
  rw [play_eq, Interaction.transcript, Interaction.transcript, Interaction.transcript_bind,
    transcript_wrapUp, run_playFrom, transcript_playFrom]
  rfl

/-- Every round of a playback is played in what the exchanges before it have left. -/
theorem history_split {earlier later : List Round} {round : Round}
    (split : (history options hasLoader steps sequence answer surroundings).rounds =
      earlier ++ round :: later) :
    let start := (history options hasLoader steps sequence answer surroundings).start
    let before := opening sequence start ++ earlier.flatMap Round.exchanges
    ∃ left, steps = earlier.length + left + 1 ∧
      round = (Playback.round options answer (standing (starting sequence hasLoader start) earlier)
        (replay answer before surroundings)).1 ∧
      later = further options answer left round
        (replay answer (before ++ round.exchanges) surroundings) := by
  rw [history_rounds] at split
  simpa only [List.append_assoc, replay_append] using rounds_split options answer steps _ _ split

end

end InputTape.Playback
