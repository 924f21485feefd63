import InputTape.Playback.Run
import InputTape.Proofs.Interaction.Traces
import InputTape.Proofs.Playback.Work

/-! The rounds of a playback.

A round is a step as it went in some surroundings. It comes in two parts: the approach waits for
the instruction under the playhead and does it, and the conclusion goes where the instruction
leads. Everything a playback asks is asked in its rounds, but for what opens and closes it.
-/

set_option autoImplicit false

namespace InputTape.Playback

open Interaction (Traces Exchange)

structure Dispatch where
  instruction : Instruction
  deadline : Time
  directive : Directive
  tally : Tally

inductive Arrival where
  | ended (report : Report)
  | dispatched (dispatch : Dispatch)

def carryOut (options : Options) (state : State) (instruction : Instruction) (deadline : Time) :
    Play Arrival := do
  let tally ← recordFiring options state deadline
  note .debug ("[" ++ toString state.playhead.index ++ "] " ++ instruction.text)
  let directive ← blaming (blame state instruction)
    (execute state.playhead instruction.operation)
  return .dispatched ⟨instruction, deadline, directive,
    { tally with executed := tally.executed + 1 }⟩

def approach (options : Options) (state : State) : Play Arrival := do
  if ← ask .isCancelled then return .ended ⟨.cancelled, state.tally⟩
  else
    match state.playhead.current? with
    | none => return .ended ⟨.completed, state.tally⟩
    | some instruction =>
      let deadline ← schedule options state instruction state.scheduled instruction.gap
      match ← ask (.wait deadline) with
      | .cancelled => return .ended ⟨.cancelled, state.tally⟩
      | .reached => carryOut options state instruction deadline

def conclude (options : Options) (state : State) (dispatch : Dispatch) : Play Progress :=
  match dispatch.directive with
  | .next => goOn options state dispatch.instruction dispatch.deadline dispatch.tally
  | .jump index => goTo state dispatch.instruction index dispatch.tally
  | .stop => return .ended ⟨.stopped, dispatch.tally⟩
  | .transfer path => transferTo state dispatch.instruction path dispatch.tally

def arrive (options : Options) (state : State) :
    Except PlaybackError Arrival →
      Interaction Request Request.Answer (Except PlaybackError Progress)
  | .ok (.dispatched dispatch) => (conclude options state dispatch).run
  | .ok (.ended report) => .done (.ok (.ended report))
  | .error error => .done (.error error)

theorem run_step (options : Options) (state : State) :
    (step options state).run = (approach options state).run.bind (arrive options state) := by
  have same : step options state = approach options state >>= fun arrival => match arrival with
      | .dispatched dispatch => conclude options state dispatch
      | .ended report => return .ended report := by
    unfold step approach
    simp only [bind_assoc]
    congr 1
    funext isCancelled
    cases isCancelled with
    | true => rfl
    | false =>
      simp only [Bool.false_eq_true, if_false]
      cases state.playhead.current? with
      | none => rfl
      | some instruction =>
        simp only [bind_assoc]
        congr 1
        funext deadline
        congr 1
        funext outcome
        cases outcome with
        | cancelled => rfl
        | reached =>
          unfold fire carryOut
          simp only [bind_assoc, pure_bind]
          rfl
  rw [same, run_bind]
  congr 1
  funext result
  rcases result with error | (report | dispatch) <;> rfl

/-- A step as it went: where the playhead was, what was done there, what was asked on the way to it
and behind it, and what the step came to. -/
structure Round where
  playhead : Playhead
  dispatch : Option Dispatch
  near : List (Exchange Request Request.Answer)
  far : List (Exchange Request Request.Answer)
  result : Except PlaybackError Progress

def Round.exchanges (round : Round) : List (Exchange Request Request.Answer) :=
  round.near ++ round.far

section

variable {σ : Type} (options : Options)
  (answer : (request : Request) → σ → request.Answer × σ)

/-- The round that is played in a state, and what it leaves of the surroundings. -/
def round (state : State) (surroundings : σ) : Round × σ :=
  let near := (approach options state).run.transcript answer surroundings
  match (approach options state).run.run answer surroundings with
  | (.ok (.dispatched dispatch), between) =>
    let final := (conclude options state dispatch).run.run answer between
    (⟨state.playhead, some dispatch, near,
      (conclude options state dispatch).run.transcript answer between, final.1⟩, final.2)
  | (.ok (.ended report), between) =>
    (⟨state.playhead, none, near, [], .ok (.ended report)⟩, between)
  | (.error error, between) => (⟨state.playhead, none, near, [], .error error⟩, between)

def rounds : Nat → State → σ → List Round
  | 0, _, _ => []
  | steps + 1, state, surroundings =>
    let (first, later) := round options answer state surroundings
    first :: match first.result with
      | .ok (.playing next) => rounds steps next later
      | _ => []

theorem round_step (state : State) (surroundings : σ) :
    (step options state).run.run answer surroundings =
        ((round options answer state surroundings).1.result,
          (round options answer state surroundings).2) ∧
      (step options state).run.transcript answer surroundings =
        (round options answer state surroundings).1.exchanges := by
  rw [run_step, Interaction.run_bind, Interaction.transcript_bind]
  unfold round
  obtain ⟨arrival, between⟩ := (approach options state).run.run answer surroundings
  rcases arrival with error | (report | dispatch)
  · exact ⟨rfl, rfl⟩
  · exact ⟨rfl, rfl⟩
  · exact ⟨rfl, rfl⟩

/-- A playback asks what its rounds ask, one after the other. -/
theorem transcript_playFrom (steps : Nat) (state : State) (surroundings : σ) :
    (playFrom options steps state).run.transcript answer surroundings =
      (rounds options answer steps state surroundings).flatMap Round.exchanges := by
  induction steps generalizing state surroundings with
  | zero => rfl
  | succ steps ih =>
    obtain ⟨ran, asked⟩ := round_step options answer state surroundings
    unfold playFrom rounds
    rw [run_bind, Interaction.transcript_bind, ran, asked, List.flatMap_cons]
    generalize round options answer state surroundings = played
    obtain ⟨⟨playhead, dispatch, near, far, result⟩, later⟩ := played
    congr 1
    rcases result with error | (next | report)
    · rfl
    · exact ih next later
    · rfl

end

/-- What a round is in any surroundings: a run of an approach, and one of a conclusion if there is
something to conclude. -/
inductive Round.Of (options : Options) (state : State) : Round → Prop where
  | dispatched {dispatch : Dispatch} {near far : List (Exchange Request Request.Answer)}
      {result : Except PlaybackError Progress} :
      (approach options state).run.Traces near (.ok (.dispatched dispatch)) →
      (conclude options state dispatch).run.Traces far result →
      Of options state ⟨state.playhead, some dispatch, near, far, result⟩
  | ended {report : Report} {near : List (Exchange Request Request.Answer)} :
      (approach options state).run.Traces near (.ok (.ended report)) →
      Of options state ⟨state.playhead, none, near, [], .ok (.ended report)⟩
  | failed {error : PlaybackError} {near : List (Exchange Request Request.Answer)} :
      (approach options state).run.Traces near (.error error) →
      Of options state ⟨state.playhead, none, near, [], .error error⟩

theorem round_of {σ : Type} (options : Options)
    (answer : (request : Request) → σ → request.Answer × σ) (state : State) (surroundings : σ) :
    Round.Of options state (round options answer state surroundings).1 := by
  -- The surroundings matter only for which run of the approach it is.
  have traces := Interaction.traces_run (approach options state).run answer surroundings
  unfold round
  generalize (approach options state).run.transcript answer surroundings = near at traces ⊢
  generalize (approach options state).run.run answer surroundings = arrival at traces ⊢
  rcases arrival with ⟨error | (report | dispatch), between⟩
  · exact .failed traces
  · exact .ended traces
  · exact .dispatched traces (Interaction.traces_run _ answer between)

end InputTape.Playback
