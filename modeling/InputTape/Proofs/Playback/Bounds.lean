import InputTape.Proofs.Playback.Transfers

/-! Where the playhead can be.

A playhead is only moved to places of its sequence. So there is an instruction under it wherever a
playback stands, but at the start of an empty sequence, and any other sequence is completed behind its
last instruction and nowhere else.
-/

set_option autoImplicit false

namespace InputTape.Playback

open Interaction (Exchange)

/-! ## Moving the playhead -/

inductive Move where
  | advance
  | jump (index : Nat)
  deriving DecidableEq, Repr

namespace Playhead

variable {playhead : Playhead}

def move? (playhead : Playhead) : Move → Option Playhead
  | .advance => playhead.advance?
  | .jump index => (playhead.jump index).toOption

def moved (playhead : Playhead) (move : Move) : Playhead := (playhead.move? move).getD playhead

def target (playhead : Playhead) : Move → Nat
  | .advance => playhead.index + 1
  | .jump index => index

/-- An index of the sequence. An empty sequence has none, and its playhead is at its start. -/
def IsInside (playhead : Playhead) : Prop :=
  playhead.index < playhead.sequence.size ∨ playhead.sequence.size = 0 ∧ playhead.index = 0

theorem isInside_start (sequence : Sequence) (origin : Option FilePath) (hasLoader : Bool) :
    (start sequence origin hasLoader).IsInside := by
  rcases Nat.eq_zero_or_pos sequence.size with empty | some
  · exact .inr ⟨empty, rfl⟩
  · exact .inl some

theorem move?_eq (playhead : Playhead) (move : Move) :
    playhead.move? move =
      if playhead.target move < playhead.sequence.size then
        some { playhead with index := playhead.target move }
      else none := by
  cases move with
  | advance => rfl
  | jump index =>
    simp only [move?, jump, target]
    exact apply_ite Except.toOption _ _ _

theorem move?_eq_none {move : Move} :
    playhead.move? move = none ↔ playhead.sequence.size ≤ playhead.target move := by
  rw [move?_eq]
  split
  · next inside => exact iff_of_false nofun (Nat.not_le.mpr inside)
  · next outside => exact iff_of_true rfl (Nat.not_lt.mp outside)

theorem move?_eq_some {move : Move} {next : Playhead} (moves : playhead.move? move = some next) :
    next = { playhead with index := playhead.target move } ∧
      next.index < next.sequence.size := by
  rw [move?_eq] at moves
  split at moves
  · next inside =>
    cases moves
    exact ⟨rfl, inside⟩
  · cases moves

theorem IsInside.moved (inside : playhead.IsInside) (move : Move) :
    (playhead.moved move).sequence = playhead.sequence ∧ (playhead.moved move).IsInside := by
  unfold Playhead.moved
  cases moves : playhead.move? move with
  | none => exact ⟨rfl, inside⟩
  | some next =>
    obtain ⟨rfl, within⟩ := move?_eq_some moves
    exact ⟨rfl, .inl within⟩

theorem IsInside.foldl (inside : playhead.IsInside) (moves : List Move) :
    (moves.foldl Playhead.moved playhead).sequence = playhead.sequence ∧
      (moves.foldl Playhead.moved playhead).IsInside := by
  induction moves generalizing playhead with
  | nil => exact ⟨rfl, inside⟩
  | cons move more ih =>
    obtain ⟨same, within⟩ := inside.moved move
    obtain ⟨kept, later⟩ := ih within
    exact ⟨kept.trans same, later⟩

theorem IsInside.of_current?_eq_none (inside : playhead.IsInside) (none : playhead.current? = none) :
    playhead.sequence.size = 0 ∧ playhead.index = 0 := by
  refine inside.resolve_left fun within => ?_
  have outside : playhead.sequence.size ≤ playhead.index := Array.getElem?_eq_none_iff.mp none
  exact Nat.not_le.mpr within outside

end Playhead

/-! ## Rounds -/

/-- Nothing of the sequence that is played behind these rounds was played in them: there are none, or
the last of them has led to it from another sequence. -/
def AtOpening (earlier : List Round) : Prop :=
  earlier = [] ∨ ∃ before last dispatch path target now, earlier = before ++ [last] ∧
    last.Transfers dispatch path target now

section

variable {options : Options} {state next : State} {round : Round}

theorem Round.Of.leads (isRound : Round.Of options state round)
    (plays : round.result = .ok (.playing next)) :
    (∃ move, state.playhead.move? move = some next.playhead) ∨
      ∃ dispatch path target now, round.Transfers dispatch path target now := by
  by_cases loaded : loads round.exchanges = []
  · left
    cases isRound with
    | ended | failed => cases plays
    | dispatched _ concludes =>
      cases plays
      cases traces_conclude.mp concludes with
      | next _ _ advanced => exact ⟨.advance, advanced⟩
      | jumped _ jumped => exact ⟨.jump _, congrArg Except.toOption jumped⟩
      | transferred => simp [Round.exchanges, loads, loaded?] at loaded
  · exact .inr (isRound.transfers loaded)

theorem Round.Of.leaves_isInside (isRound : Round.Of options state round)
    (inside : state.playhead.IsInside) : (round.leaves state).playhead.IsInside := by
  unfold Round.leaves
  split
  · next next plays =>
    rcases isRound.leads plays with ⟨move, moves⟩ | ⟨_, _, _, _, transfers⟩
    · exact .inl (Playhead.move?_eq_some moves).2
    · cases plays.symm.trans transfers.goesOn
      exact Playhead.isInside_start _ _ _
  · exact inside

structure Round.Finishes (round : Round) : Prop where
  last : ∃ dispatch, round.dispatch = some dispatch ∧ dispatch.directive = .next ∧
    round.playhead.sequence.instructions.back? = some dispatch.instruction
  index : round.playhead.index + 1 = round.playhead.sequence.size
  waits : round.far = [] ∨ ∃ deadline, round.far = [⟨.wait deadline, .reached⟩]

theorem Round.Finishes.of_advance? {dispatch : Dispatch}
    {near far : List (Exchange Request Request.Answer)} {result : Except PlaybackError Progress}
    (current : state.playhead.current? = some dispatch.instruction)
    (onward : dispatch.directive = .next) (refused : state.playhead.advance? = none)
    (waits : far = [] ∨ ∃ deadline, far = [⟨.wait deadline, .reached⟩]) :
    Round.Finishes ⟨state.playhead, some dispatch, near, far, result⟩ := by
  have inside : state.playhead.index < state.playhead.sequence.size :=
    (Array.getElem?_eq_some_iff.mp current).1
  have outside : state.playhead.sequence.size ≤ state.playhead.index + 1 :=
    (@Playhead.move?_eq_none _ .advance).mp refused
  have last : state.playhead.index + 1 = state.playhead.sequence.size := by omega
  refine ⟨⟨dispatch, rfl, onward, ?_⟩, last, waits⟩
  rw [Array.back?_eq_getElem?, ← current, Playhead.current?, Sequence.get?]
  congr 1
  change state.playhead.sequence.size - 1 = _
  omega

theorem Round.Of.completes {report : Report} (isRound : Round.Of options state round)
    (ends : round.result = .ok (.ended report)) (completed : report.outcome = .completed) :
    round.dispatch = none ∧ round.playhead.current? = none ∨ round.Finishes := by
  cases isRound with
  | failed => cases ends
  | ended approaches =>
    cases ends
    cases traces_approach.mp approaches with
    | completed none => exact .inl ⟨rfl, none⟩
    | cancelled | interrupted => cases completed
  | dispatched approaches concludes =>
    cases ends
    cases traces_approach.mp approaches with
    | dispatched current =>
    cases traces_conclude.mp concludes with
    | completed onward _ refused _ => exact .inr (.of_advance? current onward refused (.inl rfl))
    | waited onward _ refused _ =>
      exact .inr (.of_advance? current onward refused (.inr ⟨_, rfl⟩))
    | interrupted | stopped => cases completed

end

/-! ## Whole playbacks -/

theorem ending_eq_some {rounds : List Round} {report : Report}
    (ends : ending rounds = .ok (some report)) :
    ∃ earlier last, rounds = earlier ++ [last] ∧ last.result = .ok (.ended report) := by
  rcases List.eq_nil_or_concat rounds with rfl | ⟨earlier, last, rfl⟩
  · cases ends
  · rw [List.concat_eq_append, ending_concat] at ends
    refine ⟨earlier, last, List.concat_eq_append, ?_⟩
    unfold ending at ends
    simp only [List.getLast?_singleton, Option.map_some] at ends
    split at ends
    · cases ends
    · next same =>
      cases ends
      exact Option.some.inj same
    · cases ends

section

variable {σ : Type} {options : Options} {answer : (request : Request) → σ → request.Answer × σ}
  {steps : Nat} {state : State} {surroundings : σ} {earlier later : List Round} {round : Round}

theorem standing_isInside (inside : state.playhead.IsInside)
    (split : rounds options answer steps state surroundings = earlier ++ later) :
    (standing state earlier).playhead.IsInside :=
  standing_of (motive := fun state _ => state.playhead.IsInside) options answer inside
    (fun _ _ _ inside isRound => isRound.leaves_isInside inside) split

theorem plays_of_split {second : Round}
    (split : rounds options answer steps state surroundings = earlier ++ round :: second :: later) :
    ∃ next, round.result = .ok (.playing next) := by
  obtain ⟨left, -, -, behind⟩ := rounds_split options answer steps state surroundings split
  unfold further at behind
  split at behind
  · next next plays => exact ⟨next, plays⟩
  · cases behind

/-- Where there is no instruction, no instruction of the sequence was played. -/
theorem atOpening_of_current?_eq_none
    (split : rounds options answer steps state surroundings = earlier ++ round :: later)
    (none : round.playhead.current? = none) : AtOpening earlier := by
  rcases List.eq_nil_or_concat earlier with rfl | ⟨before, last, rfl⟩
  · exact .inl rfl
  · have whole := split
    rw [List.concat_eq_append, List.append_assoc, List.singleton_append] at whole
    obtain ⟨next, plays⟩ := plays_of_split whole
    rcases (Round.Of.of_split whole).leads plays with ⟨move, moves⟩ |
      ⟨dispatch, path, target, now, transfers⟩
    -- A move within a sequence leads to one of its instructions.
    · have here : round.playhead = next.playhead := by
        rw [(Round.Of.of_split split).playhead, List.concat_eq_append, standing, List.foldl_append,
          List.foldl_cons, List.foldl_nil, Round.leaves, plays]
      have within := (Playhead.move?_eq_some moves).2
      have empty := (Playhead.IsInside.of_current?_eq_none (.inl (here ▸ within)) none).1
      rw [here] at empty
      omega
    · exact .inr ⟨_, last, dispatch, path, target, now, List.concat_eq_append, transfers⟩

end

/-- However a playhead is moved, it stays inside its sequence, and a move that is refused does not move
it. So it is inside at every round of a playback. There is no instruction for a round only at the
start of an empty sequence. A playback is completed by a round there, or by the one that has played
the last instruction of its sequence and was led on from it. -/
theorem play_staysInside {σ : Type} (options : Options) (hasLoader : Bool) (steps : Nat)
    (sequence : Sequence) (answer : (request : Request) → σ → request.Answer × σ)
    (surroundings : σ) :
    let history := history options hasLoader steps sequence answer surroundings
    let ended := ((play options hasLoader steps sequence).run.run answer surroundings).1
    (∀ origin moves,
      let playhead := List.foldl Playhead.moved (.start sequence origin hasLoader) moves
      playhead.sequence = sequence ∧ playhead.IsInside ∧ ∀ move,
        (playhead.move? move = none ↔ sequence.size ≤ playhead.target move) ∧
        (playhead.move? move = none → playhead.moved move = playhead) ∧
        ∀ next, playhead.move? move = some next →
          next = { playhead with index := playhead.target move }) ∧
    (∀ earlier later, history.rounds = earlier ++ later →
      (standing (starting sequence hasLoader history.start) earlier).playhead.IsInside) ∧
    (∀ earlier round later, history.rounds = earlier ++ round :: later →
      round.playhead =
        (standing (starting sequence hasLoader history.start) earlier).playhead ∧
      (round.playhead.current? = none →
        round.playhead.sequence.size = 0 ∧ round.playhead.index = 0 ∧ AtOpening earlier)) ∧
    ∀ report, ended = .ok (some report) → report.outcome = .completed →
      ∃ earlier last, history.rounds = earlier ++ [last] ∧ last.result = .ok (.ended report) ∧
        (last.playhead.sequence.size = 0 ∧ last.dispatch = none ∧ AtOpening earlier ∨
          last.Finishes) := by
  intro history ended
  have start : (starting sequence hasLoader history.start).playhead.IsInside :=
    Playhead.isInside_start sequence none hasLoader
  have inside {earlier later : List Round} (split : history.rounds = earlier ++ later) :
      (standing (starting sequence hasLoader history.start) earlier).playhead.IsInside :=
    standing_isInside start split
  have opening {earlier later : List Round} {round : Round}
      (split : history.rounds = earlier ++ round :: later) (none : round.playhead.current? = none) :
      round.playhead.sequence.size = 0 ∧ round.playhead.index = 0 ∧ AtOpening earlier := by
    have here : round.playhead.IsInside := by
      rw [(Round.Of.of_split split).playhead]
      exact inside split
    obtain ⟨empty, zero⟩ := here.of_current?_eq_none none
    exact ⟨empty, zero, atOpening_of_current?_eq_none split none⟩
  refine ⟨fun origin moves => ?_, fun _ _ split => inside split,
    fun _ _ _ split => ⟨(Round.Of.of_split split).playhead, opening split⟩,
    fun report ends completed => ?_⟩
  · obtain ⟨same, within⟩ :=
      (Playhead.isInside_start sequence origin hasLoader).foldl moves
    refine ⟨same, within, fun move => ⟨?_, fun refused => ?_, fun next moves => ?_⟩⟩
    · rw [Playhead.move?_eq_none, same]
      rfl
    · rw [Playhead.moved, refused, Option.getD_none]
    · exact (Playhead.move?_eq_some moves).1
  · have told : ended = ending history.rounds := run_play ..
    obtain ⟨earlier, last, split, comes⟩ := ending_eq_some (told ▸ ends)
    refine ⟨earlier, last, split, comes, ?_⟩
    -- Completed at the opening of an empty sequence, or behind the last instruction.
    rcases (Round.Of.of_split split).completes comes completed with ⟨idle, none⟩ | finishes
    · obtain ⟨empty, -, opens⟩ := opening split none
      exact .inl ⟨empty, idle, opens⟩
    · exact .inr finishes

def bareShelf (request : Request) (now : Time) : request.Answer × Time :=
  match request with
  | .load _ => (.ok ⟨#[]⟩, now)
  | request => shelf request now

def leapSequence : Sequence :=
  ⟨#[.plain (.jump none (some 2)), .plain (.delay 5), .plain (toFile "b")]⟩

-- The file is completed at its start, and the delays behind their last instruction. No playhead can
-- be moved behind that.
theorem play_staysInside_leap :
    let leap := history ⟨1, false, 0⟩ true 9 leapSequence bareShelf 100
    let delays := history ⟨1, false, 0⟩ true 9 delaySequence bareShelf 100
    leap.rounds.map (·.playhead.index) = [0, 2, 0] ∧ AtOpening (leap.rounds.take 2) ∧
    delays.rounds.map (·.playhead.index) = [0, 1, 2] ∧
    (∃ last ∈ delays.rounds, last.Finishes) ∧
    Playhead.moved ⟨delaySequence, 2, none, true⟩ .advance = ⟨delaySequence, 2, none, true⟩ := by
  intro leap delays
  obtain ⟨-, -, standing, -⟩ := play_staysInside ⟨1, false, 0⟩ true 9 leapSequence bareShelf 100
  obtain ⟨moves, -, -, completes⟩ :=
    play_staysInside ⟨1, false, 0⟩ true 9 delaySequence bareShelf 100
  obtain ⟨-, -, refuses⟩ := moves none [.jump 2]
  have opens := (standing (leap.rounds.take 2) _ [] (by rfl)).2 (by rfl)
  obtain ⟨earlier, last, split, -, empty | finishes⟩ := completes _ (by rfl) (by rfl)
  · have sizes : delays.rounds.map (·.playhead.sequence.size) = [3, 3, 3] := by decide
    have size : last.playhead.sequence.size ∈ [3, 3, 3] := by
      rw [← sizes, show delays.rounds = _ from split]
      simp
    rw [empty.1] at size
    exact absurd size (by decide)
  · refine ⟨by decide, opens.2.2, by decide, ⟨last, ?_, finishes⟩, (refuses .advance).2.1 (by rfl)⟩
    rw [show delays.rounds = _ from split]
    simp

end InputTape.Playback
