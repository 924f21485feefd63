import InputTape.Proofs.Script.Simulation

/-! A compiled script is played as its statements say.

The playback and the machine take the same course: the same calls in the same order, the same end,
and the same left behind. This holds of the playback after any number of steps and of the machine
after any number of statements, so it holds of runs that never end too.
-/

set_option autoImplicit false

namespace InputTape.Script

open Playback (Attempt Request ExecutionError State Options Outcome Report Tally Progress Play Lands
  BrokenOff Surroundings Course playFrom play)
open Machine (Trouble runFrom)

/-- A playback that was cancelled, or had to wait for a time that cannot be told. -/
inductive CutShort : Except PlaybackError (Option Report) → Prop where
  | cancelled {tally : Tally} : CutShort (.ok (some ⟨.cancelled, tally⟩))
  | tooLong {index : Nat} {instruction : Instruction} {milliseconds : Float} :
      CutShort (.error ⟨index, instruction, .execution (.delayTooLong milliseconds)⟩)

/-- A playback and the machine are both not over yet, or end with the same outcome or the same
error. -/
inductive EndsAlike : Except PlaybackError (Option Report) → Except Trouble (Option Outcome) → Prop
    where
  | unfinished : EndsAlike (.ok none) (.ok none)
  | finished {outcome : Outcome} {tally : Tally} :
      EndsAlike (.ok (some ⟨outcome, tally⟩)) (.ok (some outcome))
  | failed {index : Nat} {instruction : Instruction} {error : ExecutionError} :
      EndsAlike (.error ⟨index, instruction, .execution error⟩) (.error (.failed error))

def resume (options : Options) (steps : Nat) :
    Except PlaybackError Progress →
      Interaction Request Request.Answer (Except PlaybackError (Option Report))
  | .ok (.playing next) => (playFrom options steps next).run
  | .ok (.ended report) => .done (.ok (some report))
  | .error error => .done (.error error)

def Machine.resume (statements : List Statement) (count : Nat) :
    Except Trouble (Option Nat) →
      Interaction Request Request.Answer (Except Trouble (Option Outcome))
  | .ok (some place) => (runFrom statements count place).run
  | .ok none => .done (.ok (some .stopped))
  | .error trouble => .done (.error trouble)

theorem playFrom_succ (options : Options) (steps : Nat) (state : State) :
    (playFrom options (steps + 1) state).run =
      (Playback.step options state).run.bind (resume options steps) := by
  unfold playFrom
  rw [Playback.run_bind]
  congr 1
  funext result
  rcases result with error | (next | report) <;> rfl

theorem runFrom_succ {statements : List Statement} {place : Nat} {statement : Statement}
    (found : statements[place]? = some statement) (count : Nat) :
    (runFrom statements (count + 1) place).run =
      (Machine.step statements place statement).run.bind (Machine.resume statements count) := by
  unfold runFrom
  simp only [found]
  rw [Playback.run_bind]
  congr 1
  funext result
  rcases result with trouble | (_ | next) <;> rfl

theorem runFrom_ended {statements : List Statement} {place : Nat}
    (ended : statements[place]? = none) (count : Nat) :
    (runFrom statements (count + 1) place).run = .done (.ok (some .completed)) := by
  unfold runFrom
  simp only [ended]
  rfl

theorem cutShort_resume {state : State} {result : Except PlaybackError Progress}
    (broken : BrokenOff state result) (options : Options) (steps : Nat) :
    ∃ value, resume options steps result = .done value ∧ CutShort value := by
  cases broken with
  | cancelled => exact ⟨_, rfl, .cancelled⟩
  | tooLong => exact ⟨_, rfl, .tooLong⟩

/-- The playback is cut short, or takes the course of the machine. -/
def RunsAlike {World Rest : Type} (surroundings : Surroundings World Rest) (world : World)
    (rest other : Rest)
    (playback : Interaction Request Request.Answer (Except PlaybackError (Option Report)))
    (machine : Interaction Request Request.Answer (Except Trouble (Option Outcome))) : Prop :=
  CutShort (surroundings.course playback (world, rest)).value ∨
    (surroundings.course playback (world, rest)).Agree EndsAlike
      (surroundings.course machine (world, other))

section

variable {statements : List Statement} {operations : List Operation} {sequence : Sequence}
  {World Rest : Type} (surroundings : Surroundings World Rest) (options : Options)

/-- Behind a step that the machine follows, both run alike if they do from where they landed. -/
theorem runsAlike_of_follows {state : State} {good : Nat → Nat → Prop}
    {left : Interaction Request Request.Answer (Except PlaybackError Progress)}
    {right : Interaction Request Request.Answer (Except Trouble (Option Nat))}
    (follows : left.Follows Request.IsCall (BrokenOff state) (Lands state good) right)
    (world : World) (rest other : Rest) :
    (∀ steps, CutShort (surroundings.course (left.bind (resume options steps))
      (world, rest)).value) ∨
    ∃ result move between later otherLater, Lands state good result move ∧ ∀ steps count,
      RunsAlike surroundings between later otherLater (resume options steps result)
        (Machine.resume statements count move) →
      RunsAlike surroundings world rest other (left.bind (resume options steps))
        (right.bind (Machine.resume statements count)) := by
  obtain ⟨later, leftCourse⟩ := surroundings.course_bind left world rest
  obtain ⟨otherLater, rightCourse⟩ := surroundings.course_bind right world other
  rcases surroundings.course_of_follows follows world rest other with broken | agree
  · left
    intro steps
    obtain ⟨value, same, cut⟩ := cutShort_resume broken options steps
    rw [leftCourse, same]
    exact cut
  · right
    refine ⟨_, _, (surroundings.course left (world, rest)).world, later, otherLater, agree.value,
      fun steps count alike => ?_⟩
    unfold RunsAlike at alike ⊢
    rw [leftCourse, rightCourse, ← agree.world]
    rcases alike with cut | alike
    · exact .inl cut
    · exact .inr (agree.andThen alike)

variable (laid : LaidOut statements operations) (realizes : Realizes sequence operations)
  {state : State} {place : Nat} (same : state.playhead.sequence = sequence)

include realizes same in
theorem goesOn_or_ended {good : Nat → Nat → Prop} {result : Except PlaybackError Progress}
    {move : Except Trouble (Option Nat)}
    (met : ∀ index place, good index place → Meets statements operations index place)
    (lands : Lands state good result move) :
    (∃ next place, result = .ok (.playing next) ∧ move = .ok (some place) ∧
      next.playhead.sequence = sequence ∧ next.playhead.index < sequence.size ∧
      good next.playhead.index place) ∨
    ∀ steps count world rest other, RunsAlike surroundings world rest other
      (resume options steps result) (Machine.resume statements (count + 1) move) := by
  cases lands with
  | playing kept inside _ reached =>
    exact .inl ⟨_, _, rfl, rfl, kept.trans same, same ▸ inside, reached⟩
  | completed _ reached =>
    right
    intro steps count world rest other
    rw [same, realizes.size] at reached
    rw [Machine.resume, runFrom_ended (getElem?_of_meets_end (met _ _ reached))]
    exact .inr ⟨rfl, .finished, rfl⟩
  | stopped => exact .inr fun _ _ _ _ _ => .inr ⟨rfl, .finished, rfl⟩
  | failed => exact .inr fun _ _ _ _ _ => .inr ⟨rfl, .failed, rfl⟩

include laid realizes same

/-- However many steps are played, the machine takes the same course in some number of
statements. -/
theorem exists_count (steps : Nat) (meets : Meets statements operations state.playhead.index place)
    (world : World) (rest other : Rest) :
    ∃ count, RunsAlike surroundings world rest other (playFrom options steps state).run
      (runFrom statements count place).run := by
  induction steps generalizing state place world rest other with
  | zero => exact ⟨0, .inr ⟨rfl, .unfinished, rfl⟩⟩
  | succ steps ih =>
    rw [playFrom_succ]
    -- A step that the machine does not follow takes no statement of it.
    rcases follows_or_stays laid realizes same options meets with stays | ⟨statement, found, moves⟩
    · rcases runsAlike_of_follows surroundings options stays world rest other with
        cut | ⟨result, move, between, later, otherLater, lands, alike⟩
      · exact ⟨0, .inl (cut steps)⟩
      · rcases goesOn_or_ended surroundings options realizes same (fun _ _ => And.right) lands with
          ⟨next, place, rfl, rfl, kept, -, -, reached⟩ | ended
        · obtain ⟨count, behind⟩ := ih kept reached between later otherLater
          exact ⟨count, alike steps count behind⟩
        · exact ⟨1, alike steps 1 (ended steps 0 between later otherLater)⟩
    · rcases runsAlike_of_follows surroundings options moves world rest other with
        cut | ⟨result, move, between, later, otherLater, lands, alike⟩
      · exact ⟨0, .inl (cut steps)⟩
      · rcases goesOn_or_ended surroundings options realizes same (fun _ _ => id) lands with
          ⟨next, place, rfl, rfl, kept, -, reached⟩ | ended
        · obtain ⟨count, behind⟩ := ih kept reached between later otherLater
          exact ⟨count + 1, runFrom_succ found count ▸ alike steps count behind⟩
        · exact ⟨2, runFrom_succ found 1 ▸
            alike steps 1 (ended steps 0 between later otherLater)⟩

/-- However many statements the machine runs, it or one more is what the playback takes the same
course as in some number of steps. -/
theorem exists_steps (count : Nat) (meets : Meets statements operations state.playhead.index place)
    (world : World) (rest other : Rest) :
    ∃ steps more, more ≤ 1 ∧ RunsAlike surroundings world rest other
      (playFrom options steps state).run (runFrom statements (count + more) place).run := by
  induction count generalizing state place world rest other with
  | zero => exact ⟨0, 0, Nat.zero_le 1, .inr ⟨rfl, .unfinished, rfl⟩⟩
  | succ count ih =>
    -- While the machine stays, the playback passes labels towards the end of the sequence.
    induction ahead : sequence.size - state.playhead.index using Nat.strongRecOn
      generalizing state place world rest other with
    | ind left closer =>
    subst ahead
    rcases follows_or_stays laid realizes same options meets with stays | ⟨statement, found, moves⟩
    · rcases runsAlike_of_follows surroundings options stays world rest other with
        cut | ⟨result, move, between, later, otherLater, lands, alike⟩
      · exact ⟨1, 0, Nat.zero_le 1, .inl (playFrom_succ options 0 state ▸ cut 0)⟩
      · rcases goesOn_or_ended surroundings options realizes same (fun _ _ => And.right) lands with
          ⟨next, place, rfl, rfl, kept, inside, passed, reached⟩ | ended
        · have further := passed (realizes.size ▸ inside)
          obtain ⟨steps, more, bound, behind⟩ :=
            closer _ (by omega) kept reached between later otherLater rfl
          exact ⟨steps + 1, more, bound, playFrom_succ options steps state ▸
            alike steps (count + 1 + more) behind⟩
        · exact ⟨1, 0, Nat.zero_le 1, playFrom_succ options 0 state ▸
            alike 0 (count + 1) (ended 0 count between later otherLater)⟩
    · rcases runsAlike_of_follows surroundings options moves world rest other with
        cut | ⟨result, move, between, later, otherLater, lands, alike⟩
      · exact ⟨1, 0, Nat.zero_le 1, .inl (playFrom_succ options 0 state ▸ cut 0)⟩
      · rcases goesOn_or_ended surroundings options realizes same (fun _ _ => id) lands with
          ⟨next, place, rfl, rfl, kept, -, reached⟩ | ended
        · obtain ⟨steps, more, bound, behind⟩ := ih kept reached between later otherLater
          refine ⟨steps + 1, more, bound, ?_⟩
          rw [playFrom_succ, Nat.add_right_comm, runFrom_succ found]
          exact alike steps (count + more) behind
        -- The machine finds out only with one more statement that there is none left.
        · refine ⟨1, 1, Nat.le_refl 1, ?_⟩
          rw [playFrom_succ, runFrom_succ found]
          exact alike 0 (count + 1) (ended 0 count between later otherLater)

end

theorem course_play {World Rest : Type} (surroundings : Surroundings World Rest)
    (options : Options) (hasLoader : Bool) (sequence : Sequence) (world : World) (rest : Rest) :
    ∃ now later, ∀ steps,
      surroundings.course (play options hasLoader steps sequence).run (world, rest) =
        surroundings.course
          (playFrom options steps ⟨.start sequence none hasLoader, now, .zero⟩).run
          (world, later) := by
  let opening := "playback started (" ++ toString sequence.size ++ " instructions)"
  let noted := surroundings.attend (.note ⟨.info, opening⟩) world rest
  let told := surroundings.attend .clock world noted.2
  refine ⟨told.1, told.2, fun steps => ?_⟩
  unfold play Playback.note
  rw [Playback.run_ask_bind, surroundings.course_ask_quiet id, Playback.run_ask_bind,
    surroundings.course_ask_quiet id, Playback.run_bind, surroundings.course_bind_quiet]
  rintro (error | (_ | report)) world rest
  · rfl
  · rfl
  · exact surroundings.course_ask_quiet id _ world rest

/-- Compiling keeps what a script means. In the same surroundings, with whatever rest around
either, the playback of the sequence and the machine at its statements make the same calls in the
same order, leave the same and end alike, unless the playback is cut short. -/
theorem play_compiled {text : String} {sequence : Sequence} (compiled : compile text = .ok sequence)
    (options : Options) (hasLoader : Bool) {World Rest : Type}
    (surroundings : Surroundings World Rest) (world : World) (rest other : Rest) :
    (∀ steps, ∃ count, RunsAlike surroundings world rest other
      (play options hasLoader steps sequence).run (runFrom (statements text) count 0).run) ∧
    ∀ count, ∃ steps more, more ≤ 1 ∧ RunsAlike surroundings world rest other
      (play options hasLoader steps sequence).run
      (runFrom (statements text) (count + more) 0).run := by
  obtain ⟨operations, laid, realizes⟩ := compile_ok compiled
  obtain ⟨next, layout⟩ := laid.layout
  obtain ⟨now, later, same⟩ := course_play surroundings options hasLoader sequence world rest
  have meets : Meets (statements text) operations 0 0 := meets_cut (Cut.atStart layout)
  unfold RunsAlike
  simp only [same]
  exact ⟨fun steps => exists_count surroundings options laid realizes rfl steps meets world _ other,
    fun count => exists_steps surroundings options laid realizes rfl count meets world _ other⟩

def counting : Surroundings Nat Unit where
  call request world := match request with
    | .gesture _ => (.ok (), world + 1)
    | .pixel _ _ => (.opaqueRgb 0 0 0, world + 1)
    | .evaluate _ => (.ok (.bool true), world + 1)
    | .load _ => (.error (.invalidGap 0 0), world + 1)
    | .wait _ => (.reached, world)
    | .clock => (0, world)
    | .isCancelled => (false, world)
    | .note _ => ((), world)
  notice _ _ _ := ()
  attend request _ _ := match request with
    | .gesture _ => (.ok (), ())
    | .pixel _ _ => (.opaqueRgb 0 0 0, ())
    | .evaluate _ => (.ok .nil, ())
    | .load _ => (.error (.invalidGap 0 0), ())
    | .wait _ => (.reached, ())
    | .clock => (0, ())
    | .isCancelled => (false, ())
    | .note _ => ((), ())

def loopText : String := "while (Custom(`x`))\nbreak\nendwhile"

theorem lines_loopText : lines loopText =
    [⟨[⟨.keyword .whileBlock, "while", 1, 1⟩, ⟨.openParen, "(", 1, 7⟩,
        ⟨.keyword .custom, "Custom", 1, 8⟩, ⟨.openParen, "(", 1, 14⟩, ⟨.string, "x", 1, 15⟩,
        ⟨.closeParen, ")", 1, 18⟩, ⟨.closeParen, ")", 1, 19⟩], false⟩,
      ⟨[⟨.keyword .leave, "break", 2, 1⟩], false⟩,
      ⟨[⟨.keyword .endWhile, "endwhile", 3, 1⟩], false⟩] := by
  decide +kernel

def loopSequence : Sequence :=
  ⟨#[.plain (.label "__dsl_while_0"),
    .plain (.branch (.expression "x") (.label "__dsl_do_0") (.label "__dsl_endwhile_0")),
    .plain (.label "__dsl_do_0"), .plain (.jump (some "__dsl_endwhile_0") (some 5)),
    .plain (.jump (some "__dsl_while_0") (some 0)), .plain (.label "__dsl_endwhile_0")]⟩

theorem compile_loopText : compile loopText = .ok loopSequence := by
  unfold compile
  rw [lines_loopText]
  rfl

theorem play_compiled_loop :
    compile loopText = .ok loopSequence ∧ ∃ count, RunsAlike counting 0 () ()
      (play ⟨1, false, 0⟩ false 5 loopSequence).run
      (runFrom (statements loopText) count 0).run :=
  ⟨compile_loopText, (play_compiled compile_loopText ⟨1, false, 0⟩ false counting 0 () ()).1 5⟩

end InputTape.Script
