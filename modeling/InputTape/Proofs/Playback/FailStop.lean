import InputTape.Proofs.Expression.Heeding
import InputTape.Proofs.Playback.Endings
import InputTape.Proofs.Playback.Faults

/-! Playback stops at the first failure.

Whatever call fails, and wherever a playback is by then, nothing more is asked. A playback fails with
the fault of its last round, and tells where in the sequence that was played by then.
-/

set_option autoImplicit false

namespace InputTape.Playback

open Interaction (Exchange Heeds Traces heeds_ask replay run_replay)

/-! ## Failed calls -/

def failed? : Exchange Request Request.Answer → Option Unit
  | ⟨.gesture _, .error _⟩ | ⟨.evaluate _, .error _⟩ | ⟨.load _, .error _⟩ => some ()
  | _ => none

def Failed (exchange : Exchange Request Request.Answer) : Prop := failed? exchange = some ()

/-- An attempt that asks nothing behind a failed call, and fails. -/
def FailStop {ε α : Type} (attempt : Attempt ε α) : Prop :=
  attempt.run.Heeds failed? fun _ _ => True

section

variable {ε δ α β : Type}

theorem FailStop.andThen {first : Attempt ε α} {second : α → Attempt ε β} (stops : FailStop first)
    (next : ∀ value, FailStop (second value)) : FailStop (first >>= second) :=
  Heeds.andThen stops next

theorem FailStop.blaming {blame : δ → ε} {attempt : Attempt δ α} (stops : FailStop attempt) :
    FailStop (blaming blame attempt) :=
  stops.bind (fun error => ⟨blame error, rfl, fun _ => id⟩) fun _ => trivial

theorem failStop_pure (value : α) : FailStop (pure value : Attempt ε α) := trivial

theorem failStop_settle (blame : δ → ε) (result : Except δ α) : FailStop (settle blame result) :=
  trivial

theorem failStop_ask {request : Request} {next : request.Answer → Attempt ε α}
    (quiet : ∀ answer, failed? ⟨request, answer⟩ = none) (stops : ∀ answer, FailStop (next answer)) :
    FailStop (ask request >>= next) :=
  heeds_ask quiet stops

theorem failStop_note {level : Journal.Level} {text : String} {next : Unit → Attempt ε α}
    (stops : FailStop (next ())) : FailStop (note level text >>= next) :=
  heeds_ask (fun _ => rfl) fun _ => stops

theorem failStop_perform (gesture : Gesture) : FailStop (perform gesture) := by
  intro answer
  cases answer with
  | error error => exact ⟨.output error, trivial, rfl⟩
  | ok done => exact trivial

theorem failStop_runLines (number : Nat) (lines : List String) :
    FailStop (runLines number lines) := by
  induction lines generalizing number with
  | nil => exact trivial
  | cons line more ih =>
    unfold runLines
    cases idle : isIdleLine (Text.trim line) with
    | true =>
      simp only [idle, if_true]
      exact ih (number + 1)
    | false =>
      simp only [idle, Bool.false_eq_true, if_false]
      intro answer
      cases answer with
      | error error => exact ⟨.script number error, trivial, rfl⟩
      | ok value => exact ih (number + 1)

theorem failStop_test (condition : Condition) : FailStop (test condition) := by
  cases condition with
  | pixel x y color tolerance => exact fun _ => trivial
  | expression source =>
    intro answer
    cases answer with
    | error error => exact ⟨.condition error, trivial, rfl⟩
    | ok value => exact trivial

theorem failStop_execute (playhead : Playhead) (operation : Operation) :
    FailStop (execute playhead operation) := by
  cases operation with
  | label | delay | exit | jump => exact trivial
  | mouse => exact (failStop_perform _).blaming.andThen fun _ => failStop_pure _
  | key => exact (failStop_perform _).blaming.andThen fun _ => failStop_pure _
  | script => exact (failStop_runLines 1 _).blaming.andThen fun _ => failStop_pure _
  | branch condition =>
    exact (failStop_test condition).blaming.andThen fun _ => failStop_note (failStop_settle _ _)

theorem failStop_load (playhead : Playhead) (path : FilePath) : FailStop (playhead.load path) := by
  unfold Playhead.load
  cases playhead.hasLoader with
  | false => exact trivial
  | true =>
    intro answer
    cases answer with
    | error error => exact ⟨.notLoaded _ error, trivial, rfl⟩
    | ok sequence => exact trivial

end

section

variable {options : Options} {state : State} {instruction : Instruction}

theorem failStop_schedule (time : Time) (milliseconds : Float) :
    FailStop (schedule options state instruction time milliseconds) := by
  unfold schedule
  split <;> exact trivial

theorem failStop_recordFiring (deadline : Time) :
    FailStop (recordFiring options state deadline) := by
  unfold recordFiring
  refine failStop_ask (fun _ => rfl) fun now => failStop_note ?_
  split
  · exact failStop_note (failStop_pure _)
  · exact failStop_pure _

theorem failStop_goOn (deadline : Time) (tally : Tally) :
    FailStop (goOn options state instruction deadline tally) := by
  rw [goOn_eq]
  refine (failStop_schedule _ _).andThen fun later => ?_
  split
  · exact failStop_pure _
  · split
    · refine failStop_ask (fun _ => rfl) fun outcome => ?_
      cases outcome <;> exact failStop_pure _
    · exact failStop_pure _

theorem failStop_goTo (index : Nat) (tally : Tally) :
    FailStop (goTo state instruction index tally) :=
  (failStop_settle _ _).andThen fun _ => failStop_ask (fun _ => rfl) fun _ => failStop_pure _

theorem failStop_transferTo (path : FilePath) (tally : Tally) :
    FailStop (transferTo state instruction path tally) :=
  (failStop_load _ path).blaming.andThen fun _ => failStop_note <|
    failStop_ask (fun _ => rfl) fun _ => failStop_pure _

theorem failStop_fire (deadline : Time) : FailStop (fire options state instruction deadline) := by
  refine (failStop_recordFiring deadline).andThen fun tally => failStop_note ?_
  refine (failStop_execute _ _).blaming.andThen fun directive => ?_
  cases directive with
  | next => exact failStop_goOn deadline _
  | jump index => exact failStop_goTo index _
  | stop => exact failStop_pure _
  | transfer path => exact failStop_transferTo path _

theorem failStop_step : FailStop (step options state) := by
  refine failStop_ask (fun _ => rfl) fun isCancelled => ?_
  split
  · exact failStop_pure _
  · split
    · exact failStop_pure _
    · refine (failStop_schedule _ _).andThen fun deadline => ?_
      refine failStop_ask (fun _ => rfl) fun outcome => ?_
      cases outcome with
      | cancelled => exact failStop_pure _
      | reached => exact failStop_fire deadline

theorem failStop_playFrom (steps : Nat) (state : State) :
    FailStop (playFrom options steps state) := by
  induction steps generalizing state with
  | zero => exact trivial
  | succ steps ih =>
    refine failStop_step.andThen fun progress => ?_
    cases progress with
    | playing next => exact ih next
    | ended report => exact failStop_pure _

theorem failStop_play (hasLoader : Bool) (steps : Nat) (sequence : Sequence) :
    FailStop (play options hasLoader steps sequence) := by
  refine failStop_note (failStop_ask (fun _ => rfl) fun now => ?_)
  refine (failStop_playFrom steps _).andThen fun report => ?_
  cases report with
  | none => exact failStop_pure _
  | some report => exact failStop_note (failStop_pure _)

end

/-! ## The sequence that is played -/

/-- The sequence that is played behind exchanges: the last one that was loaded. -/
def played (sequence : Sequence) (exchanges : List (Exchange Request Request.Answer)) : Sequence :=
  exchanges.foldl (fun current exchange => match exchange with
    | ⟨.load _, .ok loaded⟩ => loaded
    | _ => current) sequence

theorem played_append (sequence : Sequence) (first second : List (Exchange Request Request.Answer)) :
    played sequence (first ++ second) = played (played sequence first) second := List.foldl_append

def NoLoad (request : Request) : Prop := ∀ path, request ≠ .load path

theorem played_eq {sequence : Sequence} {exchanges : List (Exchange Request Request.Answer)}
    (none : ∀ exchange ∈ exchanges, NoLoad exchange.request) :
    played sequence exchanges = sequence := by
  induction exchanges with
  | nil => rfl
  | cons exchange more ih =>
    obtain ⟨here, later⟩ := List.forall_mem_cons.mp none
    have stays : played sequence [exchange] = sequence := by
      unfold played
      simp only [List.foldl_cons, List.foldl_nil]
      split
      · exact absurd rfl (here _)
      · rfl
    rw [← List.singleton_append, played_append, stays]
    exact ih later

section

variable {options : Options} {state : State}

theorem noLoad_execute {playhead : Playhead} {operation : Operation}
    {asked : List (Exchange Request Request.Answer)} {result : Except Failure Directive}
    (works : (execute playhead operation).run.Traces asked result) :
    ∀ exchange ∈ asked, NoLoad exchange.request := by
  intro exchange member path loads
  have timeless := (works.always (timeless_execute _ _)).1 exchange member
  rw [loads] at timeless
  rcases timeless with acts | ⟨entry, same⟩
  · exact acts
  · cases same

theorem Approaches.noLoad {near : List (Exchange Request Request.Answer)}
    {result : Except PlaybackError Arrival} (approaches : Approaches options state near result) :
    ∀ exchange ∈ near, NoLoad exchange.request := by
  cases approaches with
  | cancelled | completed | tooLong | interrupted => simp [NoLoad]
  | failed current due works | dispatched current due works =>
    refine List.forall_mem_append.mpr ⟨fun exchange member path loads => ?_, noLoad_execute works⟩
    have quiet := quiet_leadIn _ _ _ exchange member
    rw [loads] at quiet
    exact quiet trivial

theorem Playhead.advance?_eq_some {playhead next : Playhead}
    (advanced : playhead.advance? = some next) :
    next = { playhead with index := playhead.index + 1 } := by
  unfold advance? at advanced
  split at advanced
  · exact (Option.some.inj advanced).symm
  · cases advanced

theorem Playhead.jump_eq_ok {playhead next : Playhead} {index : Nat}
    (jumped : playhead.jump index = .ok next) : next = { playhead with index := index } := by
  unfold jump at jumped
  split at jumped
  · exact (Except.ok.inj jumped).symm
  · cases jumped

theorem Round.Of.played {round : Round} (isRound : Round.Of options state round) :
    (round.leaves state).playhead.sequence =
      played state.playhead.sequence round.exchanges := by
  cases isRound with
  | ended approaches | failed approaches =>
    rw [Round.exchanges, List.append_nil, played_eq (traces_approach.mp approaches).noLoad]
    rfl
  | dispatched approaches concludes =>
    rw [Round.exchanges, played_append, played_eq (traces_approach.mp approaches).noLoad]
    cases traces_conclude.mp concludes with
    | next _ _ advanced =>
      cases Playhead.advance?_eq_some advanced
      rfl
    | jumped _ jumped =>
      cases Playhead.jump_eq_ok jumped
      rfl
    | _ => rfl

theorem standing_sequence {σ : Type} {answer : (request : Request) → σ → request.Answer × σ}
    {steps : Nat} {surroundings : σ} {earlier later : List Round}
    (split : rounds options answer steps state surroundings = earlier ++ later) :
    (standing state earlier).playhead.sequence =
      played state.playhead.sequence (earlier.flatMap Round.exchanges) := by
  refine standing_of (motive := fun standing asked =>
    standing.playhead.sequence = played state.playhead.sequence asked) options answer rfl ?_ split
  intro before asked round same isRound
  rw [isRound.played, same, played_append]

end

/-! ## Whole playbacks -/

section

variable {σ τ : Type} (options : Options) (hasLoader : Bool) (steps : Nat) (sequence : Sequence)
  (answer : (request : Request) → σ → request.Answer × σ) (surroundings : σ)
  (device : (request : Expression.Request) → τ → request.Answer × τ) (desk : τ)
  (store : Store) (line : String)

/-- Playback stops at the first failed call and at the first fault of any kind, and its error names
the fault, the instruction, and where that is in the sequence that was played by then. What was
asked before has taken place. A line of a script stops at its first failed gesture in the same
way. -/
theorem play_failStop :
    let history := history options hasLoader steps sequence answer surroundings
    let start := starting sequence hasLoader history.start
    let asked := (play options hasLoader steps sequence).run.transcript answer surroundings
    let ended := (play options hasLoader steps sequence).run.run answer surroundings
    let askedOfDevice := (Expression.evaluate store line).transcript device desk
    (∀ before exchange after, asked = before ++ exchange :: after → Failed exchange →
      after = [] ∧ ∃ error, ended.1 = .error error) ∧
    (∀ earlier round later instruction failure, history.rounds = earlier ++ round :: later →
      (standing start earlier).playhead.current? = some instruction →
      Fault options (standing start earlier) instruction (unnoted round.exchanges) failure →
      later = [] ∧
        ended.1 = .error ⟨(standing start earlier).playhead.index, instruction, failure⟩) ∧
    (∀ error, ended.1 = .error error →
      ∃ earlier round failure, history.rounds = earlier ++ [round] ∧
        asked = opening sequence history.start ++ earlier.flatMap Round.exchanges
          ++ round.exchanges ∧
        (played sequence (earlier.flatMap Round.exchanges)).get? error.index =
          some error.instruction ∧
        error.index = (standing start earlier).playhead.index ∧
        Fault options (standing start earlier) error.instruction (unnoted round.exchanges)
          failure ∧
        error.message = failure.kind ++ " at instruction " ++ toString error.index ++ " ("
          ++ error.instruction.text ++ "): " ++ failure.message) ∧
    ended.2 = replay answer asked surroundings ∧
    (∀ before exchange after failure, askedOfDevice = before ++ exchange :: after →
      Expression.refusal? exchange = some failure →
      after = [] ∧
        (Expression.evaluate store line).run device desk =
          ((.error (.device failure), store), replay device askedOfDevice desk)) := by
  intro history start asked ended askedOfDevice
  have result : ended.1 = ending history.rounds := run_play ..
  refine ⟨?_, ?_, ?_, ?_, ?_⟩
  · intro before exchange after split failed
    -- A failed call is heeded wherever it is asked, so the trace stops at it.
    have traces := Interaction.traces_run (play options hasLoader steps sequence).run answer
      surroundings
    obtain ⟨nothing, error, -, fails⟩ := traces.stops (failStop_play hasLoader steps sequence)
      split failed
    exact ⟨nothing, error, fails⟩
  · intro earlier round later instruction failure split current fault
    obtain ⟨left, -, here, behind⟩ := history_split options hasLoader steps sequence answer
      surroundings split
    -- The round with the fault fails, and a round that fails is the last.
    have fails : round.result = .error ⟨(standing start earlier).playhead.index, instruction,
        failure⟩ := by
      rw [here] at fault ⊢
      exact round_eq_error.mpr ⟨instruction, failure, current, rfl, fault⟩
    have last : later = [] := by
      rw [behind, further, fails]
    refine ⟨last, ?_⟩
    rw [result, ending_eq_error]
    exact ⟨earlier, round, last ▸ split, fails⟩
  · intro error failed
    rw [result] at failed
    -- An error comes from the last round, so its fault is the one of that round.
    obtain ⟨earlier, round, split, fails⟩ := ending_eq_error.mp failed
    obtain ⟨left, -, here, -⟩ := history_split options hasLoader steps sequence answer
      surroundings split
    have blamed := fails
    rw [here] at blamed
    obtain ⟨instruction, failure, current, rfl, fault⟩ := round_eq_error.mp blamed
    have plays : (standing start earlier).playhead.sequence =
        played sequence (earlier.flatMap Round.exchanges) :=
      @standing_sequence _ _ _ _ _ _ _ [round] split
    refine ⟨earlier, round, failure, split, ?_, ?_, rfl, ?_, rfl⟩
    · have same := transcript_play options hasLoader steps sequence answer surroundings
      change asked = _ at same
      rw [same, failed, split, List.flatMap_append, List.flatMap_singleton]
      simp only [closing, List.append_nil, List.append_assoc]
      rfl
    · rw [← plays]
      exact current
    · rw [← here] at fault
      exact fault
  · exact run_replay ..
  · intro before exchange after failure split refused
    have traces := Interaction.traces_run (Expression.evaluate store line) device desk
    obtain ⟨nothing, same⟩ := Expression.evaluate_stops traces split refused
    exact ⟨nothing, Prod.ext same (run_replay ..)⟩

end

def refusing : (request : Request) → Unit → request.Answer × Unit
  | .gesture _, _ => (.ok (), ())
  | .pixel _ _, _ => (⟨0, 0, 0, 0⟩, ())
  | .evaluate line, _ => (if line = "c" then .error .divisionByZero else .ok .nil, ())
  | .load _, _ => (.ok ⟨#[]⟩, ())
  | .wait _, _ => (.reached, ())
  | .clock, _ => (0, ())
  | .isCancelled, _ => (false, ())
  | .note _, _ => ((), ())

def commentedScript : Instruction := .plain (.script ["// b", "b", "", "c", "d"])

def commentedSequence : Sequence := ⟨#[.plain (.label "a"), commentedScript]⟩

def jammed : (request : Expression.Request) → Unit → request.Answer × Unit
  | .gesture _, _ => (.error (.failure "jammed"), ())
  | .readClipboard, _ => ("", ())
  | .writeClipboard _, _ => ((), ())

-- The comment and the blank line count too. The second of two gestures is not tried.
theorem play_failStop_comment :
    let asked := (play ⟨1, false, 0⟩ false 5 commentedSequence).run.transcript refusing ()
    let ended := ((play ⟨1, false, 0⟩ false 5 commentedSequence).run.run refusing ()).1
    let evaluation := Expression.evaluate .empty "$x = release_all()"
    asked = asked.take 13 ++ [⟨.evaluate "c", .error .divisionByZero⟩] ∧
      ended = .error ⟨1, commentedScript, .execution (.script 4 .divisionByZero)⟩ ∧
      (evaluation.transcript jammed ()).length = 1 ∧
      evaluation.run jammed () = ((.error (.device (.failure "jammed")), .empty), ()) := by
  intro asked ended evaluation
  let rounds := (history ⟨1, false, 0⟩ false 5 commentedSequence refusing ()).rounds
  obtain ⟨stops, blames, -, -, breaks⟩ := play_failStop ⟨1, false, 0⟩ false 5 commentedSequence
    refusing () jammed () .empty "$x = release_all()"
  have split : asked =
      asked.take 13 ++ ⟨.evaluate "c", .error .divisionByZero⟩ :: asked.drop 14 := by rfl
  have second : ∃ round, rounds = rounds.take 1 ++ round :: rounds.drop 2 ∧
      unnoted round.exchanges = [⟨.isCancelled, false⟩, ⟨.wait 0, .reached⟩, ⟨.clock, 0⟩,
        ⟨.evaluate "b", .ok .nil⟩, ⟨.evaluate "c", .error .divisionByZero⟩] :=
    ⟨_, by rfl, by rfl⟩
  obtain ⟨round, two, exchanges⟩ := second
  have fault : Fault ⟨1, false, 0⟩
      (standing (starting commentedSequence false 0) (rounds.take 1)) commentedScript
      (unnoted round.exchanges) (.execution (.script 4 .divisionByZero)) := by
    rw [exchanges]
    refine .work (by rfl) ?_
    exact @Mishap.script _ ["// b", "b", ""] ["d"] "c" _ _ (by rfl) (.cons ⟨.nil, rfl⟩ .nil)
  refine ⟨?_, (blames _ _ _ _ _ two (by rfl) fault).2, ?_⟩
  · have nothing : asked.drop 14 = [] := (stops _ _ _ split rfl).1
    rw [nothing] at split
    exact split
  · have refuses : (evaluation.transcript jammed ())[0]?.bind Expression.refusal? =
        some (.failure "jammed") := by
      decide +kernel
    cases told : evaluation.transcript jammed () with
    | nil =>
      rw [told] at refuses
      cases refuses
    | cons exchange after =>
      rw [told] at refuses
      obtain ⟨rfl, same⟩ := breaks [] exchange after _ told refuses
      exact ⟨rfl, same⟩

end InputTape.Playback
