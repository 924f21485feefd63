import Mathlib.Data.List.Forall2
import InputTape.Proofs.Playback.Rounds

/-! What instructions ask, where they lead, and what can go wrong.

`Does` lists what an instruction asks when all goes well. `Mishap` lists every way in which doing
an instruction, or going where it leads, goes wrong: what was asked by then, in order, and what is
wrong. The last thing asked is the call that failed, if it was a call. What is noted in the journal
on the way is left out.
-/

set_option autoImplicit false

namespace InputTape.Playback

open Interaction (Traces Exchange traces_ask traces_bind traces_done)

def Request.isNote : Request → Bool
  | .note _ => true
  | _ => false

def unnoted (exchanges : List (Exchange Request Request.Answer)) :
    List (Exchange Request Request.Answer) :=
  exchanges.filter fun exchange => !exchange.request.isNote

@[simp] theorem unnoted_nil : unnoted [] = [] := rfl

@[simp] theorem unnoted_append (first second : List (Exchange Request Request.Answer)) :
    unnoted (first ++ second) = unnoted first ++ unnoted second := List.filter_append ..

/-- The lines of a script that are evaluated: neither blank nor a comment. -/
def busyLines (lines : List String) : List String :=
  (lines.map Text.trim).filter fun line => !isIdleLine line

def Evaluated : List String → List (Exchange Request Request.Answer) → Prop :=
  List.Forall₂ fun line exchange => ∃ value, exchange = ⟨.evaluate line, .ok value⟩

inductive Tests : Condition → List (Exchange Request Request.Answer) → Bool → Prop where
  | pixel {x y : Int32} {color found : Color} {tolerance : UInt8} :
      Tests (.pixel x y color tolerance) [⟨.pixel x y, found⟩] (found.isWithin color tolerance)
  | expression {source : String} {value : Value} :
      Tests (.expression source) [⟨.evaluate source, .ok value⟩] value.isTrue

/-- An operation asks this where the playhead is, and leads there. -/
inductive Does (playhead : Playhead) :
    Operation → List (Exchange Request Request.Answer) → Directive → Prop where
  | label {name : String} : Does playhead (.label name) [] .next
  | delay {milliseconds : Float} : Does playhead (.delay milliseconds) [] .next
  | mouse {action : MouseAction} {x y wheel : Int32} :
      Does playhead (.mouse action x y wheel) [⟨.gesture (action.gesture x y wheel), .ok ()⟩] .next
  | key {action : KeyAction} {code : KeyCode} :
      Does playhead (.key action code) [⟨.gesture (action.gesture code), .ok ()⟩] .next
  | script {lines : List String} {asked : List (Exchange Request Request.Answer)} :
      Evaluated (busyLines lines) asked → Does playhead (.script lines) asked .next
  | jump {name : Option String} {index : Option Nat} {directive : Directive} :
      jumpDirective playhead name index = .ok directive →
      Does playhead (.jump name index) [] directive
  | branch {condition : Condition} {onTrue onFalse : BranchTarget} {holds : Bool}
      {asked : List (Exchange Request Request.Answer)} {directive : Directive} :
      Tests condition asked holds →
      branchDirective playhead holds (if holds then onTrue else onFalse) = .ok directive →
      Does playhead (.branch condition onTrue onFalse) asked directive
  | exit : Does playhead .exit [] .stop

/-- An operation goes wrong where the playhead is, after it has asked this. -/
inductive Mishap (playhead : Playhead) :
    Operation → List (Exchange Request Request.Answer) → Failure → Prop where
  | mouse {action : MouseAction} {x y wheel : Int32} {error : DeviceError} :
      Mishap playhead (.mouse action x y wheel)
        [⟨.gesture (action.gesture x y wheel), .error error⟩] (.execution (.output error))
  | key {action : KeyAction} {code : KeyCode} {error : DeviceError} :
      Mishap playhead (.key action code) [⟨.gesture (action.gesture code), .error error⟩]
        (.execution (.output error))
  /-- Lines count from one, the idle ones too. -/
  | script {before after : List String} {line : String} {error : EvaluationError}
      {asked : List (Exchange Request Request.Answer)} :
      isIdleLine (Text.trim line) = false → Evaluated (busyLines before) asked →
      Mishap playhead (.script (before ++ line :: after))
        (asked ++ [⟨.evaluate (Text.trim line), .error error⟩])
        (.execution (.script (before.length + 1) error))
  | condition {source : String} {onTrue onFalse : BranchTarget} {error : EvaluationError} :
      Mishap playhead (.branch (.expression source) onTrue onFalse)
        [⟨.evaluate source, .error error⟩] (.execution (.condition error))
  | jumpNowhere {name : Option String} : nonBlank? name = none →
      Mishap playhead (.jump name none) [] (.flow .noTarget)
  | jumpUnresolved {name : Option String} {index : Option Nat} {wanted : String} :
      nonBlank? name = some wanted → playhead.find? wanted = none →
      Mishap playhead (.jump name index) [] (.flow (.unresolved wanted))
  | jumpOutside {name : Option String} {index : Nat} : nonBlank? name = none →
      playhead.sequence.size ≤ index →
      Mishap playhead (.jump name (some index)) []
        (.flow (.outOfRange index playhead.sequence.size))
  | branchNowhere {condition : Condition} {onTrue onFalse : BranchTarget}
      {asked : List (Exchange Request Request.Answer)} :
      Tests condition asked true → onTrue.file = none → nonBlank? onTrue.name = none →
      Mishap playhead (.branch condition onTrue onFalse) asked (.flow .noTarget)
  | branchUnresolved {condition : Condition} {onTrue onFalse : BranchTarget} {holds : Bool}
      {asked : List (Exchange Request Request.Answer)} {wanted : String} :
      Tests condition asked holds → (if holds then onTrue else onFalse).file = none →
      nonBlank? (if holds then onTrue else onFalse).name = some wanted →
      playhead.find? wanted = none →
      Mishap playhead (.branch condition onTrue onFalse) asked (.flow (.unresolved wanted))
  | noLoader {condition : Condition} {onTrue onFalse : BranchTarget} {holds : Bool}
      {asked : List (Exchange Request Request.Answer)} {path : FilePath} :
      Tests condition asked holds → (if holds then onTrue else onFalse).file = some path →
      playhead.hasLoader = false →
      Mishap playhead (.branch condition onTrue onFalse) asked (.flow (.noLoader path))
  | notLoaded {condition : Condition} {onTrue onFalse : BranchTarget} {holds : Bool}
      {asked : List (Exchange Request Request.Answer)} {path : FilePath} {error : SequenceError} :
      Tests condition asked holds → (if holds then onTrue else onFalse).file = some path →
      playhead.hasLoader = true →
      Mishap playhead (.branch condition onTrue onFalse)
        (asked ++ [⟨.load (playhead.resolve path), .error error⟩])
        (.flow (.notLoaded (playhead.resolve path) error))

/-! ## What instructions ask -/

section

variable {asked : List (Exchange Request Request.Answer)}

theorem traces_perform {gesture : Gesture} {result : Except ExecutionError Unit} :
    (perform gesture).run.Traces asked result ↔ ∃ answer : Except DeviceError Unit,
      asked = [⟨.gesture gesture, answer⟩] ∧ result = answer.mapError .output := by
  unfold perform
  rw [traces_ask_bind]
  constructor
  · rintro ⟨answer, _, rfl, rest⟩
    obtain ⟨rfl, rfl⟩ := traces_done.mp rest
    exact ⟨answer, rfl, rfl⟩
  · rintro ⟨answer, rfl, rfl⟩
    exact ⟨answer, [], rfl, .done⟩

theorem busyLines_cons (line : String) (lines : List String) :
    busyLines (line :: lines) =
      if isIdleLine (Text.trim line) then busyLines lines else Text.trim line :: busyLines lines := by
  cases idle : isIdleLine (Text.trim line) <;> simp [busyLines, idle]

theorem traces_busyLine {number : Nat} {line : String} {more : List String}
    {result : Except ExecutionError Unit} (busy : isIdleLine (Text.trim line) = false) :
    (runLines number (line :: more)).run.Traces asked result ↔
      ∃ answer rest, asked = ⟨.evaluate (Text.trim line), answer⟩ :: rest ∧
        match answer with
        | .error error => rest = [] ∧ result = .error (.script number error)
        | .ok _ => (runLines (number + 1) more).run.Traces rest result := by
  rw [runLines]
  simp only [busy, Bool.false_eq_true, if_false]
  change (Interaction.ask (Request.evaluate (Text.trim line)) _).Traces asked result ↔ _
  rw [traces_ask]
  apply exists_congr
  intro answer
  apply exists_congr
  intro rest
  apply and_congr_right
  intro _
  cases answer with
  | error error => exact traces_done
  | ok value => rfl

theorem traces_idleLine {number : Nat} {line : String} {more : List String}
    {result : Except ExecutionError Unit} (idle : isIdleLine (Text.trim line) = true) :
    (runLines number (line :: more)).run.Traces asked result ↔
      (runLines (number + 1) more).run.Traces asked result := by
  rw [runLines]
  simp only [idle, if_true]

theorem Evaluated.traces {number : Nat} {before after : List String}
    {rest : List (Exchange Request Request.Answer)} {result : Except ExecutionError Unit}
    (evaluated : Evaluated (busyLines before) asked)
    (traces : (runLines (number + before.length) after).run.Traces rest result) :
    (runLines number (before ++ after)).run.Traces (asked ++ rest) result := by
  induction before generalizing number asked with
  | nil =>
    cases evaluated
    exact traces
  | cons line before ih =>
    rw [List.length_cons, Nat.add_comm before.length, ← Nat.add_assoc] at traces
    cases idle : isIdleLine (Text.trim line) with
    | true =>
      rw [busyLines_cons, idle, if_pos rfl] at evaluated
      exact (traces_idleLine idle).mpr (ih evaluated traces)
    | false =>
      rw [busyLines_cons, idle, if_neg Bool.false_ne_true] at evaluated
      cases evaluated with
      | cons first behind =>
        obtain ⟨value, rfl⟩ := first
        exact (traces_busyLine idle).mpr ⟨.ok value, _, rfl, ih behind traces⟩

inductive RunsLines (number : Nat) (lines : List String) :
    List (Exchange Request Request.Answer) → Except ExecutionError Unit → Prop where
  | ended {asked : List (Exchange Request Request.Answer)} : Evaluated (busyLines lines) asked →
      RunsLines number lines asked (.ok ())
  | failed {before after : List String} {line : String} {error : EvaluationError}
      {asked : List (Exchange Request Request.Answer)} : lines = before ++ line :: after →
      isIdleLine (Text.trim line) = false → Evaluated (busyLines before) asked →
      RunsLines number lines (asked ++ [⟨.evaluate (Text.trim line), .error error⟩])
        (.error (.script (number + before.length) error))

theorem RunsLines.passed {number : Nat} {line : String} {more : List String}
    {passing : List (Exchange Request Request.Answer)} {result : Except ExecutionError Unit}
    (runs : RunsLines (number + 1) more asked result)
    (passes : ∀ {before : List String} {front : List (Exchange Request Request.Answer)},
      Evaluated (busyLines before) front →
        Evaluated (busyLines (line :: before)) (passing ++ front)) :
    RunsLines number (line :: more) (passing ++ asked) result := by
  cases runs with
  | ended evaluated => exact .ended (passes evaluated)
  | failed split busy evaluated =>
    rw [Nat.add_right_comm, ← List.append_assoc]
    exact .failed (congrArg (line :: ·) split) busy (passes evaluated)

theorem runsLines_of_traces {number : Nat} {lines : List String}
    {result : Except ExecutionError Unit}
    (traces : (runLines number lines).run.Traces asked result) :
    RunsLines number lines asked result := by
  induction lines generalizing number asked with
  | nil =>
    obtain ⟨rfl, rfl⟩ := traces_done.mp traces
    exact .ended .nil
  | cons line more ih =>
    cases idle : isIdleLine (Text.trim line) with
    | true =>
      refine @RunsLines.passed _ _ _ _ [] _ (ih ((traces_idleLine idle).mp traces))
        fun evaluated => ?_
      rw [busyLines_cons, idle, if_pos rfl]
      exact evaluated
    | false =>
      obtain ⟨answer, rest, rfl, goes⟩ := (traces_busyLine idle).mp traces
      cases answer with
      | error error =>
        obtain ⟨rfl, rfl⟩ := goes
        exact @RunsLines.failed _ _ [] _ _ _ _ rfl idle .nil
      | ok value =>
        refine @RunsLines.passed _ _ _ _ [_] _ (ih goes) fun evaluated => ?_
        rw [busyLines_cons, idle, if_neg Bool.false_ne_true]
        exact .cons ⟨value, rfl⟩ evaluated

theorem traces_test {condition : Condition} {result : Except ExecutionError Bool} :
    (test condition).run.Traces asked result ↔
      (∃ holds, Tests condition asked holds ∧ result = .ok holds) ∨
      ∃ source error, condition = .expression source ∧
        asked = [⟨.evaluate source, .error error⟩] ∧ result = .error (.condition error) := by
  cases condition with
  | pixel x y color tolerance =>
    change (Interaction.ask (Request.pixel x y) _).Traces asked result ↔ _
    rw [traces_ask]
    constructor
    · rintro ⟨found, rest, rfl, ends⟩
      obtain ⟨rfl, rfl⟩ := traces_done.mp ends
      exact .inl ⟨_, .pixel, rfl⟩
    · rintro (⟨holds, tests, rfl⟩ | ⟨source, error, same, -⟩)
      · cases tests
        exact ⟨_, _, rfl, .done⟩
      · cases same
  | expression source =>
    change (Interaction.ask (Request.evaluate source) _).Traces asked result ↔ _
    rw [traces_ask]
    constructor
    · rintro ⟨answer, rest, rfl, ends⟩
      cases answer with
      | error error =>
        obtain ⟨rfl, rfl⟩ := traces_done.mp ends
        exact .inr ⟨source, error, rfl, rfl, rfl⟩
      | ok value =>
        obtain ⟨rfl, rfl⟩ := traces_done.mp ends
        exact .inl ⟨_, .expression, rfl⟩
    · rintro (⟨holds, tests, rfl⟩ | ⟨source, error, same, rfl, rfl⟩)
      · cases tests
        exact ⟨_, _, rfl, .done⟩
      · cases same
        exact ⟨_, _, rfl, .done⟩

theorem traces_working {α : Type} {work : Attempt ExecutionError α} {next : α → Attempt Failure Directive}
    {result : Except Failure Directive} :
    (blaming .execution work >>= next).run.Traces asked result ↔
      (∃ error, work.run.Traces asked (.error error) ∧ result = .error (.execution error)) ∨
      ∃ front value back, asked = front ++ back ∧ work.run.Traces front (.ok value) ∧
        (next value).run.Traces back result := by
  rw [traces_blaming]
  constructor
  · rintro ⟨front, done, back, rfl, works, rest⟩
    cases done with
    | error error =>
      obtain ⟨rfl, rfl⟩ := rest
      exact .inl ⟨error, by rwa [List.append_nil], rfl⟩
    | ok value => exact .inr ⟨front, value, back, rfl, works, rest⟩
  · rintro (⟨error, works, rfl⟩ | ⟨front, value, back, rfl, works, rest⟩)
    · exact ⟨asked, _, [], (List.append_nil asked).symm, works, rfl, rfl⟩
    · exact ⟨front, _, back, rfl, works, rest⟩

variable {playhead : Playhead}

theorem traces_branch {condition : Condition} {onTrue onFalse : BranchTarget}
    {result : Except Failure Directive} :
    (execute playhead (.branch condition onTrue onFalse)).run.Traces asked result ↔
      (∃ source error, condition = .expression source ∧
        asked = [⟨.evaluate source, .error error⟩] ∧
        result = .error (.execution (.condition error))) ∨
      ∃ front holds, Tests condition front holds ∧
        asked = front ++ [remark .debug
          ("branch condition " ++ condition.text ++ " is " ++ toString holds)] ∧
        result = (branchDirective playhead holds (if holds then onTrue else onFalse)).mapError
          .flow := by
  unfold execute
  rw [traces_working]
  simp only [traces_test, traces_note]
  constructor
  · rintro (⟨error, ⟨_, _, ⟨⟩⟩ | ⟨source, _, rfl, rfl, ⟨⟩⟩, rfl⟩ |
      ⟨front, holds, _, rfl, ⟨_, tests, ⟨⟩⟩ | ⟨_, _, _, _, ⟨⟩⟩, _, rfl, rest⟩)
    · exact .inl ⟨source, _, rfl, rfl, rfl⟩
    · obtain ⟨rfl, rfl⟩ := traces_done.mp rest
      exact .inr ⟨front, holds, tests, rfl, rfl⟩
  · rintro (⟨source, error, rfl, rfl, rfl⟩ | ⟨front, holds, tests, rfl, rfl⟩)
    · exact .inl ⟨_, .inr ⟨_, _, rfl, rfl, rfl⟩, rfl⟩
    · exact .inr ⟨front, holds, _, rfl, .inl ⟨_, tests, rfl⟩, _, rfl, .done⟩

theorem Tests.unnoted {condition : Condition} {holds : Bool} (tests : Tests condition asked holds) :
    unnoted asked = asked := by
  cases tests with
  | pixel => rfl
  | expression => rfl

theorem Evaluated.unnoted {lines : List String} (evaluated : Evaluated lines asked) :
    unnoted asked = asked := by
  induction evaluated with
  | nil => rfl
  | cons first _ ih =>
    obtain ⟨value, rfl⟩ := first
    exact congrArg (_ :: ·) ih

theorem toName_eq_error {name : String} {error : FlowError} :
    toName playhead name = .error error ↔
      playhead.find? name = none ∧ error = .unresolved name := by
  unfold toName
  cases playhead.find? name with
  | some index => simp
  | none => simp [eq_comm]

theorem traces_gesture {gesture : Gesture} {result : Except Failure Directive} :
    (blaming .execution (perform gesture) >>= fun _ => return .next).run.Traces asked result ↔
      ∃ answer : Except DeviceError Unit, asked = [⟨.gesture gesture, answer⟩] ∧
        result = match answer with
          | .error error => .error (.execution (.output error))
          | .ok _ => .ok .next := by
  simp only [traces_working, traces_perform]
  constructor
  · rintro (⟨error, ⟨answer, rfl, same⟩, rfl⟩ | ⟨_, _, _, rfl, ⟨answer, rfl, same⟩, rest⟩)
    · cases answer <;> cases same
      exact ⟨_, rfl, rfl⟩
    · obtain ⟨rfl, rfl⟩ := traces_done.mp rest
      cases answer <;> cases same
      exact ⟨_, rfl, rfl⟩
  · rintro ⟨answer, rfl, rfl⟩
    cases answer with
    | error error => exact .inl ⟨_, ⟨_, rfl, rfl⟩, rfl⟩
    | ok done => exact .inr ⟨_, _, [], rfl, ⟨_, rfl, rfl⟩, .done⟩

theorem jumpDirective_eq_error {name : Option String} {index : Option Nat} {error : FlowError} :
    jumpDirective playhead name index = .error error ↔
      (nonBlank? name = none ∧ index = none ∧ error = .noTarget) ∨
      ∃ wanted, nonBlank? name = some wanted ∧ playhead.find? wanted = none ∧
        error = .unresolved wanted := by
  unfold jumpDirective
  cases nonBlank? name with
  | some wanted => simp [toName_eq_error]
  | none => cases index <;> simp [eq_comm]

theorem branchDirective_eq_error {holds : Bool} {target : BranchTarget} {error : FlowError} :
    branchDirective playhead holds target = .error error ↔ target.file = none ∧
      ((nonBlank? target.name = none ∧ holds = true ∧ error = .noTarget) ∨
      ∃ wanted, nonBlank? target.name = some wanted ∧ playhead.find? wanted = none ∧
        error = .unresolved wanted) := by
  unfold branchDirective
  cases target.file with
  | some path => simp
  | none =>
    cases nonBlank? target.name with
    | some wanted => simp [toName_eq_error]
    | none => cases holds <;> simp [eq_comm]

theorem unnoted_branch {condition : Condition} {holds : Bool} {text : String}
    (tests : Tests condition asked holds) :
    unnoted (asked ++ [remark .debug text]) = asked := by
  rw [unnoted_append, tests.unnoted]
  exact List.append_nil asked

theorem does_of_execute {operation : Operation} {directive : Directive}
    (traces : (execute playhead operation).run.Traces asked (.ok directive)) :
    Does playhead operation (unnoted asked) directive := by
  cases operation with
  | label name =>
    obtain ⟨rfl, ⟨⟩⟩ := traces_done.mp traces
    exact .label
  | delay milliseconds =>
    obtain ⟨rfl, ⟨⟩⟩ := traces_done.mp traces
    exact .delay
  | exit =>
    obtain ⟨rfl, ⟨⟩⟩ := traces_done.mp traces
    exact .exit
  | mouse action x y wheel =>
    obtain ⟨answer, rfl, same⟩ := traces_gesture.mp traces
    cases answer <;> cases same
    exact .mouse
  | key action code =>
    obtain ⟨answer, rfl, same⟩ := traces_gesture.mp traces
    cases answer <;> cases same
    exact .key
  | script lines =>
    rcases traces_working.mp traces with ⟨_, _, ⟨⟩⟩ | ⟨front, _, _, rfl, runs, rest⟩
    obtain ⟨rfl, ⟨⟩⟩ := traces_done.mp rest
    cases runsLines_of_traces runs with
    | ended evaluated =>
      rw [List.append_nil, evaluated.unnoted]
      exact .script evaluated
  | jump name index =>
    obtain ⟨rfl, leads⟩ := traces_done.mp traces
    cases directs : jumpDirective playhead name index with
    | error error =>
      rw [directs] at leads
      cases leads
    | ok directive =>
      rw [directs] at leads
      cases leads
      exact .jump directs
  | branch condition onTrue onFalse =>
    rcases traces_branch.mp traces with ⟨_, _, _, _, ⟨⟩⟩ | ⟨front, holds, tests, rfl, leads⟩
    rw [unnoted_branch tests]
    cases directs : branchDirective playhead holds (if holds then onTrue else onFalse) with
    | error error =>
      rw [directs] at leads
      cases leads
    | ok directive =>
      rw [directs] at leads
      cases leads
      exact .branch tests directs

theorem mishap_of_execute {operation : Operation} {failure : Failure}
    (traces : (execute playhead operation).run.Traces asked (.error failure)) :
    Mishap playhead operation (unnoted asked) failure := by
  cases operation with
  | label | delay | exit =>
    obtain ⟨-, ⟨⟩⟩ := traces_done.mp traces
  | mouse action x y wheel =>
    obtain ⟨answer, rfl, same⟩ := traces_gesture.mp traces
    cases answer <;> cases same
    exact .mouse
  | key action code =>
    obtain ⟨answer, rfl, same⟩ := traces_gesture.mp traces
    cases answer <;> cases same
    exact .key
  | script lines =>
    rcases traces_working.mp traces with ⟨error, runs, ⟨⟩⟩ | ⟨_, _, _, _, _, rest⟩
    -- The run breaks off at the line that failed, behind those that were evaluated.
    · cases runsLines_of_traces runs with
      | failed split busy evaluated =>
        subst split
        rw [unnoted_append, evaluated.unnoted, Nat.add_comm]
        exact .script busy evaluated
    · obtain ⟨-, ⟨⟩⟩ := traces_done.mp rest
  | jump name index =>
    obtain ⟨rfl, fails⟩ := traces_done.mp traces
    cases directs : jumpDirective playhead name index with
    | ok directive =>
      rw [directs] at fails
      cases fails
    | error error =>
      rw [directs] at fails
      cases fails
      rcases jumpDirective_eq_error.mp directs with ⟨blank, rfl, rfl⟩ | ⟨wanted, named, lost, rfl⟩
      · exact .jumpNowhere blank
      · exact .jumpUnresolved named lost
  | branch condition onTrue onFalse =>
    -- Either the condition cannot be told, or it can and its target fails.
    rcases traces_branch.mp traces with ⟨source, error, rfl, rfl, ⟨⟩⟩ |
      ⟨front, holds, tests, rfl, fails⟩
    · exact .condition
    · rw [unnoted_branch tests]
      cases directs : branchDirective playhead holds (if holds then onTrue else onFalse) with
      | ok directive =>
        rw [directs] at fails
        cases fails
      | error error =>
        rw [directs] at fails
        cases fails
        obtain ⟨noFile, ⟨blank, rfl, rfl⟩ | ⟨wanted, named, lost, rfl⟩⟩ :=
          branchDirective_eq_error.mp directs
        · exact .branchNowhere tests noFile blank
        · exact .branchUnresolved tests noFile named lost

/-- Every way in which an instruction leads on is one that it can be done in. -/
theorem Does.execute {operation : Operation} {directive : Directive}
    (does : Does playhead operation asked directive) :
    ∃ noted, unnoted noted = asked ∧
      (execute playhead operation).run.Traces noted (.ok directive) := by
  cases does with
  | label | delay | exit => exact ⟨[], rfl, .done⟩
  | mouse | key => exact ⟨[_], rfl, traces_gesture.mpr ⟨_, rfl, rfl⟩⟩
  | script evaluated =>
    have runs := @Evaluated.traces _ 1 _ [] _ _ evaluated .done
    rw [List.append_nil, List.append_nil] at runs
    exact ⟨asked, evaluated.unnoted,
      traces_working.mpr (.inr ⟨asked, (), [], (List.append_nil asked).symm, runs, .done⟩)⟩
  | jump directs =>
    refine ⟨[], rfl, ?_⟩
    simp only [Playback.execute, directs]
    exact .done
  | branch tests directs =>
    refine ⟨_, unnoted_branch tests, traces_branch.mpr (.inr ⟨asked, _, tests, rfl, ?_⟩)⟩
    rw [directs]
    rfl

end

end InputTape.Playback
