import InputTape.Playback.Execution
import InputTape.Proofs.Playback.Surroundings

/-! What instructions ask for.

Attempts are taken apart as interactions. An instruction acts and takes notes: it never waits,
looks at no clock and loads no file, whatever it is answered.
-/

set_option autoImplicit false

namespace InputTape.Playback

open Interaction (Always)

/-! ## Attempts as interactions -/

section

variable {ε α β : Type}

theorem run_ask_bind (request : Request) (next : request.Answer → Attempt ε α) :
    (ask request >>= next).run = .ask request fun answer => (next answer).run := rfl

theorem run_bind (first : Attempt ε α) (next : α → Attempt ε β) :
    (first >>= next).run = first.run.bind fun result => match result with
      | .ok value => (next value).run
      | .error error => .done (.error error) := by
  change Interaction.bind _ _ = _
  congr 1

theorem run_map (f : α → β) (attempt : Attempt ε α) :
    (f <$> attempt).run = attempt.run.bind fun result => .done (result.map f) := by
  rw [ExceptT.run_map]
  rfl

theorem run_blaming {δ : Type} (blame : δ → ε) (attempt : Attempt δ α) :
    (blaming blame attempt).run = attempt.run.bind fun result => .done (result.mapError blame) :=
  rfl

end

/-! ## Instructions -/

theorem acts_perform (gesture : Gesture) :
    (perform gesture).run.Always Request.IsAction (fun _ => True) :=
  ⟨trivial, fun _ => trivial⟩

theorem acts_runLines (number : Nat) (lines : List String) :
    (runLines number lines).run.Always Request.IsAction (fun _ => True) := by
  induction lines generalizing number with
  | nil => exact trivial
  | cons line more ih =>
    unfold runLines
    cases idle : isIdleLine (Text.trim line) with
    | true =>
      simp only [idle, if_true]
      exact ih (number + 1)
    | false =>
      simp only [idle, Bool.false_eq_true, if_false]
      refine ⟨trivial, fun answer => ?_⟩
      cases answer with
      | error error => exact trivial
      | ok value => exact ih (number + 1)

theorem acts_test (condition : Condition) :
    (test condition).run.Always Request.IsAction (fun _ => True) := by
  cases condition with
  | pixel x y color tolerance => exact ⟨trivial, fun _ => trivial⟩
  | expression source =>
    refine ⟨trivial, fun answer => ?_⟩
    cases answer <;> exact trivial

theorem always_work {ε α β : Type} {allowed : Request → Prop} {work : Attempt ExecutionError α}
    {blame : ExecutionError → ε} (asks : work.run.Always allowed (fun _ => True))
    {next : α → Attempt ε β} (rest : ∀ value, (next value).run.Always allowed (fun _ => True)) :
    (blaming blame work >>= next).run.Always allowed (fun _ => True) := by
  rw [run_bind, run_blaming, Interaction.bind_assoc]
  refine asks.bind fun result _ => ?_
  cases result with
  | error error => exact trivial
  | ok value => exact rest value

def Request.IsTimeless (request : Request) : Prop := request.IsAction ∨ ∃ entry, request = .note entry

theorem timeless_of_acts {ε α : Type} {work : Attempt ε α}
    (acts : work.run.Always Request.IsAction (fun _ => True)) :
    work.run.Always Request.IsTimeless (fun _ => True) :=
  acts.mono (fun _ => .inl) fun _ => id

theorem timeless_execute (playhead : Playhead) (operation : Operation) :
    (execute playhead operation).run.Always Request.IsTimeless (fun _ => True) := by
  cases operation with
  | label | delay | exit | jump => exact trivial
  | mouse => exact always_work (timeless_of_acts (acts_perform _)) fun _ => trivial
  | key => exact always_work (timeless_of_acts (acts_perform _)) fun _ => trivial
  | script => exact always_work (timeless_of_acts (acts_runLines 1 _)) fun _ => trivial
  | branch condition =>
    exact always_work (timeless_of_acts (acts_test condition)) fun _ =>
      ⟨.inr ⟨_, rfl⟩, fun _ => trivial⟩

end InputTape.Playback
