/-! Computations that ask their surroundings for answers.

An interaction is a finite tree: it ends with a value, or it asks one request and
continues with whatever answer it is given. What the surroundings are is left to
the function that answers: pure state, a file system, a real clock. Two
interactions that are equal make the same requests in the same order in all
surroundings.
-/

set_option autoImplicit false

namespace InputTape

/-- Ends with a value, or asks a request and continues with its answer. -/
inductive Interaction (Request : Type) (Answer : Request → Type) (α : Type) : Type where
  | done (value : α) : Interaction Request Answer α
  | ask (request : Request) (next : Answer request → Interaction Request Answer α) :
      Interaction Request Answer α

namespace Interaction

variable {Request : Type} {Answer : Request → Type} {α β σ : Type}

def bind : Interaction Request Answer α → (α → Interaction Request Answer β) →
    Interaction Request Answer β
  | .done value, next => next value
  | .ask request rest, next => .ask request (fun answer => (rest answer).bind next)

instance : Monad (Interaction Request Answer) where
  pure := .done
  bind := Interaction.bind

def send (request : Request) : Interaction Request Answer (Answer request) :=
  .ask request .done

structure Exchange (Request : Type) (Answer : Request → Type) where
  request : Request
  answer : Answer request

/-- The value an interaction ends with, and the state it leaves, when every request is
answered from a state. -/
def run (answer : (request : Request) → σ → Answer request × σ) :
    Interaction Request Answer α → σ → α × σ
  | .done value, state => (value, state)
  | .ask request next, state =>
    let reply := answer request state
    (next reply.1).run answer reply.2

/-- Everything that is asked and answered on the way, in order. -/
def transcript (answer : (request : Request) → σ → Answer request × σ) :
    Interaction Request Answer α → σ → List (Exchange Request Answer)
  | .done _, _ => []
  | .ask request next, state =>
    let reply := answer request state
    ⟨request, reply.1⟩ :: (next reply.1).transcript answer reply.2

def runIn {m : Type → Type} [Monad m] (answer : (request : Request) → m (Answer request)) :
    Interaction Request Answer α → m α
  | .done value => pure value
  | .ask request next => do (next (← answer request)).runIn answer

/-- Answer the requests of one interaction by an interaction of another kind, carrying a
state from answer to answer. -/
def relay {Outer : Type} {OuterAnswer : Outer → Type}
    (answer : (request : Request) → σ → Interaction Outer OuterAnswer (Answer request × σ)) :
    Interaction Request Answer α → σ → Interaction Outer OuterAnswer (α × σ)
  | .done value, state => .done (value, state)
  | .ask request next, state =>
    (answer request state).bind (fun reply => (next reply.1).relay answer reply.2)

theorem bind_done (first : Interaction Request Answer α) : first.bind .done = first := by
  induction first with
  | done value => rfl
  | ask request next ih => exact congrArg (Interaction.ask request) (funext ih)

theorem bind_assoc {γ : Type} (first : Interaction Request Answer α)
    (second : α → Interaction Request Answer β) (third : β → Interaction Request Answer γ) :
    (first.bind second).bind third = first.bind (fun value => (second value).bind third) := by
  induction first with
  | done value => rfl
  | ask request next ih => exact congrArg (Interaction.ask request) (funext ih)

instance : LawfulMonad (Interaction Request Answer) :=
  LawfulMonad.mk' _ bind_done (fun _ _ => rfl) bind_assoc

theorem run_bind (answer : (request : Request) → σ → Answer request × σ)
    (first : Interaction Request Answer α) (second : α → Interaction Request Answer β)
    (state : σ) :
    (first.bind second).run answer state =
      (second (first.run answer state).1).run answer (first.run answer state).2 := by
  induction first generalizing state with
  | done value => rfl
  | ask request next ih => exact ih _ _

theorem transcript_bind (answer : (request : Request) → σ → Answer request × σ)
    (first : Interaction Request Answer α) (second : α → Interaction Request Answer β)
    (state : σ) :
    (first.bind second).transcript answer state =
      first.transcript answer state ++
        (second (first.run answer state).1).transcript answer (first.run answer state).2 := by
  induction first generalizing state with
  | done value => rfl
  | ask request next ih =>
    simp only [bind, transcript, run, List.cons_append, List.cons.injEq, true_and]
    exact ih _ _

end Interaction
end InputTape
