import InputTape.Interaction

/-! What the surroundings keep.

Whatever every answer keeps true of a state is true of the state that a run leaves. The same holds
where the answers are themselves interactions, whatever these are answered.
-/

set_option autoImplicit false

namespace InputTape.Interaction

variable {Request : Type} {Answer : Request → Type} {α β σ τ : Type}

theorem run_keeps {holds : σ → Prop} {answer : (request : Request) → σ → Answer request × σ}
    (keeps : ∀ request state, holds state → holds (answer request state).2)
    (interaction : Interaction Request Answer α) {state : σ} (held : holds state) :
    holds (interaction.run answer state).2 := by
  induction interaction generalizing state with
  | done value => exact held
  | ask request next ih => exact ih _ (keeps request state held)

section

variable {Outer : Type} {OuterAnswer : Outer → Type}
  {pass : (request : Request) → σ → Interaction Outer OuterAnswer (Answer request × σ)}

theorem relay_bind (first : Interaction Request Answer α)
    (second : α → Interaction Request Answer β) (state : σ) :
    (first.bind second).relay pass state =
      (first.relay pass state).bind fun reply => (second reply.1).relay pass reply.2 := by
  induction first generalizing state with
  | done value => rfl
  | ask request next ih => simp only [bind, relay, bind_assoc, ih]

section

variable {answer : (request : Outer) → τ → OuterAnswer request × τ} {state : σ} {surroundings : τ}

theorem run_relay_ask {request : Request} {next : Answer request → Interaction Request Answer α}
    {reply : Answer request} {after : σ} {later : τ}
    (answers : (pass request state).run answer surroundings = ((reply, after), later)) :
    ((Interaction.ask request next).relay pass state).run answer surroundings =
      ((next reply).relay pass after).run answer later := by
  rw [relay, run_bind, answers]

theorem run_relay_bind {first : Interaction Request Answer α}
    {second : α → Interaction Request Answer β} {value : α} {after : σ} {later : τ}
    (answers : (first.relay pass state).run answer surroundings = ((value, after), later)) :
    ((first.bind second).relay pass state).run answer surroundings =
      ((second value).relay pass after).run answer later := by
  rw [relay_bind, run_bind, answers]

end

theorem run_relay_keeps {holds : σ → Prop}
    {answer : (request : Outer) → τ → OuterAnswer request × τ}
    (keeps : ∀ request state surroundings, holds state →
      holds ((pass request state).run answer surroundings).1.2)
    (interaction : Interaction Request Answer α) {state : σ} (held : holds state)
    (surroundings : τ) :
    holds ((interaction.relay pass state).run answer surroundings).1.2 := by
  induction interaction generalizing state surroundings with
  | done value => exact held
  | ask request next ih =>
    rw [relay, run_bind]
    exact ih _ (keeps request state surroundings held) _

end

end InputTape.Interaction
