import InputTape.Interaction

/-! What holds of an interaction whatever it is answered.

A statement about all answers is a statement about the tree: about every request in it and every
value it can end with. It holds of the transcript and of the value in any surroundings.
-/

set_option autoImplicit false

namespace InputTape.Interaction

variable {Request : Type} {Answer : Request → Type} {α β σ : Type}

/-- Whatever the answers, every request is allowed and every end is wished. -/
def Always (allowed : Request → Prop) (wished : α → Prop) : Interaction Request Answer α → Prop
  | .done value => wished value
  | .ask request next => allowed request ∧ ∀ answer, (next answer).Always allowed wished

section

variable {allowed : Request → Prop} {wished : α → Prop}

theorem Always.mono {looser : Request → Prop} {weaker : α → Prop}
    {interaction : Interaction Request Answer α} (always : interaction.Always allowed wished)
    (requests : ∀ request, allowed request → looser request)
    (values : ∀ value, wished value → weaker value) : interaction.Always looser weaker := by
  induction interaction with
  | done value => exact values value always
  | ask request next ih =>
    exact ⟨requests request always.1, fun answer => ih answer (always.2 answer)⟩

theorem Always.bind {after : β → Prop} {first : Interaction Request Answer α}
    {second : α → Interaction Request Answer β} (always : first.Always allowed wished)
    (next : ∀ value, wished value → (second value).Always allowed after) :
    (first.bind second).Always allowed after := by
  induction first with
  | done value => exact next value always
  | ask request rest ih => exact ⟨always.1, fun answer => ih answer (always.2 answer)⟩

theorem Always.of_map {f : α → β} {after : β → Prop} {interaction : Interaction Request Answer α}
    (always : (f <$> interaction).Always allowed after) :
    interaction.Always allowed fun value => after (f value) := by
  induction interaction with
  | done value => exact always
  | ask request next ih => exact ⟨always.1, fun answer => ih answer (always.2 answer)⟩

theorem Always.and {also : α → Prop} {interaction : Interaction Request Answer α}
    (always : interaction.Always allowed wished) (too : interaction.Always allowed also) :
    interaction.Always allowed fun value => wished value ∧ also value := by
  induction interaction with
  | done value => exact ⟨always, too⟩
  | ask request next ih =>
    exact ⟨always.1, fun answer => ih answer (always.2 answer) (too.2 answer)⟩

theorem always_anything (interaction : Interaction Request Answer α) :
    interaction.Always (fun _ => True) fun _ => True := by
  induction interaction with
  | done => trivial
  | ask request next ih => exact ⟨trivial, ih⟩

theorem Always.bind_congr {first : Interaction Request Answer α}
    {left right : α → Interaction Request Answer β} (always : first.Always allowed wished)
    (same : ∀ value, wished value → left value = right value) :
    first.bind left = first.bind right := by
  induction first with
  | done value => exact same value always
  | ask request rest ih =>
    exact congrArg (Interaction.ask request) (funext fun answer => ih answer (always.2 answer))

theorem Always.run {interaction : Interaction Request Answer α}
    (always : interaction.Always allowed wished)
    (answer : (request : Request) → σ → Answer request × σ) (state : σ) :
    wished (interaction.run answer state).1 := by
  induction interaction generalizing state with
  | done value => exact always
  | ask request next ih => exact ih _ (always.2 _) _

theorem Always.transcript {interaction : Interaction Request Answer α}
    (always : interaction.Always allowed wished)
    (answer : (request : Request) → σ → Answer request × σ) (state : σ) :
    ∀ exchange ∈ interaction.transcript answer state, allowed exchange.request := by
  induction interaction generalizing state with
  | done value => intro exchange member; cases member
  | ask request next ih =>
    intro exchange member
    rcases List.mem_cons.mp member with rfl | member
    · exact always.1
    · exact ih _ (always.2 _) _ exchange member

end

end InputTape.Interaction
