import InputTape.Proofs.Interaction.Following

/-! Two interactions side by side.

They are parallel if both ask the same requests that count, in the same order, and in between each
asks whatever else it likes. Either may break off on its own where that is excused. What both end
with otherwise is compared by a relation.
-/

set_option autoImplicit false

namespace InputTape.Interaction

variable {Request : Type} {Answer : Request → Type} {α β γ : Type}

/-- Every request that counts is asked by both, and the other requests by either alone. -/
inductive Parallel (counts : Request → Prop) (off : α → Prop) (offRight : β → Prop)
    (related : α → β → Prop) :
    Interaction Request Answer α → Interaction Request Answer β → Prop where
  | done {left : α} {right : β} : related left right →
      Parallel counts off offRight related (.done left) (.done right)
  | both {request : Request} {left : Answer request → Interaction Request Answer α}
      {right : Answer request → Interaction Request Answer β} : counts request →
      (∀ answer, Parallel counts off offRight related (left answer) (right answer)) →
      Parallel counts off offRight related (.ask request left) (.ask request right)
  | left {request : Request} {left : Answer request → Interaction Request Answer α}
      {right : Interaction Request Answer β} : ¬ counts request →
      (∀ answer, Parallel counts off offRight related (left answer) right) →
      Parallel counts off offRight related (.ask request left) right
  | right {request : Request} {left : Interaction Request Answer α}
      {right : Answer request → Interaction Request Answer β} : ¬ counts request →
      (∀ answer, Parallel counts off offRight related left (right answer)) →
      Parallel counts off offRight related left (.ask request right)
  | offLeft {left : α} {right : Interaction Request Answer β} : off left →
      Parallel counts off offRight related (.done left) right
  | offRight {left : Interaction Request Answer α} {right : β} : offRight right →
      Parallel counts off offRight related left (.done right)

namespace Parallel

variable {counts : Request → Prop} {off : α → Prop} {offRight : β → Prop}
  {related : α → β → Prop}

theorem symm {left : Interaction Request Answer α} {right : Interaction Request Answer β}
    (parallel : Parallel counts off offRight related left right) :
    Parallel counts offRight off (fun other value => related value other) right left := by
  induction parallel with
  | done ends => exact .done ends
  | both request _ ih => exact .both request ih
  | left quiet _ ih => exact .right quiet ih
  | right quiet _ ih => exact .left quiet ih
  | offLeft excuse => exact .offRight excuse
  | offRight excuse => exact .offLeft excuse

theorem after_quiet {wished : γ → Prop} {first : Interaction Request Answer γ}
    {left : γ → Interaction Request Answer α} {right : Interaction Request Answer β}
    (quiet : first.Always (fun request => ¬ counts request) wished)
    (rest : ∀ value, wished value → Parallel counts off offRight related (left value) right) :
    Parallel counts off offRight related (first.bind left) right := by
  induction first with
  | done value => exact rest value quiet
  | ask request next ih =>
    apply Parallel.left quiet.1
    intro answer
    exact ih answer (quiet.2 answer)

/-- Both sides begin with the same work. The requests in it that do not count can be answered in
one way only, so that they do not lead the sides apart. -/
theorem after_same {first : Interaction Request Answer γ}
    {left : γ → Interaction Request Answer α} {right : γ → Interaction Request Answer β}
    (plain : first.Always (fun request => counts request ∨ Subsingleton (Answer request))
      (fun _ => True))
    (rest : ∀ value, Parallel counts off offRight related (left value) (right value)) :
    Parallel counts off offRight related (first.bind left) (first.bind right) := by
  induction first with
  | done value => exact rest value
  | ask request next ih =>
    by_cases counted : counts request
    · apply Parallel.both counted
      intro answer
      exact ih answer (plain.2 answer)
    · have single := plain.1.resolve_left counted
      apply Parallel.left counted
      intro answer
      apply Parallel.right counted
      intro again
      rw [Subsingleton.elim again answer]
      exact ih answer (plain.2 answer)

end Parallel

theorem Follows.parallel {counts : Request → Prop} {excused : α → Prop} {related : α → β → Prop}
    {left : Interaction Request Answer α} {right : Interaction Request Answer β}
    (follows : Follows counts excused related left right) :
    Parallel counts excused (fun _ => False) related left right := by
  induction follows with
  | done ends => exact .done ends
  | both counted _ ih => exact .both counted ih
  | alone quiet _ ih => exact .left quiet ih
  | early excuse => exact .offLeft excuse

end InputTape.Interaction
