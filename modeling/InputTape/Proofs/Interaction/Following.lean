import InputTape.Proofs.Interaction.Always

/-! One interaction following another.

An interaction follows a second one if it asks what the second asks, in the same order, and in
between only requests that do not count. It may also end early where that is excused. What both
end with is compared by a relation.
-/

set_option autoImplicit false

namespace InputTape.Interaction

variable {Request : Type} {Answer : Request → Type} {α β γ δ : Type}

/-- Every request that counts is asked by both, and the other requests by the first alone. -/
inductive Follows (counts : Request → Prop) (excused : α → Prop) (related : α → β → Prop) :
    Interaction Request Answer α → Interaction Request Answer β → Prop where
  | done {left : α} {right : β} : related left right →
      Follows counts excused related (.done left) (.done right)
  | both {request : Request} {left : Answer request → Interaction Request Answer α}
      {right : Answer request → Interaction Request Answer β} : counts request →
      (∀ answer, Follows counts excused related (left answer) (right answer)) →
      Follows counts excused related (.ask request left) (.ask request right)
  | alone {request : Request} {left : Answer request → Interaction Request Answer α}
      {right : Interaction Request Answer β} : ¬ counts request →
      (∀ answer, Follows counts excused related (left answer) right) →
      Follows counts excused related (.ask request left) right
  | early {left : α} {right : Interaction Request Answer β} : excused left →
      Follows counts excused related (.done left) right

namespace Follows

variable {counts : Request → Prop} {excused : α → Prop} {related : α → β → Prop}

theorem after_quiet {wished : γ → Prop} {first : Interaction Request Answer γ}
    {left : γ → Interaction Request Answer α} {right : Interaction Request Answer β}
    (quiet : first.Always (fun request => ¬ counts request) wished)
    (rest : ∀ value, wished value → Follows counts excused related (left value) right) :
    Follows counts excused related (first.bind left) right := by
  induction first with
  | done value => exact rest value quiet
  | ask request next ih => exact .alone quiet.1 fun answer => ih answer (quiet.2 answer)

theorem bind {excusedFirst : γ → Prop} {relatedFirst : γ → δ → Prop}
    {first : Interaction Request Answer γ} {second : Interaction Request Answer δ}
    {left : γ → Interaction Request Answer α} {right : δ → Interaction Request Answer β}
    (follows : Follows counts excusedFirst relatedFirst first second)
    (rest : ∀ value other, relatedFirst value other →
      Follows counts excused related (left value) (right other))
    (excuse : ∀ value other, excusedFirst value → Follows counts excused related (left value) other) :
    Follows counts excused related (first.bind left) (second.bind right) := by
  induction follows with
  | done ends => exact rest _ _ ends
  | both request _ ih => exact .both request ih
  | alone request _ ih => exact .alone request ih
  | early ends => exact excuse _ _ ends

theorem after_same {first : Interaction Request Answer γ}
    {left : γ → Interaction Request Answer α} {right : γ → Interaction Request Answer β}
    (only : first.Always counts (fun _ => True))
    (rest : ∀ value, Follows counts excused related (left value) (right value)) :
    Follows counts excused related (first.bind left) (first.bind right) := by
  induction first with
  | done value => exact rest value
  | ask request next ih => exact .both only.1 fun answer => ih answer (only.2 answer)

theorem always {allowed : Request → Prop} {left : Interaction Request Answer α}
    {right : Interaction Request Answer β} (follows : Follows counts excused related left right)
    (asked : right.Always allowed (fun _ => True)) :
    left.Always (fun request => counts request → allowed request)
      (fun value => excused value ∨ ∃ other, related value other) := by
  induction follows with
  | done ends => exact .inr ⟨_, ends⟩
  | both _ _ ih => exact ⟨fun _ => asked.1, fun answer => ih answer (asked.2 answer)⟩
  | alone quiet _ ih => exact ⟨fun loud => absurd loud quiet, fun answer => ih answer asked⟩
  | early excuse => exact .inl excuse

end Follows
end InputTape.Interaction
