import InputTape.Proofs.Interaction.Traces

/-! Interactions that stop at the first failure.

Some answers tell of a failure. An interaction heeds them if nothing is asked behind such an answer,
and the interaction then ends with an error that means this failure.
-/

set_option autoImplicit false

namespace InputTape.Interaction

variable {Request : Type} {Answer : Request → Type} {α β δ ε ω : Type}

/-- Whatever the answers, the first that tells of a failure is the last. -/
def Heeds (told : Exchange Request Answer → Option δ) (meant : δ → ε → Prop) :
    Interaction Request Answer (Except ε α) → Prop
  | .done _ => True
  | .ask request next => ∀ answer, match told ⟨request, answer⟩ with
    | some failure => ∃ error, meant failure error ∧ next answer = .done (.error error)
    | none => (next answer).Heeds told meant

section

variable {told : Exchange Request Answer → Option δ} {meant : δ → ε → Prop}

theorem heeds_ask {request : Request}
    {next : Answer request → Interaction Request Answer (Except ε α)}
    (quiet : ∀ answer, told ⟨request, answer⟩ = none)
    (heeds : ∀ answer, (next answer).Heeds told meant) :
    (Interaction.ask request next).Heeds told meant := by
  intro answer
  rw [quiet answer]
  exact heeds answer

theorem Heeds.bind {other : δ → ω → Prop} {first : Interaction Request Answer (Except ε α)}
    {second : Except ε α → Interaction Request Answer (Except ω β)}
    (heeds : first.Heeds told meant)
    (errors : ∀ error, ∃ again, second (.error error) = .done (.error again) ∧
      ∀ failure, meant failure error → other failure again)
    (values : ∀ value, (second (.ok value)).Heeds told other) :
    (first.bind second).Heeds told other := by
  induction first with
  | done result =>
    cases result with
    | error error =>
      obtain ⟨again, same, -⟩ := errors error
      change (second (.error error)).Heeds told other
      rw [same]
      exact trivial
    | ok value => exact values value
  | ask request next ih =>
    intro answer
    have here := heeds answer
    cases tells : told ⟨request, answer⟩ with
    | none =>
      rw [tells] at here
      exact ih answer here
    | some failure =>
      rw [tells] at here
      obtain ⟨error, means, ends⟩ := here
      obtain ⟨again, same, passes⟩ := errors error
      refine ⟨again, passes failure means, ?_⟩
      simp only
      rw [ends]
      exact same

theorem Heeds.andThen {first : ExceptT ε (Interaction Request Answer) α}
    {second : α → ExceptT ε (Interaction Request Answer) β} (heeds : first.run.Heeds told meant)
    (values : ∀ value, (second value).run.Heeds told meant) :
    (first >>= second).run.Heeds told meant :=
  @Heeds.bind _ _ _ _ _ _ _ _ _ _ _ (ExceptT.bindCont second) heeds
    (fun error => ⟨error, rfl, fun _ => id⟩) values

/-- Behind the first failure nothing is asked, and it is what the run ends with. -/
theorem Traces.stops {interaction : Interaction Request Answer (Except ε α)}
    {exchanges before after : List (Exchange Request Answer)} {exchange : Exchange Request Answer}
    {failure : δ} {result : Except ε α} (traces : interaction.Traces exchanges result)
    (heeds : interaction.Heeds told meant) (split : exchanges = before ++ exchange :: after)
    (tells : told exchange = some failure) :
    after = [] ∧ ∃ error, meant failure error ∧ result = .error error := by
  induction traces generalizing before with
  | done => cases before <;> cases split
  | @ask request next answer more result rest ih =>
    have here := heeds answer
    cases before with
    | nil =>
      obtain ⟨rfl, rfl⟩ := List.cons.inj split
      rw [tells] at here
      obtain ⟨error, means, ends⟩ := here
      rw [ends] at rest
      obtain ⟨rfl, rfl⟩ := traces_done.mp rest
      exact ⟨rfl, error, means, rfl⟩
    | cons first before =>
      rw [List.cons_append, List.cons.injEq] at split
      obtain ⟨rfl, split⟩ := split
      -- An earlier failure would have been the end.
      cases earlier : told ⟨request, answer⟩ with
      | none =>
        rw [earlier] at here
        exact ih here split
      | some _ =>
        rw [earlier] at here
        obtain ⟨error, -, ends⟩ := here
        rw [ends] at rest
        obtain ⟨rfl, -⟩ := traces_done.mp rest
        cases before <;> cases split

end

end InputTape.Interaction
