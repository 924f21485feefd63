import InputTape.Proofs.Interaction.Always

/-! The runs of an interaction.

A run is what is asked and answered on the way, and the value at the end. Every surroundings make
one run of an interaction.
-/

set_option autoImplicit false

namespace InputTape.Interaction

variable {Request : Type} {Answer : Request → Type} {α β σ : Type}

/-- An interaction can ask and be answered this, and then end with this value. -/
inductive Traces : Interaction Request Answer α → List (Exchange Request Answer) → α → Prop where
  | done {value : α} : Traces (.done value) [] value
  | ask {request : Request} {next : Answer request → Interaction Request Answer α}
      {answer : Answer request} {more : List (Exchange Request Answer)} {value : α} :
      Traces (next answer) more value → Traces (.ask request next) (⟨request, answer⟩ :: more) value

theorem traces_ask {request : Request} {next : Answer request → Interaction Request Answer α}
    {exchanges : List (Exchange Request Answer)} {value : α} :
    (Interaction.ask request next).Traces exchanges value ↔ ∃ answer more,
      exchanges = ⟨request, answer⟩ :: more ∧ (next answer).Traces more value := by
  constructor
  · intro traces
    cases traces with
    | ask rest => exact ⟨_, _, rfl, rest⟩
  · rintro ⟨answer, more, rfl, rest⟩
    exact .ask rest

theorem traces_done {value ending : α} {exchanges : List (Exchange Request Answer)} :
    (Interaction.done value : Interaction Request Answer α).Traces exchanges ending ↔
      exchanges = [] ∧ ending = value := by
  constructor
  · intro traces
    cases traces
    exact ⟨rfl, rfl⟩
  · rintro ⟨rfl, rfl⟩
    exact .done

theorem traces_bind {first : Interaction Request Answer α}
    {second : α → Interaction Request Answer β} {exchanges : List (Exchange Request Answer)}
    {value : β} :
    (first.bind second).Traces exchanges value ↔ ∃ front between back,
      exchanges = front ++ back ∧ first.Traces front between ∧
        (second between).Traces back value := by
  constructor
  · intro traces
    induction first generalizing exchanges with
    | done between => exact ⟨[], between, exchanges, rfl, .done, traces⟩
    | ask request next ih =>
      obtain ⟨answer, more, rfl, rest⟩ := traces_ask.mp traces
      obtain ⟨front, between, back, rfl, left, right⟩ := ih answer rest
      exact ⟨_, between, back, rfl, .ask left, right⟩
  · rintro ⟨front, between, back, rfl, left, right⟩
    induction left with
    | done => exact right
    | ask _ ih => exact .ask (ih right)

/-- Requests that can only be answered in one way do not tell runs apart. -/
theorem Traces.unique {interaction : Interaction Request Answer α} {first second : α}
    {counts : Request → Bool} (idle : ∀ request, counts request = false →
      Subsingleton (Answer request))
    {left right : List (Exchange Request Answer)} (one : interaction.Traces left first)
    (other : interaction.Traces right second)
    (same : left.filter (fun exchange => counts exchange.request) =
      right.filter fun exchange => counts exchange.request) : first = second := by
  induction one generalizing right with
  | done =>
    obtain ⟨-, rfl⟩ := traces_done.mp other
    rfl
  | @ask request next answer more value rest ih =>
    obtain ⟨again, others, rfl, later⟩ := traces_ask.mp other
    by_cases counted : counts request = true
    · simp only [List.filter_cons, counted, if_true, List.cons.injEq] at same
      obtain ⟨here, behind⟩ := same
      cases here
      exact ih later behind
    · have single := idle request (Bool.not_eq_true _ ▸ counted)
      cases Subsingleton.elim answer again
      simp only [List.filter_cons, counted, Bool.false_eq_true, if_false] at same
      exact ih later same

theorem traces_run (interaction : Interaction Request Answer α)
    (answer : (request : Request) → σ → Answer request × σ) (state : σ) :
    interaction.Traces (interaction.transcript answer state)
      (interaction.run answer state).1 := by
  induction interaction generalizing state with
  | done value => exact .done
  | ask request next ih => exact .ask (ih _ _)

theorem Traces.always {allowed : Request → Prop} {wished : α → Prop}
    {interaction : Interaction Request Answer α} {exchanges : List (Exchange Request Answer)}
    {value : α} (traces : interaction.Traces exchanges value)
    (always : interaction.Always allowed wished) :
    (∀ exchange ∈ exchanges, allowed exchange.request) ∧ wished value := by
  induction traces with
  | done => exact ⟨nofun, always⟩
  | ask _ ih =>
    obtain ⟨later, ends⟩ := ih (always.2 _)
    exact ⟨List.forall_mem_cons.mpr ⟨always.1, later⟩, ends⟩

def replay (answer : (request : Request) → σ → Answer request × σ)
    (exchanges : List (Exchange Request Answer)) (state : σ) : σ :=
  exchanges.foldl (fun state exchange => (answer exchange.request state).2) state

theorem run_replay (interaction : Interaction Request Answer α)
    (answer : (request : Request) → σ → Answer request × σ) (state : σ) :
    (interaction.run answer state).2 =
      replay answer (interaction.transcript answer state) state := by
  induction interaction generalizing state with
  | done value => rfl
  | ask request next ih =>
    simp only [run, transcript, replay, List.foldl_cons]
    exact ih _ _

theorem replay_append (answer : (request : Request) → σ → Answer request × σ)
    (first second : List (Exchange Request Answer)) (state : σ) :
    replay answer (first ++ second) state = replay answer second (replay answer first state) :=
  List.foldl_append

theorem answer_of_transcript {interaction : Interaction Request Answer α}
    {answer : (request : Request) → σ → Answer request × σ} {state : σ}
    {before after : List (Exchange Request Answer)} {exchange : Exchange Request Answer}
    (split : interaction.transcript answer state = before ++ exchange :: after) :
    exchange.answer = (answer exchange.request (replay answer before state)).1 := by
  induction interaction generalizing state before with
  | done value => cases before <;> cases split
  | ask request next ih =>
    cases before with
    | nil =>
      obtain ⟨rfl, -⟩ := List.cons.inj split
      rfl
    | cons first before =>
      obtain ⟨rfl, rest⟩ := List.cons.inj split
      exact @ih _ _ before rest

end InputTape.Interaction
