import InputTape.Playback.Request
import InputTape.Proofs.Interaction.Parallel
import InputTape.Proofs.Interaction.Traces

/-! The surroundings of a playback, in two parts.

What a playback acts on (the input device, the screen, the evaluator with its clipboard, the
files) answers calls from a state of its own. Everything else (the clock, waiting, cancellation,
the journal) has another state. It may see calls go by and look at what is acted on, but leaves it
as it is. Both states and all answers are arbitrary: every call may fail, every wait may be late,
and a cancellation may come at any moment.
-/

set_option autoImplicit false

namespace InputTape.Playback

/-- A call is a request to what a playback acts on. -/
def Request.IsCall : Request → Prop
  | .gesture _ | .pixel _ _ | .evaluate _ | .load _ => True
  | .wait _ | .clock | .isCancelled | .note _ => False

instance : DecidablePred Request.IsCall := fun request => by
  cases request <;> simp only [Request.IsCall] <;> infer_instance

/-- An action is a call that loads no file. -/
def Request.IsAction : Request → Prop
  | .gesture _ | .pixel _ _ | .evaluate _ => True
  | .load _ | .wait _ | .clock | .isCancelled | .note _ => False

theorem Request.IsAction.isCall {request : Request} (isAction : request.IsAction) :
    request.IsCall := by
  cases request <;> trivial

/-- Surroundings with a state of what is acted on and a state of the rest. -/
structure Surroundings (World Rest : Type) where
  /-- How a call is answered. -/
  call : (request : Request) → World → request.Answer × World
  /-- What a call changes besides. -/
  notice : Request → World → Rest → Rest
  /-- How any other request is answered. -/
  attend : (request : Request) → World → Rest → request.Answer × Rest

namespace Surroundings

variable {World Rest : Type}

def answer (surroundings : Surroundings World Rest) (request : Request) (state : World × Rest) :
    request.Answer × (World × Rest) :=
  if request.IsCall then
    let reply := surroundings.call request state.1
    (reply.1, reply.2, surroundings.notice request state.1 state.2)
  else
    let reply := surroundings.attend request state.1 state.2
    (reply.1, state.1, reply.2)

variable (surroundings : Surroundings World Rest) {request : Request} (world : World) (rest : Rest)

theorem answer_call (isCall : request.IsCall) :
    surroundings.answer request (world, rest) = ((surroundings.call request world).1,
      (surroundings.call request world).2, surroundings.notice request world rest) := by
  simp only [answer, isCall, if_true]

theorem answer_quiet (quiet : ¬ request.IsCall) :
    surroundings.answer request (world, rest) = ((surroundings.attend request world rest).1, world,
      (surroundings.attend request world rest).2) := by
  simp only [answer, quiet, if_false]

end Surroundings

def calls (transcript : List (Interaction.Exchange Request Request.Answer)) :
    List (Interaction.Exchange Request Request.Answer) :=
  transcript.filter fun exchange => exchange.request.IsCall

theorem calls_append (first second : List (Interaction.Exchange Request Request.Answer)) :
    calls (first ++ second) = calls first ++ calls second := List.filter_append ..

theorem calls_cons_call {request : Request} (isCall : request.IsCall) (answer : request.Answer)
    (more : List (Interaction.Exchange Request Request.Answer)) :
    calls (⟨request, answer⟩ :: more) = ⟨request, answer⟩ :: calls more := by
  simp only [calls, List.filter_cons, isCall, decide_true, if_true]

theorem calls_cons_quiet {request : Request} (quiet : ¬ request.IsCall) (answer : request.Answer)
    (more : List (Interaction.Exchange Request Request.Answer)) :
    calls (⟨request, answer⟩ :: more) = calls more := by
  simp only [calls, List.filter_cons, quiet, decide_false, Bool.false_eq_true, if_false]

/-- What an interaction comes to: its calls with their answers, the value it ends with, and what
it leaves of what it acts on. -/
structure Course (World α : Type) where
  calls : List (Interaction.Exchange Request Request.Answer)
  value : α
  world : World

namespace Course

variable {World α β γ δ : Type}

def andThen (first : Course World α) (second : Course World β) : Course World β :=
  ⟨first.calls ++ second.calls, second.value, second.world⟩

/-- Two courses make the same calls with the same answers, leave the same, and end alike. -/
structure Agree (alike : α → β → Prop) (left : Course World α) (right : Course World β) : Prop where
  calls : left.calls = right.calls
  value : alike left.value right.value
  world : left.world = right.world

theorem Agree.andThen {alike : α → β → Prop} {later : γ → δ → Prop} {left : Course World α}
    {right : Course World β} {leftNext : Course World γ} {rightNext : Course World δ}
    (first : Agree alike left right) (second : Agree later leftNext rightNext) :
    Agree later (left.andThen leftNext) (right.andThen rightNext) where
  calls := by rw [Course.andThen, Course.andThen, first.calls, second.calls]
  value := second.value
  world := second.world

end Course

namespace Surroundings

variable {World Rest : Type} {α β : Type} (surroundings : Surroundings World Rest)

/-- The course that an interaction takes in its surroundings. -/
def course (interaction : Interaction Request Request.Answer α) (state : World × Rest) :
    Course World α where
  calls := calls (interaction.transcript surroundings.answer state)
  value := (interaction.run surroundings.answer state).1
  world := (interaction.run surroundings.answer state).2.1

/-- What is acted on is left as the calls alone have changed it. -/
theorem world_replay (exchanges : List (Interaction.Exchange Request Request.Answer))
    (world : World) (rest : Rest) :
    (Interaction.replay surroundings.answer exchanges (world, rest)).1 =
      (calls exchanges).foldl (fun world exchange => (surroundings.call exchange.request world).2)
        world := by
  induction exchanges generalizing world rest with
  | nil => rfl
  | cons exchange more ih =>
    obtain ⟨request, answer⟩ := exchange
    simp only [Interaction.replay, List.foldl_cons] at ih ⊢
    by_cases isCall : request.IsCall
    · rw [surroundings.answer_call world rest isCall, calls_cons_call isCall, List.foldl_cons, ih]
    · rw [surroundings.answer_quiet world rest isCall, calls_cons_quiet isCall, ih]

theorem course_bind (first : Interaction Request Request.Answer α) (world : World) (rest : Rest) :
    ∃ later, ∀ next : α → Interaction Request Request.Answer β,
      surroundings.course (first.bind next) (world, rest) =
        (surroundings.course first (world, rest)).andThen
          (surroundings.course (next (surroundings.course first (world, rest)).value)
            ((surroundings.course first (world, rest)).world, later)) := by
  refine ⟨(first.run surroundings.answer (world, rest)).2.2, fun next => ?_⟩
  simp only [course, Course.andThen, Interaction.run_bind, Interaction.transcript_bind,
    calls_append]

theorem course_ask_quiet {request : Request} (quiet : ¬ request.IsCall)
    (next : request.Answer → Interaction Request Request.Answer α) (world : World) (rest : Rest) :
    surroundings.course (.ask request next) (world, rest) =
      surroundings.course (next (surroundings.attend request world rest).1)
        (world, (surroundings.attend request world rest).2) := by
  simp only [course, Interaction.transcript, Interaction.run,
    surroundings.answer_quiet world rest quiet, calls_cons_quiet quiet]

theorem course_ask_call {request : Request} (isCall : request.IsCall)
    (next : request.Answer → Interaction Request Request.Answer α) (world : World) (rest : Rest) :
    surroundings.course (.ask request next) (world, rest) =
      let reply := surroundings.call request world
      let taken := surroundings.course (next reply.1)
        (reply.2, surroundings.notice request world rest)
      ⟨⟨request, reply.1⟩ :: taken.calls, taken.value, taken.world⟩ := by
  simp only [course, Interaction.transcript, Interaction.run,
    surroundings.answer_call world rest isCall, calls_cons_call isCall]

theorem course_bind_quiet (first : Interaction Request Request.Answer α)
    {next : α → Interaction Request Request.Answer α}
    (quiet : ∀ value world rest, surroundings.course (next value) (world, rest) =
      ⟨[], value, world⟩) (world : World) (rest : Rest) :
    surroundings.course (first.bind next) (world, rest) =
      surroundings.course first (world, rest) := by
  obtain ⟨later, taken⟩ := surroundings.course_bind first world rest
  rw [taken, quiet, Course.andThen, List.append_nil]

/-- Where calls are answered alike, parallel interactions take the same course unless one of them
breaks off. All else that surrounds them may differ. -/
theorem course_of_parallel {Other : Type} {others : Surroundings World Other}
    (same : surroundings.call = others.call) {off : α → Prop} {offRight : β → Prop}
    {alike : α → β → Prop} {left : Interaction Request Request.Answer α}
    {right : Interaction Request Request.Answer β}
    (parallel : left.Parallel Request.IsCall off offRight alike right) (world : World)
    (rest : Rest) (other : Other) :
    off (surroundings.course left (world, rest)).value ∨
      offRight (others.course right (world, other)).value ∨
      (surroundings.course left (world, rest)).Agree alike (others.course right (world, other)) := by
  induction parallel generalizing world rest other with
  | done ends => exact .inr (.inr ⟨rfl, ends, rfl⟩)
  -- A call is answered alike, and may change the two rests in different ways.
  | @both request left right isCall _ ih =>
    rw [surroundings.course_ask_call isCall, others.course_ask_call isCall, ← same]
    rcases ih (surroundings.call request world).1 (surroundings.call request world).2
      (surroundings.notice request world rest) (others.notice request world other) with
      excuse | excuse | agree
    · exact .inl excuse
    · exact .inr (.inl excuse)
    · exact .inr (.inr ⟨congrArg (_ :: ·) agree.calls, agree.value, agree.world⟩)
  -- A request of one side alone changes nothing but the rest around it.
  | left quiet _ ih =>
    rw [surroundings.course_ask_quiet quiet]
    exact ih _ world _ other
  | right quiet _ ih =>
    rw [others.course_ask_quiet quiet]
    exact ih _ world rest _
  | offLeft ends => exact .inl ends
  | offRight ends => exact .inr (.inl ends)

/-- Where one interaction follows another, both take the same course unless the first ends early.
Neither needs to have the same rest around it. -/
theorem course_of_follows {excused : α → Prop} {alike : α → β → Prop}
    {left : Interaction Request Request.Answer α} {right : Interaction Request Request.Answer β}
    (follows : left.Follows Request.IsCall excused alike right) (world : World)
    (rest other : Rest) :
    excused (surroundings.course left (world, rest)).value ∨
      (surroundings.course left (world, rest)).Agree alike
        (surroundings.course right (world, other)) := by
  rcases surroundings.course_of_parallel rfl follows.parallel world rest other with
    excuse | never | agree
  · exact .inl excuse
  · exact never.elim
  · exact .inr agree

end Surroundings
end InputTape.Playback
