import InputTape.Proofs.Playback.Rounds

/-! When instructions are due.

From a clock reading on, every instruction is due after the gaps up to it and the delays in front
of it. The clock is read for that at the start, behind a jump and behind a transfer, and never in
between. So no instruction is due later because another was late.
-/

set_option autoImplicit false

namespace InputTape.Playback

open Interaction (Traces Exchange Always)

/-! ## Durations -/

def Options.duration? (options : Options) (milliseconds : Float) : Option Duration :=
  if milliseconds.isNaN || milliseconds ≤ 0 then some 0
  else Duration.ofSeconds? (milliseconds / 1000 / options.speed)

def Options.total? (options : Options) : List Float → Option Duration
  | [] => some 0
  | milliseconds :: more => do
    let first ← options.duration? milliseconds
    return first + (← options.total? more)

section

variable {options : Options}

theorem after?_eq_some {time later : Time} {milliseconds : Float}
    (moved : options.after? time milliseconds = some later) :
    ∃ wait, options.duration? milliseconds = some wait ∧ later = time + wait := by
  unfold Options.after? at moved
  unfold Options.duration?
  split at moved
  · next still =>
    cases moved
    exact ⟨0, if_pos still, rfl⟩
  · next moves =>
    rw [if_neg moves]
    cases waits : Duration.ofSeconds? (milliseconds / 1000 / options.speed) with
    | none =>
      rw [waits] at moved
      cases moved
    | some wait =>
      rw [waits] at moved
      change Time.after? time wait = some later at moved
      unfold Time.after? at moved
      split at moved
      · cases moved
        exact ⟨wait, rfl, rfl⟩
      · cases moved

theorem total?_concat {gaps : List Float} {milliseconds : Float} {total wait : Duration}
    (before : options.total? gaps = some total)
    (last : options.duration? milliseconds = some wait) :
    options.total? (gaps ++ [milliseconds]) = some (total + wait) := by
  induction gaps generalizing total with
  | nil =>
    cases before
    simp only [List.nil_append, Options.total?, last, Nat.zero_add]
    rfl
  | cons first more ih =>
    simp only [Options.total?, Option.bind_eq_bind, Option.bind_eq_some_iff] at before
    obtain ⟨one, found, rest, totals, same⟩ := before
    cases same
    simp only [List.cons_append, Options.total?, found, ih totals]
    rw [Nat.add_assoc]
    rfl

end

/-! ## Waits and clock readings -/

def waits (exchanges : List (Exchange Request Request.Answer)) : List Time :=
  exchanges.filterMap fun exchange => match exchange.request with
    | .wait deadline => some deadline
    | _ => none

def readings (exchanges : List (Exchange Request Request.Answer)) : List Time :=
  exchanges.filterMap fun
    | ⟨.clock, reading⟩ => some reading
    | _ => none

theorem waits_append (first second : List (Exchange Request Request.Answer)) :
    waits (first ++ second) = waits first ++ waits second := List.filterMap_append ..

theorem readings_append (first second : List (Exchange Request Request.Answer)) :
    readings (first ++ second) = readings first ++ readings second := List.filterMap_append ..

def NoWait (request : Request) : Prop := ∀ deadline, request ≠ .wait deadline

theorem waits_eq_nil {exchanges : List (Exchange Request Request.Answer)}
    (none : ∀ exchange ∈ exchanges, NoWait exchange.request) : waits exchanges = [] := by
  rw [waits, List.filterMap_eq_nil_iff]
  intro exchange member
  have still := none exchange member
  split
  · next deadline same => exact absurd same (still deadline)
  · rfl

theorem noWait_of_isTimeless {request : Request} (timeless : request.IsTimeless) :
    NoWait request := by
  rintro deadline rfl
  rcases timeless with acts | ⟨entry, same⟩
  · exact acts
  · cases same

section

variable {options : Options} {state : State} {instruction : Instruction} {deadline now : Time}
  {asked near far : List (Exchange Request Request.Answer)}

theorem still_execute {playhead : Playhead} {operation : Operation}
    {result : Except Failure Directive}
    (works : (execute playhead operation).run.Traces asked result) :
    waits asked = [] ∧ readings asked = [] := by
  have timeless := (works.always (timeless_execute _ _)).1
  refine ⟨waits_eq_nil fun exchange member => noWait_of_isTimeless (timeless exchange member), ?_⟩
  rw [readings, List.filterMap_eq_nil_iff]
  intro exchange member
  have here := timeless exchange member
  obtain ⟨request, answer⟩ := exchange
  cases request with
  | clock =>
    rcases here with acts | ⟨_, ⟨⟩⟩
    exact absurd acts id
  | _ => rfl

theorem waits_leadIn : waits (leadIn options state instruction deadline now) = [deadline] := by
  unfold leadIn remarks waits
  by_cases late : options.latenessWarning < Sample.lateness ⟨state.playhead.index, deadline, now⟩ <;>
    simp [late, remark]

theorem readings_leadIn : readings (leadIn options state instruction deadline now) = [now] := by
  unfold leadIn remarks readings
  by_cases late : options.latenessWarning < Sample.lateness ⟨state.playhead.index, deadline, now⟩ <;>
    simp [late, remark]

/-- An approach waits at most once: for when its instruction is due. -/
theorem Approaches.waitsOnce {result : Except PlaybackError Arrival}
    (approaches : Approaches options state near result) :
    (waits near = [] ∧ ∀ dispatch, result ≠ .ok (.dispatched dispatch)) ∨
    ∃ instruction deadline, state.playhead.current? = some instruction ∧
      options.after? state.scheduled instruction.gap = some deadline ∧
      waits near = [deadline] ∧ ∀ dispatch, result = .ok (.dispatched dispatch) →
        dispatch.instruction = instruction ∧ dispatch.deadline = deadline := by
  cases approaches with
  | cancelled | completed | tooLong =>
    refine .inl ⟨rfl, fun dispatch same => ?_⟩
    cases same
  | interrupted current due =>
    refine .inr ⟨_, _, current, due, rfl, fun dispatch same => ?_⟩
    cases same
  | failed current due works =>
    refine .inr ⟨_, _, current, due, ?_, fun dispatch same => ?_⟩
    · rw [waits_append, waits_leadIn, (still_execute works).1, List.append_nil]
    · cases same
  | dispatched current due works =>
    refine .inr ⟨_, _, current, due, ?_, ?_⟩
    · rw [waits_append, waits_leadIn, (still_execute works).1, List.append_nil]
    · rintro _ ⟨⟩
      exact ⟨rfl, rfl⟩

/-- Behind an instruction that leads to the next one, its delay is added to when it was due. Only
behind the last instruction is there a wait for that. -/
inductive GoesOn (options : Options) (state : State) (instruction : Instruction)
    (deadline : Time) : List (Exchange Request Request.Answer) → Except PlaybackError Progress →
    Prop where
  | tooLong {index : Nat} {milliseconds : Float} : GoesOn options state instruction deadline []
      (.error ⟨index, instruction, .execution (.delayTooLong milliseconds)⟩)
  | next {pause : Duration} {playhead : Playhead} {tally : Tally} :
      options.duration? ((delay? instruction).getD 0) = some pause →
      state.playhead.advance? = some playhead →
      GoesOn options state instruction deadline [] (.ok (.playing ⟨playhead, deadline + pause, tally⟩))
  | last {pause : Duration} {far : List (Exchange Request Request.Answer)} {report : Report} :
      options.duration? ((delay? instruction).getD 0) = some pause →
      state.playhead.advance? = none →
      waits far = (if pause = 0 then [] else [deadline + pause]) → readings far = [] →
      GoesOn options state instruction deadline far (.ok (.ended report))

inductive Rebases : List (Exchange Request Request.Answer) → Except PlaybackError Progress → Prop
    where
  | failed {far : List (Exchange Request Request.Answer)} {error : PlaybackError} :
      waits far = [] → readings far = [] → Rebases far (.error error)
  | anew {front : List (Exchange Request Request.Answer)} {now : Time} {next : State} :
      waits front = [] → readings front = [] → next.scheduled = now →
      Rebases (front ++ [⟨.clock, now⟩]) (.ok (.playing next))

variable {dispatch : Dispatch} {result : Except PlaybackError Progress}
  (concludes : Concludes options state dispatch far result)

include concludes

theorem Concludes.goesOn (leads : dispatch.directive = .next) :
    GoesOn options state dispatch.instruction dispatch.deadline far result := by
  cases concludes with
  | tooLong => exact .tooLong
  | next _ moved advanced =>
    obtain ⟨pause, lasts, rfl⟩ := after?_eq_some moved
    exact .next lasts advanced
  | completed _ moved advanced still =>
    obtain ⟨pause, lasts, rfl⟩ := after?_eq_some moved
    -- A delay of no time is not waited for.
    have none : pause = 0 := Nat.eq_zero_of_not_pos fun some => still (Nat.lt_add_of_pos_right some)
    exact .last lasts advanced (if_pos none).symm rfl
  | waited _ moved advanced further | interrupted _ moved advanced further =>
    obtain ⟨pause, lasts, rfl⟩ := after?_eq_some moved
    have some : pause ≠ 0 := fun none => absurd further (none ▸ Nat.lt_irrefl _)
    exact .last lasts advanced (if_neg some).symm rfl
  | outside other | jumped other | stopped other | noLoader other | notLoaded other
  | transferred other => cases leads.symm.trans other

theorem Concludes.rebases (elsewhere : dispatch.directive ≠ .next)
    (further : dispatch.directive ≠ .stop) : Rebases far result := by
  cases concludes with
  | tooLong leads | next leads | completed leads | waited leads | interrupted leads =>
    exact absurd leads elsewhere
  | stopped leads => exact absurd leads further
  | outside | noLoader | notLoaded => exact .failed rfl rfl
  | jumped => exact @Rebases.anew [] _ _ rfl rfl rfl
  | transferred => exact @Rebases.anew [_, _] _ _ rfl rfl rfl

end

/-! ## The schedule -/

/-- The clock reading that a round starts the schedule anew from: the one behind a jump or a
transfer. -/
def Round.rebase? (round : Round) : Option Time :=
  match round.dispatch.map Dispatch.directive with
  | some (.jump _) | some (.transfer _) => (readings round.far).head?
  | _ => none

/-- The clock reading that the schedule was last started from. -/
def base (start : Time) (rounds : List Round) : Time :=
  (rounds.reverse.findSome? Round.rebase?).getD start

def since (rounds : List Round) : List Round :=
  (rounds.reverse.takeWhile fun round => round.rebase?.isNone).reverse

def dispatched (rounds : List Round) : List Instruction :=
  rounds.filterMap fun round => round.dispatch.map Dispatch.instruction

/-- A time is that of the base later by the gaps and delays of all instructions done since. -/
def OnTime (options : Options) (start : Time) (rounds : List Round) (time : Time) : Prop :=
  ∃ gaps delays, options.total? ((dispatched (since rounds)).map Instruction.gap) = some gaps ∧
    options.total? ((dispatched (since rounds)).filterMap delay?) = some delays ∧
    time = base start rounds + gaps + delays

structure KeepsTime (options : Options) (start : Time) (earlier : List Round) (round : Round) :
    Prop where
  /-- An instruction is waited for until the gaps up to it and the delays in front of it are
  over. -/
  due : ∀ deadline ∈ waits round.near, ∃ instruction gaps delays,
    round.playhead.current? = some instruction ∧
    options.total? ((dispatched (since earlier)).map Instruction.gap ++ [instruction.gap]) =
      some gaps ∧
    options.total? ((dispatched (since earlier)).filterMap delay?) = some delays ∧
    deadline = base start earlier + gaps + delays
  /-- Every instruction that is done was waited for, once. -/
  once : ∀ dispatch, round.dispatch = some dispatch →
    round.playhead.current? = some dispatch.instruction ∧ waits round.near = [dispatch.deadline]
  /-- The delay of the last instruction is waited for if there is any. -/
  trailing : ∀ dispatch, round.dispatch = some dispatch → dispatch.directive = .next →
    round.playhead.advance? = none →
    (∃ pause, options.duration? ((delay? dispatch.instruction).getD 0) = some pause ∧
      waits round.far = if pause = 0 then [] else [dispatch.deadline + pause]) ∨
    waits round.far = [] ∧ ∃ index milliseconds, round.result =
      .error ⟨index, dispatch.instruction, .execution (.delayTooLong milliseconds)⟩
  /-- Nothing else is waited for. -/
  still : (∀ dispatch, round.dispatch = some dispatch → dispatch.directive = .next →
    round.playhead.advance? ≠ none) → waits round.far = []
  /-- Where the playback does not go on at the next instruction, the clock is read last, and only
  then. -/
  anew : ∀ dispatch next, round.dispatch = some dispatch → dispatch.directive ≠ .next →
    round.result = .ok (.playing next) → ∃ front now, round.far = front ++ [⟨.clock, now⟩] ∧
      readings front = [] ∧ round.rebase? = some now

section

variable {options : Options} {start : Time} {earlier : List Round} {round : Round}

theorem base_concat_none (stays : round.rebase? = none) :
    base start (earlier ++ [round]) = base start earlier := by
  simp only [base, List.reverse_concat, List.findSome?_cons, stays]

theorem base_concat_some {now : Time} (rebases : round.rebase? = some now) :
    base start (earlier ++ [round]) = now := by
  simp only [base, List.reverse_concat, List.findSome?_cons, rebases, Option.getD_some]

theorem since_concat_none (stays : round.rebase? = none) :
    since (earlier ++ [round]) = since earlier ++ [round] := by
  simp only [since, List.reverse_concat, List.takeWhile_cons, stays, Option.isNone_none, if_true,
    List.reverse_cons]

theorem since_concat_some {now : Time} (rebases : round.rebase? = some now) :
    since (earlier ++ [round]) = [] := by
  simp only [since, List.reverse_concat, List.takeWhile_cons, rebases, Option.isNone_some,
    Bool.false_eq_true, if_false, List.reverse_nil]

theorem onTime_of_rebase {now : Time} (rebases : round.rebase? = some now) :
    OnTime options start (earlier ++ [round]) now := by
  refine ⟨0, 0, ?_, ?_, ?_⟩
  · rw [since_concat_some rebases]
    rfl
  · rw [since_concat_some rebases]
    rfl
  · rw [base_concat_some rebases]
    rfl

theorem total?_delay {delays : List Float} {total pause : Duration} {instruction : Instruction}
    (before : options.total? delays = some total)
    (lasts : options.duration? ((delay? instruction).getD 0) = some pause) :
    options.total? (delays ++ (delay? instruction).toList) = some (total + pause) := by
  cases delayed : delay? instruction with
  | none =>
    have none : options.duration? 0 = some 0 := by
      unfold Options.duration?
      rw [if_pos]
      decide
    rw [delayed, Option.getD_none, none] at lasts
    cases lasts
    rw [Option.toList_none, List.append_nil, Nat.add_zero]
    exact before
  | some milliseconds =>
    rw [delayed, Option.getD_some] at lasts
    exact total?_concat before lasts

theorem onTime_next {dispatch : Dispatch} {scheduled : Time} {pause : Duration}
    (onTime : OnTime options start earlier scheduled)
    (does : round.dispatch = some dispatch) (leads : dispatch.directive = .next)
    (moved : options.after? scheduled dispatch.instruction.gap = some dispatch.deadline)
    (lasts : options.duration? ((delay? dispatch.instruction).getD 0) = some pause) :
    OnTime options start (earlier ++ [round]) (dispatch.deadline + pause) := by
  have stays : round.rebase? = none := by simp only [Round.rebase?, does, Option.map_some, leads]
  obtain ⟨gaps, delays, gapTotal, delayTotal, rfl⟩ := onTime
  obtain ⟨wait, found, same⟩ := after?_eq_some moved
  have done : dispatched (since earlier ++ [round]) =
      dispatched (since earlier) ++ [dispatch.instruction] := by
    simp only [dispatched, List.filterMap_append, List.filterMap_cons, does, Option.map_some,
      List.filterMap_nil]
  unfold OnTime
  rw [since_concat_none stays, base_concat_none stays, done, List.map_append, List.filterMap_append]
  refine ⟨gaps + wait, delays + pause, total?_concat gapTotal found, ?_, ?_⟩
  · have last : [dispatch.instruction].filterMap delay? = (delay? dispatch.instruction).toList := by
      cases delayed : delay? dispatch.instruction <;> simp [delayed]
    rw [last]
    exact total?_delay delayTotal lasts
  · have regroup : ∀ a b c d e : Nat, a + b + c + d + e = a + (b + d) + (c + e) := by omega
    rw [same]
    exact regroup ..

/-- A round keeps to the schedule, and leaves the playback on time. -/
def Punctual (options : Options) (start : Time) (earlier : List Round) (round : Round) : Prop :=
  KeepsTime options start earlier round ∧ ∀ next, round.result = .ok (.playing next) →
    OnTime options start (earlier ++ [round]) next.scheduled

section

variable {state : State} {near far : List (Exchange Request Request.Answer)}
  {dispatch : Dispatch} {result : Except PlaybackError Progress}

theorem due_of_approach {arrival : Except PlaybackError Arrival}
    (onTime : OnTime options start earlier state.scheduled)
    (traces : (approach options state).run.Traces near arrival) :
    ∀ deadline ∈ waits near, ∃ instruction gaps delays,
      state.playhead.current? = some instruction ∧
      options.total? ((dispatched (since earlier)).map Instruction.gap ++ [instruction.gap]) =
        some gaps ∧
      options.total? ((dispatched (since earlier)).filterMap delay?) = some delays ∧
      deadline = base start earlier + gaps + delays := by
  intro deadline member
  obtain ⟨gaps, delays, gapTotal, delayTotal, same⟩ := onTime
  rcases (traces_approach.mp traces).waitsOnce with
    ⟨still, -⟩ | ⟨instruction, found, current, moved, only, -⟩
  · rw [still] at member
    cases member
  · rw [only, List.mem_singleton] at member
    subst member
    obtain ⟨wait, lasts, later⟩ := after?_eq_some moved
    -- The next gap is added to the gaps, behind all delays so far.
    have regroup : ∀ a b c d : Nat, a + b + c + d = a + (b + d) + c := by omega
    refine ⟨instruction, gaps + wait, delays, current, total?_concat gapTotal lasts, delayTotal, ?_⟩
    rw [later, same]
    exact regroup ..

theorem dispatched_of_approach
    (traces : (approach options state).run.Traces near (.ok (.dispatched dispatch))) :
    state.playhead.current? = some dispatch.instruction ∧ waits near = [dispatch.deadline] ∧
      options.after? state.scheduled dispatch.instruction.gap = some dispatch.deadline := by
  rcases (traces_approach.mp traces).waitsOnce with
    ⟨-, none⟩ | ⟨instruction, deadline, current, moved, only, tells⟩
  · exact absurd rfl (none dispatch)
  · obtain ⟨rfl, rfl⟩ := tells dispatch rfl
    exact ⟨current, only, moved⟩

theorem once_of_approach
    (traces : (approach options state).run.Traces near (.ok (.dispatched dispatch))) :
    ∀ other, some dispatch = some other →
      state.playhead.current? = some other.instruction ∧ waits near = [other.deadline] := by
  obtain ⟨current, only, -⟩ := dispatched_of_approach traces
  rintro _ ⟨⟩
  exact ⟨current, only⟩

variable (onTime : OnTime options start earlier state.scheduled)

include onTime

theorem punctual_without {arrival : Except PlaybackError Arrival}
    (traces : (approach options state).run.Traces near arrival)
    (ends : ∀ next, result ≠ .ok (.playing next)) :
    Punctual options start earlier ⟨state.playhead, none, near, [], result⟩ := by
  refine ⟨⟨due_of_approach onTime traces, ?_, ?_, fun _ => rfl, ?_⟩, ?_⟩
  · intro dispatch does
    cases does
  · intro dispatch does
    cases does
  · intro dispatch next does
    cases does
  · intro next same
    exact absurd same (ends next)

variable (traces : (approach options state).run.Traces near (.ok (.dispatched dispatch)))

include traces

/-- A jump and a transfer are alike: the clock is read last, and the schedule starts from there. -/
theorem punctual_rebased (elsewhere : dispatch.directive ≠ .next)
    (reads : Round.rebase? ⟨state.playhead, some dispatch, near, far, result⟩ =
      (readings far).head?) (rebases : Rebases far result) :
    Punctual options start earlier ⟨state.playhead, some dispatch, near, far, result⟩ := by
  have due := due_of_approach onTime traces
  have once := once_of_approach traces
  cases rebases with
  | failed still quiet =>
    refine ⟨⟨due, once, ?_, fun _ => still, ?_⟩, ?_⟩
    · rintro _ ⟨⟩ onward
      exact absurd onward elsewhere
    · intro _ next _ _ same
      cases same
    · intro next same
      cases same
  | @anew front now next still quiet same =>
    have first : Round.rebase? ⟨state.playhead, some dispatch, near, front ++ [⟨.clock, now⟩],
        .ok (.playing next)⟩ = some now := by
      rw [reads, readings, List.filterMap_append, ← readings, quiet]
      rfl
    refine ⟨⟨due, once, ?_, ?_, ?_⟩, ?_⟩
    · rintro _ ⟨⟩ onward
      exact absurd onward elsewhere
    · intro _
      rw [waits_append, still]
      rfl
    · intro _ _ _ _ _
      exact ⟨front, now, rfl, quiet, first⟩
    · rintro _ ⟨⟩
      rw [same]
      exact onTime_of_rebase first

theorem punctual_onward (leads : dispatch.directive = .next)
    (goesOn : GoesOn options state dispatch.instruction dispatch.deadline far result) :
    Punctual options start earlier ⟨state.playhead, some dispatch, near, far, result⟩ := by
  have due := due_of_approach onTime traces
  have once := once_of_approach traces
  obtain ⟨-, -, moved⟩ := dispatched_of_approach traces
  cases goesOn with
  | tooLong =>
    refine ⟨⟨due, once, ?_, fun _ => rfl, ?_⟩, ?_⟩
    · rintro _ ⟨⟩ _ _
      exact .inr ⟨rfl, _, _, rfl⟩
    · rintro _ _ ⟨⟩ other
      exact absurd leads other
    · intro next same
      cases same
  | next lasts advanced =>
    refine ⟨⟨due, once, ?_, fun _ => rfl, ?_⟩, ?_⟩
    · rintro _ ⟨⟩ _ atEnd
      rw [advanced] at atEnd
      cases atEnd
    · rintro _ _ ⟨⟩ other
      exact absurd leads other
    · rintro _ ⟨⟩
      exact onTime_next onTime rfl leads moved lasts
  | last lasts atEnd waited quiet =>
    refine ⟨⟨due, once, ?_, ?_, ?_⟩, ?_⟩
    · rintro _ ⟨⟩ _ _
      exact .inl ⟨_, lasts, waited⟩
    · intro further
      exact absurd atEnd (further dispatch rfl leads)
    · rintro _ _ ⟨⟩ other
      exact absurd leads other
    · intro next same
      cases same

theorem punctual_stopped (leads : dispatch.directive = .stop) {report : Report} :
    Punctual options start earlier
      ⟨state.playhead, some dispatch, near, [], .ok (.ended report)⟩ := by
  refine ⟨⟨due_of_approach onTime traces, once_of_approach traces, ?_, fun _ => rfl, ?_⟩, ?_⟩
  · rintro _ ⟨⟩ onward
    rw [leads] at onward
    cases onward
  · intro _ next _ _ same
    cases same
  · intro next same
    cases same

end

theorem punctual_round {state : State} (onTime : OnTime options start earlier state.scheduled)
    (played : Round.Of options state round) : Punctual options start earlier round := by
  cases played with
  | ended traces => exact punctual_without onTime traces fun _ same => by cases same
  | failed traces => exact punctual_without onTime traces fun _ same => by cases same
  | @dispatched dispatch near far result traces concluded =>
    have concludes := traces_conclude.mp concluded
    cases leads : dispatch.directive with
    | next => exact punctual_onward onTime traces leads (concludes.goesOn leads)
    | stop =>
      cases concludes with
      | stopped => exact punctual_stopped onTime traces leads
      | tooLong other | next other | completed other | waited other | interrupted other
      | outside other | jumped other | noLoader other | notLoaded other | transferred other =>
        cases leads.symm.trans other
    | jump index | transfer path =>
      have elsewhere : dispatch.directive ≠ .next := by
        rw [leads]
        exact Directive.noConfusion
      have further : dispatch.directive ≠ .stop := by
        rw [leads]
        exact Directive.noConfusion
      exact punctual_rebased onTime traces elsewhere
        (by simp only [Round.rebase?, Option.map_some, leads])
        (concludes.rebases elsewhere further)

/-- Every round of a playback that was on time keeps to the schedule. -/
theorem keepsTime_rounds {σ : Type} (answer : (request : Request) → σ → request.Answer × σ)
    (steps : Nat) {state : State} (surroundings : σ)
    (onTime : OnTime options start earlier state.scheduled) {front back : List Round}
    (split : rounds options answer steps state surroundings = front ++ round :: back) :
    KeepsTime options start (earlier ++ front) round := by
  -- Every round played joins those before it, and leaves the next one on time.
  induction steps generalizing state surroundings earlier front with
  | zero => cases front <;> cases split
  | succ steps ih =>
    obtain ⟨keeps, stays⟩ := punctual_round onTime (round_of options answer state surroundings)
    unfold rounds at split
    generalize Playback.round options answer state surroundings = played at keeps stays split
    obtain ⟨first, later⟩ := played
    cases front with
    | nil =>
      rw [List.nil_append, List.cons.injEq] at split
      rw [List.append_nil, ← split.1]
      exact keeps
    | cons again front =>
      rw [List.cons_append, List.cons.injEq] at split
      obtain ⟨rfl, split⟩ := split
      split at split
      · next next playing =>
        rw [List.append_cons]
        exact ih later (stays next playing) split
      · cases front <;> cases split

end

structure History where
  start : Time
  rounds : List Round

def openingNote (sequence : Sequence) : Journal.Entry :=
  ⟨.info, "playback started (" ++ toString sequence.size ++ " instructions)"⟩

section

variable {σ : Type} (options : Options) (hasLoader : Bool) (steps : Nat) (sequence : Sequence)
  (answer : (request : Request) → σ → request.Answer × σ) (surroundings : σ)

def history : History :=
  let told := answer .clock (answer (.note (openingNote sequence)) surroundings).2
  ⟨told.1, rounds options answer steps ⟨.start sequence none hasLoader, told.1, .zero⟩ told.2⟩

/-- Whatever the surroundings, a playback reads the clock once before its rounds and waits for
nothing outside of them, and all its rounds keep to the schedule. -/
theorem play_keepsTime :
    (∃ closing, (play options hasLoader steps sequence).run.transcript answer surroundings =
      ⟨.note (openingNote sequence), (answer (.note (openingNote sequence)) surroundings).1⟩ ::
      ⟨.clock, (history options hasLoader steps sequence answer surroundings).start⟩ ::
      (history options hasLoader steps sequence answer surroundings).rounds.flatMap
        Round.exchanges ++ closing ∧ ∀ exchange ∈ closing, ∃ entry, exchange.request = .note entry) ∧
    ∀ earlier round later,
      (history options hasLoader steps sequence answer surroundings).rounds =
        earlier ++ round :: later →
      KeepsTime options (history options hasLoader steps sequence answer surroundings).start earlier
        round := by
  constructor
  · unfold play note
    rw [run_ask_bind, Interaction.transcript, run_ask_bind, Interaction.transcript, run_bind,
      Interaction.transcript_bind, transcript_playFrom]
    refine ⟨_, rfl, ?_⟩
    -- What comes behind the rounds takes one more note at most.
    generalize (Interaction.run _ _ _).1 = result
    generalize (Interaction.run _ _ _).2 = remaining
    rcases result with error | (_ | report) <;> intro exchange member
    · cases member
    · cases member
    · rw [List.mem_singleton.mp member]
      exact ⟨_, rfl⟩
  · intro earlier round later split
    have onTime : ∀ now, OnTime options now [] now := fun now => ⟨0, 0, rfl, rfl, rfl⟩
    have keeps : KeepsTime options _ ([] ++ earlier) round :=
      keepsTime_rounds answer steps _ (onTime _) split
    exact keeps

end

def late : (request : Request) → Time → request.Answer × Time
  | .gesture _, now => (.ok (), now)
  | .pixel _ _, now => (.opaqueRgb 0 0 0, now)
  | .evaluate _, now => (.ok .nil, now)
  | .load _, now => (.error (.invalidGap 0 0), now)
  | .wait deadline, now => (.reached, max now deadline + 7)
  | .clock, now => (now, now)
  | .isCancelled, now => (false, now)
  | .note _, now => ((), now)

def delaySequence : Sequence :=
  ⟨#[⟨10, none, .label "a"⟩, ⟨5, none, .delay 20⟩, ⟨1, none, .delay 3⟩]⟩

-- At twice the speed: 5 ms, 2.5 ms later, 0.5 ms behind the first delay, and the second delay.
theorem play_keepsTime_late :
    (history ⟨2, false, 0⟩ false 4 delaySequence late 100).rounds.flatMap
      (fun round => waits round.exchanges) = [5000100, 7500100, 18000100, 19500100] ∧
    ∀ earlier round later, (history ⟨2, false, 0⟩ false 4 delaySequence late 100).rounds =
      earlier ++ round :: later → KeepsTime ⟨2, false, 0⟩
        (history ⟨2, false, 0⟩ false 4 delaySequence late 100).start earlier round :=
  ⟨by decide, (play_keepsTime ⟨2, false, 0⟩ false 4 delaySequence late 100).2⟩

end InputTape.Playback
