import InputTape.Proofs.Playback.Mishaps

/-! When a round fails.

A round fails if its instruction cannot be scheduled, if there is a mishap, or if the time behind it
cannot be scheduled, and in no other way.
-/

set_option autoImplicit false

namespace InputTape.Playback

open Interaction (Traces Exchange traces_bind traces_done)

/-- The failure of an instruction, and what is asked up to it. -/
inductive Fault (options : Options) (state : State) (instruction : Instruction) :
    List (Exchange Request Request.Answer) → Failure → Prop where
  /-- The gap is too long. -/
  | gap : options.after? state.scheduled instruction.gap = none →
      Fault options state instruction [⟨.isCancelled, false⟩]
        (.execution (.delayTooLong instruction.gap))
  /-- It was fired when it was due. -/
  | work {deadline now : Time} {asked : List (Exchange Request Request.Answer)}
      {failure : Failure} : options.after? state.scheduled instruction.gap = some deadline →
      Mishap state.playhead instruction.operation asked failure →
      Fault options state instruction
        (⟨.isCancelled, false⟩ :: ⟨.wait deadline, .reached⟩ :: ⟨.clock, now⟩ :: asked) failure
  /-- The delay itself is too long. -/
  | pause {deadline now : Time} {milliseconds : Float} :
      options.after? state.scheduled instruction.gap = some deadline →
      instruction.operation = .delay milliseconds →
      options.after? deadline milliseconds = none →
      Fault options state instruction
        [⟨.isCancelled, false⟩, ⟨.wait deadline, .reached⟩, ⟨.clock, now⟩]
        (.execution (.delayTooLong milliseconds))

section

variable {options : Options} {state : State} {playhead : Playhead}
  {asked far : List (Exchange Request Request.Answer)}

/-! ## Where instructions lead -/

theorem find?_lt {name : String} {index : Nat} (found : playhead.find? name = some index) :
    index < playhead.sequence.size := by
  unfold Playhead.find? at found
  simp only at found
  split at found
  · cases found
  · exact (Array.findIdx?_eq_some_iff_getElem.mp found).1

theorem toName_eq_ok {name : String} {directive : Directive} :
    toName playhead name = .ok directive ↔
      ∃ index, playhead.find? name = some index ∧ directive = .jump index := by
  unfold toName
  cases playhead.find? name with
  | some index => simp [eq_comm]
  | none => simp

theorem branchDirective_transfer {holds : Bool} {target : BranchTarget} {path : FilePath} :
    branchDirective playhead holds target = .ok (.transfer path) ↔ target.file = some path := by
  unfold branchDirective
  cases target.file with
  | some other => simp
  | none =>
    cases nonBlank? target.name with
    | some wanted => simp [toName_eq_ok]
    | none => cases holds <;> simp

theorem branchDirective_jump {holds : Bool} {target : BranchTarget} {index : Nat}
    (leads : branchDirective playhead holds target = .ok (.jump index)) :
    index < playhead.sequence.size := by
  unfold branchDirective at leads
  split at leads
  · cases leads
  · obtain ⟨_, found, ⟨⟩⟩ := toName_eq_ok.mp leads
    exact find?_lt found
  · split at leads <;> cases leads

theorem jumpDirective_eq_ok {name : Option String} {index? : Option Nat} {directive : Directive}
    (leads : jumpDirective playhead name index? = .ok directive) :
    ∃ index, directive = .jump index ∧ (index < playhead.sequence.size ∨
      nonBlank? name = none ∧ index? = some index) := by
  unfold jumpDirective at leads
  split at leads
  · obtain ⟨index, found, rfl⟩ := toName_eq_ok.mp leads
    exact ⟨index, rfl, .inl (find?_lt found)⟩
  · next index blank =>
    cases leads
    exact ⟨index, rfl, .inr ⟨blank, rfl⟩⟩
  · cases leads

theorem Does.outside {operation : Operation} {index : Nat}
    (does : Does playhead operation asked (.jump index))
    (outside : playhead.sequence.size ≤ index) :
    Mishap playhead operation asked (.flow (.outOfRange index playhead.sequence.size)) := by
  cases does with
  | jump directs =>
    obtain ⟨_, ⟨⟩, inside | ⟨blank, rfl⟩⟩ := jumpDirective_eq_ok directs
    · exact absurd inside (Nat.not_lt.mpr outside)
    · exact .jumpOutside blank outside
  | branch _ directs => exact absurd (branchDirective_jump directs) (Nat.not_lt.mpr outside)

theorem Does.toFile {operation : Operation} {path : FilePath}
    (does : Does playhead operation asked (.transfer path)) :
    ∃ condition onTrue onFalse holds, operation = .branch condition onTrue onFalse ∧
      Tests condition asked holds ∧ (if holds then onTrue else onFalse).file = some path := by
  cases does with
  | jump directs => obtain ⟨_, ⟨⟩, _⟩ := jumpDirective_eq_ok directs
  | branch tests directs =>
    exact ⟨_, _, _, _, rfl, tests, branchDirective_transfer.mp directs⟩

/-! ## When steps fail -/

theorem Playhead.jump_eq_error {index : Nat} {error : FlowError} :
    playhead.jump index = .error error ↔ playhead.sequence.size ≤ index ∧
      error = .outOfRange index playhead.sequence.size := by
  unfold Playhead.jump
  split
  · next inside =>
    simp
    omega
  · next outside => simp [Nat.not_lt.mp outside, eq_comm]

/-- A step goes wrong before its instruction has said where to go, or behind that. -/
theorem traces_step_error {error : PlaybackError} :
    (step options state).run.Traces asked (.error error) ↔
      Approaches options state asked (.error error) ∨
      ∃ near far dispatch, asked = near ++ far ∧
        Approaches options state near (.ok (.dispatched dispatch)) ∧
        Concludes options state dispatch far (.error error) := by
  rw [run_step, traces_bind]
  constructor
  · rintro ⟨near, arrival, far, rfl, approaches, arrives⟩
    rw [traces_approach] at approaches
    rcases arrival with error | (report | dispatch)
    · obtain ⟨rfl, ⟨⟩⟩ := traces_done.mp arrives
      exact .inl (by rwa [List.append_nil])
    · obtain ⟨rfl, ⟨⟩⟩ := traces_done.mp arrives
    · exact .inr ⟨near, far, dispatch, rfl, approaches, traces_conclude.mp arrives⟩
  · rintro (approaches | ⟨near, far, dispatch, rfl, approaches, concludes⟩)
    · exact ⟨asked, _, [], (List.append_nil asked).symm, traces_approach.mpr approaches, .done⟩
    · exact ⟨near, _, far, rfl, traces_approach.mpr approaches, traces_conclude.mpr concludes⟩

theorem unnoted_leadIn {instruction : Instruction} {deadline now : Time} :
    unnoted (leadIn options state instruction deadline now ++ asked) =
      ⟨.isCancelled, false⟩ :: ⟨.wait deadline, .reached⟩ :: ⟨.clock, now⟩ :: unnoted asked := by
  unfold leadIn remarks unnoted
  by_cases late : options.latenessWarning < Sample.lateness ⟨state.playhead.index, deadline, now⟩
  · simp [late, remark, Request.isNote]
  · simp [late, remark, Request.isNote]

theorem after?_pauseOf {instruction : Instruction} {time : Time}
    (timeless : ∀ milliseconds, instruction.operation ≠ .delay milliseconds) :
    options.after? time (pauseOf instruction) = some time := by
  obtain ⟨gap, name, operation⟩ := instruction
  cases operation with
  | delay milliseconds => exact absurd rfl (timeless milliseconds)
  | _ =>
    change options.after? time 0 = some time
    unfold Options.after?
    rw [if_pos]
    decide

theorem delay_of_after?_eq_none {instruction : Instruction} {time : Time}
    (long : options.after? time (pauseOf instruction) = none) :
    instruction.operation = .delay (pauseOf instruction) := by
  by_contra other
  have timeless : ∀ milliseconds, instruction.operation ≠ .delay milliseconds := by
    intro milliseconds same
    apply other
    unfold pauseOf delay?
    rw [same]
    rfl
  cases (after?_pauseOf timeless).symm.trans long

theorem fault_of_concludes {dispatch : Dispatch} (now : Time) {error : PlaybackError}
    (due : options.after? state.scheduled dispatch.instruction.gap = some dispatch.deadline)
    (does : Does state.playhead dispatch.instruction.operation asked dispatch.directive)
    (concludes : Concludes options state dispatch far (.error error)) :
    ∃ failure, error = blame state dispatch.instruction failure ∧
      Fault options state dispatch.instruction (⟨.isCancelled, false⟩ ::
        ⟨.wait dispatch.deadline, .reached⟩ :: ⟨.clock, now⟩ :: (asked ++ unnoted far)) failure := by
  cases concludes with
  | tooLong onward moved =>
    have delays := delay_of_after?_eq_none moved
    rw [onward, delays] at does
    cases does
    exact ⟨_, rfl, .pause due delays moved⟩
  | outside onward jumped =>
    rw [onward] at does
    obtain ⟨outside, rfl⟩ := Playhead.jump_eq_error.mp jumped
    refine ⟨_, rfl, .work due ?_⟩
    rw [unnoted_nil, List.append_nil]
    exact does.outside outside
  | noLoader onward loader =>
    rw [onward] at does
    obtain ⟨_, _, _, _, branches, tests, file⟩ := does.toFile
    refine ⟨_, rfl, .work due ?_⟩
    rw [unnoted_nil, List.append_nil, branches]
    exact .noLoader tests file loader
  | notLoaded onward loader =>
    rw [onward] at does
    obtain ⟨_, _, _, _, branches, tests, file⟩ := does.toFile
    refine ⟨_, rfl, .work due ?_⟩
    rw [branches]
    exact .notLoaded tests file loader

theorem fault_of_traces {error : PlaybackError}
    (traces : (step options state).run.Traces asked (.error error)) :
    ∃ instruction failure, state.playhead.current? = some instruction ∧
      error = blame state instruction failure ∧
      Fault options state instruction (unnoted asked) failure := by
  rcases traces_step_error.mp traces with approaches | ⟨near, far, dispatch, rfl, approaches, concludes⟩
  · cases approaches with
    | tooLong current due => exact ⟨_, _, current, rfl, .gap due⟩
    | failed current due works =>
      refine ⟨_, _, current, rfl, ?_⟩
      rw [unnoted_leadIn]
      exact .work due (mishap_of_execute works)
  · cases approaches with
    | @dispatched instruction deadline now _ directive current due works =>
      obtain ⟨failure, rfl, fault⟩ := @fault_of_concludes _ _ _ _
        ⟨instruction, deadline, directive, _⟩ now _ due (does_of_execute works) concludes
      refine ⟨_, failure, current, rfl, ?_⟩
      rw [unnoted_append, unnoted_leadIn]
      exact fault

theorem Mishap.happens {operation : Operation} {failure : Failure}
    (mishap : Mishap state.playhead operation asked failure) :
    (∃ noted, unnoted noted = asked ∧
      (execute state.playhead operation).run.Traces noted (.error failure)) ∨
    ∃ front directive far, asked = front ++ far ∧ unnoted far = far ∧
      Does state.playhead operation front directive ∧
      ∀ dispatch : Dispatch, dispatch.directive = directive → Concludes options state dispatch far
        (.error (blame state dispatch.instruction failure)) := by
  -- A mishap shows either in the work itself, or behind it in what the directive leads to.
  cases mishap with
  | mouse | key => exact .inl ⟨[_], rfl, traces_gesture.mpr ⟨_, rfl, rfl⟩⟩
  | @script before after line error asked busy evaluated =>
    have fails : (runLines (1 + before.length) (line :: after)).run.Traces
        [⟨.evaluate (Text.trim line), .error error⟩]
        (.error (.script (1 + before.length) error)) :=
      (traces_busyLine busy).mpr ⟨.error error, [], rfl, rfl, rfl⟩
    refine .inl ⟨_, ?_, traces_working.mpr (.inl ⟨_, evaluated.traces fails, ?_⟩)⟩
    · rw [unnoted_append, evaluated.unnoted]
      rfl
    · rw [Nat.add_comm]
  | condition =>
    exact .inl ⟨[_], rfl, traces_branch.mpr (.inl ⟨_, _, rfl, rfl, rfl⟩)⟩
  | jumpNowhere blank =>
    refine .inl ⟨[], rfl, ?_⟩
    simp only [execute, jumpDirective_eq_error.mpr (.inl ⟨blank, rfl, rfl⟩)]
    exact .done
  | jumpUnresolved named lost =>
    refine .inl ⟨[], rfl, ?_⟩
    simp only [execute, jumpDirective_eq_error.mpr (.inr ⟨_, named, lost, rfl⟩)]
    exact .done
  | @jumpOutside name index blank outside =>
    have directs : jumpDirective state.playhead name (some index) = .ok (.jump index) := by
      unfold jumpDirective
      rw [blank]
    exact .inr ⟨[], _, [], rfl, rfl, .jump directs, fun dispatch onward =>
      .outside onward (Playhead.jump_eq_error.mpr ⟨outside, rfl⟩)⟩
  | branchNowhere tests noFile blank =>
    refine .inl ⟨_, unnoted_branch tests, traces_branch.mpr (.inr ⟨_, _, tests, rfl, ?_⟩)⟩
    rw [if_pos rfl, branchDirective_eq_error.mpr ⟨noFile, .inl ⟨blank, rfl, rfl⟩⟩]
    rfl
  | branchUnresolved tests noFile named lost =>
    refine .inl ⟨_, unnoted_branch tests, traces_branch.mpr (.inr ⟨_, _, tests, rfl, ?_⟩)⟩
    rw [branchDirective_eq_error.mpr ⟨noFile, .inr ⟨_, named, lost, rfl⟩⟩]
    rfl
  | noLoader tests file loader =>
    exact .inr ⟨asked, _, [], (List.append_nil asked).symm, rfl,
      .branch tests (branchDirective_transfer.mpr file), fun dispatch onward =>
        .noLoader onward loader⟩
  | notLoaded tests file loader =>
    exact .inr ⟨_, _, _, rfl, rfl, .branch tests (branchDirective_transfer.mpr file),
      fun dispatch onward => .notLoaded onward loader⟩

theorem Fault.traces {instruction : Instruction} {failure : Failure}
    (current : state.playhead.current? = some instruction)
    (fault : Fault options state instruction asked failure) :
    ∃ noted, unnoted noted = asked ∧
      (step options state).run.Traces noted (.error (blame state instruction failure)) := by
  cases fault with
  | gap due => exact ⟨_, rfl, traces_step_error.mpr (.inl (.tooLong current due))⟩
  | @work deadline now asked failure due mishap =>
    rcases @Mishap.happens options _ _ _ _ mishap with ⟨noted, rfl, works⟩ |
      ⟨front, directive, far, rfl, quiet, does, concludes⟩
    · exact ⟨_, unnoted_leadIn, traces_step_error.mpr (.inl (.failed current due works))⟩
    · obtain ⟨noted, rfl, works⟩ := does.execute
      refine ⟨leadIn options state instruction deadline now ++ noted ++ far, ?_,
        traces_step_error.mpr
          (.inr ⟨_, far, _, rfl, .dispatched current due works, concludes _ rfl⟩)⟩
      rw [unnoted_append, unnoted_leadIn, quiet]
      rfl
  | @pause deadline now milliseconds due delays long =>
    -- Only a delay lets time pass, so the work itself went well.
    have does : Does state.playhead instruction.operation [] .next := by
      rw [delays]
      exact .delay
    obtain ⟨noted, quiet, works⟩ := does.execute
    have time : pauseOf instruction = milliseconds := by
      unfold pauseOf delay?
      rw [delays]
      rfl
    have late := @Concludes.tooLong options state
      ⟨instruction, deadline, .next, counted options state deadline now⟩ rfl (time ▸ long)
    rw [time] at late
    refine ⟨_, ?_, traces_step_error.mpr (.inr ⟨_, [], _, rfl, .dispatched current due works, late⟩)⟩
    rw [List.append_nil, unnoted_leadIn, quiet]

/-- A round fails exactly if there is a fault in it, and then with that. -/
theorem round_eq_error {σ : Type} {answer : (request : Request) → σ → request.Answer × σ}
    {surroundings : σ} {error : PlaybackError} :
    (round options answer state surroundings).1.result = .error error ↔
      ∃ instruction failure, state.playhead.current? = some instruction ∧
        error = blame state instruction failure ∧
        Fault options state instruction
          (unnoted (round options answer state surroundings).1.exchanges) failure := by
  obtain ⟨ran, asked⟩ := round_step options answer state surroundings
  have traces := Interaction.traces_run (step options state).run answer surroundings
  rw [ran, asked] at traces
  constructor
  · intro fails
    rw [fails] at traces
    exact fault_of_traces traces
  · rintro ⟨instruction, failure, current, rfl, fault⟩
    obtain ⟨noted, same, again⟩ := fault.traces current
    -- Notes are answered in one way only, so they do not tell the two runs apart.
    refine @Traces.unique _ _ _ _ _ _ (fun request : Request => !request.isNote)
      (fun request isNote => ?_) _ _ traces again same.symm
    cases request with
    | note entry => exact inferInstanceAs (Subsingleton Unit)
    | _ => cases isNote

end

end InputTape.Playback
