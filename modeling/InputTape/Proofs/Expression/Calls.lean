import InputTape.Proofs.Decimal.Words
import InputTape.Proofs.Expression.Heeding
import InputTape.Proofs.Interaction.Traces
import InputTape.Proofs.Script.Readers

/-! Calls check before they act.

A call that is refused for its name, the number of its arguments or one of them has asked for nothing. Any
other asks for what its function is there for, in order, and breaks off only at a gesture that fails.
-/

set_option autoImplicit false

namespace InputTape.Expression

open Interaction (Exchange Traces)
open Script (bind_eq_ok)

/-! ## Arguments -/

inductive IsKey : Value → KeyCode → Prop where
  | named {name : String} {key : KeyCode} : KeyCode.ofName? name = some key → IsKey (.text name) key
  | coded {number : Float} {key : KeyCode} : wholeNumber? number = some (key.code.toNat : Int) →
      IsKey (.number number) key

inductive IsButton : Value → MouseButton → Prop where
  | named {name : String} {button : MouseButton} : MouseButton.ofName? name = some button →
      IsButton (.text name) button

/-- A coordinate is the nearest integer to a finite number, or the end of the range that it is beyond. -/
inductive IsCoordinate : Value → Int32 → Prop where
  | rounded {number : Float} {nearest : Int} {x : Int32} : nearestInteger? number = some nearest →
      x.toInt = max (-2147483648) (min 2147483647 nearest) → IsCoordinate (.number number) x

section

variable {value : Value} {function : Builtin}

theorem keyOf_eq_ok {key : KeyCode} : keyOf value = .ok key ↔ IsKey value key := by
  constructor
  · intro converts
    unfold keyOf at converts
    split at converts
    · split at converts
      · next named =>
        cases converts
        exact .named named
      · cases converts
    · split at converts
      · next coded =>
        cases converts
        exact .coded (uint16?_eq_some.mp coded)
      · cases converts
    · cases converts
  · rintro (named | coded)
    · simp only [keyOf, named]
    · simp only [keyOf, uint16?_eq_some.mpr coded]

theorem buttonOf_eq_ok {button : MouseButton} :
    buttonOf function value = .ok button ↔ IsButton value button := by
  constructor
  · intro converts
    unfold buttonOf at converts
    split at converts
    · split at converts
      · next named =>
        cases converts
        exact .named named
      · cases converts
    · cases converts
  · rintro ⟨named⟩
    simp only [buttonOf, named]

theorem coordinate_eq_ok {x : Int32} : coordinate function value = .ok x ↔ IsCoordinate value x := by
  have cut (n : Int) : (Int32.ofInt (max (-2147483648) (min 2147483647 n))).toInt =
      max (-2147483648) (min 2147483647 n) := by
    apply Int32.toInt_ofInt_of_le <;> omega
  constructor
  · intro converts
    unfold coordinate at converts
    split at converts
    · split at converts
      · next near =>
        cases converts
        exact .rounded near (cut _)
      · cases converts
    · cases converts
  · rintro ⟨near, ends⟩
    rename_i nearest
    simp only [coordinate, near]
    exact congrArg Except.ok (Int32.toInt_inj.mp ((cut nearest).trans ends.symm))

def Judges {α : Type} : Except EvaluationError α → Prop
  | .ok _ => True
  | .error error => ∃ problem, error = .type problem

theorem Judges.bind {α β : Type} {first : Except EvaluationError α}
    {second : α → Except EvaluationError β} (judges : Judges first)
    (later : ∀ value, Judges (second value)) : Judges (first >>= second) := by
  cases first with
  | error error => exact judges
  | ok value => exact later value

theorem judges_keyOf (value : Value) : Judges (keyOf value) := by
  unfold keyOf
  split
  · split
    · exact trivial
    · exact ⟨_, rfl⟩
  · split
    · exact trivial
    · exact ⟨_, rfl⟩
  · exact ⟨_, rfl⟩

theorem judges_buttonOf (function : Builtin) (value : Value) : Judges (buttonOf function value) := by
  unfold buttonOf
  split
  · split
    · exact trivial
    · exact ⟨_, rfl⟩
  · exact ⟨_, rfl⟩

theorem judges_coordinate (function : Builtin) (value : Value) :
    Judges (coordinate function value) := by
  unfold coordinate
  split
  · split
    · exact trivial
    · exact ⟨_, rfl⟩
  · exact ⟨_, rfl⟩

end

/-! ## What functions are there for -/

/-- What a function asks for with such arguments. Others it does not take. -/
inductive Documents : Builtin → List Value → List Request → Prop where
  | clipboard : Documents .clipboard [] [.readClipboard]
  | setClipboard {value : Value} : Documents .setClipboard [value] [.writeClipboard value.asText]
  | length {text : String} : Documents .length [.text text] []
  | keyDown {value : Value} {key : KeyCode} : IsKey value key →
      Documents .keyDown [value] [.gesture (.keyDown key)]
  | keyUp {value : Value} {key : KeyCode} : IsKey value key →
      Documents .keyUp [value] [.gesture (.keyUp key)]
  | mouseMove {first second : Value} {dx dy : Int32} : IsCoordinate first dx →
      IsCoordinate second dy → Documents .mouseMove [first, second] [.gesture (.mouseMove dx dy)]
  | mouseMoveTo {first second : Value} {x y : Int32} : IsCoordinate first x →
      IsCoordinate second y → Documents .mouseMoveTo [first, second] [.gesture (.mouseMoveTo x y)]
  | mouseDown {value : Value} {button : MouseButton} : IsButton value button →
      Documents .mouseDown [value] [.gesture (.mouseDown button)]
  | mouseUp {value : Value} {button : MouseButton} : IsButton value button →
      Documents .mouseUp [value] [.gesture (.mouseUp button)]
  | mouseWheel {value : Value} {amount : Int32} : IsCoordinate value amount →
      Documents .mouseWheel [value] [.gesture (.mouseWheel amount)]
  | releaseAll : Documents .releaseAll [] [.gesture .releaseKeys, .gesture .releaseButtons]

def Plan.requests : Plan → List Request
  | .answer _ => []
  | .readClipboard => [.readClipboard]
  | .writeClipboard text => [.writeClipboard text]
  | .perform gestures => gestures.map .gesture

section

variable {function : Builtin} {arguments : List Value} {requests : List Request}

theorem documents_iff : Documents function arguments requests ↔
    ∃ plan, function.plan arguments = .ok plan ∧ plan.requests = requests := by
  constructor
  · intro documents
    cases documents with
    | clipboard | setClipboard | length | releaseAll => exact ⟨_, rfl, rfl⟩
    | keyDown key | keyUp key => exact ⟨_, bind_eq_ok.mpr ⟨_, keyOf_eq_ok.mpr key, rfl⟩, rfl⟩
    | mouseMove first second | mouseMoveTo first second =>
      exact ⟨_, bind_eq_ok.mpr ⟨_, coordinate_eq_ok.mpr first,
        bind_eq_ok.mpr ⟨_, coordinate_eq_ok.mpr second, rfl⟩⟩, rfl⟩
    | mouseDown button | mouseUp button =>
      exact ⟨_, bind_eq_ok.mpr ⟨_, buttonOf_eq_ok.mpr button, rfl⟩, rfl⟩
    | mouseWheel amount => exact ⟨_, bind_eq_ok.mpr ⟨_, coordinate_eq_ok.mpr amount, rfl⟩, rfl⟩
  · rintro ⟨plan, planned, rfl⟩
    -- One alternative for each function with arguments that it takes, and two refusals.
    unfold Builtin.plan at planned
    split at planned
    · cases planned
      exact .clipboard
    · cases planned
      exact .setClipboard
    · cases planned
      exact .length
    · cases planned
    · obtain ⟨key, converts, ⟨⟩⟩ := bind_eq_ok.mp planned
      exact .keyDown (keyOf_eq_ok.mp converts)
    · obtain ⟨key, converts, ⟨⟩⟩ := bind_eq_ok.mp planned
      exact .keyUp (keyOf_eq_ok.mp converts)
    · obtain ⟨dx, first, more⟩ := bind_eq_ok.mp planned
      obtain ⟨dy, second, ⟨⟩⟩ := bind_eq_ok.mp more
      exact .mouseMove (coordinate_eq_ok.mp first) (coordinate_eq_ok.mp second)
    · obtain ⟨x, first, more⟩ := bind_eq_ok.mp planned
      obtain ⟨y, second, ⟨⟩⟩ := bind_eq_ok.mp more
      exact .mouseMoveTo (coordinate_eq_ok.mp first) (coordinate_eq_ok.mp second)
    · obtain ⟨button, converts, ⟨⟩⟩ := bind_eq_ok.mp planned
      exact .mouseDown (buttonOf_eq_ok.mp converts)
    · obtain ⟨button, converts, ⟨⟩⟩ := bind_eq_ok.mp planned
      exact .mouseUp (buttonOf_eq_ok.mp converts)
    · obtain ⟨amount, converts, ⟨⟩⟩ := bind_eq_ok.mp planned
      exact .mouseWheel (coordinate_eq_ok.mp converts)
    · cases planned
      exact .releaseAll
    · cases planned

theorem Documents.unique {other : List Request} (documents : Documents function arguments requests)
    (again : Documents function arguments other) : other = requests := by
  obtain ⟨plan, planned, rfl⟩ := documents_iff.mp documents
  obtain ⟨_, replanned, rfl⟩ := documents_iff.mp again
  cases planned.symm.trans replanned
  rfl

theorem plan_of_count_ne (differs : arguments.length ≠ function.arity) :
    function.plan arguments = .error (.arity function.name function.arity arguments.length) := by
  unfold Builtin.plan
  split
  -- All but the last alternative take as many arguments as the function does.
  all_goals first
    | exact absurd rfl differs
    | rfl

theorem judges_plan (fits : arguments.length = function.arity) : Judges (function.plan arguments) := by
  cases function with
  | clipboard =>
    cases List.length_eq_zero_iff.mp fits
    exact trivial
  | setClipboard =>
    obtain ⟨value, rfl⟩ := List.length_eq_one_iff.mp fits
    exact trivial
  | length =>
    obtain ⟨value, rfl⟩ := List.length_eq_one_iff.mp fits
    cases value with
    | text text => exact trivial
    | _ => exact ⟨_, rfl⟩
  | keyDown | keyUp =>
    obtain ⟨value, rfl⟩ := List.length_eq_one_iff.mp fits
    exact (judges_keyOf value).bind fun _ => trivial
  | mouseMove | mouseMoveTo =>
    obtain ⟨first, second, rfl⟩ := List.length_eq_two.mp fits
    exact (judges_coordinate _ first).bind fun _ => (judges_coordinate _ second).bind fun _ => trivial
  | mouseDown | mouseUp =>
    obtain ⟨value, rfl⟩ := List.length_eq_one_iff.mp fits
    exact (judges_buttonOf _ value).bind fun _ => trivial
  | mouseWheel =>
    obtain ⟨value, rfl⟩ := List.length_eq_one_iff.mp fits
    exact (judges_coordinate _ value).bind fun _ => trivial
  | releaseAll =>
    cases List.length_eq_zero_iff.mp fits
    exact trivial

/-- A plan fails over the number of arguments or, if that fits, over one that stands for nothing. -/
theorem plan_eq_error {error : EvaluationError} (planned : function.plan arguments = .error error) :
    arguments.length ≠ function.arity ∧
        error = .arity function.name function.arity arguments.length ∨
      arguments.length = function.arity ∧ (∃ problem, error = .type problem) ∧
        ∀ requests, ¬ Documents function arguments requests := by
  by_cases fits : arguments.length = function.arity
  · have judged := judges_plan fits
    rw [planned] at judged
    refine .inr ⟨fits, judged, fun requests documents => ?_⟩
    obtain ⟨plan, made, -⟩ := documents_iff.mp documents
    cases planned.symm.trans made
  · exact .inl ⟨fits, Except.error.inj (planned.symm.trans (plan_of_count_ne fits))⟩

end

/-! ## Carrying out -/

/-- All that was asked for, in order, and none of it failed. -/
structure Completes (requests : List Request)
    (exchanges : List (Exchange Request Request.Answer)) : Prop where
  asked : exchanges.map Exchange.request = requests
  accepted : ∀ exchange ∈ exchanges, refusal? exchange = none

/-- What was asked for, in order, up to the first that failed. -/
structure BreaksOff (requests : List Request)
    (exchanges : List (Exchange Request Request.Answer)) (failure : DeviceError) : Prop where
  asked : exchanges.map Exchange.request <+: requests
  refused : ∃ before last, exchanges = before ++ [last] ∧ refusal? last = some failure ∧
    ∀ exchange ∈ before, refusal? exchange = none

section

variable {requests : List Request} {request : Request} {answer : request.Answer}
  {exchanges : List (Exchange Request Request.Answer)} {failure : DeviceError}

theorem Completes.nil : Completes [] [] := ⟨rfl, nofun⟩

theorem Completes.cons (accepted : refusal? ⟨request, answer⟩ = none)
    (completes : Completes requests exchanges) :
    Completes (request :: requests) (⟨request, answer⟩ :: exchanges) where
  asked := congrArg (request :: ·) completes.asked
  accepted := List.forall_mem_cons.mpr ⟨accepted, completes.accepted⟩

theorem BreaksOff.first (refused : refusal? ⟨request, answer⟩ = some failure) :
    BreaksOff (request :: requests) [⟨request, answer⟩] failure where
  asked := ⟨requests, rfl⟩
  refused := ⟨[], _, rfl, refused, nofun⟩

theorem BreaksOff.cons (accepted : refusal? ⟨request, answer⟩ = none)
    (breaks : BreaksOff requests exchanges failure) :
    BreaksOff (request :: requests) (⟨request, answer⟩ :: exchanges) failure where
  asked := List.cons_prefix_cons.mpr ⟨rfl, breaks.asked⟩
  refused := by
    obtain ⟨before, last, rfl, refused, all⟩ := breaks.refused
    exact ⟨_ :: before, last, rfl, refused, List.forall_mem_cons.mpr ⟨accepted, all⟩⟩

theorem traces_performAll {gestures : List Gesture} {result : Except EvaluationError Unit}
    (traces : (performAll gestures).run.Traces exchanges result) :
    (result = .ok () ∧ Completes (gestures.map .gesture) exchanges) ∨
      ∃ failure, result = .error (.device failure) ∧
        BreaksOff (gestures.map .gesture) exchanges failure := by
  induction gestures generalizing exchanges with
  | nil =>
    obtain ⟨rfl, rfl⟩ := Interaction.traces_done.mp traces
    exact .inl ⟨rfl, .nil⟩
  | cons gesture more ih =>
    obtain ⟨answer, later, rfl, rest⟩ := Interaction.traces_ask.mp traces
    -- The answer decides whether the others are made at all.
    rcases answer with error | ⟨⟩
    · obtain ⟨rfl, rfl⟩ := Interaction.traces_done.mp rest
      exact .inr ⟨error, rfl, .first rfl⟩
    · rcases ih rest with ⟨done, completes⟩ | ⟨failure, fails, breaks⟩
      · exact .inl ⟨done, .cons rfl completes⟩
      · exact .inr ⟨failure, fails, .cons rfl breaks⟩

theorem traces_carryOut {plan : Plan} {result : Except EvaluationError Value}
    (traces : plan.carryOut.run.Traces exchanges result) :
    (∃ value, result = .ok value ∧ Completes plan.requests exchanges) ∨
      ∃ failure, result = .error (.device failure) ∧ BreaksOff plan.requests exchanges failure := by
  cases plan with
  | answer value =>
    obtain ⟨rfl, rfl⟩ := Interaction.traces_done.mp traces
    exact .inl ⟨value, rfl, .nil⟩
  | readClipboard =>
    obtain ⟨text, _, rfl, rest⟩ := Interaction.traces_ask.mp traces
    obtain ⟨rfl, rfl⟩ := Interaction.traces_done.mp rest
    exact .inl ⟨.text text, rfl, .cons rfl .nil⟩
  | writeClipboard text =>
    obtain ⟨_, _, rfl, rest⟩ := Interaction.traces_ask.mp traces
    obtain ⟨rfl, rfl⟩ := Interaction.traces_done.mp rest
    exact .inl ⟨.nil, rfl, .cons rfl .nil⟩
  | perform gestures =>
    obtain ⟨asked, made, back, rfl, performs, rest⟩ := Interaction.traces_bind.mp traces
    rcases traces_performAll performs with ⟨rfl, completes⟩ | ⟨failure, rfl, breaks⟩
    · obtain ⟨rfl, rfl⟩ := Interaction.traces_done.mp rest
      rw [List.append_nil]
      exact .inl ⟨.nil, rfl, completes⟩
    · obtain ⟨rfl, rfl⟩ := Interaction.traces_done.mp rest
      rw [List.append_nil]
      exact .inr ⟨failure, rfl, breaks⟩

end

/-! ## Calling -/

section

variable {name : String} {arguments : List Value}

theorem ofName?_eq_some {function : Builtin} (named : Builtin.ofName? name = some function) :
    function.name = name := by
  unfold Builtin.ofName? at named
  have found := List.find?_some named
  exact eq_of_beq found

theorem ofName?_eq_none (unnamed : Builtin.ofName? name = none) (function : Builtin) :
    function.name ≠ name := by
  have listed : function ∈ Builtin.all := by cases function <;> decide
  exact fun same => List.find?_eq_none.mp unnamed function listed (beq_iff_eq.mpr same)

theorem run_call_of_name {function : Builtin} (named : Builtin.ofName? name = some function) :
    (call name arguments).run = match function.plan arguments with
      | .error error => .done (.error error)
      | .ok plan => plan.carryOut.run := by
  unfold call
  simp only [named]
  cases function.plan arguments <;> rfl

theorem run_call_of_no_name (unnamed : Builtin.ofName? name = none) :
    (call name arguments).run = .done (.error (.unknownFunction name)) := by
  unfold call
  simp only [unnamed]
  rfl

end

/-- No function asks for different things with the same arguments. A call that is refused has asked for
nothing. One that fails at a gesture has asked for what its function is there for up to that gesture, and
one that succeeds for all of it. -/
theorem call_checksFirst {σ : Type} (reply : (request : Request) → σ → request.Answer × σ)
    (surroundings : σ) (name : String) (arguments : List Value) :
    let ending := (call name arguments).run.run reply surroundings
    let exchanges := (call name arguments).run.transcript reply surroundings
    (∀ function requests other, Documents function arguments requests →
      Documents function arguments other → other = requests) ∧
    match ending.1 with
    | .error (.unknownFunction unknown) => unknown = name ∧
      (∀ function : Builtin, function.name ≠ name) ∧ exchanges = [] ∧ ending.2 = surroundings
    | .error (.arity called expected found) => called = name ∧ found = arguments.length ∧
      (∃ function : Builtin, function.name = name ∧ function.arity = expected ∧ found ≠ expected) ∧
      exchanges = [] ∧ ending.2 = surroundings
    | .error (.type _) => (∃ function : Builtin, function.name = name ∧
        arguments.length = function.arity ∧ ∀ requests, ¬ Documents function arguments requests) ∧
      exchanges = [] ∧ ending.2 = surroundings
    | .error (.device failure) => ∃ function requests, function.name = name ∧
      Documents function arguments requests ∧ BreaksOff requests exchanges failure
    | .error _ => False
    | .ok _ => ∃ function requests, function.name = name ∧
      Documents function arguments requests ∧ Completes requests exchanges := by
  intro ending exchanges
  refine ⟨fun _ _ _ => Documents.unique, ?_⟩
  cases named : Builtin.ofName? name with
  | none =>
    simp only [ending, exchanges, run_call_of_no_name named]
    exact ⟨rfl, ofName?_eq_none named, rfl, rfl⟩
  | some function =>
    have is := ofName?_eq_some named
    simp only [ending, exchanges, run_call_of_name named]
    -- All checks are made in the plan, before anything is asked.
    cases planned : function.plan arguments with
    | error error =>
      rcases plan_eq_error planned with ⟨differs, rfl⟩ | ⟨fits, ⟨problem, rfl⟩, undocumented⟩
      · exact ⟨is, rfl, ⟨function, is, rfl, differs⟩, rfl, rfl⟩
      · exact ⟨⟨function, is, fits, undocumented⟩, rfl, rfl⟩
    | ok plan =>
      have documents := documents_iff.mpr ⟨plan, planned, rfl⟩
      simp only
      have traces := Interaction.traces_run plan.carryOut.run reply surroundings
      rcases traces_carryOut traces with ⟨value, ends, completes⟩ | ⟨failure, ends, breaks⟩
      · rw [ends]
        exact ⟨function, plan.requests, is, documents, completes⟩
      · rw [ends]
        exact ⟨function, plan.requests, is, documents, breaks⟩

def stuck : (request : Request) → Nat → request.Answer × Nat
  | .gesture .releaseButtons, count => (.error (.failure "stuck"), count + 1)
  | .gesture _, count => (.ok (), count + 1)
  | .readClipboard, count => ("", count + 1)
  | .writeClipboard _, count => ((), count + 1)

/-- Where buttons are stuck the keys have been let go of, unless there is an argument too many. -/
theorem call_checksFirst_stuck :
    BreaksOff [.gesture .releaseKeys, .gesture .releaseButtons]
        ((call "release_all" []).run.transcript stuck 0) (.failure "stuck") ∧
      (call "release_all" [.nil]).run.transcript stuck 0 = [] := by
  obtain ⟨-, fails⟩ := call_checksFirst stuck 0 "release_all" []
  obtain ⟨-, refused⟩ := call_checksFirst stuck 0 "release_all" [.nil]
  have broken : ((call "release_all" []).run.run stuck 0).1 = .error (.device (.failure "stuck")) :=
    rfl
  have surplus : ((call "release_all" [.nil]).run.run stuck 0).1 =
      .error (.arity "release_all" 0 1) := rfl
  rw [broken] at fails
  rw [surplus] at refused
  obtain ⟨function, requests, is, documents, breaks⟩ := fails
  refine ⟨?_, refused.2.2.2.1⟩
  cases documents with
  | clipboard => exact absurd is (by decide)
  | releaseAll => exact breaks

end InputTape.Expression
