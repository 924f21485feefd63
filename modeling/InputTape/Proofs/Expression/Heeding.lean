import InputTape.Expression.Evaluation
import InputTape.Proofs.Interaction.Heeding

/-! Evaluation stops at the first gesture that fails.

Wherever in a line a call stands, and whichever of its gestures fails, nothing more is asked, and the
device's error is the error of the line.
-/

set_option autoImplicit false

namespace InputTape.Expression

open Interaction (Exchange Heeds Traces)
open Script (Token Operator)

def refusal? : Exchange Request Request.Answer → Option DeviceError
  | ⟨.gesture _, .error error⟩ => some error
  | _ => none

def Refused (failure : DeviceError) (error : EvaluationError) : Prop := error = .device failure

section

variable {α : Type}

def Careful (reader : Reader α) : Prop := ∀ tokens, (reader tokens).run.Heeds refusal? Refused

theorem careful_performAll (gestures : List Gesture) :
    (performAll gestures).run.Heeds refusal? Refused := by
  induction gestures with
  | nil => exact trivial
  | cons gesture more ih =>
    intro answer
    cases answer with
    | error error => exact ⟨.device error, rfl, rfl⟩
    | ok done => exact ih

theorem careful_carryOut (plan : Plan) : plan.carryOut.run.Heeds refusal? Refused := by
  cases plan with
  | answer value => exact trivial
  | readClipboard => exact fun _ => trivial
  | writeClipboard text => exact fun _ => trivial
  | perform gestures => exact (careful_performAll gestures).andThen fun _ => trivial

theorem careful_settled (result : Except EvaluationError α) :
    (ExceptT.mk (pure result) : Evaluation α).run.Heeds refusal? Refused := trivial

theorem careful_call (name : String) (arguments : List Value) :
    (call name arguments).run.Heeds refusal? Refused := by
  unfold call
  cases Builtin.ofName? name with
  | none => exact trivial
  | some function => exact (careful_settled _).andThen fun plan => careful_carryOut plan

theorem careful_applyOperators {level : Operator → Option Combination} {operand : Reader Value}
    (careful : Careful operand) (limit : Nat) (left : Value) :
    Careful (applyOperators level operand limit left) := by
  induction limit generalizing left with
  | zero => exact fun _ => trivial
  | succ limit ih =>
    intro tokens
    unfold applyOperators
    split
    · split
      · refine (careful _).andThen fun read => ?_
        exact (careful_settled _).andThen fun value => ih value _
      · exact trivial
    · exact trivial

theorem careful_leftToRight {level : Operator → Option Combination} {operand : Reader Value}
    (careful : Careful operand) : Careful (leftToRight level operand) := fun tokens =>
  (careful tokens).andThen fun _ => careful_applyOperators careful _ _ _

theorem careful_negation {primary : Reader Value} (careful : Careful primary) (limit : Nat) :
    Careful (negation primary limit) := by
  induction limit with
  | zero => exact careful
  | succ limit ih =>
    intro tokens
    unfold negation
    split
    · refine (ih _).andThen fun read => ?_
      exact (careful_settled _).andThen fun value => trivial
    · exact careful tokens

theorem careful_argumentsFrom (scope : Scope) {expression : Reader Value}
    (careful : Careful expression) (limit : Nat) :
    Careful (argumentsFrom scope expression limit) := by
  induction limit with
  | zero => exact fun tokens => (careful tokens).andThen fun _ => trivial
  | succ limit ih =>
    intro tokens
    unfold argumentsFrom
    refine (careful tokens).andThen fun read => ?_
    obtain ⟨value, rest⟩ := read
    simp only
    split
    · exact (ih _).andThen fun _ => trivial
    · exact trivial
    · exact trivial

theorem careful_callOf (scope : Scope) {expression : Reader Value} (careful : Careful expression)
    (name : String) : Careful (callOf scope expression name) := by
  intro tokens
  unfold callOf
  split
  · exact (careful_call _ _).andThen fun _ => trivial
  · refine (careful_argumentsFrom scope careful _ _).andThen fun read => ?_
    exact (careful_call _ _).andThen fun _ => trivial

theorem careful_primary (scope : Scope) {expression : Reader Value}
    (careful : Careful expression) : Careful (primary scope expression) := by
  intro tokens
  unfold primary
  cases tokens with
  | nil => exact trivial
  | cons token rest =>
    simp only
    -- Only a call asks for anything, and what is in parentheses.
    cases token.kind with
    | number =>
      simp only
      split <;> exact trivial
    | «variable» =>
      simp only
      split <;> exact trivial
    | openParen =>
      refine (careful rest).andThen fun read => ?_
      obtain ⟨value, rest⟩ := read
      simp only
      split <;> exact trivial
    | word =>
      simp only
      split
      · exact careful_callOf scope careful _ _
      · split <;> exact trivial
    | keyword keyword =>
      simp only
      split
      · exact careful_callOf scope careful _ _
      · exact trivial
    | _ => exact trivial

theorem careful_expression (scope : Scope) (limit : Nat) : Careful (expression scope limit) := by
  induction limit with
  | zero => exact fun _ => trivial
  | succ limit ih =>
    refine careful_leftToRight (careful_leftToRight (careful_leftToRight fun tokens => ?_))
    exact careful_negation (careful_primary scope ih) _ tokens

def comesTo (store : Store) (assigned : Value → Store) :
    Except EvaluationError (Value × List Token) → Except EvaluationError Value × Store
  | .error error => (.error error, store)
  | .ok (value, []) => (.ok value, assigned value)
  | .ok (value, token :: _) =>
    (.error (.badSyntax token.column (.unexpected token.text)), assigned value)

/-- A line is evaluated without a request, or as one expression with nothing asked behind it. -/
theorem evaluate_eq (store : Store) (line : String) :
    (∃ result, evaluate store line = .done result) ∨ ∃ limit tokens assigned,
      evaluate store line = (expression ⟨store, line.length + 1⟩ limit tokens).run.bind
        (.done ∘ comesTo store assigned) := by
  unfold evaluate
  split
  · exact .inl ⟨_, rfl⟩
  · simp only
    split
    · exact .inl ⟨_, rfl⟩
    · next name _ _ _ _ _ body _ =>
      refine .inr ⟨body.length, body, store.set name, congrArg (Interaction.bind _) ?_⟩
      funext read
      rcases read with error | ⟨value, _ | ⟨token, more⟩⟩ <;> rfl
    · next tokens _ _ _ _ =>
      refine .inr ⟨tokens.length, tokens, fun _ => store, congrArg (Interaction.bind _) ?_⟩
      funext read
      rcases read with error | ⟨value, _ | ⟨token, more⟩⟩ <;> rfl

theorem evaluate_stops {store : Store} {line : String}
    {exchanges before after : List (Exchange Request Request.Answer)}
    {exchange : Exchange Request Request.Answer} {failure : DeviceError}
    {result : Except EvaluationError Value × Store}
    (traces : (evaluate store line).Traces exchanges result)
    (split : exchanges = before ++ exchange :: after) (tells : refusal? exchange = some failure) :
    after = [] ∧ result = (.error (.device failure), store) := by
  rcases evaluate_eq store line with ⟨_, same⟩ | ⟨limit, tokens, assigned, same⟩
  · rw [same] at traces
    obtain ⟨rfl, -⟩ := Interaction.traces_done.mp traces
    cases before <;> cases split
  · rw [same] at traces
    obtain ⟨front, read, back, rfl, reads, rest⟩ := Interaction.traces_bind.mp traces
    obtain ⟨rfl, rfl⟩ := Interaction.traces_done.mp rest
    rw [List.append_nil] at split
    obtain ⟨rfl, _, rfl, rfl⟩ := reads.stops (careful_expression _ _ _) split tells
    exact ⟨rfl, rfl⟩

end

end InputTape.Expression
