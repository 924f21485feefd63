import InputTape.Proofs.Expression.Statements
import InputTape.Proofs.Script.Complaints

/-! Which numbers are refused when a line is evaluated.

A reader refuses a number only where it has come to one among the tokens that has no value, and no
operator or function speaks of numbers as they are written. The lexer cuts no such number off a line, so
none is ever refused.
-/

set_option autoImplicit false

namespace InputTape.Expression

open Script (Token TokenKind Operator Unreadable)

/-- If a number is refused, it is one of these tokens, and has no value. -/
def Warranted (tokens : List Token) : EvaluationError → Prop
  | .badSyntax _ (.invalidNumber spelled) => Unreadable tokens spelled
  | _ => True

variable {α β : Type} {tokens : List Token} {scope : Scope}

def Settles (tokens : List Token) (result : Except EvaluationError α) : Prop :=
  ∀ error, result = .error error → Warranted tokens error

namespace Settles

theorem ok {value : α} : Settles tokens (.ok value) := nofun

theorem error {error : EvaluationError} (warranted : Warranted tokens error) :
    Settles tokens (.error error : Except EvaluationError α) := by
  rintro _ ⟨⟩
  exact warranted

theorem bind {first : Except EvaluationError α} {second : α → Except EvaluationError β}
    (settles : Settles tokens first) (next : ∀ value, Settles tokens (second value)) :
    Settles tokens (first >>= second) := by
  cases first with
  | error problem => exact .error (settles problem rfl)
  | ok value => exact next value

end Settles

def Ends (tokens : List Token) (wished : α → Prop) (evaluation : Evaluation α) : Prop :=
  evaluation.run.Always (fun _ => True) fun
    | .ok value => wished value
    | .error error => Warranted tokens error

namespace Ends

variable {wished : α → Prop} {after : β → Prop}

theorem pure {value : α} (holds : wished value) :
    Ends tokens wished (Pure.pure value : Evaluation α) := holds

theorem throw {error : EvaluationError} (warranted : Warranted tokens error) :
    Ends tokens wished (throw error : Evaluation α) := warranted

theorem bind {first : Evaluation α} {second : α → Evaluation β} (ends : Ends tokens wished first)
    (next : ∀ value, wished value → Ends tokens after (second value)) :
    Ends tokens after (first >>= second) := by
  refine Interaction.Always.bind ends fun ending holds => ?_
  cases ending with
  | ok value => exact next value holds
  | error error => exact holds

theorem settled {result : Except EvaluationError α} (settles : Settles tokens result) :
    Ends tokens (fun _ => True) (ExceptT.mk (Pure.pure result)) := by
  cases result with
  | ok value => exact trivial
  | error error => exact settles error rfl

theorem ask (request : Request) : Ends tokens (fun _ => True) (Expression.ask request) :=
  ⟨trivial, fun _ => trivial⟩

end Ends

/-! ## Functions -/

section

variable (value : Value)

theorem settles_coordinate (function : Builtin) : Settles tokens (coordinate function value) := by
  unfold coordinate
  repeat' first | exact .ok | exact .error trivial | split

theorem settles_keyOf : Settles tokens (keyOf value) := by
  unfold keyOf
  repeat' first | exact .ok | exact .error trivial | split

theorem settles_buttonOf (function : Builtin) : Settles tokens (buttonOf function value) := by
  unfold buttonOf
  repeat' first | exact .ok | exact .error trivial | split

end

theorem settles_plan (function : Builtin) (arguments : List Value) :
    Settles tokens (function.plan arguments) := by
  unfold Builtin.plan
  repeat' first
    | exact .ok
    | exact .error trivial
    | exact settles_coordinate _ _
    | exact settles_keyOf _
    | exact settles_buttonOf _ _
    | refine .bind ?_ fun _ => ?_
    | split

theorem ends_performAll (gestures : List Gesture) :
    Ends tokens (fun _ => True) (performAll gestures) := by
  induction gestures with
  | nil => exact .pure trivial
  | cons gesture more ih =>
    refine (Ends.ask (.gesture gesture)).bind fun answer _ => ?_
    cases answer with
    | ok done => exact ih
    | error error => exact .throw trivial

theorem ends_carryOut (plan : Plan) : Ends tokens (fun _ => True) plan.carryOut := by
  cases plan with
  | answer value => exact .pure trivial
  | readClipboard => exact (Ends.ask _).bind fun text _ => .pure trivial
  | writeClipboard text => exact (Ends.ask _).bind fun done _ => .pure trivial
  | perform gestures => exact (ends_performAll gestures).bind fun _ _ => .pure trivial

theorem ends_call (name : String) (arguments : List Value) :
    Ends tokens (fun _ => True) (call name arguments) := by
  unfold call
  split
  · exact .throw trivial
  · next function _ =>
    exact (Ends.settled (settles_plan function arguments)).bind fun plan _ => ends_carryOut plan

/-! ## Readers -/

def Refuses (tokens : List Token) (reader : Reader α) : Prop :=
  ∀ left, left ⊆ tokens → Ends tokens (fun result => result.2 ⊆ tokens) (reader left)

def Combines (tokens : List Token) (level : Operator → Option Combination) : Prop :=
  ∀ operator combine, level operator = some combine →
    ∀ left right, Settles tokens (combine left right)

theorem combines_comparison? : Combines tokens comparison? := by
  intro operator combine joins left right
  cases operator <;> cases joins <;> exact .ok

theorem combines_summation? : Combines tokens summation? := by
  intro operator combine joins left right
  cases operator <;> cases joins <;> dsimp only <;>
    repeat' first | exact .ok | exact .error trivial | split

theorem combines_multiplication? : Combines tokens multiplication? := by
  intro operator combine joins left right
  cases operator <;> cases joins <;> dsimp only <;>
    repeat' first | exact .ok | exact .error trivial | split

theorem settles_negate (value : Value) : Settles tokens (negate value) := by
  unfold negate
  split
  · exact .ok
  · exact .error trivial

theorem ends_failAt {left : List Token} {problem : SyntaxProblem} {wished : α → Prop}
    (warranted : ∀ column, Warranted tokens (.badSyntax column problem)) :
    Ends tokens wished (failAt scope left problem) := .throw (warranted _)

section

variable {operand : Reader Value} (refuses : Refuses tokens operand)

include refuses

theorem refuses_applyOperators {level : Operator → Option Combination}
    (combines : Combines tokens level) (limit : Nat) (value : Value) :
    Refuses tokens (applyOperators level operand limit value) := by
  induction limit generalizing value with
  | zero => exact fun left inside => .pure inside
  | succ limit ih =>
    intro left inside
    unfold applyOperators
    split
    · next operator _ _ _ rest =>
      split
      · next combine joins =>
        refine (refuses rest (List.subset_of_cons_subset inside)).bind fun result left => ?_
        exact (Ends.settled (combines operator combine joins value result.1)).bind fun next _ =>
          ih next result.2 left
      · exact .pure inside
    · exact .pure inside

theorem refuses_leftToRight {level : Operator → Option Combination}
    (combines : Combines tokens level) : Refuses tokens (leftToRight level operand) :=
  fun left inside => (refuses left inside).bind fun result rest =>
    refuses_applyOperators refuses combines result.2.length result.1 result.2 rest

theorem refuses_negation (limit : Nat) : Refuses tokens (negation operand limit) := by
  induction limit with
  | zero => exact refuses
  | succ limit ih =>
    intro left inside
    unfold negation
    split
    · next rest =>
      refine (ih rest (List.subset_of_cons_subset inside)).bind fun result left => ?_
      exact (Ends.settled (settles_negate result.1)).bind fun value _ => .pure left
    · exact refuses left inside

theorem refuses_argumentsFrom (limit : Nat) :
    Refuses tokens (argumentsFrom scope operand limit) := by
  induction limit with
  | zero => exact fun left inside => (refuses left inside).bind fun result rest => .pure rest
  | succ limit ih =>
    intro left inside
    refine (refuses left inside).bind fun ⟨value, rest⟩ within => ?_
    dsimp only at within ⊢
    split
    · next behind =>
      exact (ih behind (List.subset_of_cons_subset within)).bind fun result last => .pure last
    · exact .pure (List.subset_of_cons_subset within)
    · exact ends_failAt fun _ => trivial

theorem refuses_callOf (name : String) : Refuses tokens (callOf scope operand name) := by
  intro left inside
  unfold callOf
  split
  · exact (ends_call _ _).bind fun value _ => .pure (List.subset_of_cons_subset inside)
  · refine (refuses_argumentsFrom refuses left.length left inside).bind fun result rest => ?_
    exact (ends_call _ _).bind fun value _ => .pure rest

/-- The one place where a number is refused: it stands there, and has no value. -/
theorem refuses_primary : Refuses tokens (primary scope operand) := by
  rintro (_ | ⟨token, rest⟩) inside
  · exact ends_failAt fun _ => trivial
  · have behind : rest ⊆ tokens := List.subset_of_cons_subset inside
    simp only [primary]
    split
    · next kind =>
      split
      · exact .pure behind
      · next unread => exact .throw ⟨token, inside List.mem_cons_self, kind, rfl, unread⟩
    · exact .pure behind
    · split
      · exact .pure behind
      · exact .throw trivial
    · refine (refuses rest behind).bind fun ⟨value, last⟩ within => ?_
      dsimp only at within ⊢
      split
      · exact .pure (List.subset_of_cons_subset within)
      · exact ends_failAt fun _ => trivial
    · split
      · next last => exact refuses_callOf refuses token.text last (List.subset_of_cons_subset behind)
      · split
        · exact .pure behind
        · exact .throw trivial
    · split
      · next last => exact refuses_callOf refuses token.text last (List.subset_of_cons_subset behind)
      · exact .throw trivial
    · exact .throw trivial

end

theorem refuses_expression (limit : Nat) : Refuses tokens (expression scope limit) := by
  induction limit with
  | zero => exact fun left inside => ends_failAt fun _ => trivial
  | succ limit ih =>
    have unary : Refuses tokens fun left =>
        negation (primary scope (expression scope limit)) left.length left :=
      fun left => refuses_negation (refuses_primary ih) left.length left
    have product := refuses_leftToRight unary combines_multiplication?
    exact refuses_leftToRight (refuses_leftToRight product combines_summation?) combines_comparison?

/-! ## Lines -/

theorem settles_finish (value : Value) (rest : List Token) : Settles tokens (finish value rest) := by
  cases rest with
  | nil => exact .ok
  | cons token rest => exact .error trivial

theorem evaluate_warranted {store : Store} {line : String}
    (significant : significantTokens? line = some tokens) :
    (evaluate store line).Always (fun _ => True) fun ending => Settles tokens ending.1 := by
  by_cases assignment : StartsAssignment tokens
  · obtain ⟨name, sign, body, rfl, kind, assigns⟩ := assignment
    rw [evaluate_assignment significant kind assigns]
    have inside : body ⊆ name :: sign :: body :=
      List.subset_cons_of_subset name (List.subset_cons_self sign body)
    refine Interaction.Always.bind (refuses_expression body.length body inside) fun ending holds => ?_
    cases ending with
    | error error => exact .error holds
    | ok result => exact settles_finish result.1 result.2
  · by_cases empty : tokens = []
    · subst empty
      unfold evaluate
      rw [significant]
      exact .error trivial
    · rw [evaluate_expression significant empty assignment]
      refine Interaction.Always.bind
        (refuses_expression tokens.length tokens (List.Subset.refl _)) fun ending holds => ?_
      cases ending with
      | error error => exact .error holds
      | ok result => exact settles_finish result.1 result.2

theorem evaluate_refusesNone (store : Store) (line : String) :
    (evaluate store line).Always (fun _ => True) fun ending => ∀ column spelled,
      ending.1 ≠ .error (.badSyntax column (.invalidNumber spelled)) := by
  cases significant : significantTokens? line with
  | none =>
    unfold evaluate
    rw [significant]
    exact nofun
  | some tokens =>
    refine (evaluate_warranted significant).mono (fun _ => id) fun ending settles column spelled same =>
      ?_
    obtain ⟨token, member, kind, rfl, unread⟩ := settles _ same
    obtain ⟨value, read⟩ := readFloat?_of_significant significant member kind
    rw [unread] at read
    cases read

end InputTape.Expression
