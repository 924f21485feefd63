import InputTape.Proofs.Expression.Numbers
import InputTape.Proofs.Expression.Recognition

/-! Evaluating a line is evaluating the statement on it.

A line holds a statement if its tokens are one. Then evaluating while reading and evaluating the
finished tree are the same interaction: whatever the surroundings answer, they are asked the same
in the same order, and the value or error and the variables at the end are the same. On a line that
holds no statement nothing ends with a value.
-/

set_option autoImplicit false

namespace InputTape.Expression

open Script (Token TokenKind Operator)

def finish (value : Value) : List Token → Except EvaluationError Value
  | [] => .ok value
  | token :: _ => .error (.badSyntax token.column (.unexpected token.text))

def StartsAssignment (tokens : List Token) : Prop :=
  ∃ name sign body, tokens = name :: sign :: body ∧ name.kind = .variable ∧
    sign.kind = .operator .assign

section

variable {store : Store} {line : String} {tokens : List Token}

theorem evaluate_assignment {name sign : Token} {body : List Token}
    (significant : significantTokens? line = some (name :: sign :: body))
    (kind : name.kind = .variable) (assigns : sign.kind = .operator .assign) :
    evaluate store line = (do
      match ← (expression ⟨store, line.length + 1⟩ body.length body).run with
      | .error error => return (.error error, store)
      | .ok (value, rest) => return (finish value rest, store.set name.text value)) := by
  obtain ⟨_, text, place, column⟩ := name
  subst kind
  obtain ⟨_, text', place', column'⟩ := sign
  subst assigns
  unfold evaluate
  rw [significant]
  rfl

theorem evaluate_expression (significant : significantTokens? line = some tokens)
    (nonempty : tokens ≠ []) (other : ¬ StartsAssignment tokens) :
    evaluate store line = (do
      match ← (expression ⟨store, line.length + 1⟩ tokens.length tokens).run with
      | .error error => return (.error error, store)
      | .ok (value, rest) => return (finish value rest, store)) := by
  unfold evaluate
  rw [significant]
  simp only
  split
  · exact absurd rfl nonempty
  · exact absurd ⟨_, _, _, rfl, rfl, rfl⟩ other
  · rfl

theorem run_expression {scope : Scope} {tree : Tree} (derives : Derives .comparison tokens tree) :
    (expression scope tokens.length tokens).run = (do
      match ← (tree.evaluate scope.store).run with
      | .error error => return .error error
      | .ok value => return .ok (value, [])) := by
  have whole : expression scope tokens.length (tokens ++ []) = (do
      let value ← tree.evaluate scope.store
      return (value, [])) :=
    expression_of_reads (derives.reads scope) derives.length_pos (Nat.le_refl _) trivial
  rw [List.append_nil] at whole
  rw [whole, ExceptT.run_bind]
  refine bind_congr fun ending => ?_
  cases ending <;> rfl

theorem Derives.not_startsAssignment {tree : Tree} (derives : Derives .comparison tokens tree) :
    ¬ StartsAssignment tokens := by
  rintro ⟨name, sign, body, rfl, _, assigns⟩
  exact derives.not_assign sign (.tail _ (.head _)) assigns

theorem evaluate_of_derives {statement : Statement}
    (significant : significantTokens? line = some tokens)
    (derives : Statement.Derives tokens statement) :
    evaluate store line = statement.evaluate store := by
  cases derives with
  | expression derives =>
    -- An expression contains no assignment, so its line is not taken for one.
    have nonempty : tokens ≠ [] := List.ne_nil_of_length_pos derives.length_pos
    rw [evaluate_expression significant nonempty derives.not_startsAssignment,
      run_expression derives, Statement.evaluate, bind_assoc]
    refine bind_congr fun ending => ?_
    cases ending <;> rfl
  | assignment kind assigns derives =>
    rw [evaluate_assignment significant kind assigns, run_expression derives, Statement.evaluate,
      bind_assoc]
    refine bind_congr fun ending => ?_
    cases ending <;> rfl

end

end InputTape.Expression
