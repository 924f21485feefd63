import InputTape.Proofs.Expression.Statements
import InputTape.Rehearsal

/-! What a line does to the variables.

A line changes at most the variable that it assigns to, and a line that has a value leaves that value
there. A line that fails changes nothing, unless it goes on behind a whole assignment: the assignment
takes place before the token behind it is refused.
-/

set_option autoImplicit false

namespace InputTape

namespace Store

variable (store : Store) (name : String) (value : Value)

@[simp] theorem get?_set : (store.set name value).get? name = some value := by
  simp [set, get?]

theorem get?_set_of_ne {other : String} (apart : other ≠ name) :
    (store.set name value).get? other = store.get? other := by
  obtain ⟨entries⟩ := store
  have unlike : (other == name) = false := beq_eq_false_iff_ne.mpr apart
  simp only [set, get?, List.lookup_cons, unlike]
  induction entries with
  | nil => rfl
  | cons entry more ih =>
    obtain ⟨key, held⟩ := entry
    by_cases same : key = name
    · subst same
      simp [List.lookup_cons, unlike, ih]
    · simp [List.lookup_cons, same, ih]

/-- Only the variable of this name may differ, and it has this value. -/
structure Assigns (before : Store) (name : String) (value : Value) (after : Store) : Prop where
  held : after.get? name = some value
  others : ∀ other, other ≠ name → after.get? other = before.get? other

theorem assigns_set : store.Assigns name value (store.set name value) :=
  ⟨store.get?_set name value, fun _ apart => store.get?_set_of_ne name value apart⟩

end Store

namespace Expression

open Script (Token TokenKind Operator)

def assignment? (line : String) : Option (String × List Token) :=
  match significantTokens? line with
  | some (⟨.variable, name, _, _⟩ :: ⟨.operator .assign, _, _, _⟩ :: body) => some (name, body)
  | _ => none

/-- A line goes on behind an assignment that is whole, and its error is the token there. -/
def Overruns (line name : String) (error : EvaluationError) : Prop :=
  ∃ front tree token rest, assignment? line = some (name, front ++ token :: rest) ∧
    Derives .comparison front tree ∧ error = .badSyntax token.column (.unexpected token.text)

section

variable {store : Store} {line : String} {name : String} {body : List Token}

theorem assignment?_eq_some : assignment? line = some (name, body) ↔ ∃ left sign,
    significantTokens? line = some (left :: sign :: body) ∧ left.kind = .variable ∧
      sign.kind = .operator .assign ∧ left.text = name := by
  unfold assignment?
  constructor
  · intro assigns
    split at assigns
    · next significant =>
      cases assigns
      exact ⟨_, _, significant, rfl, rfl, rfl⟩
    · cases assigns
  · rintro ⟨⟨_, text, _, _⟩, ⟨_, _, _, _⟩, significant, kind, assigns, named⟩
    cases kind
    cases assigns
    cases named
    rw [significant]

theorem assignment?_eq_none {tokens : List Token}
    (significant : significantTokens? line = some tokens) (other : ¬ StartsAssignment tokens) :
    assignment? line = none := by
  rw [Option.eq_none_iff_forall_ne_some]
  rintro ⟨name, body⟩ assigns
  obtain ⟨left, sign, again, kind, equals, -⟩ := assignment?_eq_some.mp assigns
  cases significant.symm.trans again
  exact other ⟨left, sign, body, rfl, kind, equals⟩

structure Leaves (store : Store) (line : String) (ending : Except EvaluationError Value × Store) :
    Prop where
  failed : ∀ error, ending.1 = .error error → ending.2 = store ∨
    ∃ name value, Overruns line name error ∧ store.Assigns name value ending.2
  valued : ∀ value, ending.1 = .ok value → match assignment? line with
    | some (name, _) => store.Assigns name value ending.2
    | none => ending.2 = store

theorem leaves_error {error : EvaluationError} : Leaves store line (.error error, store) where
  failed _ _ := .inl rfl
  valued := nofun

/-- Behind an assignment stands nothing, or a token that is refused when it has taken place. -/
theorem leaves_assignment {value : Value} {rest : List Token}
    (assigns : assignment? line = some (name, body)) (took : Took (IsPhrase .comparison) body
      (value, rest)) : Leaves store line (finish value rest, store.set name value) := by
  obtain ⟨front, parts, tree, derives⟩ := took
  cases rest with
  | nil =>
    refine ⟨nofun, ?_⟩
    rintro _ ⟨⟩
    rw [assigns]
    exact store.assigns_set name value
  | cons token more =>
    refine ⟨?_, nofun⟩
    rintro _ ⟨⟩
    rw [parts] at assigns
    exact .inr ⟨name, value, ⟨front, tree, token, more, assigns, derives, rfl⟩,
      store.assigns_set name value⟩

theorem leaves_expression (none : assignment? line = none) (value : Value) (rest : List Token) :
    Leaves store line (finish value rest, store) := by
  refine ⟨fun _ _ => .inl rfl, ?_⟩
  rw [none]
  exact fun _ _ => rfl

theorem always_leaves (store : Store) (line : String) :
    (evaluate store line).Always (fun _ => True) (Leaves store line) := by
  cases significant : significantTokens? line with
  | none =>
    unfold evaluate
    rw [significant]
    exact leaves_error
  | some tokens =>
    by_cases assignment : StartsAssignment tokens
    · obtain ⟨left, sign, body, rfl, kind, equals⟩ := assignment
      have assigns := assignment?_eq_some.mpr ⟨left, sign, significant, kind, equals, rfl⟩
      rw [evaluate_assignment significant kind equals]
      refine Interaction.Always.bind (expression_recognizes _ _ body) fun ending holds => ?_
      cases ending with
      | error error => exact leaves_error
      | ok result => exact leaves_assignment assigns (holds result rfl)
    · have unassigned := assignment?_eq_none significant assignment
      by_cases empty : tokens = []
      · subst empty
        unfold evaluate
        rw [significant]
        exact leaves_error
      · rw [evaluate_expression significant empty assignment]
        refine Interaction.Always.bind (expression_recognizes _ _ tokens) fun ending _ => ?_
        cases ending with
        | error error => exact leaves_error
        | ok result => exact leaves_expression unassigned result.1 result.2

theorem evaluate_overrun {front rest : List Token} {token : Token} {tree : Tree}
    (assigns : assignment? line = some (name, front ++ token :: rest))
    (derives : Derives .comparison front tree) (stops : Level.comparison.Stops (token :: rest)) :
    evaluate store line = (do
      match ← (tree.evaluate store).run with
      | .error error => return (.error error, store)
      | .ok value =>
        return (.error (.badSyntax token.column (.unexpected token.text)), store.set name value)) := by
  obtain ⟨left, sign, significant, kind, equals, rfl⟩ := assignment?_eq_some.mp assigns
  have long : front.length ≤ (front ++ token :: rest).length := by simp
  have reads := expression_of_reads (derives.reads ⟨store, line.length + 1⟩)
    (Nat.lt_of_lt_of_le derives.length_pos long) long stops
  rw [evaluate_assignment significant kind equals, reads, ExceptT.run_bind, bind_assoc]
  refine bind_congr fun ending => ?_
  cases ending <;> rfl

end

/-- A line that has a value changes the variable that it assigns to and no other, and that then holds
the value. A line that fails changes no variable, whatever its error, unless it goes on behind a whole
assignment: then the variable is changed, and the error is the token behind the assignment. -/
theorem evaluate_assigns (store : Store) (line : String) {σ : Type}
    (answer : (request : Request) → σ → request.Answer × σ) (state : σ) :
    let ending := ((evaluate store line).run answer state).1
    (∀ value, ending.1 = .ok value → match assignment? line with
      | some (name, _) => store.Assigns name value ending.2
      | none => ending.2 = store) ∧
    (∀ error, ending.1 = .error error → ending.2 = store ∨
      ∃ name value, Overruns line name error ∧ store.Assigns name value ending.2) ∧
    ∀ name front tree token rest, assignment? line = some (name, front ++ token :: rest) →
      Derives .comparison front tree → Level.comparison.Stops (token :: rest) →
      ∀ value, ((tree.evaluate store).run.run answer state).1 = .ok value →
        ending.1 = .error (.badSyntax token.column (.unexpected token.text)) ∧
        store.Assigns name value ending.2 := by
  intro ending
  have leaves : Leaves store line ending := (always_leaves store line).run answer state
  refine ⟨leaves.valued, leaves.failed, ?_⟩
  intro name front tree token rest assigns derives stops value valued
  have carried : ending = (.error (.badSyntax token.column (.unexpected token.text)),
      store.set name value) := by
    simp only [ending]
    rw [evaluate_overrun assigns derives stops]
    change (Interaction.run answer (Interaction.bind _ _) state).1 = _
    rw [Interaction.run_bind, valued]
    rfl
  rw [carried]
  exact ⟨rfl, store.assigns_set name value⟩

theorem significantTokens?_overrun : significantTokens? "$a = 1 2" = some
    [⟨.variable, "a", 1, 1⟩, ⟨.operator .assign, "=", 1, 4⟩, ⟨.number, "1", 1, 6⟩,
      ⟨.number, "2", 1, 8⟩] := by
  decide +kernel

theorem assignment?_overrun : assignment? "$a = 1 2" =
    some ("a", [⟨.number, "1", 1, 6⟩] ++ ⟨.number, "2", 1, 8⟩ :: []) :=
  assignment?_eq_some.mpr ⟨_, _, significantTokens?_overrun, rfl, rfl, rfl⟩

theorem derives_one : ∃ value, Derives .comparison [⟨.number, "1", 1, 6⟩]
    (.literal (.number value)) := by
  obtain ⟨value, read⟩ := readFloat?_of_significant significantTokens?_overrun
    (.tail _ (.tail _ (.head _))) rfl
  exact ⟨value, Derives.of_primary (.number rfl read)⟩

theorem stops_two : Level.comparison.Stops [(⟨.number, "2", 1, 8⟩ : Token)] := by
  simp [Level.Stops]

/-- The value is kept although the line is refused. -/
theorem evaluate_assigns_overrun :
    let ending (line : String) := ((evaluate .empty line).run Rehearsal.answerExpression
      (.start .none ⟨.opaqueRgb 0 0 0, []⟩ (.create 1 1))).1
    Store.empty.Assigns "a" (.text "b") (ending "$a = `b`").2 ∧
      (ending "$a = 1 2").1 = .error (.badSyntax 8 (.unexpected "2")) ∧
      ∃ value, Store.empty.Assigns "a" (.number value) (ending "$a = 1 2").2 := by
  intro ending
  obtain ⟨value, derives⟩ := derives_one
  have significant : significantTokens? "$a = `b`" = some [⟨.variable, "a", 1, 1⟩,
      ⟨.operator .assign, "=", 1, 4⟩, ⟨.string, "b", 1, 6⟩] := by decide +kernel
  have assignment := assignment?_eq_some.mpr ⟨_, _, significant, rfl, rfl, rfl⟩
  have valued : (ending "$a = `b`").1 = .ok (.text "b") := by
    simp only [ending]
    rw [evaluate_of_derives significant (.assignment rfl rfl (Derives.of_primary (.text rfl)))]
    rfl
  have assigned := (evaluate_assigns .empty "$a = `b`" Rehearsal.answerExpression
    (.start .none ⟨.opaqueRgb 0 0 0, []⟩ (.create 1 1))).1 (.text "b") valued
  rw [assignment] at assigned
  have overrun := (evaluate_assigns .empty "$a = 1 2" Rehearsal.answerExpression
    (.start .none ⟨.opaqueRgb 0 0 0, []⟩ (.create 1 1))).2.2 "a" _ _ _ _
    assignment?_overrun derives stops_two (.number value) rfl
  exact ⟨assigned, overrun.1, value, overrun.2⟩

/-- That an error leaves every variable as it was does not hold. -/
theorem evaluate_changes_on_error : ¬ ∀ (store : Store) (line : String) (rehearsal : Rehearsal)
    (error : EvaluationError),
    let ending := ((evaluate store line).run Rehearsal.answerExpression rehearsal).1
    ending.1 = .error error → ∀ name, ending.2.get? name = store.get? name := by
  intro unchanged
  obtain ⟨value, derives⟩ := derives_one
  have runs := @evaluate_overrun .empty _ _ _ _ _ _ assignment?_overrun derives stops_two
  have kept := unchanged .empty "$a = 1 2" (.start .none ⟨.opaqueRgb 0 0 0, []⟩ (.create 1 1))
    (.badSyntax 8 (.unexpected "2"))
  rw [runs] at kept
  exact absurd (kept rfl "a") nofun

end Expression
end InputTape
