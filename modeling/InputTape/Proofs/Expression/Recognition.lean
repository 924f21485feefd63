import InputTape.Proofs.Expression.Reading
import InputTape.Proofs.Interaction.Always

/-! Nothing but expressions is read.

Whatever the surroundings answer, a reader that comes to a value has taken an expression from the
front of the tokens.
-/

set_option autoImplicit false

namespace InputTape.Expression

open Script (Token TokenKind Operator)

section

variable {α β : Type} {wished : α → Prop} {after : β → Prop}

/-- Whatever is answered, a value at the end is wished. Errors are no values. -/
def Returns (wished : α → Prop) (evaluation : Evaluation α) : Prop :=
  evaluation.run.Always (fun _ => True) fun ending => ∀ value, ending = .ok value → wished value

theorem returns_pure {value : α} (holds : wished value) :
    Returns wished (pure value : Evaluation α) := by
  intro other same
  cases same
  exact holds

theorem returns_throw {error : EvaluationError} :
    Returns wished (throw error : Evaluation α) := by
  intro value same
  cases same

theorem returns_anything (evaluation : Evaluation α) :
    Returns (fun _ => True) evaluation :=
  (Interaction.always_anything evaluation.run).mono (fun _ _ => trivial)
    fun _ _ _ _ => trivial

theorem Returns.bind {evaluation : Evaluation α} {next : α → Evaluation β}
    (returns : Returns wished evaluation)
    (rest : ∀ value, wished value → Returns after (next value)) :
    Returns after (evaluation >>= next) := by
  refine Interaction.Always.bind returns fun ending holds => ?_
  cases ending with
  | ok value => exact rest value (holds value rfl)
  | error error => exact returns_throw

end

/-- What was read is a phrase from the front of these tokens; the rest is left. -/
def Took {α : Type} (phrase : List Token → Prop) (tokens : List Token)
    (result : α × List Token) : Prop :=
  ∃ front, tokens = front ++ result.2 ∧ phrase front

def IsPhrase (level : Level) (tokens : List Token) : Prop := ∃ tree, Derives level tokens tree

def Recognizes (level : Level) (reader : Reader Value) : Prop :=
  ∀ tokens, Returns (Took (IsPhrase level) tokens) (reader tokens)

variable {scope : Scope} {level : Level}

theorem applyOperators_returns {operand : Reader Value}
    (recognizes : Recognizes level.operand operand) {limit : Nat} {whole left tokens : List Token}
    {value : Value} (first : IsPhrase level left) (parts : whole = left ++ tokens) :
    Returns (Took (IsPhrase level) whole)
      (applyOperators level.combination? operand limit value tokens) := by
  -- What was read so far is a phrase all along, and grows by an operator and its operand.
  induction limit generalizing left tokens value with
  | zero => exact returns_pure ⟨left, parts, first⟩
  | succ limit ih =>
    cases tokens with
    | nil => exact returns_pure ⟨left, parts, first⟩
    | cons token rest =>
      by_cases joined : ∃ operator ∈ level.operators, token.kind = .operator operator
      · obtain ⟨operator, joins, kind⟩ := joined
        rw [applyOperators_operator kind joins]
        refine (recognizes rest).bind fun (right, behind) ⟨front, same, tree, derives⟩ => ?_
        refine (returns_anything _).bind fun combined _ => ?_
        obtain ⟨leftTree, leftDerives⟩ := first
        have longer : IsPhrase level (left ++ token :: front) :=
          ⟨_, .operation leftDerives kind joins derives⟩
        have again : whole = (left ++ token :: front) ++ behind := by
          rw [parts, same, List.append_assoc, List.cons_append]
        exact ih longer again
      · rw [applyOperators_other fun operator joins kind => joined ⟨operator, joins, kind⟩]
        exact returns_pure ⟨left, parts, first⟩

theorem leftToRight_recognizes {operand : Reader Value} (other : level ≠ .primary)
    (recognizes : Recognizes level.operand operand) :
    Recognizes level (leftToRight level.combination? operand) := by
  intro tokens
  refine (recognizes tokens).bind fun (first, rest) ⟨front, same, tree, derives⟩ => ?_
  exact applyOperators_returns recognizes ⟨tree, .operand other derives⟩ same

theorem negation_recognizes {operand : Reader Value} (recognizes : Recognizes .primary operand)
    (limit : Nat) : Recognizes .unary (negation operand limit) := by
  -- A value without a minus sign is a unary expression as it stands.
  have plain (tokens : List Token) : Returns (Took (IsPhrase .unary) tokens) (operand tokens) :=
    (recognizes tokens).mono (fun _ _ => trivial) fun _ holds result same => by
      obtain ⟨front, parts, tree, derives⟩ := holds result same
      exact ⟨front, parts, tree, .operand (by decide) derives⟩
  induction limit with
  | zero => exact plain
  | succ limit ih =>
    intro tokens
    unfold negation
    split
    · rename_i text line column rest
      refine (ih rest).bind fun (value, behind) ⟨front, same, tree, derives⟩ => ?_
      refine (returns_anything _).bind fun negated _ => ?_
      have minus : IsPhrase .unary (⟨.operator .minus, text, line, column⟩ :: front) :=
        ⟨_, .negation rfl derives⟩
      exact returns_pure ⟨_, by rw [same, List.cons_append], minus⟩
    · exact plain tokens

def AreArguments (arguments : List (List Token × Tree)) (tokens : List Token) : Prop :=
  ∃ inside closing, tokens = inside ++ [closing] ∧ Separated arguments inside ∧
    (∀ argument ∈ arguments, Derives .comparison argument.1 argument.2) ∧
    closing.kind = .closeParen

theorem areArguments_one {tokens : List Token} {tree : Tree} {closing : Token}
    (derives : Derives .comparison tokens tree) (closes : closing.kind = .closeParen) :
    AreArguments [(tokens, tree)] (tokens ++ [closing]) := by
  refine ⟨tokens, closing, rfl, .one, ?_, closes⟩
  exact List.forall_mem_singleton.mpr derives

theorem AreArguments.more {first second : List Token × Tree}
    {others : List (List Token × Tree)} {comma : Token} {tokens : List Token}
    (arguments : AreArguments (second :: others) tokens)
    (derives : Derives .comparison first.1 first.2) (kind : comma.kind = .comma) :
    AreArguments (first :: second :: others) (first.1 ++ comma :: tokens) := by
  obtain ⟨inside, closing, rfl, separated, each, closes⟩ := arguments
  refine ⟨first.1 ++ comma :: inside, closing, ?_, .more kind separated, ?_, closes⟩
  · rw [List.append_assoc, List.cons_append]
  · exact List.forall_mem_cons.mpr ⟨derives, each⟩

theorem argumentsFrom_returns {each : Reader Value} (recognizes : Recognizes .comparison each)
    {limit : Nat} {tokens : List Token} (enough : tokens.length ≤ limit) :
    Returns (Took (fun front => ∃ first others, AreArguments (first :: others) front) tokens)
      (argumentsFrom scope each limit tokens) := by
  induction limit generalizing tokens with
  | zero =>
    -- There is no argument without a token, so the limit is never what ends the list.
    refine (recognizes tokens).bind fun (value, rest) ⟨front, same, tree, derives⟩ => ?_
    have some := derives.length_pos
    rw [same, List.length_append] at enough
    omega
  | succ limit ih =>
    refine (recognizes tokens).bind fun (value, rest) ⟨front, same, tree, derives⟩ => ?_
    have some := derives.length_pos
    change tokens = front ++ rest at same
    rw [same, List.length_append] at enough
    cases rest with
    | nil => exact returns_throw
    | cons token behind =>
      obtain ⟨kind, text, line, column⟩ := token
      cases kind with
      | comma =>
        have shorter : behind.length ≤ limit := by
          rw [List.length_cons] at enough
          omega
        refine (ih shorter).bind fun (values, last) ⟨taken, parts, second, others, more⟩ => ?_
        have kind : (Token.mk .comma text line column).kind = .comma := rfl
        refine returns_pure ⟨_, ?_, (front, tree), _, more.more derives kind⟩
        rw [same, parts, List.append_assoc, List.cons_append]
      | closeParen =>
        have kind : (Token.mk .closeParen text line column).kind = .closeParen := rfl
        refine returns_pure ⟨_, ?_, _, _, areArguments_one derives kind⟩
        rw [same, List.append_assoc, List.singleton_append]
      | _ => exact returns_throw

theorem callOf_returns {each : Reader Value} {name : String} (tokens : List Token)
    (recognizes : Recognizes .comparison each) :
    Returns (Took (fun front => ∃ arguments, AreArguments arguments front) tokens)
      (callOf scope each name tokens) := by
  have called {values : List Value} {rest : List Token}
      (took : Took (fun front => ∃ arguments, AreArguments arguments front) tokens (values, rest)) :
      Returns (Took (fun front => ∃ arguments, AreArguments arguments front) tokens) (do
        let value ← call name.toLower values
        return (value, rest)) :=
    (returns_anything _).bind fun value _ => returns_pure took
  unfold callOf
  split
  · rename_i text line column rest
    have none : AreArguments [] [⟨.closeParen, text, line, column⟩] :=
      ⟨[], _, rfl, .none, List.forall_mem_nil _, rfl⟩
    exact called ⟨_, rfl, _, none⟩
  · refine (argumentsFrom_returns recognizes (Nat.le_refl _)).bind fun (values, rest) took => ?_
    obtain ⟨front, parts, first, others, arguments⟩ := took
    exact called ⟨front, parts, _, arguments⟩

theorem callOf_recognized {each : Reader Value} (recognizes : Recognizes .comparison each)
    {name opening : Token} {rest : List Token} (isName : IsName name.kind)
    (opens : opening.kind = .openParen) :
    Returns (Took (IsPhrase .primary) (name :: opening :: rest))
      (callOf scope each name.text rest) := by
  refine (callOf_returns rest recognizes).mono (fun _ _ => trivial) fun ending holds result same => ?_
  obtain ⟨_, parts, arguments, inside, closing, rfl, separated, derives, closes⟩ := holds result same
  refine ⟨_, ?_, _, .call isName opens separated derives closes⟩
  rw [parts, List.cons_append, List.cons_append]

theorem primary_recognizes {each : Reader Value} (recognizes : Recognizes .comparison each) :
    Recognizes .primary (primary scope each) := by
  intro tokens
  cases tokens with
  | nil => exact returns_throw
  | cons token rest =>
    obtain ⟨kind, text, line, column⟩ := token
    have single {value : Value} {tree : Tree}
        (derives : Derives .primary [⟨kind, text, line, column⟩] tree) :
        Returns (Took (IsPhrase .primary) (⟨kind, text, line, column⟩ :: rest))
          (pure (value, rest)) := returns_pure ⟨_, rfl, tree, derives⟩
    have called (isName : IsName kind) {opening : Token} {last : List Token}
        (opens : opening.kind = .openParen) :
        Returns (Took (IsPhrase .primary) (⟨kind, text, line, column⟩ :: opening :: last))
          (primary scope each (⟨kind, text, line, column⟩ :: opening :: last)) := by
      rw [@primary_call scope each ⟨kind, text, line, column⟩ opening last isName opens]
      exact callOf_recognized recognizes isName opens
    -- What begins a primary tells what it is; a name is a call if a parenthesis follows.
    cases kind with
    | number =>
      simp only [primary]
      cases read : Decimal.readFloat? text with
      | some value => exact single (.number rfl read)
      | none => exact returns_throw
    | string => exact single (.text rfl)
    | «variable» =>
      simp only [primary]
      cases scope.store.get? text with
      | some value => exact single (.lookup rfl)
      | none => exact returns_throw
    | openParen =>
      refine (recognizes rest).bind fun result took => ?_
      obtain ⟨value, behind⟩ := result
      obtain ⟨front, parts, tree, derives⟩ := took
      change rest = front ++ behind at parts
      cases behind with
      | nil => exact returns_throw
      | cons closing last =>
        obtain ⟨kind, text', line', column'⟩ := closing
        cases kind with
        | closeParen =>
          have phrase : IsPhrase .primary (⟨.openParen, text, line, column⟩ ::
              (front ++ [⟨.closeParen, text', line', column'⟩])) :=
            ⟨tree, .parentheses rfl derives rfl⟩
          refine returns_pure ⟨_, ?_, phrase⟩
          rw [parts, List.cons_append, List.append_assoc, List.singleton_append]
        | _ => exact returns_throw
    | word =>
      rcases Level.called_or_stops rest with ⟨opening, last, rfl, opens⟩ | stops
      · exact called trivial opens
      · rw [primary_word rfl stops]
        cases found : constant? text with
        | some value => exact single (.constant rfl found)
        | none => exact returns_throw
    | keyword keyword =>
      rcases Level.called_or_stops rest with ⟨opening, last, rfl, opens⟩ | stops
      · exact called trivial opens
      · rw [primary_keyword rfl stops]
        exact returns_throw
    | _ => exact returns_throw

theorem reader_recognizes {limit : Nat}
    (recognizes : Recognizes .comparison (expression scope limit)) :
    Recognizes level (reader scope limit level) := by
  have primary : Recognizes .primary (reader scope limit .primary) := primary_recognizes recognizes
  have unary : Recognizes .unary (reader scope limit .unary) := fun tokens =>
    negation_recognizes primary tokens.length tokens
  have product : Recognizes .product (reader scope limit .product) :=
    leftToRight_recognizes (by decide) unary
  have sum : Recognizes .sum (reader scope limit .sum) :=
    leftToRight_recognizes (by decide) product
  cases level with
  | comparison => exact leftToRight_recognizes (by decide) sum
  | sum => exact sum
  | product => exact product
  | unary => exact unary
  | primary => exact primary

theorem expression_recognizes (scope : Scope) (limit : Nat) :
    Recognizes .comparison (expression scope limit) := by
  induction limit with
  | zero => exact fun tokens => returns_throw
  | succ limit ih => exact reader_recognizes ih

end InputTape.Expression
