import InputTape.Proofs.Expression.Grammar

/-! Reading an expression is evaluating its tree.

Where the tokens in front are an expression, and what stands behind them does not go on with it,
the reader evaluates the tree and leaves what stands behind.
-/

set_option autoImplicit false

namespace InputTape.Expression

open Script (Token TokenKind Operator)

namespace Level

def combination? : Level → Operator → Option Combination
  | .comparison => comparison?
  | .sum => summation?
  | .product => multiplication?
  | .unary | .primary => fun _ => none

theorem combination?_eq (level : Level) (operator : Operator) :
    level.combination? operator =
      if operator ∈ level.operators then some (combine operator) else none := by
  cases level <;> cases operator <;> rfl

/-- The operators that an expression of a level would take up from behind it. -/
def within : Level → List Operator
  | .comparison => [.equal, .notEqual, .plus, .minus, .times, .divide]
  | .sum => [.plus, .minus, .times, .divide]
  | .product => [.times, .divide]
  | .unary | .primary => []

/-- An expression of this level ends where these tokens follow. -/
def Stops (level : Level) : List Token → Prop
  | [] => True
  | token :: _ =>
    token.kind ≠ .openParen ∧ ∀ operator ∈ level.within, token.kind ≠ .operator operator

variable {level : Level} {token : Token} {rest : List Token}

theorem Stops.operand (stops : level.Stops rest) : level.operand.Stops rest := by
  cases rest with
  | nil => trivial
  | cons token rest =>
    -- What holds together more closely takes up fewer operators.
    have fewer : ∀ operator ∈ level.operand.within, operator ∈ level.within := by
      cases level <;> decide
    exact ⟨stops.1, fun operator member => stops.2 operator (fewer operator member)⟩

theorem stops_of_operator {operator : Operator} (kind : token.kind = .operator operator)
    (joins : operator ∈ level.operators) : level.operand.Stops (token :: rest) := by
  have apart : ∀ other ∈ level.operand.within, operator ≠ other := by
    revert joins
    cases level <;> cases operator <;> decide
  refine ⟨by rw [kind]; exact TokenKind.noConfusion, fun other member same => ?_⟩
  exact apart other member (TokenKind.operator.inj (kind.symm.trans same))

theorem stops_of_closeParen (kind : token.kind = .closeParen) : level.Stops (token :: rest) := by
  simp [Stops, kind]

theorem called_or_stops (rest : List Token) :
    (∃ opening last, rest = opening :: last ∧ opening.kind = .openParen) ∨
      primary.Stops rest := by
  cases rest with
  | nil => exact .inr trivial
  | cons next last =>
    by_cases opens : next.kind = .openParen
    · exact .inl ⟨next, last, rfl, opens⟩
    · exact .inr ⟨opens, List.forall_mem_nil _⟩

theorem stops_of_comma (kind : token.kind = .comma) : level.Stops (token :: rest) := by
  simp [Stops, kind]

end Level

def reader (scope : Scope) (limit : Nat) (level : Level) : Reader Value :=
  let unary : Reader Value := fun tokens =>
    negation (primary scope (expression scope limit)) tokens.length tokens
  match level with
  | .comparison =>
    leftToRight comparison? (leftToRight summation? (leftToRight multiplication? unary))
  | .sum => leftToRight summation? (leftToRight multiplication? unary)
  | .product => leftToRight multiplication? unary
  | .unary => unary
  | .primary => primary scope (expression scope limit)

section

variable {combination? : Operator → Option Combination} {operand : Reader Value} {limit : Nat}
  {left : Value} {token : Token} {tokens rest : List Token}

theorem applyOperators_joins {operator : Operator} {combine : Combination}
    (kind : token.kind = .operator operator) (joins : combination? operator = some combine) :
    applyOperators combination? operand (limit + 1) left (token :: rest) = (do
      let (right, rest) ← operand rest
      let value ← ExceptT.mk (pure (combine left right))
      applyOperators combination? operand limit value rest) := by
  obtain ⟨_, text, line, column⟩ := token
  subst kind
  simp only [applyOperators, joins]

theorem applyOperators_apart (apart : ∀ token ∈ tokens.head?, ∀ operator,
      token.kind = .operator operator → combination? operator = none) :
    applyOperators combination? operand limit left tokens = pure (left, tokens) := by
  cases limit with
  | zero => rfl
  | succ limit =>
    cases tokens with
    | nil => rfl
    | cons token rest =>
      have apart := apart token rfl
      obtain ⟨kind, text, line, column⟩ := token
      cases kind with
      | operator operator => simp only [applyOperators, apart operator rfl]
      | _ => rfl

theorem negation_minus (kind : token.kind = .operator .minus) :
    negation operand (limit + 1) (token :: rest) = (do
      let (value, rest) ← negation operand limit rest
      let value ← ExceptT.mk (pure (negate value))
      return (value, rest)) := by
  obtain ⟨_, text, line, column⟩ := token
  subst kind
  rfl

theorem negation_other (other : ∀ token ∈ tokens.head?, token.kind ≠ .operator .minus) :
    negation operand limit tokens = operand tokens := by
  cases limit with
  | zero => rfl
  | succ limit =>
    unfold negation
    split
    · exact absurd rfl (other _ rfl)
    · rfl

end

theorem applyOperators_operator {level : Level} {operand : Reader Value} {limit : Nat}
    {left : Value} {token : Token} {rest : List Token} {operator : Operator}
    (kind : token.kind = .operator operator) (joins : operator ∈ level.operators) :
    applyOperators level.combination? operand (limit + 1) left (token :: rest) = (do
      let (right, rest) ← operand rest
      let value ← ExceptT.mk (pure (combine operator left right))
      applyOperators level.combination? operand limit value rest) :=
  applyOperators_joins kind (by rw [level.combination?_eq, if_pos joins])

theorem applyOperators_other {level : Level} {operand : Reader Value} {limit : Nat}
    {left : Value} {token : Token} {rest : List Token}
    (other : ∀ operator ∈ level.operators, token.kind ≠ .operator operator) :
    applyOperators level.combination? operand limit left (token :: rest) =
      pure (left, token :: rest) := by
  refine applyOperators_apart fun _ here operator kind => ?_
  cases here
  rw [level.combination?_eq, if_neg fun joins => other operator joins kind]

theorem applyOperators_stops {level : Level} {operand : Reader Value} {limit : Nat}
    {left : Value} {rest : List Token} (stops : level.Stops rest) :
    applyOperators level.combination? operand limit left rest = pure (left, rest) := by
  have outside : ∀ operator ∈ level.operators, operator ∈ level.within := by
    cases level <;> decide
  cases rest with
  | nil => exact applyOperators_apart nofun
  | cons token rest =>
    exact applyOperators_other fun operator joins => stops.2 operator (outside operator joins)

/-- Behind a tree of this level the reader only goes on to operators of the level. -/
def Reads (scope : Scope) (level : Level) (tokens : List Token) (tree : Tree) : Prop :=
  ∀ limit rest, tokens.length ≤ limit + 1 → level.operand.Stops rest →
    ∃ more, rest.length ≤ more ∧
      reader scope limit level (tokens ++ rest) = (do
        let value ← tree.evaluate scope.store
        applyOperators level.combination? (reader scope limit level.operand) more value rest)

variable {scope : Scope} {level : Level} {tokens : List Token} {tree : Tree}

theorem Reads.whole (reads : Reads scope level tokens tree) {limit : Nat} {rest : List Token}
    (enough : tokens.length ≤ limit + 1) (stops : level.Stops rest) :
    reader scope limit level (tokens ++ rest) = (do
      let value ← tree.evaluate scope.store
      return (value, rest)) := by
  obtain ⟨more, _, reads⟩ := reads limit rest enough stops.operand
  simpa only [applyOperators_stops stops] using reads

theorem reads_of_whole (none : level.operators = [])
    (whole : ∀ limit rest, tokens.length ≤ limit + 1 → level.operand.Stops rest →
      reader scope limit level (tokens ++ rest) = (do
        let value ← tree.evaluate scope.store
        return (value, rest))) : Reads scope level tokens tree := by
  intro limit rest enough stops
  refine ⟨rest.length, Nat.le_refl _, ?_⟩
  have stays : level.Stops rest := by
    cases level <;> first | exact stops | cases none
  simpa only [applyOperators_stops stays] using whole limit rest enough stops

theorem expression_of_reads (reads : Reads scope .comparison tokens tree) {limit : Nat}
    {rest : List Token} (some : 0 < limit) (enough : tokens.length ≤ limit)
    (stops : Level.comparison.Stops rest) :
    expression scope limit (tokens ++ rest) = (do
      let value ← tree.evaluate scope.store
      return (value, rest)) := by
  cases limit with
  | zero => cases some
  | succ limit => exact reads.whole enough stops

/-! ## The parts of a primary expression -/

theorem reader_unary_minus {limit : Nat} {minus : Token} {rest : List Token}
    (kind : minus.kind = .operator .minus) :
    reader scope limit .unary (minus :: rest) = (do
      let (value, rest) ← reader scope limit .unary rest
      let value ← ExceptT.mk (pure (negate value))
      return (value, rest)) := negation_minus kind

theorem reader_unary_other {limit : Nat} {token : Token} {rest : List Token}
    (kind : token.kind ≠ .operator .minus) :
    reader scope limit .unary (token :: rest) = reader scope limit .primary (token :: rest) :=
  negation_other fun _ here => by
    cases here
    exact kind

theorem argumentsFrom_separated {arguments : List (List Token × Tree)} {limit : Nat}
    {closing : Token} {rest : List Token} {each : Reader Value}
    (separated : Separated arguments tokens) (some : arguments ≠ [])
    (reads : ∀ argument ∈ arguments, ∀ rest, Level.comparison.Stops rest →
      each (argument.1 ++ rest) = (do
        let value ← argument.2.evaluate scope.store
        return (value, rest)))
    (closes : closing.kind = .closeParen) (enough : tokens.length < limit) :
    argumentsFrom scope each limit (tokens ++ closing :: rest) = (do
      let values ← Tree.evaluateAll scope.store (arguments.map (·.2))
      return (values, rest)) := by
  induction separated generalizing limit with
  | none => exact absurd rfl some
  | one =>
    have here := reads _ (.head _) (closing :: rest) (Level.stops_of_closeParen closes)
    obtain ⟨_, text, line, column⟩ := closing
    subst closes
    cases limit with
    | zero => cases enough
    | succ limit =>
      simp only [argumentsFrom, here, Tree.evaluateAll, List.map_cons, List.map_nil, bind_assoc,
        pure_bind]
  | @more first second others comma tokens kind _ ih =>
    have here := reads first (.head _) (comma :: (tokens ++ closing :: rest))
      (Level.stops_of_comma kind)
    obtain ⟨_, text, line, column⟩ := comma
    subst kind
    cases limit with
    | zero => cases enough
    | succ limit =>
      -- Every argument but the last takes a comma, so the limit outlasts the list.
      have fewer : tokens.length < limit := by
        simp only [List.length_append, List.length_cons] at enough
        omega
      have others := ih (List.cons_ne_nil _ _)
        (fun argument among => reads argument (.tail _ among)) fewer
      rw [List.map_cons, Tree.evaluateAll]
      simp only [List.append_assoc, List.cons_append, argumentsFrom, here, others, bind_assoc,
        pure_bind]

theorem callOf_separated {arguments : List (List Token × Tree)} {name : String}
    {closing : Token} {rest : List Token} {each : Reader Value}
    (separated : Separated arguments tokens)
    (heads : ∀ argument ∈ arguments,
      ∃ token rest, argument.1 = token :: rest ∧ token.kind ≠ .closeParen)
    (reads : ∀ argument ∈ arguments, ∀ rest, Level.comparison.Stops rest →
      each (argument.1 ++ rest) = (do
        let value ← argument.2.evaluate scope.store
        return (value, rest)))
    (closes : closing.kind = .closeParen) :
    callOf scope each name (tokens ++ closing :: rest) = (do
      let value ← (Tree.call name (arguments.map (·.2))).evaluate scope.store
      return (value, rest)) := by
  cases arguments with
  | nil =>
    cases separated
    obtain ⟨_, text, line, column⟩ := closing
    subst closes
    rfl
  | cons first others =>
    -- No first argument begins with the parenthesis that ends an empty list.
    have starts : ∃ token more, tokens = token :: more ∧ token.kind ≠ .closeParen := by
      obtain ⟨token, more, same, other⟩ := heads first (.head _)
      cases separated with
      | one => exact ⟨token, more, same, other⟩
      | more => exact ⟨token, _, by rw [same]; rfl, other⟩
    have enough : tokens.length < (tokens ++ closing :: rest).length := by
      simp only [List.length_append, List.length_cons]
      omega
    have arguments := @argumentsFrom_separated scope tokens _ _ closing rest each separated
      (List.cons_ne_nil _ _) reads closes enough
    obtain ⟨⟨kind, text, line, column⟩, more, rfl, other⟩ := starts
    rw [Tree.evaluate]
    cases kind with
    | closeParen => exact absurd rfl other
    | _ =>
      simp only [List.cons_append] at arguments
      simp only [callOf, List.cons_append, arguments, bind_assoc, pure_bind]

theorem primary_word {each : Reader Value} {token : Token} {rest : List Token}
    (kind : token.kind = .word) (stops : Level.primary.Stops rest) :
    primary scope each (token :: rest) = (constant? token.text).elim
      (throw (.badSyntax token.column (.unexpectedWord token.text)))
      fun value => pure (value, rest) := by
  obtain ⟨_, text, line, column⟩ := token
  subst kind
  cases rest with
  | nil =>
    simp only [primary]
    cases constant? text <;> rfl
  | cons next rest =>
    obtain ⟨kind, text', line', column'⟩ := next
    cases kind with
    | openParen => exact absurd rfl stops.1
    | _ =>
      simp only [primary]
      cases constant? text <;> rfl

theorem primary_keyword {each : Reader Value} {token : Token} {keyword : Script.Keyword}
    {rest : List Token} (kind : token.kind = .keyword keyword)
    (stops : Level.primary.Stops rest) :
    primary scope each (token :: rest) =
      throw (.badSyntax token.column (.unexpected token.text)) := by
  obtain ⟨_, text, line, column⟩ := token
  subst kind
  cases rest with
  | nil => rfl
  | cons next rest =>
    obtain ⟨kind, text', line', column'⟩ := next
    cases kind with
    | openParen => exact absurd rfl stops.1
    | _ => rfl

theorem primary_call {each : Reader Value} {name opening : Token} {rest : List Token}
    (isName : IsName name.kind) (opens : opening.kind = .openParen) :
    primary scope each (name :: opening :: rest) = callOf scope each name.text rest := by
  obtain ⟨kind, text, line, column⟩ := name
  obtain ⟨_, text', line', column'⟩ := opening
  subst opens
  cases kind with
  | word | keyword => rfl
  | _ => cases isName

theorem reader_joined {limit : Nat} (joined : level.operators ≠ []) :
    reader scope limit level tokens = (do
      let (first, rest) ← reader scope limit level.operand tokens
      applyOperators level.combination? (reader scope limit level.operand) rest.length first
        rest) := by
  cases level <;> first | rfl | exact absurd rfl joined

theorem reads_operand (derives : Derives level.operand tokens tree) (other : level ≠ .primary)
    (reads : Reads scope level.operand tokens tree) : Reads scope level tokens tree := by
  by_cases joined : level.operators = []
  · refine reads_of_whole joined fun limit rest enough stops => ?_
    -- Minus signs are looked for first, and no primary expression begins with one.
    have unary : level = .unary := by
      cases level <;> first | rfl | exact absurd rfl other | cases joined
    subst unary
    obtain ⟨token, more, rfl, plain⟩ := derives.head_primary
    rw [List.cons_append, reader_unary_other plain]
    exact reads.whole enough stops
  · intro limit rest enough stops
    refine ⟨rest.length, Nat.le_refl _, ?_⟩
    rw [reader_joined joined, reads.whole enough stops]
    simp only [bind_assoc, pure_bind]

theorem reads_operation {left right : List Token} {token : Token} {operator : Operator}
    {leftTree rightTree : Tree} (leftReads : Reads scope level left leftTree)
    (kind : token.kind = .operator operator) (joins : operator ∈ level.operators)
    (rightReads : Reads scope level.operand right rightTree) :
    Reads scope level (left ++ token :: right) (.operation operator leftTree rightTree) := by
  intro limit rest enough stops
  simp only [List.length_append, List.length_cons] at enough
  -- While the left operand is read, the operator and the right operand stand behind it.
  obtain ⟨more, room, reads⟩ := leftReads limit (token :: (right ++ rest)) (by omega)
    (Level.stops_of_operator kind joins)
  cases more with
  | zero => cases room
  | succ more =>
    have shorter : rest.length ≤ more := by
      simp only [List.length_cons, List.length_append] at room
      omega
    have operand := @Reads.whole _ _ _ _ rightReads limit rest (by omega) stops
    refine ⟨more, shorter, ?_⟩
    rw [List.append_assoc, List.cons_append, reads, Tree.evaluate]
    simp only [applyOperators_operator kind joins, operand, bind_assoc, pure_bind]

theorem Derives.reads (scope : Scope) (derives : Derives level tokens tree) :
    Reads scope level tokens tree := by
  induction derives with
  | operand other derives reads => exact reads_operand derives other reads
  | operation _ kind joins _ left right => exact reads_operation left kind joins right
  | negation kind derives ih =>
    refine reads_of_whole rfl fun limit rest enough stops => ?_
    have whole := ih.whole (Nat.le_of_succ_le enough) stops
    rw [List.cons_append, reader_unary_minus kind, whole, Tree.evaluate]
    simp only [bind_assoc, pure_bind]
  | @number token value kind read =>
    refine reads_of_whole rfl fun limit rest enough stops => ?_
    obtain ⟨_, text, line, column⟩ := token
    subst kind
    simp only [reader, primary, List.cons_append, List.nil_append, read, Tree.evaluate, pure_bind]
  | @text token kind =>
    refine reads_of_whole rfl fun limit rest enough stops => ?_
    obtain ⟨_, text, line, column⟩ := token
    subst kind
    rfl
  | @lookup token kind =>
    refine reads_of_whole rfl fun limit rest enough stops => ?_
    obtain ⟨_, text, line, column⟩ := token
    subst kind
    simp only [reader, primary, List.cons_append, List.nil_append, Tree.evaluate]
    cases scope.store.get? text <;> rfl
  | @constant token value kind found =>
    refine reads_of_whole rfl fun limit rest enough stops => ?_
    have read := @primary_word scope (expression scope limit) _ rest kind stops
    rwa [found] at read
  | @parentheses left right tokens tree opens derives closes ih =>
    refine reads_of_whole rfl fun limit rest enough stops => ?_
    simp only [List.length_cons, List.length_append, List.length_nil] at enough
    have whole : expression scope limit (tokens ++ right :: rest) = (do
        let value ← tree.evaluate scope.store
        return (value, right :: rest)) :=
      expression_of_reads ih (by omega) (by omega) (Level.stops_of_closeParen closes)
    obtain ⟨_, text, line, column⟩ := left
    subst opens
    obtain ⟨_, text', line', column'⟩ := right
    subst closes
    simp only [reader, primary, List.cons_append, List.append_assoc, List.nil_append, whole,
      bind_assoc, pure_bind]
  | @call name left right arguments tokens isName opens separated derives closes ih =>
    refine reads_of_whole rfl fun limit rest enough stops => ?_
    simp only [List.length_cons, List.length_append, List.length_nil] at enough
    -- One level of nesting is used up by the parentheses, and two tokens at least.
    have reads : ∀ argument ∈ arguments, ∀ rest, Level.comparison.Stops rest →
        expression scope limit (argument.1 ++ rest) = (do
          let value ← argument.2.evaluate scope.store
          return (value, rest)) := by
      intro argument member rest stops
      have shorter := separated.length_le member
      exact expression_of_reads (ih argument member) (by omega) (by omega) stops
    rw [List.cons_append, List.cons_append, List.append_assoc, List.singleton_append, reader,
      primary_call isName opens]
    exact callOf_separated separated (fun argument member => (derives argument member).head) reads
      closes

end InputTape.Expression
