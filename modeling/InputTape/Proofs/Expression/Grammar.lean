import InputTape.Expression.Evaluation

/-! The grammar of expressions, and what a syntax tree is worth.

    statement  := $name = expression | expression
    expression := sum (('==' | '!=') sum)*
    sum        := product (('+' | '-') product)*
    product    := unary (('*' | '/') unary)*
    unary      := '-' unary | primary
    primary    := number | text | $name | true | false | nil
                | name '(' [expression (',' expression)*] ')' | '(' expression ')'

Operators of one level group to the left, so the repetitions are left recursions here. Parentheses
leave no trace in a tree.
-/

set_option autoImplicit false

namespace InputTape.Expression

open Script (Token TokenKind Operator)

inductive Tree where
  | literal (value : Value)
  | lookup (name : String)
  | negation (operand : Tree)
  | operation (operator : Operator) (left right : Tree)
  | call (name : String) (arguments : List Tree)

def combine (operator : Operator) : Combination :=
  ((comparison? operator).or ((summation? operator).or (multiplication? operator))).getD
    (refuse operator)

mutual

/-- Evaluate a tree from left to right, up to the first error. -/
def Tree.evaluate (store : Store) : Tree → Evaluation Value
  | .literal value => return value
  | .lookup name => match store.get? name with
    | some value => return value
    | none => throw (.undefinedVariable name)
  | .negation operand => do
    let value ← operand.evaluate store
    ExceptT.mk (pure (negate value))
  | .operation operator left right => do
    let leftValue ← left.evaluate store
    let rightValue ← right.evaluate store
    ExceptT.mk (pure (combine operator leftValue rightValue))
  | .call name arguments => do
    let values ← evaluateAll store arguments
    Expression.call name.toLower values

def Tree.evaluateAll (store : Store) : List Tree → Evaluation (List Value)
  | [] => return []
  | first :: more => do
    let value ← first.evaluate store
    let values ← evaluateAll store more
    return value :: values

end

/-- How closely an expression holds together; comparisons most loosely. -/
inductive Level where
  | comparison
  | sum
  | product
  | unary
  | primary
  deriving DecidableEq

namespace Level

def operators : Level → List Operator
  | .comparison => [.equal, .notEqual]
  | .sum => [.plus, .minus]
  | .product => [.times, .divide]
  | .unary | .primary => []

def operand : Level → Level
  | .comparison => .sum
  | .sum => .product
  | .product => .unary
  | .unary | .primary => .primary

end Level

inductive Separated : List (List Token × Tree) → List Token → Prop where
  | none : Separated [] []
  | one {only : List Token × Tree} : Separated [only] only.1
  | more {first second : List Token × Tree} {others : List (List Token × Tree)} {comma : Token}
      {tokens : List Token} : comma.kind = .comma → Separated (second :: others) tokens →
      Separated (first :: second :: others) (first.1 ++ comma :: tokens)

def IsName : TokenKind → Prop
  | .word | .keyword _ => True
  | _ => False

/-- These tokens are an expression of this level, with this tree. A number has to be readable; every
number that a line is cut into is. -/
inductive Derives : Level → List Token → Tree → Prop where
  | operand {level : Level} {tokens : List Token} {tree : Tree} : level ≠ .primary →
      Derives level.operand tokens tree → Derives level tokens tree
  | operation {level : Level} {left right : List Token} {token : Token} {operator : Operator}
      {leftTree rightTree : Tree} : Derives level left leftTree →
      token.kind = .operator operator → operator ∈ level.operators →
      Derives level.operand right rightTree →
      Derives level (left ++ token :: right) (.operation operator leftTree rightTree)
  | negation {minus : Token} {tokens : List Token} {tree : Tree} :
      minus.kind = .operator .minus → Derives .unary tokens tree →
      Derives .unary (minus :: tokens) (.negation tree)
  | number {token : Token} {value : Float} : token.kind = .number →
      Decimal.readFloat? token.text = some value →
      Derives .primary [token] (.literal (.number value))
  | text {token : Token} : token.kind = .string →
      Derives .primary [token] (.literal (.text token.text))
  | lookup {token : Token} : token.kind = .variable →
      Derives .primary [token] (.lookup token.text)
  | constant {token : Token} {value : Value} : token.kind = .word →
      constant? token.text = some value → Derives .primary [token] (.literal value)
  | parentheses {left right : Token} {tokens : List Token} {tree : Tree} :
      left.kind = .openParen → Derives .comparison tokens tree → right.kind = .closeParen →
      Derives .primary (left :: (tokens ++ [right])) tree
  | call {name left right : Token} {arguments : List (List Token × Tree)} {tokens : List Token} :
      IsName name.kind → left.kind = .openParen → Separated arguments tokens →
      (∀ argument ∈ arguments, Derives .comparison argument.1 argument.2) →
      right.kind = .closeParen →
      Derives .primary (name :: left :: (tokens ++ [right]))
        (.call name.text (arguments.map (·.2)))

inductive Statement where
  | expression (tree : Tree)
  | assignment (name : String) (tree : Tree)

inductive Statement.Derives : List Token → Statement → Prop where
  | expression {tokens : List Token} {tree : Tree} :
      InputTape.Expression.Derives .comparison tokens tree → Derives tokens (.expression tree)
  | assignment {name sign : Token} {tokens : List Token} {tree : Tree} :
      name.kind = .variable → sign.kind = .operator .assign →
      InputTape.Expression.Derives .comparison tokens tree →
      Derives (name :: sign :: tokens) (.assignment name.text tree)

/-- Evaluate a statement. A variable changes once its new value is there. -/
def Statement.evaluate (store : Store) (statement : Statement) :
    Interaction Request Request.Answer (Except EvaluationError Value × Store) :=
  match statement with
  | .expression tree => do return (← (tree.evaluate store).run, store)
  | .assignment name tree => do
    match ← (tree.evaluate store).run with
    | .ok value => return (.ok value, store.set name value)
    | .error error => return (.error error, store)

namespace Derives

variable {level : Level} {tokens : List Token} {tree : Tree}

theorem head (derives : Derives level tokens tree) :
    ∃ token rest, tokens = token :: rest ∧ token.kind ≠ .closeParen := by
  induction derives with
  | operand _ _ ih => exact ih
  | operation _ _ _ _ ih _ =>
    obtain ⟨token, rest, rfl, other⟩ := ih
    exact ⟨token, _, rfl, other⟩
  | negation kind | number kind | text kind | lookup kind | constant kind | parentheses kind =>
    exact ⟨_, _, rfl, by rw [kind]; exact TokenKind.noConfusion⟩
  | call isName =>
    refine ⟨_, _, rfl, fun same => ?_⟩
    simp only [same, IsName] at isName

theorem of_primary (derives : Derives .primary tokens tree) : Derives level tokens tree := by
  have unary : Derives .unary tokens tree := .operand (by decide) derives
  have product : Derives .product tokens tree := .operand (by decide) unary
  have sum : Derives .sum tokens tree := .operand (by decide) product
  cases level with
  | comparison => exact .operand (by decide) sum
  | sum => exact sum
  | product => exact product
  | unary => exact unary
  | primary => exact derives

theorem length_pos (derives : Derives level tokens tree) : 0 < tokens.length := by
  obtain ⟨token, rest, rfl, _⟩ := derives.head
  exact Nat.succ_pos _

theorem head_primary (derives : Derives .primary tokens tree) :
    ∃ token rest, tokens = token :: rest ∧ token.kind ≠ .operator .minus := by
  cases derives with
  | operand other => exact absurd rfl other
  | operation _ _ joins => cases joins
  | number kind | text kind | lookup kind | constant kind | parentheses kind =>
    exact ⟨_, _, rfl, by rw [kind]; exact TokenKind.noConfusion⟩
  | call isName =>
    refine ⟨_, _, rfl, fun same => ?_⟩
    simp only [same, IsName] at isName

end Derives

theorem Separated.mem {arguments : List (List Token × Tree)} {tokens : List Token}
    (separated : Separated arguments tokens) {token : Token} (member : token ∈ tokens) :
    token.kind = .comma ∨ ∃ argument ∈ arguments, token ∈ argument.1 := by
  induction separated with
  | none => cases member
  | one => exact .inr ⟨_, .head _, member⟩
  | more comma _ ih =>
    rcases List.mem_append.mp member with here | member
    · exact .inr ⟨_, .head _, here⟩
    -- Behind the first phrase there is the comma, and then the others.
    · rcases List.mem_cons.mp member with rfl | member
      · exact .inl comma
      · exact (ih member).imp_right fun ⟨argument, among, inside⟩ => ⟨argument, .tail _ among, inside⟩

theorem Separated.length_le {arguments : List (List Token × Tree)} {tokens : List Token}
    (separated : Separated arguments tokens) {argument : List Token × Tree}
    (member : argument ∈ arguments) : argument.1.length ≤ tokens.length := by
  induction separated with
  | none => cases member
  | one =>
    cases member with
    | head => exact Nat.le_refl _
    | tail _ member => cases member
  | more _ _ ih =>
    simp only [List.length_append, List.length_cons]
    cases member with
    | head => omega
    | tail _ member =>
      have shorter := ih member
      omega

theorem Derives.not_assign {level : Level} {tokens : List Token} {tree : Tree}
    (derives : Derives level tokens tree) :
    ∀ token ∈ tokens, token.kind ≠ .operator .assign := by
  induction derives with
  | operand _ _ ih => exact ih
  | @operation level _ _ token operator _ _ _ kind joins _ left right =>
    -- An assignment joins expressions of no level.
    have here : token.kind ≠ .operator .assign := by
      rw [kind]
      cases level <;> simp only [Level.operators, List.mem_cons, List.not_mem_nil, or_false] at joins
      all_goals rcases joins with rfl | rfl <;> decide
    intro other member
    rcases List.mem_append.mp member with member | member
    · exact left other member
    · rcases List.mem_cons.mp member with rfl | member
      · exact here
      · exact right other member
  | negation minus _ ih =>
    exact List.forall_mem_cons.mpr ⟨by rw [minus]; decide, ih⟩
  | number kind _ | text kind | lookup kind | constant kind _ =>
    exact List.forall_mem_cons.mpr ⟨by rw [kind]; decide, List.forall_mem_nil _⟩
  | parentheses left _ right ih =>
    simp only [List.forall_mem_cons, List.forall_mem_append, List.not_mem_nil, false_imp_iff,
      implies_true, and_true, left, right]
    exact ⟨by decide, ih, by decide⟩
  | @call name _ _ _ tokens isName left separated _ right ih =>
    have named : name.kind ≠ .operator .assign := by
      intro same
      simp only [same, IsName] at isName
    have inside : ∀ token ∈ tokens, token.kind ≠ .operator .assign := by
      intro token member
      rcases separated.mem member with comma | ⟨argument, among, member⟩
      · rw [comma]; decide
      · exact ih argument among token member
    simp only [List.forall_mem_cons, List.forall_mem_append, List.not_mem_nil, false_imp_iff,
      implies_true, and_true, left, right]
    exact ⟨named, by decide, inside, by decide⟩

end InputTape.Expression
