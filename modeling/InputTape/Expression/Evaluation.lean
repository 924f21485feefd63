import InputTape.Decimal.Reading
import InputTape.Expression.Builtin
import InputTape.Script.Line

/-! Evaluating a line of script text.

A line is evaluated while it is read, from left to right. Comparisons bind least, then sums, then
products, then negation; operators of one level group to the left. A function is called as soon
as its argument list is closed, so what stands before a mistake has had its effects.
-/

set_option autoImplicit false

namespace InputTape.Expression

open Script (Token TokenKind Operator)

/-- What a line is read against: the variables, and the column behind its last character. -/
structure Scope where
  store : Store
  endColumn : Nat

/-- Reads and evaluates from the front of the tokens, and leaves the rest. -/
abbrev Reader (α : Type) := List Token → Evaluation (α × List Token)

def failAt {α : Type} (scope : Scope) (tokens : List Token) (problem : SyntaxProblem) :
    Evaluation α :=
  throw (.badSyntax ((tokens.head?.map Token.column).getD scope.endColumn) problem)

abbrev Combination := Value → Value → Except EvaluationError Value

def refuse (operator : Operator) : Combination := fun left right =>
  .error (.type (.operands operator left.kind right.kind))

def comparison? : Operator → Option Combination
  | .equal => some fun left right => .ok (.bool (left == right))
  | .notEqual => some fun left right => .ok (.bool (left != right))
  | _ => none

/-- Sum and difference. A sum with a text on either side is the texts put together. -/
def summation? : Operator → Option Combination
  | .plus => some fun left right => match left, right with
    | .number x, .number y => .ok (.number (x + y))
    | .text _, _ | _, .text _ => .ok (.text (left.asText ++ right.asText))
    | _, _ => refuse .plus left right
  | .minus => some fun left right => match left, right with
    | .number x, .number y => .ok (.number (x - y))
    | _, _ => refuse .minus left right
  | _ => none

def multiplication? : Operator → Option Combination
  | .times => some fun left right => match left, right with
    | .number x, .number y => .ok (.number (x * y))
    | _, _ => refuse .times left right
  | .divide => some fun left right => match left, right with
    | .number x, .number y => if y == 0 then .error .divisionByZero else .ok (.number (x / y))
    | _, _ => refuse .divide left right
  | _ => none

def negate : Value → Except EvaluationError Value
  | .number x => .ok (.number (-x))
  | value => .error (.type (.negation value.kind))

/-- Apply operators of one level to what was read so far, from left to right. Each takes a token,
so no more are applied than there are tokens. -/
def applyOperators (level : Operator → Option Combination) (operand : Reader Value) :
    Nat → Value → Reader Value
  | 0, left, tokens => return (left, tokens)
  | limit + 1, left, tokens =>
    match tokens with
    | ⟨.operator operator, _, _, _⟩ :: rest =>
      match level operator with
      | some combine => do
        let (right, rest) ← operand rest
        let value ← ExceptT.mk (pure (combine left right))
        applyOperators level operand limit value rest
      | none => return (left, tokens)
    | _ => return (left, tokens)

def leftToRight (level : Operator → Option Combination) (operand : Reader Value) :
    Reader Value := fun tokens => do
  let (first, rest) ← operand tokens
  applyOperators level operand rest.length first rest

def negation (primary : Reader Value) : Nat → Reader Value
  | 0, tokens => primary tokens
  | limit + 1, tokens =>
    match tokens with
    | ⟨.operator .minus, _, _, _⟩ :: rest => do
      let (value, rest) ← negation primary limit rest
      return (← ExceptT.mk (pure (negate value)), rest)
    | _ => primary tokens

def argumentsFrom (scope : Scope) (expression : Reader Value) : Nat → Reader (List Value)
  | 0, tokens => do
    let (value, rest) ← expression tokens
    return ([value], rest)
  | limit + 1, tokens => do
    let (value, rest) ← expression tokens
    match rest with
    | ⟨.comma, _, _, _⟩ :: rest =>
      let (values, rest) ← argumentsFrom scope expression limit rest
      return (value :: values, rest)
    | ⟨.closeParen, _, _, _⟩ :: rest => return ([value], rest)
    | _ => failAt scope rest .separatorMissing

def callOf (scope : Scope) (expression : Reader Value) (name : String) : Reader Value :=
  fun tokens => do
    let (values, rest) ← match tokens with
      | ⟨.closeParen, _, _, _⟩ :: rest => pure ([], rest)
      | _ => argumentsFrom scope expression tokens.length tokens
    return (← call name.toLower values, rest)

def constant? (word : String) : Option Value :=
  match word.toLower with
  | "true" => some (.bool true)
  | "false" => some (.bool false)
  | "nil" => some .nil
  | _ => none

def primary (scope : Scope) (expression : Reader Value) : Reader Value := fun tokens => do
  match tokens with
  | [] => failAt scope [] .valueMissing
  | token :: rest =>
    let refused {α : Type} (problem : SyntaxProblem) : Evaluation α :=
      throw (.badSyntax token.column problem)
    match token.kind with
    | .number => match Decimal.readFloat? token.text with
      | some value => return (.number value, rest)
      | none => refused (.invalidNumber token.text)
    | .string => return (.text token.text, rest)
    | .variable => match scope.store.get? token.text with
      | some value => return (value, rest)
      | none => throw (.undefinedVariable token.text)
    | .openParen =>
      let (value, rest) ← expression rest
      match rest with
      | ⟨.closeParen, _, _, _⟩ :: rest => return (value, rest)
      | _ => failAt scope rest .closingMissing
    | .word => match rest with
      | ⟨.openParen, _, _, _⟩ :: rest => callOf scope expression token.text rest
      | _ => match constant? token.text with
        | some value => return (value, rest)
        | none => refused (.unexpectedWord token.text)
    | .keyword _ => match rest with
      | ⟨.openParen, _, _, _⟩ :: rest => callOf scope expression token.text rest
      | _ => refused (.unexpected token.text)
    | _ => refused (.unexpected token.text)

def expression (scope : Scope) : Nat → Reader Value
  | 0 => fun tokens => failAt scope tokens .valueMissing
  | limit + 1 =>
    let operand : Reader Value := fun tokens =>
      negation (primary scope (expression scope limit)) tokens.length tokens
    leftToRight comparison? (leftToRight summation? (leftToRight multiplication? operand))

/-- The tokens of a line without blanks and comments, unless a string is not closed. -/
def significantTokens? (line : String) : Option (List Token) :=
  (Script.items line).foldr (fun item more => do
    let tokens ← more
    match item with
    | .unterminated _ => none
    | .token token => if token.kind.isSpacing then some tokens else some (token :: tokens))
    (some [])

/-- Evaluate a line: an expression, or `$name = ` and an expression. An assignment takes place
once its expression has a value, whatever may stand behind that. -/
def evaluate (store : Store) (line : String) :
    Interaction Request Request.Answer (Except EvaluationError Value × Store) := do
  match significantTokens? line with
  | none => return (.error (.badSyntax 1 .unterminatedString), store)
  | some tokens =>
    let scope : Scope := ⟨store, line.length + 1⟩
    let finish (value : Value) (rest : List Token) : Except EvaluationError Value :=
      match rest with
      | [] => .ok value
      | token :: _ => .error (.badSyntax token.column (.unexpected token.text))
    match tokens with
    | [] => return (.error (.badSyntax scope.endColumn .empty), store)
    | ⟨.variable, name, _, _⟩ :: ⟨.operator .assign, _, _, _⟩ :: body =>
      match ← (expression scope body.length body).run with
      | .error error => return (.error error, store)
      | .ok (value, rest) => return (finish value rest, store.set name value)
    | _ =>
      match ← (expression scope tokens.length tokens).run with
      | .error error => return (.error error, store)
      | .ok (value, rest) => return (finish value rest, store)

end InputTape.Expression
