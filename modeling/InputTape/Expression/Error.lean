import InputTape.Expression.Value
import InputTape.Input.Gesture
import InputTape.Script.Token

/-! Why an expression has no value. -/

set_option autoImplicit false

namespace InputTape

inductive SyntaxProblem where
  | empty
  | unterminatedString
  | unexpected (text : String)
  | unexpectedWord (text : String)
  | valueMissing
  | closingMissing
  | separatorMissing
  | invalidNumber (text : String)
  deriving DecidableEq, Repr

def SyntaxProblem.message : SyntaxProblem → String
  | .empty => "empty expression"
  | .unterminatedString => "unterminated string literal"
  | .unexpected text => "unexpected '" ++ text ++ "'"
  | .unexpectedWord text => "unexpected word '" ++ text ++ "'"
  | .valueMissing => "expected a value"
  | .closingMissing => "expected ')'"
  | .separatorMissing => "expected ',' or ')' in argument list"
  | .invalidNumber text => "invalid number '" ++ text ++ "'"

inductive TypeProblem where
  | operands (operator : Script.Operator) (left right : ValueKind)
  | negation (kind : ValueKind)
  | textExpected (kind : ValueKind)
  | numbersExpected (function : String) (kind : ValueKind)
  | keyExpected (kind : ValueKind)
  | unknownKey (name : String)
  | buttonExpected (function : String) (kind : ValueKind)
  | unknownButton (name : String)
  deriving DecidableEq, Repr

def TypeProblem.message : TypeProblem → String
  | .operands operator left right =>
    "cannot apply '" ++ operator.symbol ++ "' to " ++ left.name ++ " and " ++ right.name
  | .negation kind => "cannot negate a " ++ kind.name
  | .textExpected kind => "len() expects text, got " ++ kind.name
  | .numbersExpected function kind => function ++ "() expects numbers, got " ++ kind.name
  | .keyExpected kind => "expected a key name or code, got " ++ kind.name
  | .unknownKey name => "unknown key '" ++ name ++ "'"
  | .buttonExpected function kind => function ++ "() expects a button name, got " ++ kind.name
  | .unknownButton name => "unknown mouse button '" ++ name ++ "'"

inductive EvaluationError where
  | badSyntax (column : Nat) (problem : SyntaxProblem)
  | undefinedVariable (name : String)
  | unknownFunction (name : String)
  | arity (name : String) (expected found : Nat)
  | type (problem : TypeProblem)
  | divisionByZero
  | device (error : DeviceError)
  deriving DecidableEq, Repr

def EvaluationError.message : EvaluationError → String
  | .badSyntax column problem =>
    "syntax error at column " ++ toString column ++ ": " ++ problem.message
  | .undefinedVariable name => "undefined variable '$" ++ name ++ "'"
  | .unknownFunction name => "unknown function '" ++ name ++ "'"
  | .arity name expected found =>
    name ++ "() expects " ++ toString expected ++ " argument(s), got " ++ toString found
  | .type problem => "type error: " ++ problem.message
  | .divisionByZero => "division by zero"
  | .device error => error.message

end InputTape
