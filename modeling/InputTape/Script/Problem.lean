import InputTape.Decimal.Layout
import InputTape.Sequence.Basic

/-! What can be wrong with a script. -/

set_option autoImplicit false

namespace InputTape.Script

/-- The opening of labels that no script may define. -/
def hiddenPrefix : String := "__dsl_"

inductive BlockKind where
  | conditional
  | loop
  deriving DecidableEq, Repr

def BlockKind.opener : BlockKind → String
  | .conditional => "if"
  | .loop => "while"

inductive Problem where
  | unterminatedString
  | expected (what : String)
  | expectedNot (what found : String)
  | unexpectedCharacter (text : String)
  | unknownCommand (text : String)
  | conditionWord (text : String)
  | trailing (text : String)
  | malformedParameters (command found : String)
  | invalidNumber (text : String)
  | notInteger (what : String)
  | delayParameters
  | delayNegative
  | delayTooLong
  | mouseParameters
  | mouseActionMissing
  | unknownMouseAction (name : String)
  | wheelParameterMisplaced
  | keyParameters
  | keyActionMissing
  | unknownKeyAction (name : String)
  | keyMissing
  | unknownKey (name : String)
  | scriptEmpty
  | scriptLineNoString
  | notCondition (found : String)
  | customParameters
  | pixelParameters
  | comparisonMissing
  | colorMissing
  | colorParameters (color : String) (channels : Nat)
  | notComponent (color : String)
  | elseUnmatched
  | endIfUnmatched
  | endWhileUnmatched
  | breakOutsideLoop
  | notLabelName (command found : String)
  | reservedLabel
  | duplicateLabel (name : String)
  | unterminatedBlock (kind : BlockKind) (line : Nat)
  | undefinedLabel (name : String) (line : Nat)
  deriving DecidableEq, Repr

private def inQuotes (text : String) : String := "'" ++ text ++ "'"

def Problem.message : Problem → String
  | .unterminatedString => "unterminated string literal"
  | .expected what => "expected " ++ what
  | .expectedNot what found => "expected " ++ what ++ ", found " ++ inQuotes found
  | .unexpectedCharacter text => "unexpected character " ++ inQuotes text
  | .unknownCommand text => "unknown command " ++ inQuotes text
  | .conditionWord text => inQuotes text ++ " is only valid inside an if/while condition"
  | .trailing text => "unexpected " ++ inQuotes text ++ " after statement"
  | .malformedParameters command found =>
    "malformed parameter list for " ++ command ++ ": unexpected " ++ inQuotes found
  | .invalidNumber text => "invalid number " ++ inQuotes text
  | .notInteger what => what ++ " must be an integer"
  | .delayParameters => "Delay expects one duration in milliseconds"
  | .delayNegative => "Delay duration must not be negative"
  | .delayTooLong => "Delay duration must not exceed " ++ numberText longestDelay ++ " ms"
  | .mouseParameters => "Mouse expects (action, x, y) or (Wheel, x, y, delta)"
  | .mouseActionMissing => "Mouse expects an action name first"
  | .unknownMouseAction name => "unknown mouse action " ++ inQuotes name
  | .wheelParameterMisplaced => "only Mouse(Wheel, ...) takes a fourth parameter"
  | .keyParameters => "Key expects (action, key)"
  | .keyActionMissing => "Key expects Down or Up first"
  | .unknownKeyAction name => "unknown key action " ++ inQuotes name
  | .keyMissing => "Key expects a key name or code"
  | .unknownKey name => "unknown key " ++ inQuotes name
  | .scriptEmpty => "Script expects at least one line"
  | .scriptLineNoString => "Script lines must be backtick strings"
  | .notCondition found =>
    "expected PixelColor(...) or Custom(...) condition, found " ++ inQuotes found
  | .customParameters => "Custom expects one backtick expression"
  | .pixelParameters => "PixelColor expects (x, y)"
  | .comparisonMissing => "expected '==' or '!=' after PixelColor(...)"
  | .colorMissing => "expected RGB(...) or ARGB(...)"
  | .colorParameters color channels =>
    color ++ " expects " ++ toString channels ++ " components and an optional tolerance"
  | .notComponent color => color ++ " components must be integers 0..=255"
  | .elseUnmatched => "'else' without matching 'if'"
  | .endIfUnmatched => "'endif' without matching 'if'"
  | .endWhileUnmatched => "'endwhile' without matching 'while'"
  | .breakOutsideLoop => "'break' outside of a while loop"
  | .notLabelName command found =>
    inQuotes command ++ " expects a label name, found " ++ inQuotes found
  | .reservedLabel => "label names may not start with " ++ inQuotes hiddenPrefix
  | .duplicateLabel name => "duplicate label " ++ inQuotes name
  | .unterminatedBlock kind line =>
    "unterminated " ++ inQuotes kind.opener ++ " block opened at line " ++ toString line
  | .undefinedLabel name line =>
    "undefined label " ++ inQuotes name ++ " referenced at line " ++ toString line

structure CompileError where
  problem : Problem
  line : Nat
  deriving DecidableEq, Repr

def CompileError.message (error : CompileError) : String :=
  "compile error (line " ++ toString error.line ++ "): " ++ error.problem.message

end InputTape.Script
