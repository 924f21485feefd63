import InputTape.Decimal.Reading
import InputTape.Decimal.Words
import InputTape.Script.Line
import InputTape.Script.Problem
import InputTape.Text.LowerCase

/-! Statements, one to a line, and how they are read from tokens.

Reading stops at the first problem. A statement is read as far as it goes; what stands behind it
on its line is left over for whoever asked.
-/

set_option autoImplicit false

namespace InputTape.Script

/-- One line of a script. A negated condition is one written with `!=`. -/
inductive Statement where
  | delay (milliseconds : Float)
  | mouse (action : MouseAction) (x y wheel : Int32)
  | key (action : KeyAction) (code : KeyCode)
  | script (lines : List String)
  | exit
  | ifBlock (condition : Condition) (negated : Bool)
  | elseBlock
  | endIf
  | whileBlock (condition : Condition) (negated : Bool)
  | endWhile
  | leave
  | label (name : String)
  | goto (name : String)
  deriving BEq, Repr

inductive Parameter where
  | number (value : Float)
  | string (text : String)
  | word (text : String)
  deriving BEq, Repr

abbrev LineReader := StateT Line (Except Problem)

namespace LineReader

/-- The next token, if the line has one. An unclosed string is a problem once it is reached. -/
def next? : LineReader (Option Token) := do
  let line ← get
  match line.tokens with
  | token :: rest => set { line with tokens := rest }; return some token
  | [] => if line.isUnterminated then throw .unterminatedString else return none

def peek? : LineReader (Option TokenKind) := do
  let line ← get
  match line.tokens with
  | token :: _ => return some token.kind
  | [] => if line.isUnterminated then throw .unterminatedString else return none

def expectAny (what : String) : LineReader Token := do
  match ← next? with
  | some token => return token
  | none => throw (.expected what)

def expect (kind : TokenKind) (what : String) : LineReader Token := do
  let token ← expectAny what
  if token.kind == kind then return token else throw (.expectedNot what token.text)

def finish : LineReader Unit := do
  if let some token ← next? then throw (.trailing token.text)

def number (token : Token) : LineReader Float :=
  match Decimal.readFloat? token.text with
  | some value => return value
  | none => throw (.invalidNumber token.text)

/-- One parameter of a command: a number with an optional minus, a string or a word. -/
def parameter (command : String) : LineReader Parameter := do
  let token ← expectAny ("a parameter for " ++ command)
  match token.kind with
  | .operator .minus =>
    let digits ← expect .number "a number after '-'"
    return .number (-(← number digits))
  | .number => return .number (← number token)
  | .string => return .string token.text
  | .word | .keyword _ => return .word token.text
  | _ => throw (.malformedParameters command token.text)

/-- Parameters up to the closing parenthesis. Each takes a token, so no more are read than the
line has tokens. -/
def parametersFrom (command : String) : Nat → LineReader (List Parameter)
  | 0 => return [← parameter command]
  | limit + 1 => do
    let first ← parameter command
    let token ← expectAny ("',' or ')' in " ++ command ++ " parameters")
    match token.kind with
    | .comma => return first :: (← parametersFrom command limit)
    | .closeParen => return [first]
    | _ => throw (.malformedParameters command token.text)

def parameters (command : String) : LineReader (List Parameter) := do
  discard <| expect .openParen ("'(' after " ++ command)
  if (← peek?) == some .closeParen then
    discard next?
    return []
  parametersFrom command (← get).tokens.length

end LineReader

open LineReader

def Parameter.int32 (what : String) : Parameter → Except Problem Int32
  | .number value => match int32? value with
    | some n => .ok n
    | none => .error (.notInteger what)
  | _ => .error (.notInteger what)

def Parameter.component (color : String) : Parameter → Except Problem UInt8
  | .number value => match uint8? value with
    | some n => .ok n
    | none => .error (.notComponent color)
  | _ => .error (.notComponent color)

namespace Statement

def ofDelay : List Parameter → Except Problem Statement
  | [.number milliseconds] =>
    if milliseconds < 0 then .error .delayNegative
    else if milliseconds > longestDelay then .error .delayTooLong
    else .ok (.delay milliseconds)
  | _ => .error .delayParameters

def wheelAmount (action : MouseAction) : List Parameter → Except Problem Int32
  | [] => .ok 0
  | amount :: _ =>
    if action == .wheel then amount.int32 "Mouse wheel delta" else .error .wheelParameterMisplaced

def ofMouse (parameters : List Parameter) : Except Problem Statement := do
  match parameters with
  | first :: x :: y :: more =>
    if 1 < more.length then throw .mouseParameters
    let action ← match first with
      | .word name => match MouseAction.ofName? name with
        | some action => pure action
        | none => throw (.unknownMouseAction name)
      | _ => throw .mouseActionMissing
    let x ← x.int32 "Mouse x"
    let y ← y.int32 "Mouse y"
    return .mouse action x y (← wheelAmount action more)
  | _ => throw .mouseParameters

def ofKey (parameters : List Parameter) : Except Problem Statement := do
  match parameters with
  | [first, second] =>
    let action ← match first with
      | .word name => match KeyAction.ofName? name with
        | some action => pure action
        | none => throw (.unknownKeyAction name)
      | _ => throw .keyActionMissing
    let code ← match second with
      | .word name => match KeyCode.ofName? name with
        | some code => pure code
        | none => throw (.unknownKey name)
      | .number value => match uint16? value with
        | some code => pure ⟨code⟩
        | none => throw .keyMissing
      | .string _ => throw .keyMissing
    return .key action code
  | _ => throw .keyParameters

def ofScript (parameters : List Parameter) : Except Problem Statement := do
  if parameters.isEmpty then throw .scriptEmpty
  let lines ← parameters.mapM fun
    | .string text => pure text
    | _ => throw .scriptLineNoString
  return .script lines

end Statement

def colorOf (hasAlpha : Bool) (parameters : List Parameter) :
    Except Problem (Color × UInt8) := do
  let name := if hasAlpha then "ARGB" else "RGB"
  let channels := if hasAlpha then 4 else 3
  if parameters.length != channels && parameters.length != channels + 1 then
    throw (.colorParameters name channels)
  match hasAlpha, ← parameters.mapM (·.component name) with
  | false, r :: g :: b :: more => return (.opaqueRgb r g b, more.head?.getD 0)
  | true, a :: r :: g :: b :: more => return (⟨a, r, g, b⟩, more.head?.getD 0)
  | _, _ => throw (.colorParameters name channels)

def pixelCondition : LineReader (Condition × Bool) := do
  match ← parameters "PixelColor" with
  | [x, y] =>
    let x ← x.int32 "PixelColor x"
    let y ← y.int32 "PixelColor y"
    let negated ← match (← expectAny "'==' or '!='").kind with
      | .operator .equal => pure false
      | .operator .notEqual => pure true
      | _ => throw .comparisonMissing
    let hasAlpha ← match (← expectAny "RGB(...) or ARGB(...)").kind with
      | .keyword .rgb => pure false
      | .keyword .argb => pure true
      | _ => throw .colorMissing
    let (color, tolerance) ← colorOf hasAlpha
      (← parameters (if hasAlpha then "ARGB" else "RGB"))
    return (.pixel x y color tolerance, negated)
  | _ => throw .pixelParameters

def parenthesisedCondition : LineReader (Condition × Bool) := do
  discard <| expect .openParen "'(' before the condition"
  let token ← expectAny "a condition"
  let condition ← match token.kind with
    | .keyword .pixelColor => pixelCondition
    | .keyword .custom => match ← parameters "Custom" with
      | [.string source] => pure (.expression source, false)
      | _ => throw .customParameters
    | _ => throw (.notCondition token.text)
  discard <| expect .closeParen "')' after the condition"
  return condition

def isHidden (name : String) : Bool := hiddenPrefix.toList.isPrefixOf (Text.lower name).toList

def labelName (command : String) : LineReader String := do
  let token ← expectAny "a label name"
  if token.kind != .word then throw (.notLabelName command token.text)
  if isHidden token.text then throw .reservedLabel
  return token.text

def Statement.read (token : Token) : Keyword → LineReader Statement
  | .delay => do Statement.ofDelay (← parameters "Delay")
  | .mouse => do Statement.ofMouse (← parameters "Mouse")
  | .key => do Statement.ofKey (← parameters "Key")
  | .script => do Statement.ofScript (← parameters "Script")
  | .exit => return .exit
  | .ifBlock => do
    let (condition, negated) ← parenthesisedCondition
    return .ifBlock condition negated
  | .elseBlock => return .elseBlock
  | .endIf => return .endIf
  | .whileBlock => do
    let (condition, negated) ← parenthesisedCondition
    return .whileBlock condition negated
  | .endWhile => return .endWhile
  | .leave => return .leave
  | .label => return .label (← labelName "label")
  | .goto => return .goto (← labelName "goto")
  | .pixelColor | .rgb | .argb | .custom => throw (.conditionWord token.text)

def statement? : LineReader (Option Statement) := do
  match ← next? with
  | none => return none
  | some token => match token.kind with
    | .keyword keyword => return some (← Statement.read token keyword)
    | .unknown => throw (.unexpectedCharacter token.text)
    | _ => throw (.unknownCommand token.text)

end InputTape.Script
