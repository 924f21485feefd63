import InputTape.Decimal.Words
import InputTape.Expression.Error
import InputTape.Interaction

/-! The functions of script expressions.

A call is planned first: the function is looked up, its arguments are counted and converted.
Only a plan that stands is carried out, so a call with a wrong argument does nothing.
-/

set_option autoImplicit false

namespace InputTape.Expression

inductive Request where
  | gesture (gesture : Gesture)
  | readClipboard
  | writeClipboard (text : String)
  deriving DecidableEq, Repr

abbrev Request.Answer : Request → Type
  | .gesture _ => Except DeviceError Unit
  | .readClipboard => String
  | .writeClipboard _ => Unit

/-- Something evaluated, with requests on the way, unless it fails. -/
abbrev Evaluation := ExceptT EvaluationError (Interaction Request Request.Answer)

def ask (request : Request) : Evaluation (Request.Answer request) :=
  ExceptT.lift (.send request)

inductive Builtin where
  | clipboard
  | setClipboard
  | length
  | keyDown
  | keyUp
  | mouseMove
  | mouseMoveTo
  | mouseDown
  | mouseUp
  | mouseWheel
  | releaseAll
  deriving DecidableEq, Repr

namespace Builtin

def name : Builtin → String
  | .clipboard => "clipboard"
  | .setClipboard => "set_clipboard"
  | .length => "len"
  | .keyDown => "key_down"
  | .keyUp => "key_up"
  | .mouseMove => "mouse_move"
  | .mouseMoveTo => "mouse_move_to"
  | .mouseDown => "mouse_down"
  | .mouseUp => "mouse_up"
  | .mouseWheel => "mouse_wheel"
  | .releaseAll => "release_all"

def all : List Builtin :=
  [.clipboard, .setClipboard, .length, .keyDown, .keyUp, .mouseMove, .mouseMoveTo, .mouseDown,
    .mouseUp, .mouseWheel, .releaseAll]

def ofName? (name : String) : Option Builtin := all.find? (·.name == name)

def arity : Builtin → Nat
  | .clipboard | .releaseAll => 0
  | .mouseMove | .mouseMoveTo => 2
  | _ => 1

end Builtin

inductive Plan where
  | answer (value : Value)
  | readClipboard
  | writeClipboard (text : String)
  | perform (gestures : List Gesture)

/-- A finite number as a coordinate: rounded, a half away from zero, and cut to the range. -/
def coordinate (function : Builtin) (value : Value) : Except EvaluationError Int32 :=
  let refused := EvaluationError.type (.numbersExpected function.name value.kind)
  match value with
  | .number x => match nearestInteger? x with
    | some n => .ok (Int32.ofInt (max (-2147483648) (min 2147483647 n)))
    | none => .error refused
  | _ => .error refused

def keyOf (value : Value) : Except EvaluationError KeyCode :=
  match value with
  | .text name => match KeyCode.ofName? name with
    | some key => .ok key
    | none => .error (.type (.unknownKey name))
  | .number x => match uint16? x with
    | some code => .ok ⟨code⟩
    | none => .error (.type (.keyExpected value.kind))
  | _ => .error (.type (.keyExpected value.kind))

def buttonOf (function : Builtin) (value : Value) : Except EvaluationError MouseButton :=
  match value with
  | .text name => match MouseButton.ofName? name with
    | some button => .ok button
    | none => .error (.type (.unknownButton name))
  | _ => .error (.type (.buttonExpected function.name value.kind))

def Builtin.plan (function : Builtin) (arguments : List Value) : Except EvaluationError Plan := do
  match function, arguments with
  | .clipboard, [] => return .readClipboard
  | .setClipboard, [value] => return .writeClipboard value.asText
  | .length, [.text text] => return .answer (.number (Float.ofNat text.length))
  | .length, [value] => throw (.type (.textExpected value.kind))
  | .keyDown, [value] => return .perform [.keyDown (← keyOf value)]
  | .keyUp, [value] => return .perform [.keyUp (← keyOf value)]
  | .mouseMove, [x, y] =>
    return .perform [.mouseMove (← coordinate function x) (← coordinate function y)]
  | .mouseMoveTo, [x, y] =>
    return .perform [.mouseMoveTo (← coordinate function x) (← coordinate function y)]
  | .mouseDown, [value] => return .perform [.mouseDown (← buttonOf function value)]
  | .mouseUp, [value] => return .perform [.mouseUp (← buttonOf function value)]
  | .mouseWheel, [value] => return .perform [.mouseWheel (← coordinate function value)]
  | .releaseAll, [] => return .perform [.releaseKeys, .releaseButtons]
  | _, _ => throw (.arity function.name function.arity arguments.length)

def performAll : List Gesture → Evaluation Unit
  | [] => return
  | gesture :: more => do
    match ← ask (.gesture gesture) with
    | .ok () => performAll more
    | .error error => throw (.device error)

def Plan.carryOut : Plan → Evaluation Value
  | .answer value => return value
  | .readClipboard => return .text (← ask .readClipboard)
  | .writeClipboard text => do ask (.writeClipboard text); return .nil
  | .perform gestures => do performAll gestures; return .nil

def call (name : String) (arguments : List Value) : Evaluation Value := do
  match Builtin.ofName? name with
  | none => throw (.unknownFunction name)
  | some function => (← liftExcept (function.plan arguments)).carryOut
where
  liftExcept {α : Type} : Except EvaluationError α → Evaluation α := fun result =>
    ExceptT.mk (pure result)

end InputTape.Expression
