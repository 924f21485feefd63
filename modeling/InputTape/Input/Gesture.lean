import InputTape.Input.Key
import InputTape.Input.Mouse

/-! Gestures: everything that can be asked of an input device. -/

set_option autoImplicit false

namespace InputTape

inductive Gesture where
  | mouseMove (dx dy : Int32)
  | mouseMoveTo (x y : Int32)
  | mouseDown (button : MouseButton)
  | mouseUp (button : MouseButton)
  | mouseWheel (amount : Int32)
  | keyDown (key : KeyCode)
  | keyUp (key : KeyCode)
  | releaseKeys
  | releaseButtons
  | setScreen (width height : UInt32)
  deriving DecidableEq, Repr

inductive DeviceError where
  | invalidScreen (width height : UInt32)
  | failure (reason : String)
  deriving DecidableEq, Repr

def DeviceError.message : DeviceError → String
  | .invalidScreen width height =>
    "invalid screen resolution " ++ toString width.toNat ++ "x" ++ toString height.toNat
  | .failure reason => "input backend failure: " ++ reason

def MouseAction.gesture (action : MouseAction) (x y wheel : Int32) : Gesture :=
  match action with
  | .move => .mouseMove x y
  | .moveTo => .mouseMoveTo x y
  | .wheel => .mouseWheel wheel
  | .leftDown => .mouseDown .left
  | .leftUp => .mouseUp .left
  | .rightDown => .mouseDown .right
  | .rightUp => .mouseUp .right
  | .middleDown => .mouseDown .middle
  | .middleUp => .mouseUp .middle

def KeyAction.gesture (action : KeyAction) (key : KeyCode) : Gesture :=
  match action with
  | .down => .keyDown key
  | .up => .keyUp key

end InputTape
