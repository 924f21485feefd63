/-! Mouse buttons and mouse actions. -/

set_option autoImplicit false

namespace InputTape

inductive MouseButton where
  | left
  | right
  | middle
  deriving DecidableEq, Repr

namespace MouseButton

def name : MouseButton → String
  | .left => "Left"
  | .right => "Right"
  | .middle => "Middle"

def all : List MouseButton := [.left, .right, .middle]

def ofName? (name : String) : Option MouseButton :=
  all.find? (·.name.toLower == name.toLower)

end MouseButton

/-- What a mouse instruction does. `move` is relative, `moveTo` absolute. -/
inductive MouseAction where
  | move
  | moveTo
  | leftDown
  | leftUp
  | rightDown
  | rightUp
  | middleDown
  | middleUp
  | wheel
  deriving DecidableEq, Repr

namespace MouseAction

def name : MouseAction → String
  | .move => "Move"
  | .moveTo => "MoveTo"
  | .leftDown => "LeftDown"
  | .leftUp => "LeftUp"
  | .rightDown => "RightDown"
  | .rightUp => "RightUp"
  | .middleDown => "MiddleDown"
  | .middleUp => "MiddleUp"
  | .wheel => "Wheel"

def all : List MouseAction :=
  [.move, .moveTo, .leftDown, .leftUp, .rightDown, .rightUp, .middleDown, .middleUp, .wheel]

def ofName? (name : String) : Option MouseAction :=
  all.find? (·.name.toLower == name.toLower)

/-- The button that an action presses (`true`) or releases. -/
def button? : MouseAction → Option (MouseButton × Bool)
  | .leftDown => some (.left, true)
  | .leftUp => some (.left, false)
  | .rightDown => some (.right, true)
  | .rightUp => some (.right, false)
  | .middleDown => some (.middle, true)
  | .middleUp => some (.middle, false)
  | .move | .moveTo | .wheel => none

end MouseAction
end InputTape
