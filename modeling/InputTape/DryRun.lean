import InputTape.Input.Gesture
import InputTape.Journal
import InputTape.Sequence.Text

/-! An input device that moves nothing.

It keeps where the cursor would be and which keys and buttons would be held, and writes down what
it is asked. The cursor never leaves the screen.
-/

set_option autoImplicit false

namespace InputTape

structure Cursor where
  x : Int32
  y : Int32
  deriving DecidableEq, Repr

def Cursor.text (cursor : Cursor) : String :=
  "(" ++ int32Text cursor.x ++ ", " ++ int32Text cursor.y ++ ")"

structure DryRun where
  cursor : Cursor
  width : UInt32
  height : UInt32
  /-- Held keys and buttons, each once. -/
  keys : List KeyCode
  buttons : List MouseButton
  deriving DecidableEq, Repr

namespace DryRun

def create (width height : UInt32) : DryRun := ⟨⟨0, 0⟩, max width 1, max height 1, [], []⟩

def clampTo (size : UInt32) (x : Int32) : Int32 :=
  let last : Int := min (size.toNat - 1) 2147483647
  Int32.ofInt (max 0 (min last x.toInt))

/-- The sum, or the end of the range that it goes beyond. -/
def saturatingAdd (x dx : Int32) : Int32 :=
  Int32.ofInt (max (-2147483648) (min 2147483647 (x.toInt + dx.toInt)))

def moveTo (device : DryRun) (x y : Int32) : DryRun :=
  { device with cursor := ⟨clampTo device.width x, clampTo device.height y⟩ }

def heldKeys (device : DryRun) : List KeyCode :=
  device.keys.mergeSort fun left right => left.code ≤ right.code

def heldButtons (device : DryRun) : List MouseButton :=
  MouseButton.all.filter device.buttons.contains

/-- What the device becomes by a gesture, and what it writes down. Only a screen without pixels is
refused. -/
def perform (device : DryRun) (gesture : Gesture) :
    Except DeviceError (DryRun × List Journal.Entry) :=
  match gesture with
  | .mouseMove dx dy =>
    let moved := device.moveTo (saturatingAdd device.cursor.x dx)
      (saturatingAdd device.cursor.y dy)
    .ok (moved, [⟨.info, "mouse move by " ++ Cursor.text ⟨dx, dy⟩ ++ " -> " ++ moved.cursor.text⟩])
  | .mouseMoveTo x y =>
    let moved := device.moveTo x y
    .ok (moved, [⟨.info, "mouse move to " ++ moved.cursor.text⟩])
  | .mouseDown button =>
    .ok ({ device with buttons := device.buttons.insert button },
      [⟨.info, "mouse " ++ button.name ++ " down at " ++ device.cursor.text⟩])
  | .mouseUp button =>
    .ok ({ device with buttons := device.buttons.filter (· != button) },
      notHeld (device.buttons.contains button) ("mouse " ++ button.name)
        ++ [⟨.info, "mouse " ++ button.name ++ " up at " ++ device.cursor.text⟩])
  | .mouseWheel amount => .ok (device, [⟨.info, "mouse wheel " ++ int32Text amount⟩])
  | .keyDown key =>
    .ok ({ device with keys := device.keys.insert key }, [⟨.info, "key " ++ key.text ++ " down"⟩])
  | .keyUp key =>
    .ok ({ device with keys := device.keys.filter (· != key) },
      notHeld (device.keys.contains key) ("key " ++ key.text)
        ++ [⟨.info, "key " ++ key.text ++ " up"⟩])
  | .releaseKeys =>
    .ok ({ device with keys := [] },
      device.heldKeys.map fun key => ⟨.info, "key " ++ key.text ++ " released"⟩)
  | .releaseButtons =>
    .ok ({ device with buttons := [] },
      device.heldButtons.map fun button => ⟨.info, "mouse " ++ button.name ++ " released"⟩)
  | .setScreen width height =>
    if width == 0 || height == 0 then .error (.invalidScreen width height)
    else
      let resized := { device with width := width, height := height }
      .ok (resized.moveTo device.cursor.x device.cursor.y,
        [⟨.debug, "screen resolution set to " ++ toString width.toNat ++ "x"
          ++ toString height.toNat⟩])
where
  notHeld (isHeld : Bool) (what : String) : List Journal.Entry :=
    if isHeld then [] else [⟨.debug, what ++ " released while not held"⟩]

end DryRun
end InputTape
