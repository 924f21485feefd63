/-! Virtual keys and their names. -/

set_option autoImplicit false

namespace InputTape

structure KeyCode where
  code : UInt16
  deriving DecidableEq, Repr

/-- A spelling of a key. Several spellings may share a code and then share its name. -/
structure KeySpelling where
  spelling : String
  code : UInt16
  name : String

/-- Every spelling, in lower case, ordered by code. -/
def keySpellings : List KeySpelling := [
  ⟨"backspace", 0x08, "Backspace"⟩,
  ⟨"tab", 0x09, "Tab"⟩,
  ⟨"return", 0x0D, "Return"⟩,
  ⟨"enter", 0x0D, "Return"⟩,
  ⟨"shift", 0x10, "Shift"⟩,
  ⟨"control", 0x11, "Control"⟩,
  ⟨"ctrl", 0x11, "Control"⟩,
  ⟨"alt", 0x12, "Alt"⟩,
  ⟨"pause", 0x13, "Pause"⟩,
  ⟨"capslock", 0x14, "CapsLock"⟩,
  ⟨"escape", 0x1B, "Escape"⟩,
  ⟨"esc", 0x1B, "Escape"⟩,
  ⟨"space", 0x20, "Space"⟩,
  ⟨"pageup", 0x21, "PageUp"⟩,
  ⟨"pagedown", 0x22, "PageDown"⟩,
  ⟨"end", 0x23, "End"⟩,
  ⟨"home", 0x24, "Home"⟩,
  ⟨"left", 0x25, "Left"⟩,
  ⟨"up", 0x26, "Up"⟩,
  ⟨"right", 0x27, "Right"⟩,
  ⟨"down", 0x28, "Down"⟩,
  ⟨"printscreen", 0x2C, "PrintScreen"⟩,
  ⟨"insert", 0x2D, "Insert"⟩,
  ⟨"delete", 0x2E, "Delete"⟩,
  ⟨"d0", 0x30, "D0"⟩,
  ⟨"d1", 0x31, "D1"⟩,
  ⟨"d2", 0x32, "D2"⟩,
  ⟨"d3", 0x33, "D3"⟩,
  ⟨"d4", 0x34, "D4"⟩,
  ⟨"d5", 0x35, "D5"⟩,
  ⟨"d6", 0x36, "D6"⟩,
  ⟨"d7", 0x37, "D7"⟩,
  ⟨"d8", 0x38, "D8"⟩,
  ⟨"d9", 0x39, "D9"⟩,
  ⟨"a", 0x41, "A"⟩,
  ⟨"b", 0x42, "B"⟩,
  ⟨"c", 0x43, "C"⟩,
  ⟨"d", 0x44, "D"⟩,
  ⟨"e", 0x45, "E"⟩,
  ⟨"f", 0x46, "F"⟩,
  ⟨"g", 0x47, "G"⟩,
  ⟨"h", 0x48, "H"⟩,
  ⟨"i", 0x49, "I"⟩,
  ⟨"j", 0x4A, "J"⟩,
  ⟨"k", 0x4B, "K"⟩,
  ⟨"l", 0x4C, "L"⟩,
  ⟨"m", 0x4D, "M"⟩,
  ⟨"n", 0x4E, "N"⟩,
  ⟨"o", 0x4F, "O"⟩,
  ⟨"p", 0x50, "P"⟩,
  ⟨"q", 0x51, "Q"⟩,
  ⟨"r", 0x52, "R"⟩,
  ⟨"s", 0x53, "S"⟩,
  ⟨"t", 0x54, "T"⟩,
  ⟨"u", 0x55, "U"⟩,
  ⟨"v", 0x56, "V"⟩,
  ⟨"w", 0x57, "W"⟩,
  ⟨"x", 0x58, "X"⟩,
  ⟨"y", 0x59, "Y"⟩,
  ⟨"z", 0x5A, "Z"⟩,
  ⟨"lwin", 0x5B, "LWin"⟩,
  ⟨"rwin", 0x5C, "RWin"⟩,
  ⟨"numpad0", 0x60, "NumPad0"⟩,
  ⟨"numpad1", 0x61, "NumPad1"⟩,
  ⟨"numpad2", 0x62, "NumPad2"⟩,
  ⟨"numpad3", 0x63, "NumPad3"⟩,
  ⟨"numpad4", 0x64, "NumPad4"⟩,
  ⟨"numpad5", 0x65, "NumPad5"⟩,
  ⟨"numpad6", 0x66, "NumPad6"⟩,
  ⟨"numpad7", 0x67, "NumPad7"⟩,
  ⟨"numpad8", 0x68, "NumPad8"⟩,
  ⟨"numpad9", 0x69, "NumPad9"⟩,
  ⟨"multiply", 0x6A, "Multiply"⟩,
  ⟨"add", 0x6B, "Add"⟩,
  ⟨"subtract", 0x6D, "Subtract"⟩,
  ⟨"decimal", 0x6E, "Decimal"⟩,
  ⟨"divide", 0x6F, "Divide"⟩,
  ⟨"f1", 0x70, "F1"⟩,
  ⟨"f2", 0x71, "F2"⟩,
  ⟨"f3", 0x72, "F3"⟩,
  ⟨"f4", 0x73, "F4"⟩,
  ⟨"f5", 0x74, "F5"⟩,
  ⟨"f6", 0x75, "F6"⟩,
  ⟨"f7", 0x76, "F7"⟩,
  ⟨"f8", 0x77, "F8"⟩,
  ⟨"f9", 0x78, "F9"⟩,
  ⟨"f10", 0x79, "F10"⟩,
  ⟨"f11", 0x7A, "F11"⟩,
  ⟨"f12", 0x7B, "F12"⟩,
  ⟨"numlock", 0x90, "NumLock"⟩,
  ⟨"scrolllock", 0x91, "ScrollLock"⟩,
  ⟨"lshift", 0xA0, "LShift"⟩,
  ⟨"rshift", 0xA1, "RShift"⟩,
  ⟨"lcontrol", 0xA2, "LControl"⟩,
  ⟨"rcontrol", 0xA3, "RControl"⟩,
  ⟨"lalt", 0xA4, "LAlt"⟩,
  ⟨"ralt", 0xA5, "RAlt"⟩]

namespace KeyCode

def ofName? (name : String) : Option KeyCode :=
  (keySpellings.find? (·.spelling == name.toLower)).map fun row => ⟨row.code⟩

def name? (key : KeyCode) : Option String :=
  (keySpellings.find? (·.code == key.code)).map (·.name)

def text (key : KeyCode) : String := key.name?.getD (toString key.code.toNat)

end KeyCode

inductive KeyAction where
  | down
  | up
  deriving DecidableEq, Repr

namespace KeyAction

def name : KeyAction → String
  | .down => "Down"
  | .up => "Up"

def all : List KeyAction := [.down, .up]

def ofName? (name : String) : Option KeyAction :=
  all.find? (·.name.toLower == name.toLower)

end KeyAction
end InputTape
