import InputTape.Text.Hexadecimal

/-! Colours with an alpha channel, and their hexadecimal text. -/

set_option autoImplicit false

namespace InputTape

structure Color where
  alpha : UInt8
  red : UInt8
  green : UInt8
  blue : UInt8
  deriving DecidableEq, Repr

namespace Color

def opaqueRgb (red green blue : UInt8) : Color := ⟨255, red, green, blue⟩

def channelMatches (left right tolerance : UInt8) : Bool :=
  (if left ≤ right then right - left else left - right) ≤ tolerance

def isWithin (left right : Color) (tolerance : UInt8) : Bool :=
  channelMatches left.alpha right.alpha tolerance && channelMatches left.red right.red tolerance
    && channelMatches left.green right.green tolerance
    && channelMatches left.blue right.blue tolerance

/-- The colour of `RRGGBB` or `AARRGGBB`, behind an optional `#`. A plus sign may take the place
of the first digit. -/
def ofHex? (text : String) : Option Color := do
  let body := match text.toList with
    | '#' :: rest => rest
    | rest => rest
  let value ← Text.hexNumber? (match body with
    | '+' :: rest => rest
    | rest => rest)
  let channel (place : Nat) : UInt8 := UInt8.ofNat (value / Nat.pow 256 place)
  match (String.ofList body).utf8ByteSize with
  | 6 => some (opaqueRgb (channel 2) (channel 1) (channel 0))
  | 8 => some ⟨channel 3, channel 2, channel 1, channel 0⟩
  | _ => none

def hexText (channel : UInt8) : String :=
  String.ofList ((Nat.toDigits 16 channel.toNat).map Char.toUpper |>.leftpad 2 '0')

def text (c : Color) : String :=
  "#" ++ hexText c.alpha ++ hexText c.red ++ hexText c.green ++ hexText c.blue

end Color
end InputTape
