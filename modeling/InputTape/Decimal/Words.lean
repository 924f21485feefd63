import InputTape.Decimal.Exact

/-! Machine words from numbers: a number is a word if it is whole and in the word's range. -/

set_option autoImplicit false

namespace InputTape

def wholeBetween? (low high : Int) (x : Float) : Option Int :=
  (wholeNumber? x).filter fun n => low ≤ n && n ≤ high

def int32? (x : Float) : Option Int32 :=
  (wholeBetween? (-2147483648) 2147483647 x).map Int32.ofInt

def uint16? (x : Float) : Option UInt16 :=
  (wholeBetween? 0 65535 x).map fun n => UInt16.ofNat n.toNat

def uint8? (x : Float) : Option UInt8 :=
  (wholeBetween? 0 255 x).map fun n => UInt8.ofNat n.toNat

end InputTape
