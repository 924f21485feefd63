/-! Hexadecimal digits, of either case. -/

set_option autoImplicit false

namespace InputTape.Text

def hexDigit? (c : Char) : Option Nat :=
  if c.isDigit then some (c.toNat - '0'.toNat)
  else if 'a' ≤ c && c ≤ 'f' then some (c.toNat - 'a'.toNat + 10)
  else if 'A' ≤ c && c ≤ 'F' then some (c.toNat - 'A'.toNat + 10)
  else none

def hexNumber? : List Char → Option Nat
  | [] => none
  | digits => digits.foldlM (fun value digit => (hexDigit? digit).map (value * 16 + ·)) 0

end InputTape.Text
