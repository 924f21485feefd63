import InputTape.Decimal.Exact

/-! The decimal with the fewest digits that reads back to a given double.

For one digit, two digits, and so on, the two neighbours of the value on the
grid of decimals with that many digits are tried. The first grid with a neighbour
that reads back wins; of two neighbours the nearer is taken.
-/

set_option autoImplicit false

namespace InputTape

/-- `digits` · 10 ^ `exponent`. -/
structure Decimal where
  digits : Nat
  exponent : Int
  deriving DecidableEq, Repr

namespace Decimal

/-- The double nearest to a decimal; a tie goes to the even mantissa. -/
def toFloat (d : Decimal) : Float :=
  Float.ofScientific d.digits (d.exponent < 0) d.exponent.natAbs

def stripZeros (d : Decimal) : Nat → Decimal
  | 0 => d
  | limit + 1 =>
    if d.digits != 0 && d.digits % 10 == 0 then
      stripZeros ⟨d.digits / 10, d.exponent + 1⟩ limit
    else d

inductive Tie where
  | upward
  | toEven
  deriving DecidableEq, Repr

section Search

variable (magnitude : ExactFloat)

def isBelowPower (scale : Int) : Bool :=
  magnitude.numerator * Nat.pow 10 (-scale).toNat
    < Nat.pow 10 scale.toNat * magnitude.denominator

/-- The least scale with the magnitude below 10 ^ scale. The binary logarithm gives it up to
two steps. -/
def decimalScale : Int :=
  let binary : Int := (magnitude.mantissa.log2 : Int) + magnitude.exponent
  let estimate := Int.fdiv (binary * 30103) 100000
  if isBelowPower magnitude estimate then estimate
  else if isBelowPower magnitude (estimate + 1) then estimate + 1
  else estimate + 2

def withDigits? (x : Float) (tie : Tie) (scale : Int) (count : Nat) : Option Decimal :=
  let grid := scale - count
  let numerator := magnitude.numerator * Nat.pow 10 (-grid).toNat
  let denominator := magnitude.denominator * Nat.pow 10 grid.toNat
  let floor := numerator / denominator
  let readsBack (digits : Nat) : Bool := (Decimal.toFloat ⟨digits, grid⟩).toBits == x.toBits
  match readsBack floor, readsBack (floor + 1) with
  | false, false => none
  | true, false => some ⟨floor, grid⟩
  | false, true => some ⟨floor + 1, grid⟩
  | true, true =>
    match compare (2 * (numerator % denominator)) denominator, tie with
    | .lt, _ => some ⟨floor, grid⟩
    | .gt, _ => some ⟨floor + 1, grid⟩
    | .eq, .upward => some ⟨floor + 1, grid⟩
    | .eq, .toEven => some ⟨floor + floor % 2, grid⟩

/-- The exact value; every double has a finite decimal expansion. -/
def exact : Decimal :=
  if 0 ≤ magnitude.exponent then ⟨magnitude.numerator, 0⟩
  else ⟨magnitude.mantissa * Nat.pow 5 magnitude.exponent.natAbs, magnitude.exponent⟩

end Search

/-- The decimal with the fewest digits that reads back to `x`, a finite positive double with the
given parts. -/
def shortest (x : Float) (parts : ExactFloat) (tie : Tie) : Decimal :=
  let scale := decimalScale parts
  let found := (List.range 17).findSome? fun less => withDigits? parts x tie scale (less + 1)
  (found.getD (exact parts)).stripZeros 17

end Decimal
end InputTape
