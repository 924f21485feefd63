/-! Floating-point numbers taken apart.

A finite double is an integer times a power of two. Whether it is whole, how it
rounds and how it is written are decided on that exact value, in integers.
-/

set_option autoImplicit false

namespace InputTape

/-- The nearest integer to a quotient; a tie goes to the even one. -/
def roundQuotient (numerator denominator : Nat) : Nat :=
  let quotient := numerator / denominator
  match compare (2 * (numerator % denominator)) denominator with
  | .lt => quotient
  | .gt => quotient + 1
  | .eq => quotient + quotient % 2

/-- A finite floating-point number as mantissa · 2 ^ exponent with a sign. -/
structure ExactFloat where
  negative : Bool
  mantissa : Nat
  exponent : Int
  deriving DecidableEq, Repr

namespace ExactFloat

/-- The parts of a finite number; infinities and NaN have none. -/
def ofFloat? (x : Float) : Option ExactFloat :=
  let bits := x.toBits
  let biased := ((bits >>> 52) &&& 0x7FF).toNat
  let fraction := (bits &&& 0xFFFFFFFFFFFFF).toNat
  let negative := bits >>> 63 == 1
  if biased == 0x7FF then none
  else if biased == 0 then some ⟨negative, fraction, -1074⟩
  else some ⟨negative, Nat.pow 2 52 + fraction, (biased : Int) - 1075⟩

/-- The magnitude is `numerator / denominator`. -/
def numerator (x : ExactFloat) : Nat := x.mantissa * Nat.pow 2 x.exponent.toNat

def denominator (x : ExactFloat) : Nat := Nat.pow 2 (-x.exponent).toNat

def signed (x : ExactFloat) (magnitude : Nat) : Int :=
  if x.negative then -(magnitude : Int) else magnitude

end ExactFloat

/-- The integer that a number is, if it is one. Both zeros are 0. -/
def wholeNumber? (x : Float) : Option Int := do
  let parts ← ExactFloat.ofFloat? x
  if parts.numerator % parts.denominator == 0 then
    some (parts.signed (parts.numerator / parts.denominator))
  else none

/-- The integer nearest to a finite number; a half goes away from zero. -/
def nearestInteger? (x : Float) : Option Int := do
  let parts ← ExactFloat.ofFloat? x
  some (parts.signed ((2 * parts.numerator + parts.denominator) / (2 * parts.denominator)))

end InputTape
