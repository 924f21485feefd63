import InputTape.Decimal.Exact
import InputTape.Decimal.Layout

/-! Clock readings and durations, in whole nanoseconds.

A duration computed from fractional seconds is the nearest whole number of
nanoseconds, a tie going to the even one. It is below 2 ^ 64 seconds.
-/

set_option autoImplicit false

namespace InputTape

/-- Nanoseconds since the clock started. -/
abbrev Time := Nat

abbrev Duration := Nat

namespace Duration

def ofMicroseconds (n : Nat) : Duration := n * 1000

def ofMilliseconds (n : Nat) : Duration := n * 1000000

def limit : Nat := Nat.pow 2 64 * 1000000000

def ofSeconds? (seconds : Float) : Option Duration := do
  let parts ← ExactFloat.ofFloat? seconds
  let nanoseconds := roundQuotient (parts.numerator * 1000000000) parts.denominator
  if seconds < 0 || limit ≤ nanoseconds then none else some nanoseconds

def fractionText (whole fraction places : Nat) (unit : String) : String :=
  let digits := Decimal.digitText fraction
  let padded := List.replicate (places - digits.length) '0' ++ digits
  let kept := (padded.reverse.dropWhile (· == '0')).reverse
  let point := if kept.isEmpty then "" else "."
  String.ofList (Decimal.digitText whole) ++ point ++ String.ofList kept ++ unit

/-- The duration in the largest unit that has a whole part. -/
def text (d : Duration) : String :=
  if 1000000000 ≤ d then fractionText (d / 1000000000) (d % 1000000000) 9 "s"
  else if 1000000 ≤ d then fractionText (d / 1000000) (d % 1000000) 6 "ms"
  else if 1000 ≤ d then fractionText (d / 1000) (d % 1000) 3 "µs"
  else fractionText d 0 0 "ns"

end Duration

/-- A time by so much later. Clocks count fewer than 2 ^ 63 seconds. -/
def Time.after? (time : Time) (wait : Duration) : Option Time :=
  if time + wait < Nat.pow 2 63 * 1000000000 then some (time + wait) else none

inductive WaitOutcome where
  | reached
  | cancelled
  deriving DecidableEq, Repr

end InputTape
