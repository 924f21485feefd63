import InputTape.Decimal.Shortest

/-! How numbers are written.

The digits are always the shortest that read back. A layout says where the decimal
point goes, when an exponent is written, and what stands for infinity and NaN.
-/

set_option autoImplicit false

namespace InputTape

structure Layout where
  /-- Is a number whose leading digit stands for 10 ^ e written without an exponent? -/
  isPositional : Int → Bool
  wholeSuffix : String
  tie : Decimal.Tie
  nan : String
  /-- The text of an infinity, by whether it is negative. -/
  infinity : Bool → String

namespace Decimal

/-- The decimal digits of a number, most significant first. -/
def digitText (n : Nat) : List Char := Nat.toDigits 10 n

def leadingExponent (d : Decimal) : Int := (digitText d.digits).length + d.exponent - 1

def positional (d : Decimal) (wholeSuffix : String) : String :=
  let digits := digitText d.digits
  if 0 ≤ d.exponent then
    String.ofList (digits ++ List.replicate d.exponent.toNat '0') ++ wholeSuffix
  else
    let places := d.exponent.natAbs
    if places < digits.length then
      let whole := digits.length - places
      String.ofList (digits.take whole ++ '.' :: digits.drop whole)
    else
      String.ofList ('0' :: '.' :: List.replicate (places - digits.length) '0' ++ digits)

def scientific (d : Decimal) : String :=
  let exponent := d.leadingExponent
  let mantissa := match digitText d.digits with
    | [] => []
    | [digit] => [digit]
    | digit :: rest => digit :: '.' :: rest
  let sign := if exponent < 0 then "e-" else "e+"
  String.ofList mantissa ++ sign ++ String.ofList (digitText exponent.natAbs)

end Decimal

def Layout.write (layout : Layout) (x : Float) : String :=
  match ExactFloat.ofFloat? x with
  | none => if x.isNaN then layout.nan else layout.infinity (x < 0)
  | some parts =>
    let sign := if parts.negative then "-" else ""
    if parts.mantissa == 0 then sign ++ "0" ++ layout.wholeSuffix
    else
      let d := Decimal.shortest x.abs { parts with negative := false } layout.tie
      sign ++ if layout.isPositional d.leadingExponent then d.positional layout.wholeSuffix
        else d.scientific

/-- Numbers in messages never have an exponent, and whole numbers no point. -/
def Layout.message : Layout where
  isPositional := fun _ => true
  wholeSuffix := ""
  tie := .upward
  nan := "NaN"
  infinity := fun negative => if negative then "-inf" else "inf"

/-- Numbers in saved documents: positional from 10 ^ -5 to below 10 ^ 16, with a point in every
number. What is not finite has no number there. -/
def Layout.document : Layout where
  isPositional := fun e => -5 ≤ e && e ≤ 15
  wholeSuffix := ".0"
  tie := .toEven
  nan := "null"
  infinity := fun _ => "null"

def numberText (x : Float) : String := Layout.message.write x

end InputTape
