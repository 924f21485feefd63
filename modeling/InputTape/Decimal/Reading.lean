import InputTape.Decimal.Shortest

/-! Reading a number from its decimal text.

The text is an optional sign followed by `inf`, `infinity` or `nan` in any letter
case, or by digits with an optional point and exponent. There is at least one
digit before the exponent. The value is the double nearest to what is written.
-/

set_option autoImplicit false

namespace InputTape.Decimal

def ofDigits (digits : List Char) : Nat :=
  digits.foldl (fun value digit => value * 10 + (digit.toNat - '0'.toNat)) 0

def readExponent? : List Char → Option Int
  | [] => some 0
  | mark :: rest =>
    if mark == 'e' || mark == 'E' then
      let (negative, digits) := match rest with
        | '-' :: digits => (true, digits)
        | '+' :: digits => (false, digits)
        | digits => (false, digits)
      if digits.isEmpty || !digits.all Char.isDigit then none
      else some (if negative then -(ofDigits digits : Int) else ofDigits digits)
    else none

def read? (text : List Char) : Option Decimal := do
  let whole := text.takeWhile Char.isDigit
  let (places, rest) := match text.dropWhile Char.isDigit with
    | '.' :: rest => (rest.takeWhile Char.isDigit, rest.dropWhile Char.isDigit)
    | rest => ([], rest)
  if whole.isEmpty && places.isEmpty then none
  let exponent ← readExponent? rest
  some ⟨ofDigits (whole ++ places), exponent - places.length⟩

def readMagnitude? (text : List Char) : Option Float :=
  let word := String.ofList (text.map Char.toLower)
  if word == "inf" || word == "infinity" then some (1.0 / 0.0)
  else if word == "nan" then some (0.0 / 0.0)
  else (read? text).map Decimal.toFloat

def readFloat? (text : String) : Option Float :=
  match text.toList with
  | '-' :: rest => (readMagnitude? rest).map (-·)
  | '+' :: rest => readMagnitude? rest
  | rest => readMagnitude? rest

end InputTape.Decimal
