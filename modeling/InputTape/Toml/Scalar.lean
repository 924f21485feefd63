import InputTape.Decimal.Reading
import InputTape.Text.Hexadecimal
import InputTape.Toml.Value

/-! Numbers, truth values, dates and times in TOML. Each is written in one run of characters, but
for the blank that may separate a date from a time.

A run that cannot be read is refused where it is written. A few integers are not: without digits
behind the mark of a base, or with other characters than digits behind an underscore, they are
integers that are not held. -/

set_option autoImplicit false

namespace InputTape.Toml.Scalar

/-- Digits, with an underscore allowed between any two of them. -/
def groupedDigits? (isDigit : Char → Bool) : List Char → Option (List Char)
  | [] => none
  | [digit] => if isDigit digit then some [digit] else none
  | digit :: '_' :: rest =>
    if isDigit digit then (groupedDigits? isDigit rest).map (digit :: ·) else none
  | digit :: rest =>
    if isDigit digit then (groupedDigits? isDigit rest).map (digit :: ·) else none

def splitSign (text : List Char) : Bool × List Char :=
  match text with
  | '-' :: rest => (true, rest)
  | '+' :: rest => (false, rest)
  | rest => (false, rest)

structure Signed where
  negative : Bool
  /-- An underscore between sign and number has been passed over. Zeros may lead behind it. -/
  spaced : Bool
  magnitude : List Char

def Signed.ofText (text : List Char) : Signed :=
  match text with
  | '-' :: '_' :: rest => ⟨true, true, rest⟩
  | '+' :: '_' :: rest => ⟨false, true, rest⟩
  | text =>
    let (negative, rest) := splitSign text
    ⟨negative, false, rest⟩

/-- An integer is held in 128 bits, with or without a sign. -/
def ofInteger (n : Int) : Toml :=
  if -Nat.pow 2 127 ≤ n && n < Nat.pow 2 128 then .integer n else .unheld

def digitsIn (base : Nat) (c : Char) : Bool := (Text.hexDigit? c).any (· < base)

/-- Digits to a base of at most sixteen. Without any, the number is not held. -/
def basedInteger? (base : Nat) (text : List Char) : Option Toml :=
  if text.isEmpty then some .unheld
  else (groupedDigits? (digitsIn base) text).map fun digits =>
    ofInteger (digits.foldl (fun n digit => base * n + (Text.hexDigit? digit).getD 0) 0 : Nat)

def hasLeadingZero (digits : List Char) : Bool := digits.length != 1 && digits.head? == some '0'

def isExponentMark (c : Char) : Bool := c == 'e' || c == 'E'

/-- Does every underscore stand between two digits? The flag tells whether the text follows one. -/
def separatesDigits (isDigit : Char → Bool) : Bool → List Char → Bool
  | _, [] => true
  | followsDigit, '_' :: rest =>
    followsDigit && rest.head?.any isDigit && separatesDigits isDigit false rest
  | _, c :: rest => separatesDigits isDigit (isDigit c) rest

/-- Is a run taken for a decimal integer, its sign left out? Behind the first underscore it may
hold any character but those of a float. Underscores stand between hexadecimal digits. -/
def isWhole (spaced : Bool) (text : List Char) : Bool :=
  let startsWell :=
    if spaced then text.head?.any (digitsIn 16)
    else
      let rest := text.dropWhile Char.isDigit
      text.head?.any Char.isDigit && !hasLeadingZero text
        && (rest.isEmpty || rest.head? == some '_')
  startsWell && separatesDigits (digitsIn 16) false text
    && !text.any fun c => c == '.' || isExponentMark c

/-- A decimal integer. It is held if there are only digits between its underscores. -/
def decimalInteger? (text : List Char) : Option Toml :=
  let number := Signed.ofText text
  if isWhole number.spaced number.magnitude then
    let digits := number.magnitude.filter (· != '_')
    let n : Int := Decimal.ofDigits digits
    some (if !digits.all Char.isDigit then .unheld
      else ofInteger (if number.negative then -n else n))
  else none

def integer? (text : List Char) : Option Toml :=
  match text with
  | '0' :: 'x' :: rest => basedInteger? 16 rest
  | '0' :: 'o' :: rest => basedInteger? 8 rest
  | '0' :: 'b' :: rest => basedInteger? 2 rest
  | text => decimalInteger? text

def exponent? (text : List Char) : Option Int := do
  match text with
  | [] => some 0
  | mark :: rest =>
    if isExponentMark mark then
      let (negative, rest) := splitSign rest
      let n : Int := Decimal.ofDigits (← groupedDigits? Char.isDigit rest)
      some (if negative then -n else n)
    else none

def decimal? (spaced : Bool) (text : List Char) : Option Float := do
  let mantissa := text.takeWhile (!isExponentMark ·)
  let exponent ← exponent? (text.dropWhile (!isExponentMark ·))
  let whole := mantissa.takeWhile (· != '.')
  if !spaced && hasLeadingZero whole then none
  let digits ← groupedDigits? Char.isDigit whole
  let places ← match mantissa.dropWhile (· != '.') with
    | _ :: places => groupedDigits? Char.isDigit places
    | [] => some []
  return Decimal.toFloat ⟨Decimal.ofDigits (digits ++ places), exponent - places.length⟩

/-- A float, told from an integer by being read where no integer is. -/
def float? (text : List Char) : Option Toml := do
  let number := Signed.ofText text
  let signed (magnitude : Float) : Toml :=
    .float (if number.negative then -magnitude else magnitude)
  match number.spaced, String.ofList number.magnitude with
  | false, "inf" => return signed (1.0 / 0.0)
  | false, "nan" => return signed (0.0 / 0.0)
  | spaced, _ =>
    let magnitude ← decimal? spaced number.magnitude
    return if magnitude.isInf then .unheld else signed magnitude

def fixedDigits? (count : Nat) (text : List Char) : Option (Nat × List Char) :=
  let digits := text.take count
  if digits.length == count && digits.all Char.isDigit then
    some (Decimal.ofDigits digits, text.drop count)
  else none

def literal? (c : Char) : List Char → Option (List Char)
  | first :: rest => if first == c then some rest else none
  | [] => none

def daysIn (year month : Nat) : Nat :=
  let isLeap := year % 4 == 0 && (year % 100 != 0 || year % 400 == 0)
  if month == 2 then if isLeap then 29 else 28
  else if [4, 6, 9, 11].contains month then 30
  else 31

def afterDate? (text : List Char) : Option (List Char) := do
  let (year, rest) ← fixedDigits? 4 text
  let (month, rest) ← fixedDigits? 2 (← literal? '-' rest)
  let (day, rest) ← fixedDigits? 2 (← literal? '-' rest)
  if 1 ≤ month && month ≤ 12 && 1 ≤ day && day ≤ daysIn year month then some rest else none

def afterMinutes? (text : List Char) : Option (List Char) := do
  let (hour, rest) ← fixedDigits? 2 text
  let (minute, rest) ← fixedDigits? 2 (← literal? ':' rest)
  if hour < 24 && minute < 60 then some rest else none

/-- What follows a time at the front of a text. The seconds may be left out. -/
def afterTime? (text : List Char) : Option (List Char) := do
  match ← afterMinutes? text with
  | ':' :: rest =>
    let (second, rest) ← fixedDigits? 2 rest
    if 60 < second then none
    match rest with
    | '.' :: rest =>
      let places := rest.takeWhile Char.isDigit
      if places.isEmpty then none else some (rest.drop places.length)
    | rest => some rest
  | rest => some rest

def isOffset (text : List Char) : Bool :=
  match text with
  | [] | ['Z'] | ['z'] => true
  | sign :: rest => (sign == '+' || sign == '-') && afterMinutes? rest == some []

def isDateTime (text : List Char) : Bool :=
  match afterDate? text with
  | some [] => true
  | some (separator :: rest) =>
    (separator == 'T' || separator == 't' || separator == ' ')
      && (afterTime? rest).any isOffset
  | none => afterTime? text == some []

def read? (text : List Char) : Option Toml :=
  match String.ofList text with
  | "true" => some (.bool true)
  | "false" => some (.bool false)
  | _ =>
    if isDateTime text then some .dateTime
    else (integer? text).or (float? text)

end InputTape.Toml.Scalar
