import InputTape.Decimal.Reading
import InputTape.Json.Value
import InputTape.Text.Hexadecimal

/-! Tokens of JSON text.

Text is cut as far as it goes: what is no token ends the list, together with what is wrong with
it. Some tokens have the form of a value and yet no value, namely numbers too large for a double
and strings with half of a surrogate pair. They are told apart, since text that is only skipped
may hold them.
-/

set_option autoImplicit false

namespace InputTape.Json

inductive Fault where
  | ended
  | malformed
  | mistyped
  deriving DecidableEq, Repr

inductive Token where
  | openArray
  | closeArray
  | openObject
  | closeObject
  | comma
  | colon
  | null
  | bool (value : Bool)
  /-- Without a value if it is too large. -/
  | number (value : Option JsonNumber)
  /-- Without a value if a surrogate stands alone. -/
  | string (text : Option String)
  /-- No token: what is wrong for a reader of values, and for one that skips. -/
  | broken (fault skippedFault : Fault)
  /-- A string that is no token. -/
  | brokenString (fault skippedFault : Fault)
  deriving BEq, Repr

def Token.isBroken : Token → Bool
  | .broken _ _ | .brokenString _ _ => true
  | _ => false

/-- What an element of a string stands for: a character, or a UTF-16 surrogate. -/
inductive StringUnit where
  | scalar (c : Char)
  | lead (n : Nat)
  | trail (n : Nat)
  deriving DecidableEq, Repr

namespace StringUnit

def ofCode (n : Nat) : StringUnit :=
  if 0xD800 ≤ n && n < 0xDC00 then .lead (n - 0xD800)
  else if 0xDC00 ≤ n && n < 0xE000 then .trail (n - 0xDC00)
  else .scalar (Char.ofNat n)

def join? : List StringUnit → Option (List Char)
  | [] => some []
  | .scalar c :: rest => (join? rest).map (c :: ·)
  | .lead high :: .trail low :: rest =>
    (join? rest).map (Char.ofNat (0x10000 + 0x400 * high + low) :: ·)
  | .lead _ :: _ | .trail _ :: _ => none

/-- Does a surrogate stand alone in a string that is cut off? The last one may still have been
followed by its other half. -/
def isSplit (units : List StringUnit) : Bool :=
  match units.reverse with
  | .lead _ :: before => (join? before.reverse).isNone
  | _ => (join? units).isNone

end StringUnit

/-- A string from behind its opening quote: its units, what cuts it off, and how many characters
it takes. -/
structure StringScan where
  units : List StringUnit
  cut : Option Fault
  length : Nat

namespace StringScan

def cons (unit : StringUnit) (length : Nat) (scan : StringScan) : StringScan :=
  { scan with units := unit :: scan.units, length := length + scan.length }

def cutBy (fault : Fault) : StringScan := ⟨[], some fault, 0⟩

end StringScan

def escaped? : Char → Option Char
  | '"' => some '"'
  | '\\' => some '\\'
  | '/' => some '/'
  | 'b' => some '\x08'
  | 'f' => some '\x0c'
  | 'n' => some '\n'
  | 'r' => some '\r'
  | 't' => some '\t'
  | _ => none

/-- Is there too little text for a four-digit escape? It counts in bytes. -/
def isTooShort (text : List Char) : Bool := (String.ofList (text.take 4)).utf8ByteSize < 4

def scanString : List Char → StringScan
  | [] => .cutBy .ended
  | '"' :: _ => ⟨[], none, 1⟩
  | '\\' :: 'u' :: rest =>
    match rest with
    | a :: b :: c :: d :: more =>
      match Text.hexNumber? [a, b, c, d] with
      | some n => (scanString more).cons (.ofCode n) 6
      | none => .cutBy .malformed
    | _ => .cutBy (if isTooShort rest then .ended else .malformed)
  | '\\' :: mark :: rest =>
    match escaped? mark with
    | some c => (scanString rest).cons (.scalar c) 2
    | none => .cutBy .malformed
  | ['\\'] => .cutBy .ended
  | c :: rest =>
    if c.toNat < 0x20 then .cutBy .malformed else (scanString rest).cons (.scalar c) 1

def readString (rest : List Char) : Token × Nat :=
  let scan := scanString rest
  match scan.cut with
  | none => (.string ((StringUnit.join? scan.units).map String.ofList), scan.length)
  | some fault =>
    (.brokenString (if StringUnit.isSplit scan.units then .malformed else fault) fault, 0)

/-- A number from a decimal; `none` if no double is as large. -/
def realNumber? (negative : Bool) (d : Decimal) : Option JsonNumber :=
  let magnitude := d.toFloat
  if magnitude.isInf then none else some (.real (if negative then -magnitude else magnitude))

/-- A number without point and exponent. Zero with a minus sign is no integer. -/
def wholeNumber? (negative : Bool) (n : Nat) : Option JsonNumber :=
  if negative then
    if 0 < n && n ≤ Nat.pow 2 63 then some (.integer (-n)) else realNumber? true ⟨n, 0⟩
  else if n < Nat.pow 2 64 then some (.integer n) else realNumber? false ⟨n, 0⟩

/-- A number is cut off before some text. Reading it misses what should come if nothing comes. -/
def brokenNumber (rest : List Char) : Token :=
  .broken (if rest.isEmpty then .ended else .malformed) .malformed

/-- An optional part of a number: what it stands for and its length, or the text where it is cut
off. -/
inductive NumberPart (α : Type) where
  | absent
  | present (value : α) (length : Nat)
  | cut (rest : List Char)

namespace NumberPart

variable {α : Type}

def length : NumberPart α → Nat
  | .present _ length => length
  | _ => 0

def getD (default : α) : NumberPart α → α
  | .present value _ => value
  | _ => default

end NumberPart

def readPlaces : List Char → NumberPart (List Char)
  | '.' :: rest =>
    let digits := rest.takeWhile Char.isDigit
    if digits.isEmpty then .cut rest else .present digits (digits.length + 1)
  | _ => .absent

def readExponent : List Char → NumberPart Int
  | mark :: rest =>
    if mark == 'e' || mark == 'E' then
      let (sign, isSmall, rest) := match rest with
        | '-' :: rest => (1, true, rest)
        | '+' :: rest => (1, false, rest)
        | rest => (0, false, rest)
      let digits := rest.takeWhile Char.isDigit
      let magnitude : Int := Decimal.ofDigits digits
      if digits.isEmpty then .cut rest
      else .present (if isSmall then -magnitude else magnitude) (1 + sign + digits.length)
    else .absent
  | [] => .absent

def wholeDigits : List Char → List Char
  | '0' :: _ => ['0']
  | text => text.takeWhile Char.isDigit

def readMagnitude (negative : Bool) (text : List Char) : Token × Nat :=
  let whole := wholeDigits text
  let rest := text.drop whole.length
  if whole.isEmpty then (brokenNumber text, 0)
  else if whole == ['0'] && rest.head?.any Char.isDigit then (.broken .malformed .malformed, 0)
  else
    match readPlaces rest with
    | .cut rest => (brokenNumber rest, 0)
    | places =>
      match readExponent (rest.drop places.length) with
      | .cut rest => (brokenNumber rest, 0)
      | exponent =>
        let digits := places.getD []
        let value := match places, exponent with
          | .absent, .absent => wholeNumber? negative (Decimal.ofDigits whole)
          | _, _ => realNumber? negative
            ⟨Decimal.ofDigits (whole ++ digits), exponent.getD 0 - digits.length⟩
        (.number value, whole.length + places.length + exponent.length)

def readWord (word text : List Char) (token : Token) : Token × Nat :=
  if word.isPrefixOf text then (token, word.length)
  else if text.isPrefixOf word then (.broken .ended .ended, 0)
  else (.broken .malformed .malformed, 0)

def readToken (first : Char) (rest : List Char) : Token × Nat :=
  match first with
  | '[' => (.openArray, 0)
  | ']' => (.closeArray, 0)
  | '{' => (.openObject, 0)
  | '}' => (.closeObject, 0)
  | ',' => (.comma, 0)
  | ':' => (.colon, 0)
  | 'n' => readWord ['u', 'l', 'l'] rest .null
  | 't' => readWord ['r', 'u', 'e'] rest (.bool true)
  | 'f' => readWord ['a', 'l', 's', 'e'] rest (.bool false)
  | '"' => readString rest
  | '-' => readMagnitude true rest
  | _ =>
    if first.isDigit then
      let (token, length) := readMagnitude false (first :: rest)
      (token, length - 1)
    else (.broken .malformed .malformed, 0)

def isBlank (c : Char) : Bool := c == ' ' || c == '\n' || c == '\t' || c == '\r'

def tokens : List Char → List Token
  | [] => []
  | first :: rest =>
    if isBlank first then tokens rest
    else
      let (token, count) := readToken first rest
      if token.isBroken then [token] else token :: tokens (rest.drop count)
termination_by text => text.length
decreasing_by all_goals simp only [List.length_drop, List.length_cons]; omega

end InputTape.Json
