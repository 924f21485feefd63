import InputTape.Decimal.Shortest
import InputTape.Json.Value

/-! The forms of values: which Lean value a JSON value stands for, if it does.

An integer stands for a double too, but a double never for an integer. A record is an object, or
an array of its fields in order. Unknown members do not matter, and a known one comes once.
-/

set_option autoImplicit false

namespace InputTape.Json

def string? : Json → Option String
  | .string text => some text
  | _ => none

def floatOfInt (n : Int) : Float :=
  let magnitude := Decimal.toFloat ⟨n.natAbs, 0⟩
  if n < 0 then -magnitude else magnitude

def float? : Json → Option Float
  | .number (.integer n) => some (floatOfInt n)
  | .number (.real x) => some x
  | _ => none

def integerIn? (low high : Int) : Json → Option Int
  | .number (.integer n) => if low ≤ n && n ≤ high then some n else none
  | _ => none

def uint8? (value : Json) : Option UInt8 :=
  (value.integerIn? 0 255).map fun n => UInt8.ofNat n.toNat

def uint16? (value : Json) : Option UInt16 :=
  (value.integerIn? 0 65535).map fun n => UInt16.ofNat n.toNat

def uint32? (value : Json) : Option UInt32 :=
  (value.integerIn? 0 4294967295).map fun n => UInt32.ofNat n.toNat

def int32? (value : Json) : Option Int32 :=
  (value.integerIn? (-2147483648) 2147483647).map Int32.ofInt

def index? (value : Json) : Option Nat :=
  (value.integerIn? 0 (Nat.pow 2 64 - 1)).map Int.toNat

def orNull? {α : Type} (form : Json → Option α) : Json → Option (Option α)
  | .null => some none
  | value => (form value).map some

def list? {α : Type} (form : Json → Option α) : Json → Option (List α)
  | .array items => items.mapM form
  | _ => none

/-- The value of a member that comes at most once. -/
def member? (members : List (String × Json)) (name : String) : Option (Option Json) :=
  match members.filter (·.1 == name) with
  | [] => some none
  | [(_, value)] => some (some value)
  | _ => none

def fields? (names : List String) : Json → Option (List (Option Json))
  | .object members => names.mapM (member? members)
  | .array items =>
    if items.length ≤ names.length then
      some (items.map some ++ List.replicate (names.length - items.length) none)
    else none
  | _ => none

def optional? {α : Type} (form : Json → Option α) (default : α) : Option Json → Option α
  | none => some default
  | some value => form value

end InputTape.Json
