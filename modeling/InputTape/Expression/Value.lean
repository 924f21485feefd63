import InputTape.Decimal.Layout

/-! Values of script expressions, and variables that hold them. -/

set_option autoImplicit false

namespace InputTape

inductive Value where
  | nil
  | bool (value : Bool)
  | number (value : Float)
  | text (value : String)
  deriving BEq, Repr

inductive ValueKind where
  | nil
  | bool
  | number
  | text
  deriving DecidableEq, Repr

def ValueKind.name : ValueKind → String
  | .nil => "nil"
  | .bool => "bool"
  | .number => "number"
  | .text => "text"

namespace Value

def kind : Value → ValueKind
  | .nil => .nil
  | .bool _ => .bool
  | .number _ => .number
  | .text _ => .text

def isTrue : Value → Bool
  | .nil => false
  | .bool value => value
  | .number value => value != 0 && !value.isNaN
  | .text value => !value.isEmpty

/-- A whole number below 10 ^ 15 is written as an integer, so both zeros are `0`. -/
def asText : Value → String
  | .nil => "nil"
  | .bool value => toString value
  | .number value => match wholeNumber? value with
    | some n => if n.natAbs < 1000000000000000 then toString n else numberText value
    | none => numberText value
  | .text value => value

end Value

structure Store where
  entries : List (String × Value)

namespace Store

def empty : Store := ⟨[]⟩

def get? (store : Store) (name : String) : Option Value := store.entries.lookup name

def set (store : Store) (name : String) (value : Value) : Store :=
  ⟨(name, value) :: store.entries.filter (·.1 != name)⟩

end Store
end InputTape
