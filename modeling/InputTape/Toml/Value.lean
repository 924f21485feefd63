/-! TOML values, and what they stand for.

An integer stands for a double too if it fits into 64 bits, but a double never for an integer. A
record is a table, or an array of its fields in order. Members of a table that a record does not
know have no meaning but must be held, and items of an array behind the last field are not looked
at. A date and time is a record without fields.
-/

set_option autoImplicit false

namespace InputTape

inductive Toml where
  | string (text : String)
  | integer (n : Int)
  | float (x : Float)
  /-- A number that is not held: it is too large, or is not written in digits throughout. -/
  | unheld
  | bool (value : Bool)
  | dateTime
  | array (items : List Toml)
  | table (members : List (String × Toml))
  deriving Repr

namespace Toml

def string? : Toml → Option String
  | .string text => some text
  | _ => none

def bool? : Toml → Option Bool
  | .bool value => some value
  | _ => none

def naturalBelow? (bound : Nat) : Toml → Option Nat
  | .integer n => if 0 ≤ n && n < bound then some n.toNat else none
  | _ => none

def float? : Toml → Option Float
  | .float x => some x
  | .integer n => if -Nat.pow 2 63 ≤ n && n < Nat.pow 2 64 then some (Float.ofInt n) else none
  | _ => none

mutual

def isHeld : Toml → Bool
  | .unheld => false
  | .array items => areItemsHeld items
  | .table members => areMembersHeld members
  | .string _ | .integer _ | .float _ | .bool _ | .dateTime => true

def areItemsHeld : List Toml → Bool
  | [] => true
  | item :: more => item.isHeld && areItemsHeld more

def areMembersHeld : List (String × Toml) → Bool
  | [] => true
  | (_, value) :: more => value.isHeld && areMembersHeld more

end

def fields? (names : List String) : Toml → Option (List (Option Toml))
  | .table members =>
    if (members.filter fun member => !names.contains member.1).all (·.2.isHeld) then
      some (names.map fun name => members.lookup name)
    else none
  | .array items => some ((List.range names.length).map (items[·]?))
  | .dateTime => some (names.map fun _ => none)
  | _ => none

def optional? {α : Type} (form : Toml → Option α) (default : α) : Option Toml → Option α
  | none => some default
  | some value => form value

end Toml
end InputTape
