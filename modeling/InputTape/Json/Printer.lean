import InputTape.Decimal.Layout
import InputTape.Json.Value

/-! Writing JSON.

The characters of a document are the same in every spacing, but for blanks between them.
-/

set_option autoImplicit false

namespace InputTape.Json

structure Spacing where
  /-- What stands before an item, by how deep it is nested. -/
  lineBreak : Nat → List Char
  afterColon : List Char

namespace Spacing

def compact : Spacing := ⟨fun _ => [], []⟩

def indented : Spacing := ⟨fun depth => '\n' :: List.replicate (2 * depth) ' ', [' ']⟩

end Spacing

def escape (c : Char) : List Char :=
  match c with
  | '"' => ['\\', '"']
  | '\\' => ['\\', '\\']
  | '\x08' => ['\\', 'b']
  | '\t' => ['\\', 't']
  | '\n' => ['\\', 'n']
  | '\x0c' => ['\\', 'f']
  | '\r' => ['\\', 'r']
  | _ =>
    if c.toNat < 0x20 then '\\' :: 'u' :: (Nat.toDigits 16 c.toNat).leftpad 4 '0'
    else [c]

def writeString (text : String) : List Char := '"' :: (text.toList.flatMap escape ++ ['"'])

def writeNumber : JsonNumber → List Char
  | .integer n => (toString n).toList
  | .real x => (Layout.document.write x).toList

def enclose (spacing : Spacing) (depth : Nat) (opening closing : Char)
    (items : List (List Char)) : List Char :=
  if items.isEmpty then [opening, closing]
  else
    opening :: (List.intercalate [','] (items.map (spacing.lineBreak (depth + 1) ++ ·))
      ++ spacing.lineBreak depth ++ [closing])

mutual

def write (spacing : Spacing) (depth : Nat) : Json → List Char
  | .null => ['n', 'u', 'l', 'l']
  | .bool true => ['t', 'r', 'u', 'e']
  | .bool false => ['f', 'a', 'l', 's', 'e']
  | .number value => writeNumber value
  | .string text => writeString text
  | .array items => enclose spacing depth '[' ']' (writeItems spacing (depth + 1) items)
  | .object members => enclose spacing depth '{' '}' (writeMembers spacing (depth + 1) members)

def writeItems (spacing : Spacing) (depth : Nat) : List Json → List (List Char)
  | [] => []
  | item :: more => write spacing depth item :: writeItems spacing depth more

def writeMembers (spacing : Spacing) (depth : Nat) : List (String × Json) → List (List Char)
  | [] => []
  | (name, value) :: more =>
    (writeString name ++ ':' :: (spacing.afterColon ++ write spacing depth value))
      :: writeMembers spacing depth more

end

def text (spacing : Spacing) (value : Json) : String := String.ofList (write spacing 0 value)

end InputTape.Json
