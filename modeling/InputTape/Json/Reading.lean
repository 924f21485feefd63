import InputTape.Json.Node

/-! Reading values from a tree, in the order of the text.

What is skipped has to have the form of JSON and nothing more. What is kept is read whole, and no
deeper than a limit. A record is an object, or an array of its fields in order; unknown members
are skipped, and a known one may come once.
-/

set_option autoImplicit false

namespace InputTape.Json

/-- The most arrays and objects that may lie in each other, where values are kept. -/
def nestingLimit : Nat := 127

abbrev Reading (α : Type) := Except Fault α

def failIf : Option Fault → Reading Unit
  | some fault => .error fault
  | none => .ok ()

namespace Node

mutual

def skip : Node → Reading Unit
  | .unreadable _ fault => .error fault
  | .array items ending => do
    skipItems items
    failIf ending
  | .object members ending => do
    skipMembers members
    failIf (ending.map (·.2))
  | _ => .ok ()

def skipItems : List Node → Reading Unit
  | [] => .ok ()
  | item :: more => do
    skip item
    skipItems more

def skipMembers : List (Option String × Node) → Reading Unit
  | [] => .ok ()
  | (_, value) :: more => do
    skip value
    skipMembers more

end

def present {α : Type} (value : Option α) : Reading α :=
  match value with
  | some value => .ok value
  | none => .error .malformed

mutual

/-- The value with all that is in it. At most so many more arrays and objects may lie in each
other. -/
def value (depth : Nat) : Node → Reading Json
  | .unreadable fault _ => .error fault
  | .null => .ok .null
  | .bool value => .ok (.bool value)
  | .number value => do return .number (← present value)
  | .string text => do return .string (← present text)
  | .array items ending => do
    if depth == 0 then throw .malformed
    let items ← valueItems (depth - 1) items
    failIf ending
    return .array items
  | .object members ending => do
    if depth == 0 then throw .malformed
    let members ← valueMembers (depth - 1) members
    failIf (ending.map (·.1))
    return .object members

def valueItems (depth : Nat) : List Node → Reading (List Json)
  | [] => .ok []
  | item :: more => do
    let item ← value depth item
    return item :: (← valueItems depth more)

def valueMembers (depth : Nat) : List (Option String × Node) → Reading (List (String × Json))
  | [] => .ok []
  | (key, item) :: more => do
    let key ← present key
    let item ← value depth item
    return (key, item) :: (← valueMembers depth more)

end

/-- Refuse a value of another form. It is read first if it is no array and no object. -/
def refuse {α : Type} : Node → Reading α
  | .unreadable fault _ => .error fault
  | .number none | .string none => .error .malformed
  | _ => .error .mistyped

def expect {α : Type} (form : Json → Option α) (node : Node) : Reading α :=
  match node with
  | .array _ _ | .object _ _ => .error .mistyped
  | _ => do
    match form (← value 0 node) with
    | some value => return value
    | none => throw .mistyped

def list {α : Type} (item : Node → Reading α) : Node → Reading (List α)
  | .array items ending => do
    let values ← items.mapM item
    failIf ending
    return values
  | node => node.refuse

section Record

variable {Partial : Type} (names : List String)
  (field : String → Node → Partial → Reading Partial)

def recordMembers : List (Option String × Node) → List String → Partial → Reading Partial
  | [], _, record => .ok record
  | (key, value) :: more, seen, record => do
    let key ← present key
    if names.contains key then
      if seen.contains key then throw .mistyped
      recordMembers more (key :: seen) (← field key value record)
    else
      value.skip
      recordMembers more seen record

def recordItems (ending : Option Fault) : List String → List Node → Partial → Reading Partial
  | _, [], record => do
    failIf ending
    return record
  | [], _ :: _, _ => .error .malformed
  | name :: names, item :: more, record => do
    recordItems ending names more (← field name item record)

def record (start : Partial) : Node → Reading Partial
  | .object members ending => do
    let record ← recordMembers names field members [] start
    failIf (ending.map (·.1))
    return record
  | .array items ending => recordItems field ending names items start
  | node => node.refuse

end Record

end Node

def readText {α : Type} (reader : Node → Reading α) (text : String) : Reading α := do
  let (node, isWhole) := Node.ofText text
  let value ← reader node
  if isWhole then return value else throw .malformed

end InputTape.Json
