import InputTape.Toml.Statement

/-! From the statements of a TOML document to its table.

Nothing is defined twice. A header may complete a table that so far is only part of a longer path.
A dotted key may pass through tables that other dotted keys or longer headers have made and
through the last table of an array, but adds only to a table that dotted keys have made. What is
written as a value is complete.
-/

set_option autoImplicit false

namespace InputTape.Toml

inductive Origin where
  /-- On the way to a longer header. -/
  | path
  | header
  | dotted
  deriving DecidableEq, Repr

inductive Entry where
  | value (value : Toml)
  | table (origin : Origin) (members : List (String × Entry))
  /-- Tables with one header, the last first. -/
  | tables (items : List (List (String × Entry)))

abbrev Members := List (String × Entry)

namespace Members

def find? (members : Members) (name : String) : Option Entry := members.lookup name

def set (members : Members) (name : String) (entry : Entry) : Members :=
  if members.any (·.1 == name) then
    members.map fun member => if member.1 == name then (name, entry) else member
  else members ++ [(name, entry)]

end Members

open Members (find?)

def alterHeader (last : Members → String → Option Members) :
    KeyPath → Members → Option Members
  | [], _ => none
  | [name], members => last members name
  | name :: path, members => do
    let entry ← match Members.find? members name with
      | none => pure (.table .path (← alterHeader last path []))
      | some (.table origin inner) => pure (.table origin (← alterHeader last path inner))
      | some (.tables (inner :: items)) =>
        pure (.tables ((← alterHeader last path inner) :: items))
      | some (.tables []) | some (.value _) => none
    return Members.set members name entry

def openTable (members : Members) (name : String) : Option Members :=
  match Members.find? members name with
  | none => some (Members.set members name (.table .header []))
  | some (.table .path inner) => some (Members.set members name (.table .header inner))
  | _ => none

def openArrayTable (members : Members) (name : String) : Option Members :=
  match Members.find? members name with
  | none => some (Members.set members name (.tables [[]]))
  | some (.tables items) => some (Members.set members name (.tables ([] :: items)))
  | _ => none

def addEntry (value : Toml) (isOpen : Bool) : KeyPath → Members → Option Members
  | [], _ => none
  | [name], members =>
    if isOpen && (Members.find? members name).isNone then
      some (Members.set members name (.value value))
    else none
  | name :: path, members => do
    let entry ← match Members.find? members name with
      | none => pure (.table .dotted (← addEntry value true path []))
      | some (.table .header _) => none
      | some (.table .path inner) => pure (.table .path (← addEntry value false path inner))
      | some (.table .dotted inner) => pure (.table .dotted (← addEntry value true path inner))
      | some (.tables (inner :: items)) =>
        pure (.tables ((← addEntry value false path inner) :: items))
      | some (.tables []) | some (.value _) => none
    return Members.set members name entry

def alterOpen (change : Members → Option Members) : KeyPath → Members → Option Members
  | [], members => change members
  | name :: path, members => do
    let entry ← match Members.find? members name with
      | some (.table origin inner) => pure (.table origin (← alterOpen change path inner))
      | some (.tables (inner :: items)) =>
        pure (.tables ((← alterOpen change path inner) :: items))
      | _ => none
    return Members.set members name entry

mutual

def Entry.toValue : Entry → Toml
  | .value value => value
  | .table _ members => .table (membersToValues members)
  | .tables items => .array (itemsToValues items [])

def membersToValues : List (String × Entry) → List (String × Toml)
  | [] => []
  | (name, entry) :: more => (name, entry.toValue) :: membersToValues more

def itemsToValues : List (List (String × Entry)) → List Toml → List Toml
  | [], others => others
  | members :: more, others => itemsToValues more (.table (membersToValues members) :: others)

end

mutual

def Written.resolve : Written → Option Toml
  | .scalar value => some value
  | .array items => do return .array (← resolveItems items)
  | .table members => do return .table (membersToValues (← resolveMembers members []))

def resolveItems : List Written → Option (List Toml)
  | [] => some []
  | item :: more => do
    let item ← item.resolve
    return item :: (← resolveItems more)

def resolveMembers : List (KeyPath × Written) → Members → Option Members
  | [], members => some members
  | (path, written) :: more, members => do
    let value ← written.resolve
    resolveMembers more (← addEntry value true path members)

end

def build : List Statement → KeyPath → Members → Option Members
  | [], _, root => some root
  | .header path :: more, _, root => do build more path (← alterHeader openTable path root)
  | .arrayHeader path :: more, _, root => do
    build more path (← alterHeader openArrayTable path root)
  | .entry path written :: more, current, root => do
    let value ← written.resolve
    build more current (← alterOpen (addEntry value true path) current root)

def read? (text : String) : Option Toml := do
  return .table (membersToValues (← build (← statements? text) [] []))

end InputTape.Toml
