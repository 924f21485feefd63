import InputTape.Json.Form
import InputTape.Json.Reading
import InputTape.Sequence.Basic

/-! Instructions from JSON.

An operation is a tagged record: an object with a member that names its kind, or an array that
begins with the name. The kind may come behind the members it is needed for, so an operation is
read whole before its members are understood. Everything around it is read as it comes.
-/

set_option autoImplicit false

namespace InputTape

open Json

def tagName : String := "type"

/-- The form of a record, given the form for each tag. The tag is a name or, as a number, the
place of the name in the list. -/
def taggedRecord? {α : Type} (tags : List String) (form : String → Json → Option α) :
    Json → Option α
  | .object members => do
    let tag ← tag? (← (← member? members tagName))
    form tag (.object (members.filter (·.1 != tagName)))
  | .array (tag :: items) => do form (← tag? tag) (.array items)
  | _ => none
where
  tag? : Json → Option String
    | .string tag => if tags.contains tag then some tag else none
    | value => do tags[← value.index?]?

def word? {α : Type} (names : List α) (name : α → String) : Json → Option α
  | .string text => names.find? (name · == text)
  | .object [(text, .null)] | .object [(text, .object [])] => names.find? (name · == text)
  | _ => none

def Color.ofJson? (value : Json) : Option Color := do
  match ← value.fields? ["a", "r", "g", "b"] with
  | [some a, some r, some g, some b] =>
    return ⟨← a.uint8?, ← r.uint8?, ← g.uint8?, ← b.uint8?⟩
  | _ => none

def Condition.ofTagged? (tag : String) (value : Json) : Option Condition := do
  if tag == "pixel" then
    match ← value.fields? ["x", "y", "color", "tolerance"] with
    | [some x, some y, some color, tolerance] =>
      return .pixel (← x.int32?) (← y.int32?) (← Color.ofJson? color)
        (← optional? Json.uint8? 0 tolerance)
    | _ => none
  else
    match ← value.fields? ["source"] with
    | [some source] => return .expression (← source.string?)
    | _ => none

def Condition.ofJson? (value : Json) : Option Condition :=
  taggedRecord? ["pixel", "expression"] ofTagged? value

def BranchTarget.ofJson? (value : Json) : Option BranchTarget := do
  match ← value.fields? ["name", "file"] with
  | [name, file] =>
    let text? := optional? (orNull? Json.string?) none
    return ⟨← text? name, ← text? file⟩
  | _ => none

namespace Operation

def tags : List String := ["label", "delay", "mouse", "key", "script", "jump", "branch", "break"]

def ofTagged? (tag : String) (value : Json) : Option Operation := do
  match tag with
  | "label" => match ← value.fields? ["name"] with
    | [some name] => return .label (← name.string?)
    | _ => none
  | "delay" => match ← value.fields? ["duration_ms"] with
    | [some milliseconds] => return .delay (← milliseconds.float?)
    | _ => none
  | "mouse" => match ← value.fields? ["action", "x", "y", "wheel_delta"] with
    | [some action, some x, some y, wheel] =>
      return .mouse (← word? MouseAction.all MouseAction.name action) (← x.int32?) (← y.int32?)
        (← optional? Json.int32? 0 wheel)
    | _ => none
  | "key" => match ← value.fields? ["action", "key"] with
    | [some action, some code] =>
      return .key (← word? KeyAction.all KeyAction.name action) ⟨← code.uint16?⟩
    | _ => none
  | "script" => match ← value.fields? ["lines"] with
    | [some lines] => return .script (← lines.list? Json.string?)
    | _ => none
  | "jump" => match ← value.fields? ["target_name", "target_index"] with
    | [name, index] =>
      return .jump (← optional? (orNull? Json.string?) none name)
        (← optional? (orNull? Json.index?) none index)
    | _ => none
  | "branch" => match ← value.fields? ["condition", "true_target", "false_target"] with
    | [some condition, some onTrue, onFalse] =>
      return .branch (← Condition.ofJson? condition) (← BranchTarget.ofJson? onTrue)
        (← optional? BranchTarget.ofJson? .next onFalse)
    | _ => none
  | _ => match value with
    | .object _ | .array [] => return .exit
    | _ => none

end Operation

section Tagged

def readTag (tags : List String) (node : Node) : Reading String :=
  node.expect fun value => do
    let tag ← value.string?
    if tags.contains tag then some tag else none

def readTaggedMembers (tags : List String) (depth : Nat) :
    List (Option String × Node) → Option String → Reading (Option String × List (String × Json))
  | [], tag => .ok (tag, [])
  | (key, value) :: more, tag => do
    let key ← Node.present key
    if key == tagName then
      if tag.isSome then throw .mistyped
      readTaggedMembers tags depth more (some (← readTag tags value))
    else
      let value ← value.value depth
      let (tag, members) ← readTaggedMembers tags depth more tag
      return (tag, (key, value) :: members)

def readTagged (tags : List String) (depth : Nat) : Node → Reading (String × Json)
  | .object members ending => do
    let (tag, members) ← readTaggedMembers tags depth members none
    failIf (ending.map (·.1))
    match tag with
    | some tag => return (tag, .object members)
    | none => throw .mistyped
  | .array (first :: items) ending => do
    let tag ← readTag tags first
    let items ← Node.valueItems depth items
    failIf ending
    return (tag, .array items)
  | .array [] ending => do
    failIf ending
    throw .mistyped
  | node => node.refuse

end Tagged

structure InstructionFields where
  gap : Float
  name : Option String
  operation : Option Operation

namespace Instruction

def readField (depth : Nat) (field : String) (value : Node) (fields : InstructionFields) :
    Reading InstructionFields := do
  match field with
  | "time_since_previous_ms" => return { fields with gap := ← value.expect Json.float? }
  | "name" => return { fields with name := ← value.expect (orNull? Json.string?) }
  | _ =>
    let (tag, content) ← readTagged Operation.tags depth value
    match Operation.ofTagged? tag content with
    | some operation => return { fields with operation := some operation }
    | none => throw .mistyped

def read (outer : Nat) (node : Node) : Reading Instruction := do
  let fields ← node.record ["time_since_previous_ms", "name", "kind"]
    (readField (nestingLimit - outer - 2)) ⟨0, none, none⟩
  match fields.operation with
  | some operation => return ⟨fields.gap, fields.name, operation⟩
  | none => throw .mistyped

end Instruction
end InputTape
