import InputTape.Json.Value
import InputTape.Sequence.Basic

/-! Instructions as JSON. Every record says its kind first, and what is optional is left out. -/

set_option autoImplicit false

namespace InputTape

open Json (integer real)

def optionalMember {α : Type} (name : String) (form : α → Json) : Option α → List (String × Json)
  | some value => [(name, form value)]
  | none => []

def Color.toJson (color : Color) : Json :=
  .object [("a", integer color.alpha.toNat), ("r", integer color.red.toNat),
    ("g", integer color.green.toNat), ("b", integer color.blue.toNat)]

def Condition.toJson : Condition → Json
  | .pixel x y color tolerance =>
    .object [("type", .string "pixel"), ("x", integer x.toInt), ("y", integer y.toInt),
      ("color", color.toJson), ("tolerance", integer tolerance.toNat)]
  | .expression source => .object [("type", .string "expression"), ("source", .string source)]

def BranchTarget.toJson (target : BranchTarget) : Json :=
  .object (optionalMember "name" .string target.name ++ optionalMember "file" .string target.file)

def Operation.toJson (operation : Operation) : Json :=
  let tagged (tag : String) (members : List (String × Json)) : Json :=
    .object (("type", .string tag) :: members)
  match operation with
  | .label name => tagged "label" [("name", .string name)]
  | .delay milliseconds => tagged "delay" [("duration_ms", real milliseconds)]
  | .mouse action x y wheel =>
    tagged "mouse" [("action", .string action.name), ("x", integer x.toInt),
      ("y", integer y.toInt), ("wheel_delta", integer wheel.toInt)]
  | .key action code =>
    tagged "key" [("action", .string action.name), ("key", integer code.code.toNat)]
  | .script lines => tagged "script" [("lines", .array (lines.map .string))]
  | .jump name index =>
    tagged "jump" (optionalMember "target_name" .string name
      ++ optionalMember "target_index" (fun i : Nat => integer i) index)
  | .branch condition onTrue onFalse =>
    tagged "branch" [("condition", condition.toJson), ("true_target", onTrue.toJson),
      ("false_target", onFalse.toJson)]
  | .exit => tagged "break" []

def Instruction.toJson (instruction : Instruction) : Json :=
  .object (("time_since_previous_ms", real instruction.gap)
    :: optionalMember "name" .string instruction.name
    ++ [("kind", instruction.operation.toJson)])

end InputTape
