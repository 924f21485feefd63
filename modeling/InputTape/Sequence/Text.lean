import InputTape.Decimal.Layout
import InputTape.Sequence.Basic

/-! Instructions as one line of text. -/

set_option autoImplicit false

namespace InputTape

def int32Text (n : Int32) : String := toString n.toInt

def Condition.text : Condition → String
  | .pixel x y color tolerance =>
    "PixelColor(" ++ int32Text x ++ ", " ++ int32Text y ++ ") == " ++ color.text ++ " ~"
      ++ toString tolerance.toNat
  | .expression source => "Custom(`" ++ source ++ "`)"

def BranchTarget.text (target : BranchTarget) : String :=
  match target.file, target.name with
  | some path, _ => "file " ++ path
  | none, some name => name
  | none, none => "next"

def Operation.text : Operation → String
  | .label name => "label " ++ name
  | .delay milliseconds => "Delay(" ++ numberText milliseconds ++ ")"
  | .mouse action x y wheel =>
    let wheelText := if action == .wheel then ", " ++ int32Text wheel else ""
    "Mouse(" ++ action.name ++ ", " ++ int32Text x ++ ", " ++ int32Text y ++ wheelText ++ ")"
  | .key action code => "Key(" ++ action.name ++ ", " ++ code.text ++ ")"
  | .script lines => "Script(" ++ toString lines.length ++ " lines)"
  | .jump (some name) _ => "goto " ++ name
  | .jump none (some index) => "goto #" ++ toString index
  | .jump none none => "goto ?"
  | .branch condition onTrue onFalse =>
    "if " ++ condition.text ++ " then " ++ onTrue.text ++ " else " ++ onFalse.text
  | .exit => "Exit"

def Instruction.text (instruction : Instruction) : String :=
  match instruction.name with
  | some name => "[" ++ name ++ "] " ++ instruction.operation.text
  | none => instruction.operation.text

end InputTape
