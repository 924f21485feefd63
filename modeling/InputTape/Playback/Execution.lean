import InputTape.Playback.Playhead

/-! What an instruction does, and where it leads.

An instruction never moves the playhead and never waits. It makes its gestures, or looks at the
screen, and says where to go.
-/

set_option autoImplicit false

namespace InputTape.Playback

inductive Directive where
  | next
  | jump (index : Nat)
  | stop
  | transfer (path : FilePath)
  deriving DecidableEq, Repr

def nonBlank? (name : Option String) : Option String :=
  name.filter fun name => !(Text.trim name).isEmpty

def toName (playhead : Playhead) (name : String) : Except FlowError Directive :=
  match playhead.find? name with
  | some index => .ok (.jump index)
  | none => .error (.unresolved name)

def jumpDirective (playhead : Playhead) (name : Option String) (index : Option Nat) :
    Except FlowError Directive :=
  match nonBlank? name, index with
  | some name, _ => toName playhead name
  | none, some index => .ok (.jump index)
  | none, none => .error .noTarget

/-- Where a branch leads by one of its targets. Without a target, a condition that does not hold
leads to the next instruction. -/
def branchDirective (playhead : Playhead) (holds : Bool) (target : BranchTarget) :
    Except FlowError Directive :=
  match target.file, nonBlank? target.name with
  | some path, _ => .ok (.transfer path)
  | none, some name => toName playhead name
  | none, none => if holds then .error .noTarget else .ok .next

def isIdleLine (line : String) : Bool :=
  line.isEmpty || ['/', '/'].isPrefixOf line.toList

/-- Evaluate lines in order, counting from a number. Idle lines count too. -/
def runLines (number : Nat) : List String → Attempt ExecutionError Unit
  | [] => return
  | line :: more => do
    let text := Text.trim line
    if isIdleLine text then runLines (number + 1) more
    else
      discard <| settle (.script number) (← ask (.evaluate text))
      runLines (number + 1) more

def test : Condition → Attempt ExecutionError Bool
  | .pixel x y color tolerance => do
    return (← ask (.pixel x y)).isWithin color tolerance
  | .expression source => do
    return (← settle .condition (← ask (.evaluate source))).isTrue

def perform (gesture : Gesture) : Attempt ExecutionError Unit := do
  settle .output (← ask (.gesture gesture))

def execute (playhead : Playhead) : Operation → Attempt Failure Directive
  | .label _ | .delay _ => return .next
  | .mouse action x y wheel => do
    blaming .execution (perform (action.gesture x y wheel))
    return .next
  | .key action code => do
    blaming .execution (perform (action.gesture code))
    return .next
  | .script lines => do
    blaming .execution (runLines 1 lines)
    return .next
  | .jump name index => settle .flow (jumpDirective playhead name index)
  | .branch condition onTrue onFalse => do
    let holds ← blaming .execution (test condition)
    note .debug ("branch condition " ++ condition.text ++ " is " ++ toString holds)
    settle .flow (branchDirective playhead holds (if holds then onTrue else onFalse))
  | .exit => return .stop

def releaseAll : Attempt DeviceError Unit := do
  settle id (← ask (.gesture .releaseKeys))
  settle id (← ask (.gesture .releaseButtons))

end InputTape.Playback
