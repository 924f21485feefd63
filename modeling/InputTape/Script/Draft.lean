import InputTape.Script.Statement

/-! Laying out structured statements as a flat sequence.

A block becomes labels, branches and jumps. The labels of block `n` are named for their purpose
and `n`, behind a prefix that no script may use. A draft is the sequence laid out so far, with
the blocks that are still open and the jumps whose labels may come later.
-/

set_option autoImplicit false

namespace InputTape.Script

inductive Landmark where
  /-- The part run if the condition holds. -/
  | thenPart
  /-- The part run if it does not. -/
  | elsePart
  /-- Behind a conditional. -/
  | endIf
  /-- Where a loop tests its condition. -/
  | test
  | body
  /-- Behind a loop. -/
  | endWhile
  deriving DecidableEq, Repr

def Landmark.name : Landmark → String
  | .thenPart => "then"
  | .elsePart => "else"
  | .endIf => "endif"
  | .test => "while"
  | .body => "do"
  | .endWhile => "endwhile"

def hiddenLabel (landmark : Landmark) (block : Nat) : String :=
  hiddenPrefix ++ landmark.name ++ "_" ++ toString block

structure OpenBlock where
  kind : BlockKind
  /-- Has a conditional reached its else part? -/
  inElse : Bool
  number : Nat
  line : Nat
  deriving DecidableEq, Repr

structure PendingJump where
  instruction : Nat
  target : String
  line : Nat
  deriving DecidableEq, Repr

structure Draft where
  instructions : Array Instruction
  /-- Labels in lower case with the instructions they mark. -/
  labels : List (String × Nat)
  jumps : List PendingJump
  /-- Open blocks, the innermost first. -/
  blocks : List OpenBlock
  nextBlock : Nat

namespace Draft

def empty : Draft := ⟨#[], [], [], [], 0⟩

def push (draft : Draft) (operation : Operation) : Draft :=
  { draft with instructions := draft.instructions.push (.plain operation) }

def find? (draft : Draft) (label : String) : Option Nat := draft.labels.lookup (Text.lower label)

def pushLabel (draft : Draft) (name : String) : Except Problem Draft :=
  if (draft.find? name).isSome then .error (.duplicateLabel name)
  else .ok { draft.push (.label name) with
    labels := (Text.lower name, draft.instructions.size) :: draft.labels }

def pushJump (draft : Draft) (line : Nat) (target : String) : Draft :=
  { draft.push (.jump (some target) none) with
    jumps := draft.jumps ++ [⟨draft.instructions.size, target, line⟩] }

/-- Add a branch. A negated one has its targets swapped. -/
def pushBranch (draft : Draft) (condition : Condition) (negated : Bool)
    (holds fails : String) : Draft :=
  let (onTrue, onFalse) := if negated then (fails, holds) else (holds, fails)
  draft.push (.branch condition (.label onTrue) (.label onFalse))

def pushBlock (draft : Draft) (block : OpenBlock) : Draft :=
  { draft with blocks := block :: draft.blocks }

def openIf (draft : Draft) (line : Nat) (condition : Condition) (negated : Bool) :
    Except Problem Draft := do
  let number := draft.nextBlock
  let thenLabel := hiddenLabel .thenPart number
  let branched := ({ draft with nextBlock := number + 1 }).pushBranch condition negated thenLabel
    (hiddenLabel .elsePart number)
  return (← branched.pushLabel thenLabel).pushBlock ⟨.conditional, false, number, line⟩

def openElse (draft : Draft) (line : Nat) : Except Problem Draft := do
  match draft.blocks with
  | ⟨.conditional, false, number, opened⟩ :: outer =>
    let left := ({ draft with blocks := outer }).pushJump line (hiddenLabel .endIf number)
    return (← left.pushLabel (hiddenLabel .elsePart number)).pushBlock
      ⟨.conditional, true, number, opened⟩
  | _ => throw .elseUnmatched

def closeIf (draft : Draft) : Except Problem Draft := do
  match draft.blocks with
  | ⟨.conditional, inElse, number, _⟩ :: outer =>
    let closed := { draft with blocks := outer }
    let landed ← if inElse then pure closed
      else closed.pushLabel (hiddenLabel .elsePart number)
    landed.pushLabel (hiddenLabel .endIf number)
  | _ => throw .endIfUnmatched

def openWhile (draft : Draft) (line : Nat) (condition : Condition) (negated : Bool) :
    Except Problem Draft := do
  let number := draft.nextBlock
  let bodyLabel := hiddenLabel .body number
  let tested ← ({ draft with nextBlock := number + 1 }).pushLabel (hiddenLabel .test number)
  let branched := tested.pushBranch condition negated bodyLabel (hiddenLabel .endWhile number)
  return (← branched.pushLabel bodyLabel).pushBlock ⟨.loop, false, number, line⟩

def closeWhile (draft : Draft) (line : Nat) : Except Problem Draft := do
  match draft.blocks with
  | ⟨.loop, _, number, _⟩ :: outer =>
    let looped := ({ draft with blocks := outer }).pushJump line (hiddenLabel .test number)
    looped.pushLabel (hiddenLabel .endWhile number)
  | _ => throw .endWhileUnmatched

/-- Leave the innermost loop, however many conditionals lie between. -/
def leaveLoop (draft : Draft) (line : Nat) : Except Problem Draft :=
  match draft.blocks.find? (·.kind == .loop) with
  | some block => .ok (draft.pushJump line (hiddenLabel .endWhile block.number))
  | none => .error .breakOutsideLoop

def add (draft : Draft) (line : Nat) : Statement → Except Problem Draft
  | .delay milliseconds => .ok (draft.push (.delay milliseconds))
  | .mouse action x y wheel => .ok (draft.push (.mouse action x y wheel))
  | .key action code => .ok (draft.push (.key action code))
  | .script lines => .ok (draft.push (.script lines))
  | .exit => .ok (draft.push .exit)
  | .ifBlock condition negated => draft.openIf line condition negated
  | .elseBlock => draft.openElse line
  | .endIf => draft.closeIf
  | .whileBlock condition negated => draft.openWhile line condition negated
  | .endWhile => draft.closeWhile line
  | .leave => draft.leaveLoop line
  | .label name => draft.pushLabel name
  | .goto name => .ok (draft.pushJump line name)

def aim (index : Nat) (instruction : Instruction) : Instruction :=
  match instruction.operation with
  | .jump name _ => { instruction with operation := .jump name (some index) }
  | _ => instruction

def resolve (draft : Draft) : Except CompileError (Array Instruction) :=
  draft.jumps.foldlM (fun instructions jump =>
    match draft.find? jump.target with
    | some index => .ok (instructions.modify jump.instruction (aim index))
    | none => .error ⟨.undefinedLabel jump.target jump.line, jump.line⟩) draft.instructions

def finish (draft : Draft) : Except CompileError Sequence := do
  match draft.blocks with
  | block :: _ => throw ⟨.unterminatedBlock block.kind block.line, block.line⟩
  | [] => return ⟨← draft.resolve⟩

end Draft
end InputTape.Script
