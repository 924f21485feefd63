import InputTape.FilePath
import InputTape.Input.Color
import InputTape.Input.Key
import InputTape.Input.Mouse

/-! Sequences: flat lists of timed instructions.

Structured control flow is gone at this level. A sequence is played by moving one
position through it; labels, jumps and branches say where it goes.
-/

set_option autoImplicit false

namespace InputTape

/-- The longest gap or delay that is accepted, in milliseconds: one day. -/
def longestDelay : Float := 86400000

inductive Condition where
  | pixel (x y : Int32) (color : Color) (tolerance : UInt8)
  | expression (source : String)
  deriving BEq, Repr

/-- Where a branch goes. A file wins over a name; with neither, to the next instruction. -/
structure BranchTarget where
  name : Option String
  file : Option FilePath
  deriving DecidableEq, Repr

namespace BranchTarget

def next : BranchTarget := ⟨none, none⟩

def label (name : String) : BranchTarget := ⟨some name, none⟩

def isEmpty (target : BranchTarget) : Bool := target.name.isNone && target.file.isNone

end BranchTarget

inductive Operation where
  | label (name : String)
  /-- Time to let pass after the instruction. -/
  | delay (milliseconds : Float)
  | mouse (action : MouseAction) (x y wheel : Int32)
  | key (action : KeyAction) (code : KeyCode)
  | script (lines : List String)
  /-- A name wins over an index. -/
  | jump (name : Option String) (index : Option Nat)
  | branch (condition : Condition) (onTrue onFalse : BranchTarget)
  | exit
  deriving BEq, Repr

structure Instruction where
  /-- Milliseconds between the instruction before and this one. -/
  gap : Float
  /-- A name to be jumped to by. -/
  name : Option String
  operation : Operation
  deriving BEq, Repr

namespace Instruction

def plain (operation : Operation) : Instruction := ⟨0, none, operation⟩

/-- The name an instruction can be jumped to by: its own, or that of a label. -/
def targetName? (instruction : Instruction) : Option String :=
  match instruction.name, instruction.operation with
  | some name, _ => some name
  | none, .label name => some name
  | none, _ => none

end Instruction

structure Sequence where
  instructions : Array Instruction
  deriving BEq, Repr

namespace Sequence

def size (sequence : Sequence) : Nat := sequence.instructions.size

def get? (sequence : Sequence) (index : Nat) : Option Instruction := sequence.instructions[index]?

end Sequence
end InputTape
