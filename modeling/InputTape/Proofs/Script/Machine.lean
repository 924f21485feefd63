import InputTape.Playback.Execution
import InputTape.Playback.Report
import InputTape.Script.Statement

/-! The machine that a script is written for.

Its counter ranges over the statements of the script. It knows no labels of blocks and no
branches: where a block goes on is found by looking for the statement that belongs to it. The
machine calls what it acts on and nothing else, and it has no schedule.
-/

set_option autoImplicit false

namespace InputTape.Script

open Playback (Attempt ask blaming perform runLines test ExecutionError Outcome)

def Statement.opens : Statement → BlockKind → Bool
  | .ifBlock _ _, kind => kind == .conditional
  | .whileBlock _ _, kind => kind == .loop
  | _, _ => false

/-- Does a statement end the part of a block that is reached? A conditional without its else part
behind it ends with that or with its end. -/
def Statement.ends : Statement → BlockKind → Bool → Bool
  | .elseBlock, kind, inElse => kind == .conditional && !inElse
  | .endIf, kind, _ => kind == .conditional
  | .endWhile, kind, _ => kind == .loop
  | _, _, _ => false

/-- How many statements stand in front of the first wanted one that is in no block entered on the
way, if so many blocks were entered before. -/
def seek (enters leaves wanted : Statement → Bool) : Nat → List Statement → Option Nat
  | _, [] => none
  | depth, statement :: rest =>
    if depth == 0 && wanted statement then some 0
    else
      let inside := if enters statement then depth + 1
        else if leaves statement then depth - 1
        else depth
      (seek enters leaves wanted inside rest).map (· + 1)

namespace Machine

inductive Trouble where
  | failed (error : ExecutionError)
  | lost
  deriving DecidableEq, Repr

section

variable (statements : List Statement) (place : Nat)

def past (kind : BlockKind) (inElse : Bool) : Option Nat :=
  (seek (·.opens kind) (·.ends kind true) (·.ends kind inElse) 0
    (statements.drop (place + 1))).map (place + 1 + · + 1)

def back : Option Nat :=
  (seek (·.ends .loop true) (·.opens .loop) (·.opens .loop) 0
    (statements.take place).reverse).map (place - 1 - ·)

def labelled (name : String) : Option Nat :=
  statements.findIdx? fun
    | .label other => Text.lower other == Text.lower name
    | _ => false

def go : Option Nat → Attempt Trouble (Option Nat)
  | some place => return some place
  | none => throw .lost

/-- Do what a statement says; the place to go to, unless the script ends. -/
def step : Statement → Attempt Trouble (Option Nat)
  | .delay _ | .label _ | .endIf => return some (place + 1)
  | .mouse action x y wheel => do
    blaming .failed (perform (action.gesture x y wheel))
    return some (place + 1)
  | .key action code => do
    blaming .failed (perform (action.gesture code))
    return some (place + 1)
  | .script lines => do
    blaming .failed (runLines 1 lines)
    return some (place + 1)
  | .exit => return none
  | .ifBlock condition negated => do
    let holds ← blaming .failed (test condition)
    if holds != negated then return some (place + 1)
    else go (past statements place .conditional false)
  | .elseBlock => go (past statements place .conditional true)
  | .whileBlock condition negated => do
    let holds ← blaming .failed (test condition)
    if holds != negated then return some (place + 1)
    else go (past statements place .loop false)
  | .endWhile => go (back statements place)
  | .leave => go (past statements place .loop false)
  | .goto name => go (labelled statements name)

end

/-- Run for so many statements from a place on. A script that has not ended by then has no
outcome. -/
def runFrom (statements : List Statement) : Nat → Nat → Attempt Trouble (Option Outcome)
  | 0, _ => return none
  | count + 1, place =>
    match statements[place]? with
    | none => return some .completed
    | some statement => do
      match ← step statements place statement with
      | some next => runFrom statements count next
      | none => return some .stopped

end Machine
end InputTape.Script
