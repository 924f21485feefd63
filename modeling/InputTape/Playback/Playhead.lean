import InputTape.Playback.Request
import InputTape.Text.Blank
import InputTape.Text.LowerCase

/-! The place in a sequence that is played.

Names are looked up in any letter case; of several instructions with one name the first counts.
Relative paths are looked up where the sequence itself came from.
-/

set_option autoImplicit false

namespace InputTape.Playback

structure Playhead where
  sequence : Sequence
  index : Nat
  /-- The directory of the file the sequence was loaded from. -/
  origin : Option FilePath
  hasLoader : Bool

namespace Playhead

def start (sequence : Sequence) (origin : Option FilePath) (hasLoader : Bool) : Playhead :=
  ⟨sequence, 0, origin, hasLoader⟩

def current? (playhead : Playhead) : Option Instruction := playhead.sequence.get? playhead.index

def advance? (playhead : Playhead) : Option Playhead :=
  if playhead.index + 1 < playhead.sequence.size then
    some { playhead with index := playhead.index + 1 }
  else none

def jump (playhead : Playhead) (index : Nat) : Except FlowError Playhead :=
  if index < playhead.sequence.size then .ok { playhead with index := index }
  else .error (.outOfRange index playhead.sequence.size)

/-- The instruction that a name leads to. Blanks around the name do not count. -/
def find? (playhead : Playhead) (name : String) : Option Nat :=
  let wanted := Text.trim name
  if wanted.isEmpty then none
  else playhead.sequence.instructions.findIdx? fun instruction =>
    instruction.targetName?.any (Text.lower · == Text.lower wanted)

def resolve (playhead : Playhead) (path : FilePath) : FilePath :=
  match playhead.origin with
  | some directory => directory.join path
  | none => path

def load (playhead : Playhead) (path : FilePath) : Attempt FlowError Sequence := do
  if playhead.hasLoader then
    settle (.notLoaded (playhead.resolve path)) (← ask (.load (playhead.resolve path)))
  else
    throw (.noLoader path)

end Playhead
end InputTape.Playback
