import InputTape.Document.Error
import InputTape.Expression.Error
import InputTape.Sequence.Text

/-! Why a playback fails. -/

set_option autoImplicit false

namespace InputTape.Playback

inductive FlowError where
  | outOfRange (index size : Nat)
  | unresolved (name : String)
  | noTarget
  | noLoader (path : FilePath)
  | notLoaded (path : FilePath) (error : SequenceError)
  deriving DecidableEq, Repr

def FlowError.message : FlowError → String
  | .outOfRange index size =>
    "jump target " ++ toString index ++ " is out of range (sequence has " ++ toString size
      ++ " instructions)"
  | .unresolved name => "label '" ++ name ++ "' does not exist in this sequence"
  | .noTarget => "no jump target configured"
  | .noLoader path => "cannot jump to '" ++ path ++ "': no file loader is available"
  | .notLoaded path error => "cannot jump to '" ++ path ++ "': " ++ error.message

/-- What an instruction does has failed. Lines of a script count from one. -/
inductive ExecutionError where
  | script (line : Nat) (error : EvaluationError)
  | condition (error : EvaluationError)
  | output (error : DeviceError)
  | delayTooLong (milliseconds : Float)
  deriving DecidableEq, Repr

def ExecutionError.message : ExecutionError → String
  | .script line error => "script line " ++ toString line ++ ": " ++ error.message
  | .condition error => "condition: " ++ error.message
  | .output error => "output: " ++ error.message
  | .delayTooLong milliseconds =>
    "delay of " ++ numberText milliseconds ++ " ms is too long to schedule"

inductive Failure where
  | flow (error : FlowError)
  | execution (error : ExecutionError)
  deriving DecidableEq, Repr

def Failure.message : Failure → String
  | .flow error => error.message
  | .execution error => error.message

def Failure.kind : Failure → String
  | .flow _ => "flow control error"
  | .execution _ => "event execution error"

end Playback

structure PlaybackError where
  index : Nat
  instruction : Instruction
  failure : Playback.Failure
  deriving BEq, Repr

def PlaybackError.message (error : PlaybackError) : String :=
  error.failure.kind ++ " at instruction " ++ toString error.index ++ " ("
    ++ error.instruction.text ++ "): " ++ error.failure.message

end InputTape
