import InputTape.FileError
import InputTape.Json.Token
import InputTape.Script.Problem

/-! Why there is no sequence. -/

set_option autoImplicit false

namespace InputTape

def Json.Fault.message : Json.Fault → String
  | .ended => "the text ends too early"
  | .malformed => "the text is not JSON"
  | .mistyped => "a value is missing or has the wrong form"

inductive SequenceError where
  | file (error : FileError)
  | document (fault : Json.Fault)
  | unsupportedVersion (version : UInt32)
  | invalidGap (index : Nat) (milliseconds : Float)
  | invalidDelay (index : Nat) (milliseconds : Float)
  | script (error : Script.CompileError)
  deriving DecidableEq, Repr

def SequenceError.message : SequenceError → String
  | .file error => "I/O error: " ++ error.message
  | .document fault => "malformed sequence document: " ++ fault.message
  | .unsupportedVersion version => "unsupported sequence version " ++ toString version.toNat
  | .invalidGap index milliseconds =>
    "instruction " ++ toString index ++ " has an invalid gap of " ++ numberText milliseconds
      ++ " ms"
  | .invalidDelay index milliseconds =>
    "instruction " ++ toString index ++ " has an invalid delay of " ++ numberText milliseconds
      ++ " ms"
  | .script error => error.message

end InputTape
