import InputTape.FileError
import InputTape.Playback.Run
import InputTape.Rehearsal
import InputTape.SequenceFile
import InputTape.Settings

/-! What commands ask of their surroundings, and why they fail. -/

set_option autoImplicit false

namespace InputTape.CommandLine

inductive Request where
  | read (path : FilePath)
  | write (path : FilePath) (text : String)
  | exists (path : FilePath)
  /-- Put a text out, and a line feed after it. -/
  | print (text : String)
  /-- Tell whoever watches a text, and a line feed after it. -/
  | remark (text : String)
  | clock
  | wait (pace : Pace) (deadline : Time)
  | isCancelled
  deriving DecidableEq, Repr

abbrev Request.Answer : Request → Type
  | .read _ => Except FileError String
  | .write _ _ => Except FileError Unit
  | .exists _ => Bool
  | .print _ => Unit
  | .remark _ => Unit
  | .clock => Time
  | .wait _ _ => WaitOutcome
  | .isCancelled => Bool

abbrev Console := Interaction Request Request.Answer

namespace Console

def print (text : String) : Console Unit := Interaction.send (Request.print text)

def remark (text : String) : Console Unit := Interaction.send (Request.remark text)

end Console

inductive Error where
  | unreadableSettings (path : FilePath) (error : FileError)
  | badSettings (path : FilePath) (error : SettingsError)
  | overwritesInput (output : FilePath)
  | unreadableInput (input : FilePath) (error : FileError)
  | badScript (error : Script.CompileError)
  | notSaved (output : FilePath) (error : SequenceError)
  | notLoaded (file : FilePath) (error : SequenceError)
  | invalidSpeed
  | badProbe (error : SettingsError)
  | badScreen (error : DeviceError)
  | playback (error : PlaybackError)
  | noMean (error : Playback.MeanError)
  | endless
  deriving BEq, Repr

def Error.message : Error → String
  | .unreadableSettings path error =>
    "Failed to load config: reading config " ++ path ++ ": " ++ error.message
  | .badSettings path error =>
    "Failed to load config: in config " ++ path ++ ": " ++ error.message
  | .overwritesInput output => output ++ " would overwrite its own input; pass --output"
  | .unreadableInput input error => "Failed to read " ++ input ++ ": " ++ error.message
  | .badScript error => error.message
  | .notSaved output error => "Failed to write " ++ output ++ ": " ++ error.message
  | .notLoaded _ (.script error) => error.message
  | .notLoaded file error => file ++ ": " ++ error.message
  | .invalidSpeed => "--speed must be greater than 0"
  | .badProbe error => error.message
  | .badScreen error => error.message
  | .playback error => error.message
  | .noMean error => error.message
  | .endless => "the playback has not ended"

/-- The exit code behind an error. A mean that cannot be had breaks the program off. -/
def Error.exitCode : Error → Nat
  | .noMean _ => 101
  | _ => 1

abbrev Task := ExceptT Error Console

def ask (request : Request) : Task (Request.Answer request) := ExceptT.lift (.send request)

def check {α ε : Type} (blame : ε → Error) (result : Except ε α) : Task α :=
  ExceptT.mk (.done (result.mapError blame))

end InputTape.CommandLine
