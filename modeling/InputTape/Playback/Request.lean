import InputTape.Input.Gesture
import InputTape.Interaction
import InputTape.Journal
import InputTape.Playback.Error
import InputTape.Time

/-! What a playback asks of its surroundings. -/

set_option autoImplicit false

namespace InputTape.Playback

inductive Request where
  | gesture (gesture : Gesture)
  | pixel (x y : Int32)
  | evaluate (line : String)
  | load (path : FilePath)
  | wait (deadline : Time)
  | clock
  | isCancelled
  | note (entry : Journal.Entry)
  deriving DecidableEq, Repr

abbrev Request.Answer : Request → Type
  | .gesture _ => Except DeviceError Unit
  | .pixel _ _ => Color
  | .evaluate _ => Except EvaluationError Value
  | .load _ => Except SequenceError Sequence
  | .wait _ => WaitOutcome
  | .clock => Time
  | .isCancelled => Bool
  | .note _ => Unit

/-- Something that asks on the way and may fail. -/
abbrev Attempt (ε : Type) := ExceptT ε (Interaction Request Request.Answer)

section

variable {ε : Type}

def ask (request : Request) : Attempt ε (Request.Answer request) := ExceptT.lift (.send request)

def note (level : Journal.Level) (text : String) : Attempt ε Unit := ask (.note ⟨level, text⟩)

def settle {α δ : Type} (blame : δ → ε) (result : Except δ α) : Attempt ε α :=
  ExceptT.mk (.done (result.mapError blame))

def blaming {α δ : Type} (blame : δ → ε) (attempt : Attempt δ α) : Attempt ε α :=
  ExceptT.mk (attempt.run.bind fun result => .done (result.mapError blame))

end

end InputTape.Playback
