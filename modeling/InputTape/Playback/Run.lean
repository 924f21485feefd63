import InputTape.Playback.Execution
import InputTape.Playback.Report

/-! Playing a sequence.

Every instruction is fired when it is due: its gap after the one before was due, and a delay
further on. How late an instruction is fired does not move what follows. A jump starts the
schedule anew from the clock. A file takes the place of the sequence that leads to it, and
nothing leads back.
-/

set_option autoImplicit false

namespace InputTape.Playback

structure Options where
  /-- How many times faster than recorded. -/
  speed : Float
  /-- Keep a sample of every instruction? -/
  captureTiming : Bool
  /-- A lateness above this gets a warning. -/
  latenessWarning : Duration

namespace Options

def isPlayable (speed : Float) : Bool := speed.isFinite && 0 < speed

/-- Put the recorded speed in the place of one that cannot be played at. -/
def checked (options : Options) : Interaction Request Request.Answer Options :=
  if isPlayable options.speed then .done options
  else .ask (.note ⟨.warn, "ignoring invalid playback speed " ++ numberText options.speed⟩)
    fun _ => .done { options with speed := 1 }

/-- A time by so many milliseconds later at the speed of the playback. Nothing goes back. -/
def after? (options : Options) (time : Time) (milliseconds : Float) : Option Time :=
  if milliseconds.isNaN || milliseconds ≤ 0 then some time
  else do Time.after? time (← Duration.ofSeconds? (milliseconds / 1000 / options.speed))

end Options

structure State where
  playhead : Playhead
  /-- When the instruction before was due, and its delay over. -/
  scheduled : Time
  tally : Tally

inductive Progress where
  | playing (state : State)
  | ended (report : Report)

abbrev Play := Attempt PlaybackError

section Step

variable (options : Options) (state : State) (instruction : Instruction)

def blame (failure : Failure) : PlaybackError := ⟨state.playhead.index, instruction, failure⟩

def schedule (time : Time) (milliseconds : Float) : Play Time :=
  match options.after? time milliseconds with
  | some later => return later
  | none => throw (blame state instruction (.execution (.delayTooLong milliseconds)))

def recordFiring (deadline : Time) : Play Tally := do
  let sample : Sample := ⟨state.playhead.index, deadline, ← ask .clock⟩
  let late := sample.lateness.text
  let index := toString sample.index
  note .trace ("[" ++ index ++ "] fired " ++ late ++ " late")
  if options.latenessWarning < sample.lateness then
    note .warn ("instruction " ++ index ++ " fired " ++ late ++ " late")
  return state.tally.record options.captureTiming sample

/-- Go on behind the instruction. The delay of the last one is waited for too. -/
def goOn (deadline : Time) (tally : Tally) : Play Progress := do
  let milliseconds := match instruction.operation with
    | .delay milliseconds => milliseconds
    | _ => 0
  let later ← schedule options state instruction deadline milliseconds
  match state.playhead.advance? with
  | some playhead => return .playing ⟨playhead, later, tally⟩
  | none =>
    if deadline < later then
      match ← ask (.wait later) with
      | .cancelled => return .ended ⟨.cancelled, tally⟩
      | .reached => return .ended ⟨.completed, tally⟩
    else return .ended ⟨.completed, tally⟩

def goTo (index : Nat) (tally : Tally) : Play Progress := do
  let playhead ← settle (fun error => blame state instruction (.flow error))
    (state.playhead.jump index)
  return .playing ⟨playhead, ← ask .clock, tally⟩

def transferTo (path : FilePath) (tally : Tally) : Play Progress := do
  let sequence ← blaming (fun error => blame state instruction (.flow error))
    (state.playhead.load path)
  let path := state.playhead.resolve path
  note .info ("transferring to " ++ path ++ " (" ++ toString sequence.size ++ " instructions)")
  let playhead := Playhead.start sequence path.parent? state.playhead.hasLoader
  return .playing ⟨playhead, ← ask .clock, { tally with transfers := tally.transfers + 1 }⟩

def fire (deadline : Time) : Play Progress := do
  let tally ← recordFiring options state deadline
  note .debug ("[" ++ toString state.playhead.index ++ "] " ++ instruction.text)
  let directive ← blaming (blame state instruction)
    (execute state.playhead instruction.operation)
  let tally := { tally with executed := tally.executed + 1 }
  match directive with
  | .next => goOn options state instruction deadline tally
  | .jump index => goTo state instruction index tally
  | .stop => return .ended ⟨.stopped, tally⟩
  | .transfer path => transferTo state instruction path tally

end Step

def step (options : Options) (state : State) : Play Progress := do
  if ← ask .isCancelled then return .ended ⟨.cancelled, state.tally⟩
  else
    match state.playhead.current? with
    | none => return .ended ⟨.completed, state.tally⟩
    | some instruction =>
      let deadline ← schedule options state instruction state.scheduled instruction.gap
      match ← ask (.wait deadline) with
      | .cancelled => return .ended ⟨.cancelled, state.tally⟩
      | .reached => fire options state instruction deadline

/-- Play on for so many steps. A playback that has not ended by then has no report. -/
def playFrom (options : Options) : Nat → State → Play (Option Report)
  | 0, _ => return none
  | steps + 1, state => do
    match ← step options state with
    | .playing next => playFrom options steps next
    | .ended report => return some report

def play (options : Options) (hasLoader : Bool) (steps : Nat) (sequence : Sequence) :
    Play (Option Report) := do
  note .info ("playback started (" ++ toString sequence.size ++ " instructions)")
  let start : State := ⟨.start sequence none hasLoader, ← ask .clock, .zero⟩
  match ← playFrom options steps start with
  | none => return none
  | some report =>
    note .info ("playback finished: " ++ report.outcome.name ++ " after "
      ++ toString report.tally.executed ++ " instructions, " ++ toString report.tally.transfers
      ++ " transfers, max lateness " ++ report.tally.maxLateness.text)
    return some report

end InputTape.Playback
