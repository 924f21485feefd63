import InputTape.CommandLine.Console
import InputTape.CommandLine.Help

/-! The commands: compiling a script to a document, playing a sequence on a device that moves
nothing, and listing the instructions of a sequence. -/

set_option autoImplicit false

namespace InputTape.CommandLine

/-- The settings: of the file that is asked for, else of the user's file if there is one. -/
def readSettings (asked user : Option FilePath) : Task Settings := do
  match asked, user with
  | some path, _ => readFrom path
  | none, some path => if ← ask (.exists path) then readFrom path else return .default
  | none, none => return .default
where
  readFrom (path : FilePath) : Task Settings := do
    let text ← check (.unreadableSettings path) (← ask (.read path))
    check (.badSettings path) (Settings.read text)

def loadSequence (file : FilePath) : Task Sequence := do
  check (.notLoaded file) (SequenceFile.read file (← ask (.read file)))

def counted (n : Nat) (noun : String) : String :=
  toString n ++ " " ++ noun ++ if n == 1 then "" else "s"

/-- Compile a script into a document. An input that would be overwritten is not even read. -/
def compileFile (input : FilePath) (output : Option FilePath) : Task Unit := do
  let output := output.getD (input.withExtension "json")
  if output.same input then throw (.overwritesInput output)
  let source ← check (.unreadableInput input) (← ask (.read input))
  let sequence ← check .badScript (Script.compile source)
  let text ← check (.notSaved output) (Document.write sequence)
  check (fun error => .notSaved output (.file error)) (← ask (.write output text))
  ask (.print (input ++ " compiled (" ++ counted sequence.size "instruction" ++ " written to "
    ++ output ++ ")."))

def rightAligned (columns n : Nat) : String :=
  String.ofList ((toString n).toList.leftpad columns ' ')

def listing (index : Nat) (instruction : Instruction) : String :=
  let gap := if 0 < instruction.gap then "+" ++ numberText instruction.gap ++ "ms  " else ""
  rightAligned 5 index ++ "  " ++ gap ++ instruction.text

def dump (file : FilePath) : Task Unit := do
  let sequence ← loadSequence file
  ExceptT.lift (sequence.instructions.toList.zipIdx.forM fun (instruction, index) =>
    Console.print (listing index instruction))

section Rehearse

variable (filter : Journal.Filter)

def note (entry : Journal.Entry) : Console Unit :=
  if filter.passes entry then Console.remark entry.line else return

def passOn (rehearsal : Rehearsal) : Console Rehearsal := do
  rehearsal.journal.toList.forM (note filter)
  return { rehearsal with journal := #[] }

def passOnWith {α : Type} (reply : α × Rehearsal) : Console (α × Rehearsal) := do
  return (reply.1, ← passOn filter reply.2)

/-- Answer what a playback asks. Time and files are real, everything else is rehearsed. -/
def answer (pace : Pace) (directory : FilePath) (request : Playback.Request)
    (rehearsal : Rehearsal) : Console (request.Answer × Rehearsal) :=
  match request with
  | .gesture gesture => passOnWith filter (rehearsal.perform gesture)
  | .pixel x y => passOnWith filter (rehearsal.lookAt x y)
  | .evaluate line => passOnWith filter (rehearsal.evaluate line)
  | .load path => do
    let path := directory.join path
    return (SequenceFile.read path (← Interaction.send (Request.read path)), rehearsal)
  | .wait deadline => do
    return (← Interaction.send (Request.wait pace deadline), rehearsal)
  | .clock => do return (← Interaction.send Request.clock, rehearsal)
  | .isCancelled => do return (← Interaction.send Request.isCancelled, rehearsal)
  | .note entry => do return (← note filter entry, rehearsal)

end Rehearse

/-- More steps than can ever be taken. -/
def unlimited : Nat := Nat.pow 2 62

def isClean : Except PlaybackError (Option Playback.Report) → Bool
  | .ok (some report) => report.outcome != .cancelled
  | _ => false

def cleanUp : Interaction Playback.Request Playback.Request.Answer Unit := do
  Interaction.send (Playback.Request.note ⟨.info, "Releasing held input after abnormal stop"⟩)
  if let .error error ← Playback.releaseAll.run then
    Interaction.send (Playback.Request.note ⟨.warn, "Failed to release input: " ++ error.message⟩)

/-- Play a sequence, and let go of everything if it does not come to its end. -/
def perform (releaseOnStop : Bool) (options : Playback.Options) (sequence : Sequence) :
    Interaction Playback.Request Playback.Request.Answer
      (Except PlaybackError (Option Playback.Report)) := do
  let options ← options.checked
  let result ← (Playback.play options true unlimited sequence).run
  if !isClean result && releaseOnStop then cleanUp
  return result

def tell (report : Playback.Report) (timing : Bool) : Task Unit := do
  let tally := report.tally
  ask (.print (report.outcome.name ++ ": " ++ counted tally.executed "instruction"
    ++ " executed, " ++ counted tally.transfers "transfer" ++ "."))
  if timing then
    ask (.print ("samples:      " ++ toString tally.samples.size))
    if let some mean ← check .noMean tally.meanLateness then
      ask (.print ("mean lateness: " ++ mean.text))
    ask (.print ("max lateness:  " ++ tally.maxLateness.text))

def playbackOptions (settings : Settings) (speed : Option Float) (timing : Bool) :
    Except Error Playback.Options := do
  let options := { settings.options with
    captureTiming := settings.captureTiming || timing }
  match speed with
  | none => return options
  | some speed =>
    if Playback.Options.isPlayable speed then return { options with speed := speed }
    else throw .invalidSpeed

/-- Play a sequence from a file by the settings, on a device that moves nothing. What is left of the
rehearsal tells what is still held. -/
def rehearse (filter : Journal.Filter) (settings : Settings) (file : FilePath)
    (options : Playback.Options) (sequence : Sequence) :
    Task (Except PlaybackError (Option Playback.Report) × Rehearsal) := do
  let color ← check .badProbe settings.probeColor
  let (device, entries) ← check .badScreen
    ((DryRun.create 1920 1080).perform (.setScreen settings.screenWidth settings.screenHeight))
  ExceptT.lift (entries.forM (note filter))
  let rehearsal := Rehearsal.start .none ⟨color, []⟩ device
  ExceptT.lift ((perform settings.releaseOnStop options sequence).relay
    (answer filter settings.pace (SequenceFile.directory file)) rehearsal)

def runFile (filter : Journal.Filter) (settings : Settings) (file : FilePath)
    (speed : Option Float) (timing : Bool) : Task Unit := do
  let sequence ← loadSequence file
  let options ← check id (playbackOptions settings speed timing)
  let (result, _) ← rehearse filter settings file options sequence
  match ← check .playback result with
  | some report => tell report timing
  | none => throw .endless

structure Surroundings where
  userSettings : Option FilePath
  logFilter : Option String

def execute (surroundings : Surroundings) (invocation : Invocation) : Task Unit := do
  let settings ← readSettings invocation.settings surroundings.userSettings
  let filter := Journal.Filter.ofText (surroundings.logFilter.getD settings.logFilter)
  match invocation.command with
  | .compile input output => compileFile input output
  | .run file speed timing => runFile filter settings file speed timing
  | .dump file => dump file

/-- Do what the arguments ask for. The result is the exit code. -/
def run (surroundings : Surroundings) (arguments : List String) : Console Nat := do
  match parse arguments with
  | .ok invocation =>
    match ← (execute surroundings invocation).run with
    | .ok () => return 0
    | .error error =>
      Console.remark error.message
      return error.exitCode
  | .error .version =>
    Console.print versionLine
    return 0
  | .error (.help topic) =>
    (helpLines topic).forM Console.print
    return 0
  | .error .misuse =>
    misuseLines.forM Console.remark
    return 2

end InputTape.CommandLine
