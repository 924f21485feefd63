import InputTape.CommandLine.Commands

/-! The program: commands with real files, a real clock and a real console. -/

set_option autoImplicit false

namespace InputTape.Program

def fileError : IO.Error → FileError
  | .noFileOrDirectory _ _ _ => .notFound
  | .inappropriateType _ code _ => if code == 21 then .isDirectory else .notDirectory
  | error => .other (toString error)

def attempt {α : Type} (action : IO α) : IO (Except FileError α) := do
  match ← action.toBaseIO with
  | .ok value => return .ok value
  | .error error => return .error (fileError error)

def readText (path : FilePath) : IO (Except FileError String) := do
  match ← attempt (IO.FS.readBinFile path) with
  | .error error => return .error error
  | .ok content => match String.fromUTF8? content with
    | some text => return .ok text
    | none => return .error .notText

def isThere (path : FilePath) : IO Bool := do
  match ← (IO.FS.readBinFile path).toBaseIO with
  | .ok _ => return true
  | .error (.noFileOrDirectory _ _ _) => return false
  | .error _ => return true

def answerTimer (request : Timer.Request) : IO request.Answer :=
  match request with
  | .isCancelled => return false
  | .clock => IO.monoNanosNow
  | .pause duration => IO.sleep (UInt32.ofNat (duration / 1000000))

def answer (request : CommandLine.Request) : IO request.Answer :=
  match request with
  | .read path => readText path
  | .write path text => attempt (IO.FS.writeFile path text)
  | .exists path => isThere path
  | .print text => IO.println text
  | .remark text => IO.eprintln text
  | .clock => IO.monoNanosNow
  | .wait pace deadline => do
    let outcome ← (Timer.waitUntil pace deadline CommandLine.unlimited).runIn answerTimer
    return outcome.getD .reached
  | .isCancelled => return false

def settingsDirectory : IO (Option FilePath) := do
  match ← IO.getEnv "XDG_CONFIG_HOME" with
  | some directory =>
    if FilePath.isAbsolute directory then return some directory
    else homeSettings
  | none => homeSettings
where
  homeSettings : IO (Option FilePath) := do
    return (← IO.getEnv "HOME").map fun home => FilePath.join home ".config"

def surroundings : IO CommandLine.Surroundings := do
  let userSettings := (← settingsDirectory).map fun directory =>
    FilePath.join (FilePath.join directory CommandLine.programName) "config.toml"
  return ⟨userSettings, ← IO.getEnv "RUST_LOG"⟩

end InputTape.Program

def main (arguments : List String) : IO UInt32 := do
  let surroundings ← InputTape.Program.surroundings
  let code ← (InputTape.CommandLine.run surroundings arguments).runIn InputTape.Program.answer
  return UInt32.ofNat code
