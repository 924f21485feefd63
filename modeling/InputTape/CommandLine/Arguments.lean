import InputTape.Decimal.Reading
import InputTape.FilePath

/-! The arguments of a command line.

Arguments are taken from left to right. The first that is out of place decides, and a question for
help or for the version is answered before anything behind it is looked at. A value that stands
apart from its option is looked at only with what follows it on its side of the command's name, so
a question behind that name comes before a value at the end of the outer options.
-/

set_option autoImplicit false

namespace InputTape.CommandLine

inductive Command where
  | compile (input : FilePath) (output : Option FilePath)
  | run (file : FilePath) (speed : Option Float) (timing : Bool)
  | dump (file : FilePath)
  deriving BEq, Repr

structure Invocation where
  settings : Option FilePath
  command : Command
  deriving BEq, Repr

inductive CommandName where
  | compile
  | run
  | dump
  deriving DecidableEq, Repr

namespace CommandName

def spelling : CommandName → String
  | .compile => "compile"
  | .run => "run"
  | .dump => "dump"

def ofWord? (word : String) : Option CommandName :=
  [CommandName.compile, .run, .dump].find? (·.spelling == word)

end CommandName

inductive HelpTopic where
  | program
  | command (name : CommandName)
  | help
  deriving DecidableEq, Repr

inductive Interruption where
  | version
  | help (topic : HelpTopic)
  | misuse
  deriving DecidableEq, Repr

inductive OptionName where
  | settings
  | output
  | speed
  | timing
  | help
  | version
  deriving DecidableEq, Repr

namespace OptionName

def long : OptionName → String
  | .settings => "config"
  | .output => "output"
  | .speed => "speed"
  | .timing => "timing"
  | .help => "help"
  | .version => "version"

def short? : OptionName → Option Char
  | .settings => some 'c'
  | .output => some 'o'
  | .help => some 'h'
  | .version => some 'V'
  | .speed | .timing => none

def takesValue : OptionName → Bool
  | .settings | .output | .speed => true
  | .timing | .help | .version => false

def available : Option CommandName → List OptionName
  | none => [.settings, .help, .version]
  | some .compile => [.settings, .output, .help]
  | some .run => [.settings, .speed, .timing, .help]
  | some .dump => [.settings, .help]

end OptionName

inductive Pending where
  | nothing
  | option (name : OptionName)
  | value (name : OptionName) (text : String)

structure Reading where
  command : Option CommandName
  settings : Option FilePath
  output : Option FilePath
  speed : Option Float
  timing : Bool
  file : Option FilePath

namespace Reading

def start (command : Option CommandName) : Reading := ⟨command, none, none, none, false, none⟩

abbrev Step := Except Interruption

def once {α : Type} (old : Option α) (new : Option α) : Step (Option α) :=
  match old, new with
  | none, some value => .ok (some value)
  | _, _ => .error .misuse

def path? (text : String) : Option FilePath := if text.isEmpty then none else some text

def setValue (reading : Reading) (option : OptionName) (text : String) : Step Reading := do
  match option with
  | .settings => return { reading with settings := ← once reading.settings (path? text) }
  | .output => return { reading with output := ← once reading.output (path? text) }
  | .speed => return { reading with speed := ← once reading.speed (Decimal.readFloat? text) }
  | _ => throw .misuse

def setFlag (reading : Reading) (option : OptionName) : Step Reading :=
  match option with
  | .timing => if reading.timing then .error .misuse else .ok { reading with timing := true }
  | .help => .error (.help (match reading.command with
    | some name => .command name
    | none => .program))
  | .version => .error .version
  | _ => .error .misuse

def settle (reading : Reading) : Pending → Step Reading
  | .nothing => .ok reading
  | .option _ => .error .misuse
  | .value name text => reading.setValue name text

def addFile (reading : Reading) (text : String) : Step Reading := do
  return { reading with file := ← once reading.file (path? text) }

def options (reading : Reading) : List OptionName := OptionName.available reading.command

def addLong (reading : Reading) (text : List Char) : Step (Reading × Pending) := do
  let name := String.ofList (text.takeWhile (· != '='))
  match reading.options.find? (·.long == name), text.dropWhile (· != '=') with
  | none, _ => throw .misuse
  | some option, [] =>
    if option.takesValue then return (reading, .option option)
    else return (← reading.setFlag option, .nothing)
  | some option, _ :: value =>
    if option.takesValue then return (← reading.setValue option (String.ofList value), .nothing)
    else throw .misuse

/-- Take short options without their dash. The rest behind one that has a value is its value. -/
def addShort (reading : Reading) : List Char → Step (Reading × Pending)
  | [] => return (reading, .nothing)
  | c :: rest => do
    match reading.options.find? (·.short? == some c) with
    | none => throw .misuse
    | some option =>
      if option.takesValue then
        match rest with
        | [] => return (reading, .option option)
        | '=' :: value => return (← reading.setValue option (String.ofList value), .nothing)
        | value => return (← reading.setValue option (String.ofList value), .nothing)
      else (← reading.setFlag option).addShort rest

def isOption (argument : List Char) : Bool :=
  argument.head? == some '-' && argument != ['-']

def addAll (reading : Reading) (pending : Pending) : List String → Step Reading
  | [] => reading.settle pending
  | argument :: rest => do
    let text := argument.toList
    match pending with
    | .option name =>
      if isOption text then throw .misuse
      else reading.addAll (.value name argument) rest
    | _ =>
      let reading ← reading.settle pending
      match text with
      | ['-', '-'] => rest.foldlM addFile reading
      | '-' :: '-' :: name =>
        let (reading, pending) ← reading.addLong name
        reading.addAll pending rest
      | '-' :: c :: more =>
        let (reading, pending) ← reading.addShort (c :: more)
        reading.addAll pending rest
      | _ => (← reading.addFile argument).addAll .nothing rest

def invocation (reading : Reading) (outer : Option FilePath) : Step Invocation := do
  let settings := reading.settings.or outer
  match reading.command, reading.file with
  | some .compile, some input => return ⟨settings, .compile input reading.output⟩
  | some .run, some file => return ⟨settings, .run file reading.speed reading.timing⟩
  | some .dump, some file => return ⟨settings, .dump file⟩
  | _, _ => throw .misuse

end Reading

def helpTopic? : List String → Option HelpTopic
  | [] => some .program
  | ["help"] => some .help
  | [word] => (CommandName.ofWord? word).map .command
  | _ => none

def parseFrom (reading : Reading) (pending : Pending) :
    List String → Except Interruption Invocation
  | [] => .error .misuse
  | argument :: rest => do
    let text := argument.toList
    match pending with
    | .option name =>
      if Reading.isOption text then throw .misuse
      else parseFrom reading (.value name argument) rest
    | _ =>
      match text with
      | ['-', '-'] => throw .misuse
      | '-' :: '-' :: name =>
        let (reading, pending) ← (← reading.settle pending).addLong name
        parseFrom reading pending rest
      | '-' :: c :: more =>
        let (reading, pending) ← (← reading.settle pending).addShort (c :: more)
        parseFrom reading pending rest
      | _ =>
        match CommandName.ofWord? argument with
        | some name =>
          let inner ← (Reading.start (some name)).addAll .nothing rest
          inner.invocation (← reading.settle pending).settings
        | none =>
          if argument == "help" then
            match helpTopic? rest with
            | some topic => throw (.help topic)
            | none => throw .misuse
          else throw .misuse

def parse (arguments : List String) : Except Interruption Invocation :=
  parseFrom (Reading.start none) .nothing arguments

end InputTape.CommandLine
