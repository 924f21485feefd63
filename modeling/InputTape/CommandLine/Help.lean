import InputTape.CommandLine.Arguments

/-! What the program says about itself. -/

set_option autoImplicit false

namespace InputTape.CommandLine

def programName : String := "keytape"

def versionLine : String := programName ++ " 0.1.0"

def table (rows : List (String × String)) : List String :=
  let width := (rows.map (·.1.length)).foldl max 0
  rows.map fun (left, right) =>
    "  " ++ left ++ String.ofList (List.replicate (width - left.length + 2) ' ') ++ right

def titled (title : String) (rows : List (String × String)) : List String :=
  ["", title ++ ":"] ++ table rows

def CommandName.summary : CommandName → String
  | .compile => "Compile a script into a JSON sequence"
  | .run => "Play a script or JSON sequence through the dry-run backend"
  | .dump => "Print a sequence one instruction per line"

def helpSummary : String := "Print this message or the help of the given subcommand(s)"

def CommandName.operand : CommandName → String
  | .compile => "<INPUT>"
  | .run | .dump => "<FILE>"

def OptionName.row : OptionName → String × String
  | .settings => ("-c, --config <FILE>", "Configuration file")
  | .output =>
    ("-o, --output <OUTPUT>", "Output file (default: INPUT with a .json extension)")
  | .speed => ("    --speed <SPEED>", "Playback rate multiplier")
  | .timing => ("    --timing", "Report timing statistics")
  | .help => ("-h, --help", "Print help")
  | .version => ("-V, --version", "Print version")

def optionRows (command : Option CommandName) : List (String × String) :=
  (OptionName.available command).map OptionName.row

def helpLines : HelpTopic → List String
  | .program =>
    ["Compiler and precision playback engine for recorded input macros.", "",
      "Usage: " ++ programName ++ " [OPTIONS] <COMMAND>"]
      ++ titled "Commands"
        ([CommandName.compile, .run, .dump].map (fun name => (name.spelling, name.summary))
          ++ [("help", helpSummary)])
      ++ titled "Options" (optionRows none)
  | .command name =>
    [name.summary, "",
      "Usage: " ++ programName ++ " " ++ name.spelling ++ " [OPTIONS] " ++ name.operand]
      ++ titled "Arguments" [(name.operand, "")]
      ++ titled "Options" (optionRows (some name))
  | .help =>
    [helpSummary, "", "Usage: " ++ programName ++ " help [COMMAND]..."]
      ++ titled "Arguments" [("[COMMAND]...", "Print help for the subcommand(s)")]

def misuseLines : List String :=
  ["error: these arguments are not understood", "",
    "Usage: " ++ programName ++ " [OPTIONS] <COMMAND>", "",
    "For more information, try '--help'."]

end InputTape.CommandLine
