import InputTape.Interaction
import InputTape.Decimal.Exact
import InputTape.Decimal.Shortest
import InputTape.Decimal.Layout
import InputTape.Decimal.Reading
import InputTape.Text.LowerCase
import InputTape.Text.Blank
import InputTape.Time
import InputTape.FilePath
import InputTape.Journal
import InputTape.Input.Key
import InputTape.Input.Mouse
import InputTape.Input.Color
import InputTape.Input.Gesture
import InputTape.Sequence.Basic
import InputTape.Sequence.Text
import InputTape.Decimal.Words
import InputTape.Script.Token
import InputTape.Script.Lexeme
import InputTape.Script.Line
import InputTape.Script.Problem
import InputTape.Script.Statement
import InputTape.Script.Draft
import InputTape.Script.Compilation
import InputTape.Expression.Value
import InputTape.Expression.Error
import InputTape.Expression.Builtin
import InputTape.Expression.Evaluation
import InputTape.Text.Hexadecimal
import InputTape.Text.Lines
import InputTape.Json.Value
import InputTape.Json.Printer
import InputTape.Json.Token
import InputTape.Json.Node
import InputTape.Json.Reading
import InputTape.Json.Form
import InputTape.FileError
import InputTape.Document.Error
import InputTape.Document.Encoding
import InputTape.Document.Decoding
import InputTape.Document.Basic
import InputTape.DryRun
import InputTape.Playback.Error
import InputTape.Playback.Request
import InputTape.Playback.Playhead
import InputTape.Playback.Execution
import InputTape.Playback.Report
import InputTape.Playback.Run
import InputTape.FileTree
import InputTape.SequenceFile
import InputTape.Rehearsal
import InputTape.Toml.Value
import InputTape.Toml.Scalar
import InputTape.Toml.Quoted
import InputTape.Toml.Statement
import InputTape.Toml.Document
import InputTape.Settings
import InputTape.Timer
import InputTape.CommandLine.Arguments
import InputTape.CommandLine.Help
import InputTape.CommandLine.Console
import InputTape.CommandLine.Commands
import InputTape.CommandLine.Terminal
import InputTape.Main
import InputTape.Proofs.Interaction.Always
import InputTape.Proofs.Interaction.Following
import InputTape.Proofs.Playback.Surroundings
import InputTape.Proofs.Text.Words
import InputTape.Proofs.Script.HiddenLabels
import InputTape.Proofs.Script.Layout
import InputTape.Proofs.Script.Names
import InputTape.Proofs.Script.Drafting
import InputTape.Proofs.Script.Machine
import InputTape.Proofs.Script.Matching
import InputTape.Proofs.Playback.Lookup
import InputTape.Proofs.Playback.Stepping
import InputTape.Proofs.Script.Simulation
import InputTape.Proofs.Script.Refinement
import InputTape.Proofs.Script.Safety
import InputTape.Proofs.Interaction.Traces
import InputTape.Proofs.Playback.History
import InputTape.Proofs.Playback.Schedule
import InputTape.Proofs.Expression.Grammar
import InputTape.Proofs.Expression.Reading
import InputTape.Proofs.Expression.Recognition
import InputTape.Proofs.Expression.Numbers
import InputTape.Proofs.Expression.Statements
import InputTape.Proofs.Playback.Endings
import InputTape.Proofs.Playback.Rounds
import InputTape.Proofs.Playback.Mishaps
import InputTape.Proofs.Playback.Faults
import InputTape.Proofs.Interaction.Heeding
import InputTape.Proofs.Expression.Heeding
import InputTape.Proofs.Playback.FailStop
import InputTape.Proofs.Playback.Cancellation
import InputTape.Proofs.Script.Grammar
import InputTape.Proofs.Script.Readers
import InputTape.Proofs.Script.Conditions
import InputTape.Proofs.Decimal.Comparison
import InputTape.Proofs.Decimal.Rounding
import InputTape.Proofs.Script.Statements
import InputTape.Proofs.Script.Nesting
import InputTape.Proofs.Script.Marks
import InputTape.Proofs.Script.Growth
import InputTape.Proofs.Script.Acceptance
import InputTape.Proofs.Decimal.Conversion
import InputTape.Proofs.Decimal.Parts
import InputTape.Proofs.Decimal.Numerals
import InputTape.Proofs.Json.Numbers
import InputTape.Proofs.Json.Tokens
import InputTape.Proofs.Json.Nodes
import InputTape.Proofs.Document.Instructions
import InputTape.Proofs.Document.RoundTrip
import InputTape.Proofs.Text.Trimming
import InputTape.Proofs.Playback.Targets
import InputTape.Proofs.Playback.Chronology
import InputTape.Proofs.Playback.Counting
import InputTape.Proofs.Playback.Transfers
import InputTape.Proofs.Playback.Timing
import InputTape.Proofs.Expression.Assignments
import InputTape.Proofs.Script.Namespace
import InputTape.Proofs.Playback.Origins
import InputTape.Proofs.Script.Lexing
import InputTape.Proofs.Script.LineEnds
import InputTape.Proofs.Script.Positions
import InputTape.Proofs.Script.Likeness
import InputTape.Proofs.Script.Agreement
import InputTape.Proofs.Script.LetterCase
import InputTape.Proofs.Script.Spacing
import InputTape.Proofs.Script.Unfinished
import InputTape.Proofs.Script.Pending
import InputTape.Proofs.Script.Diagnostics
import InputTape.Proofs.Script.Continuation
import InputTape.Proofs.Document.Loading
import InputTape.Proofs.Document.Compiled
import InputTape.Proofs.Document.Saving
import InputTape.Proofs.Playback.Reports
import InputTape.Proofs.Playback.Lateness
import InputTape.Proofs.Input.Colors
import InputTape.Proofs.Interaction.Relays
import InputTape.Proofs.Device.History
import InputTape.Proofs.Device.Screen
import InputTape.Proofs.Device.Holding
import InputTape.Proofs.CommandLine.Rehearsing
import InputTape.Proofs.Files.Writing
import InputTape.Proofs.Files.Spelling
import InputTape.Proofs.CommandLine.Compiling
import InputTape.Proofs.CommandLine.Overwriting
import InputTape.Proofs.CommandLine.Preparing
import InputTape.Proofs.Expression.Calls
import InputTape.Proofs.Expression.Walks
import InputTape.Proofs.Expression.Progress
import InputTape.Proofs.Playback.Bounds
import InputTape.Proofs.Expression.Refusals
import InputTape.Proofs.Script.Guards
