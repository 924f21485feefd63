import InputTape.Document.Decoding
import InputTape.Document.Encoding
import InputTape.Document.Error
import InputTape.Json.Printer

/-! Saved sequences.

A document is an object with a version and the instructions. Of a document with another version
nothing else is read. The instructions of a document, read or written, have gaps and delays of
zero to one day.
-/

set_option autoImplicit false

namespace InputTape.Document

def version : UInt32 := 1

def isAcceptable (milliseconds : Float) : Bool := 0 ≤ milliseconds && milliseconds ≤ longestDelay

/-- What is wrong with the times of an instruction. The gap is looked at first. -/
def problem? (index : Nat) (instruction : Instruction) : Option SequenceError :=
  if !isAcceptable instruction.gap then some (.invalidGap index instruction.gap)
  else match instruction.operation with
    | .delay milliseconds =>
      if isAcceptable milliseconds then none else some (.invalidDelay index milliseconds)
    | _ => none

def firstProblem? (index : Nat) : List Instruction → Option SequenceError
  | [] => none
  | instruction :: more => (problem? index instruction).or (firstProblem? (index + 1) more)

def accept (instructions : List Instruction) : Except SequenceError Sequence :=
  match firstProblem? 0 instructions with
  | some error => .error error
  | none => .ok ⟨instructions.toArray⟩

def toJson (sequence : Sequence) : Json :=
  .object [("version", .integer version.toNat),
    ("instructions", .array (sequence.instructions.toList.map Instruction.toJson))]

def write (sequence : Sequence) : Except SequenceError String := do
  let accepted ← accept sequence.instructions.toList
  return (toJson accepted).text .indented

def readOnly {α : Type} (name : String) (reader : Json.Node → Json.Reading α) (node : Json.Node) :
    Json.Reading α := do
  match ← node.record [name] (fun _ value _ => return some (← reader value)) none with
  | some value => return value
  | none => throw .mistyped

def readVersion (text : String) : Json.Reading UInt32 :=
  Json.readText (readOnly "version" (·.expect Json.uint32?)) text

def readInstructions (text : String) : Json.Reading (List Instruction) :=
  Json.readText (readOnly "instructions" (·.list (Instruction.read 2))) text

def read (text : String) : Except SequenceError Sequence := do
  let found ← (readVersion text).mapError .document
  if found != version then throw (.unsupportedVersion found)
  accept (← (readInstructions text).mapError .document)

/-- The instructions of a text that is nothing but a list of them. Their times may be anything. -/
def readList (text : String) : Except SequenceError Sequence :=
  match Json.readText (·.list (Instruction.read 1)) text with
  | .ok instructions => .ok ⟨instructions.toArray⟩
  | .error fault => .error (.document fault)

end InputTape.Document
