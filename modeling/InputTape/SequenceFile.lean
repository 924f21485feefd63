import InputTape.Document.Basic
import InputTape.FileTree
import InputTape.Script.Compilation

/-! Sequences in files. A file is a document if its extension says so, and a script otherwise. -/

set_option autoImplicit false

namespace InputTape.SequenceFile

def isDocument (path : FilePath) : Bool :=
  (FilePath.extension? path).any (·.toLower == "json")

def read (path : FilePath) (content : Except FileError String) :
    Except SequenceError Sequence := do
  let text ← content.mapError .file
  if isDocument path then Document.read text else (Script.compile text).mapError .script

def directory (path : FilePath) : FilePath := (FilePath.parent? path).getD ""

/-- The sequence that a path leads to from a base directory, the files being held in memory. -/
def load (tree : FileTree) (current : FileTree.Location) (base path : FilePath) :
    Except SequenceError Sequence :=
  read (base.join path) (tree.readText current (base.join path))

end InputTape.SequenceFile
