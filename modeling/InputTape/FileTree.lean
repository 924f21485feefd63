import InputTape.FileError
import InputTape.FilePath

/-! Files held in memory.

A location is a list of names from the root. A path is followed step by step, and each step but
the last has to lead to a directory. Two dots lead to the directory above, and the root is above
itself.
-/

set_option autoImplicit false

namespace InputTape

structure FileTree where
  /-- Contents by location. -/
  files : List (List String × ByteArray)
  /-- Directories besides the root. -/
  directories : List (List String)

namespace FileTree

abbrev Location := List String

def empty : FileTree := ⟨[], []⟩

def content? (tree : FileTree) (location : Location) : Option ByteArray :=
  tree.files.lookup location

def isDirectory (tree : FileTree) (location : Location) : Bool :=
  location.isEmpty || tree.directories.contains location

def exists? (tree : FileTree) (location : Location) : Bool :=
  tree.isDirectory location || (tree.content? location).isSome

/-- Longest name that a directory takes, in bytes. -/
def longestName : Nat := 255

def step (tree : FileTree) (location : Location) (piece : List Char) :
    Except FileError Location :=
  let name := String.ofList piece
  if !tree.isDirectory location then .error .notDirectory
  else if FilePath.isIdle piece then .ok location
  else if piece == ['.', '.'] then .ok location.dropLast
  else if longestName < name.utf8ByteSize then .error .nameTooLong
  else if tree.exists? (location ++ [name]) then .ok (location ++ [name])
  else .error .notFound

def longestPath : Nat := 4095

def start (current : Location) (path : FilePath) : Except FileError Location :=
  if path.toList.contains '\x00' then .error .nulInPath
  else if path == "" then .error .notFound
  else if longestPath < path.utf8ByteSize then .error .nameTooLong
  else .ok (if FilePath.isAbsolute path then [] else current)

def locate (tree : FileTree) (current : Location) (path : FilePath) :
    Except FileError Location := do
  (FilePath.pieces path.toList).foldlM tree.step (← start current path)

def read (tree : FileTree) (current : Location) (path : FilePath) :
    Except FileError ByteArray := do
  match tree.content? (← tree.locate current path) with
  | some content => return content
  | none => throw .isDirectory

def readText (tree : FileTree) (current : Location) (path : FilePath) :
    Except FileError String := do
  match String.fromUTF8? (← tree.read current path) with
  | some text => return text
  | none => throw .notText

def put (tree : FileTree) (location : Location) (content : ByteArray) : FileTree :=
  { tree with files := (location, content) :: tree.files.filter (·.1 != location) }

def putDirectory (tree : FileTree) (location : Location) : FileTree :=
  { tree with directories :=
    (List.range location.length).foldl (fun directories n =>
      directories.insert (location.take (n + 1))) tree.directories }

/-- Where a file may be written. Its directory has to be there. With a slash behind it, a name
can only be that of a directory. -/
def locateForWriting (tree : FileTree) (current : Location) (path : FilePath) :
    Except FileError Location := do
  let pieces := FilePath.pieces path.toList
  let steps := (pieces.reverse.dropWhile List.isEmpty).reverse
  let last := steps.getLast?.getD []
  let directory ← steps.dropLast.foldlM tree.step (← start current path)
  if !tree.isDirectory directory then throw .notDirectory
  let name := String.ofList last
  if steps.length < pieces.length || last == ['.'] || last == ['.', '.'] then throw .isDirectory
  if longestName < name.utf8ByteSize then throw .nameTooLong
  if tree.isDirectory (directory ++ [name]) then throw .isDirectory
  return directory ++ [name]

def write (tree : FileTree) (current : Location) (path : FilePath) (content : ByteArray) :
    Except FileError FileTree := do
  return tree.put (← tree.locateForWriting current path) content

end FileTree
end InputTape
