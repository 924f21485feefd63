/-! File paths as text.

Separators are slashes. Paths are joined and cut as text and never normalised; two
paths are compared by their components.
-/

set_option autoImplicit false

namespace InputTape

abbrev FilePath := String

namespace FilePath

inductive Component where
  | root
  | here
  | up
  | name (text : List Char)
  deriving DecidableEq, Repr

def pieces : List Char → List (List Char)
  | [] => [[]]
  | c :: rest =>
    if c == '/' then [] :: pieces rest
    else match pieces rest with
      | piece :: more => (c :: piece) :: more
      | [] => [[c]]

/-- A piece that names no step: nothing at all, or a single dot. -/
def isIdle (piece : List Char) : Bool := piece == [] || piece == ['.']

def isAbsolute (path : FilePath) : Bool := path.toList.head? == some '/'

/-- The opening slash or dot of a path, and its other pieces. A dot opens a path only if it is
its first piece. -/
def opening (path : FilePath) : List Char × List (List Char) :=
  match path.toList with
  | '/' :: rest => (['/'], pieces rest)
  | '.' :: rest =>
    if rest.head?.all (· == '/') then (['.'], pieces rest) else ([], pieces ('.' :: rest))
  | text => ([], pieces text)

/-- The steps of a path. Repeated slashes and dots inside it are no steps. -/
def components (path : FilePath) : List Component :=
  let (lead, steps) := opening path
  let first := if lead == ['/'] then [Component.root] else if lead == ['.'] then [.here] else []
  first ++ (steps.filter (!isIdle ·)).map fun piece =>
    if piece == ['.', '.'] then .up else .name piece

def same (left right : FilePath) : Bool := components left == components right

def trimIdle (steps : List (List Char)) : List (List Char) :=
  (steps.reverse.dropWhile isIdle).reverse

def fromPieces (lead : List Char) (steps : List (List Char)) : FilePath :=
  String.ofList (lead ++ List.intercalate ['/'] steps)

def parent? (path : FilePath) : Option FilePath :=
  let (lead, steps) := opening path
  match (trimIdle steps).reverse with
  | _ :: before => some (fromPieces lead (trimIdle before.reverse))
  | [] => if lead == ['.'] then some "" else none

/-- A path below a directory. An absolute path stands for itself. -/
def join (directory path : FilePath) : FilePath :=
  if isAbsolute path then path
  else if directory == "" || directory.toList.getLast? == some '/' then directory ++ path
  else directory ++ "/" ++ path

def splitName? (path : FilePath) : Option (FilePath × List Char) :=
  let (lead, steps) := opening path
  match (trimIdle steps).reverse with
  | name :: before =>
    if name == ['.', '.'] then none
    else some (fromPieces lead (before.reverse ++ [[]]), name)
  | [] => none

/-- A name cut at its last dot. A dot that opens the name cuts nothing. -/
def splitExtension (name : List Char) : List Char × Option (List Char) :=
  let last := (name.reverse.takeWhile (· != '.')).reverse
  let stem := name.take (name.length - last.length - 1)
  if last.length == name.length || stem.isEmpty then (name, none) else (stem, some last)

def extension? (path : FilePath) : Option String := do
  let (_, name) ← splitName? path
  (splitExtension name).2.map String.ofList

/-- Replace or add the extension of the last name. The old extension is first cut off at the end
of the text; a path that then ends in no name stays. -/
def withExtension (path : FilePath) (extension : String) : FilePath :=
  let oldLength := ((extension? path).map (·.length)).getD 0
  let rest := String.ofList (path.toList.take (path.length - oldLength))
  match splitName? rest with
  | none => rest
  | some (directory, name) =>
    directory ++ String.ofList (splitExtension name).1 ++ "." ++ extension

end FilePath
end InputTape
