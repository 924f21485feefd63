import InputTape.Toml.Quoted
import InputTape.Toml.Scalar

/-! Statements of a TOML document: headers, and keys with their values. -/

set_option autoImplicit false

namespace InputTape.Toml

abbrev KeyPath := List String

/-- A value as it is written. The keys of an inline table are not resolved yet. -/
inductive Written where
  | scalar (value : Toml)
  | array (items : List Written)
  | table (members : List (KeyPath × Written))

inductive Statement where
  /-- What follows belongs to this table. -/
  | header (path : KeyPath)
  /-- What follows belongs to a new table of this array. -/
  | arrayHeader (path : KeyPath)
  | entry (path : KeyPath) (value : Written)

abbrev Reader := StateT (List Char) Option

namespace Reader

def isSpace (c : Char) : Bool := c == ' ' || c == '\t'

def skipSpaces : Reader Unit := modify (·.dropWhile isSpace)

def optional (c : Char) : Reader Bool := do
  match ← get with
  | first :: rest =>
    if first == c then
      set rest
      return true
    else return false
  | [] => return false

def expect (c : Char) : Reader Unit := do
  if !(← optional c) then failure

def afterBlank? (inComment : Bool) : List Char → Option (List Char)
  | [] => some []
  | '\n' :: rest => afterBlank? false rest
  | '\r' :: rest => if rest.head? == some '\n' then afterBlank? false rest else none
  | c :: rest =>
    if inComment then if isPlain c then afterBlank? true rest else none
    else if isSpace c then afterBlank? false rest
    else if c == '#' then afterBlank? true rest
    else some (c :: rest)

def skipBlank : Reader Unit := do set (← afterBlank? false (← get))

def afterLine? (inComment : Bool) : List Char → Option (List Char)
  | [] => some []
  | '\n' :: rest => some rest
  | '\r' :: rest => match rest with
    | '\n' :: rest => some rest
    | _ => none
  | c :: rest =>
    if inComment then if isPlain c then afterLine? true rest else none
    else if isSpace c then afterLine? false rest
    else if c == '#' then afterLine? true rest
    else none

def finishLine : Reader Unit := do set (← afterLine? false (← get))

def isBareChar (c : Char) : Bool := c.isAlphanum || c == '_' || c == '-'

/-- One part of a key. Text of several lines is no key. -/
def simpleKey : Reader String := do
  let text ← get
  match text with
  | '"' :: rest =>
    let (key, rest) ← (basic? rest : Option _)
    set rest
    return String.ofList key
  | '\'' :: rest =>
    let (key, rest) ← (literalString? rest : Option _)
    set rest
    return String.ofList key
  | _ =>
    let key := text.takeWhile isBareChar
    if key.isEmpty then failure
    set (text.drop key.length)
    return String.ofList key

def keyParts : Nat → Reader KeyPath
  | 0 => failure
  | limit + 1 => do
    skipSpaces
    let part ← simpleKey
    skipSpaces
    if ← optional '.' then return part :: (← keyParts limit)
    else return [part]

def partLimit : Nat := 80

def key : Reader KeyPath := keyParts partLimit

/-- Is a character part of the scalar before it? All are that have no meaning of their own. -/
def isScalarChar (c : Char) : Bool :=
  let meaningful := ['=', ',', '[', ']', '{', '}', '#', ' ', '\t', '\r', '\n']
  !meaningful.contains c

def scalar : Reader Toml := do
  let text ← get
  let run := text.takeWhile isScalarChar
  let rest := text.drop run.length
  let time := match rest with
    | ' ' :: more => more.takeWhile isScalarChar
    | _ => []
  if Scalar.afterDate? run == some [] && (time.head?.any Char.isDigit) then
    set (rest.drop (time.length + 1))
    Scalar.read? (run ++ ' ' :: time)
  else
    set rest
    Scalar.read? run

/-- Items up to a closing mark, separated by commas; a comma may follow the last. At most so many
are read. -/
def items {α : Type} (closing : Char) (item : Reader α) : Nat → Reader (List α)
  | 0 => failure
  | limit + 1 => do
    skipBlank
    if ← optional closing then return []
    let first ← item
    skipBlank
    if ← optional closing then return [first]
    expect ','
    return first :: (← items closing item limit)

def entry (skip : Reader Unit) (value : Reader Written) : Reader (KeyPath × Written) := do
  let path ← key
  skip
  expect '='
  skip
  return (path, ← value)

def simpleValue : Reader Written := do
  let text ← get
  match text with
  | '"' :: _ | '\'' :: _ =>
    let (text, rest) ← (quoted? text : Option _)
    set rest
    return .scalar (.string text)
  | _ => return .scalar (← scalar)

def value : Nat → Reader Written
  | 0 => simpleValue
  | depth + 1 => do
    match ← get with
    | '[' :: rest =>
      set rest
      return .array (← items ']' (value depth) (rest.length + 1))
    | '{' :: rest =>
      set rest
      return .table (← items '}' (entry skipBlank (value depth)) (rest.length + 1))
    | _ => simpleValue

def nestingLimit : Nat := 80

def statement : Reader Statement := do
  if ← optional '[' then
    if ← optional '[' then
      let path ← key
      expect ']'
      expect ']'
      return .arrayHeader path
    let path ← key
    expect ']'
    return .header path
  let (path, value) ← entry skipSpaces (value nestingLimit)
  return .entry path value

def statements : Nat → Reader (List Statement)
  | 0 => failure
  | limit + 1 => do
    skipBlank
    if (← get).isEmpty then return []
    let first ← statement
    finishLine
    return first :: (← statements limit)

end Reader

def statements? (text : String) : Option (List Statement) :=
  let text := match text.toList with
    | '\uFEFF' :: rest => rest
    | rest => rest
  (Reader.statements (text.length + 1) text).map (·.1)

end InputTape.Toml
