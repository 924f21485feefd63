import InputTape.Text.Hexadecimal

/-! Quoted text in TOML: basic strings, in which a backslash escapes, and literal ones. Tripled
quotes enclose text of several lines. -/

set_option autoImplicit false

namespace InputTape.Toml

/-- A character that may stand for itself in a string or comment of one line. -/
def isPlain (c : Char) : Bool := c == '\t' || (0x20 ≤ c.toNat && c.toNat != 0x7F)

def codedChar? (digits : List Char) (count : Nat) : Option Char := do
  if digits.length != count then none
  let n ← Text.hexNumber? digits
  if h : n.isValidChar then some (Char.ofNatAux n h) else none

/-- What an escape stands for, and its length without the backslash. -/
def escape? (text : List Char) : Option (Char × Nat) := do
  let coded (count : Nat) (rest : List Char) : Option (Char × Nat) :=
    (codedChar? (rest.take count) count).map (·, count + 1)
  match text with
  | 'b' :: _ => some ('\x08', 1)
  | 't' :: _ => some ('\t', 1)
  | 'n' :: _ => some ('\n', 1)
  | 'f' :: _ => some ('\x0c', 1)
  | 'r' :: _ => some ('\r', 1)
  | 'e' :: _ => some ('\x1b', 1)
  | '"' :: _ => some ('"', 1)
  | '\\' :: _ => some ('\\', 1)
  | 'x' :: rest => coded 2 rest
  | 'u' :: rest => coded 4 rest
  | 'U' :: rest => coded 8 rest
  | _ => none

def basic? : List Char → Option (List Char × List Char)
  | [] => none
  | '"' :: rest => some ([], rest)
  | '\\' :: rest => do
    let (c, length) ← escape? rest
    let (text, rest) ← basic? (rest.drop length)
    return (c :: text, rest)
  | c :: rest => do
    if !isPlain c then none
    let (text, rest) ← basic? rest
    return (c :: text, rest)
termination_by text => text.length
decreasing_by all_goals simp only [List.length_drop, List.length_cons]; omega

def literalString? (rest : List Char) : Option (List Char × List Char) :=
  let text := rest.takeWhile (· != '\'')
  match rest.drop text.length with
  | _ :: rest => if text.all isPlain then some (text, rest) else none
  | [] => none

def dropLineEnd : List Char → List Char
  | '\n' :: rest | '\r' :: '\n' :: rest => rest
  | rest => rest

/-- What follows a backslash at the end of a line: the text from the next character on that is
not blank. -/
def afterContinuation? (text : List Char) : Option (List Char) :=
  let rest := text.dropWhile fun c => c == ' ' || c == '\t'
  match rest with
  | '\n' :: rest | '\r' :: '\n' :: rest => some (skip rest)
  | _ => none
where
  skip : List Char → List Char
    | '\r' :: '\n' :: rest => skip rest
    | c :: rest => if c == ' ' || c == '\t' || c == '\n' then skip rest else c :: rest
    | [] => []

/-- Up to two of the quotes in front of a closing triple belong to the text: how many do, and
what follows, if the text closes here. -/
def closing? (quote : Char) (text : List Char) : Option (List Char × List Char) :=
  let quotes := (text.takeWhile (· == quote)).take 5
  if quotes.length < 3 then none
  else some (quotes.drop 3, text.drop quotes.length)

def isPlainInLines (c : Char) (rest : List Char) : Bool :=
  isPlain c || c == '\n' || (c == '\r' && rest.head? == some '\n')

def lines? (quote : Char) (escapes : Bool) : Nat → List Char → Option (List Char × List Char)
  | 0, _ => none
  | limit + 1, text =>
    match closing? quote text with
    | some result => some result
    | none =>
      match text with
      | [] => none
      | c :: rest => do
        if escapes && c == '\\' then
          match afterContinuation? rest with
          | some rest => lines? quote escapes limit rest
          | none =>
            let (c, length) ← escape? rest
            let (text, rest) ← lines? quote escapes limit (rest.drop length)
            return (c :: text, rest)
        else
          if !isPlainInLines c rest then none
          let (text, rest) ← lines? quote escapes limit rest
          return (c :: text, rest)

def quoted? : List Char → Option (String × List Char)
  | '"' :: '"' :: '"' :: rest => inLines '"' true rest
  | '\'' :: '\'' :: '\'' :: rest => inLines '\'' false rest
  | '"' :: rest => (basic? rest).map fun (text, rest) => (String.ofList text, rest)
  | '\'' :: rest => (literalString? rest).map fun (text, rest) => (String.ofList text, rest)
  | _ => none
where
  inLines (quote : Char) (escapes : Bool) (rest : List Char) : Option (String × List Char) :=
    (lines? quote escapes (rest.length + 1) (dropLineEnd rest)).map fun (text, rest) =>
      (String.ofList text, rest)

end InputTape.Toml
