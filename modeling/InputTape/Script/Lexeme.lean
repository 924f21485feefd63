import InputTape.Script.Token

/-! Cutting script text into lexemes.

Every character belongs to exactly one lexeme. A lexeme is a token, or a string that no quote
closes before its line ends. Strings, comments and all other tokens lie on one line; line feed,
carriage return, and carriage return with line feed each end a line.
-/

set_option autoImplicit false

namespace InputTape.Script

inductive Reading where
  | token (kind : TokenKind) (text : List Char)
  | unterminated
  deriving DecidableEq, Repr

structure Lexeme where
  span : List Char
  reading : Reading
  deriving DecidableEq, Repr

def isLineEnd (c : Char) : Bool := c == '\n' || c == '\r'

def isBlankChar (c : Char) : Bool := c == ' ' || c == '\t'

def isLetter (c : Char) : Bool := c.isAlpha || c == '_'

def isWordChar (c : Char) : Bool := c.isAlphanum || c == '_'

/-- The rest of a number behind its first digit: digits with at most one point among them. -/
def numberRest (rest : List Char) : List Char :=
  let whole := rest.takeWhile Char.isDigit
  match rest.dropWhile Char.isDigit with
  | '.' :: more => whole ++ '.' :: more.takeWhile Char.isDigit
  | _ => whole

def wordKind (word : List Char) : TokenKind :=
  match Keyword.ofWord? (String.ofList word) with
  | some keyword => .keyword keyword
  | none => .word

/-- What starts with a character, given the characters behind it, and how many of those belong
to it. -/
def readFrom (first : Char) (rest : List Char) : Reading × Nat :=
  let single (kind : TokenKind) : Reading × Nat := (.token kind [first], 0)
  match first with
  | ' ' | '\t' =>
    let more := rest.takeWhile isBlankChar
    (.token .blank (first :: more), more.length)
  | '\n' => single .lineEnd
  | '\r' => (.token .lineEnd ['\n'], if rest.head? == some '\n' then 1 else 0)
  | '/' =>
    if rest.head? == some '/' then
      let more := rest.takeWhile (!isLineEnd ·)
      (.token .comment (first :: more), more.length)
    else single (.operator .divide)
  | '=' =>
    if rest.head? == some '=' then (.token (.operator .equal) ['=', '='], 1)
    else single (.operator .assign)
  | '!' =>
    if rest.head? == some '=' then (.token (.operator .notEqual) ['!', '='], 1)
    else single .unknown
  | '+' => single (.operator .plus)
  | '-' => single (.operator .minus)
  | '*' => single (.operator .times)
  | '(' => single .openParen
  | ')' => single .closeParen
  | ',' => single .comma
  | '`' =>
    let content := rest.takeWhile fun c => c != '`' && !isLineEnd c
    if (rest.drop content.length).head? == some '`' then
      (.token .string content, content.length + 1)
    else (.unterminated, content.length)
  | '$' =>
    let name := rest.takeWhile isWordChar
    if name.head?.all Char.isDigit then (.token .unknown ('$' :: name), name.length)
    else (.token .variable name, name.length)
  | _ =>
    if first.isDigit then
      let more := numberRest rest
      (.token .number (first :: more), more.length)
    else if isLetter first then
      let more := rest.takeWhile isWordChar
      (.token (wordKind (first :: more)) (first :: more), more.length)
    else single .unknown

def lexemes : List Char → List Lexeme
  | [] => []
  | first :: rest =>
    let (reading, count) := readFrom first rest
    ⟨first :: rest.take count, reading⟩ :: lexemes (rest.drop count)
termination_by text => text.length
decreasing_by simp only [List.length_drop, List.length_cons]; omega

/-- Nothing is lost: the spans of the lexemes are the text. -/
theorem flatMap_span_lexemes (text : List Char) : (lexemes text).flatMap Lexeme.span = text := by
  induction text using lexemes.induct with
  | case1 => simp [lexemes]
  | case2 first rest reading count h ih =>
    rw [lexemes, h]
    simp only [List.flatMap_cons, ih, List.cons_append, List.take_append_drop]

structure Position where
  line : Nat
  column : Nat
  deriving DecidableEq, Repr

namespace Position

def start : Position := ⟨1, 1⟩

def isLineEndReading : Reading → Bool
  | .token .lineEnd _ => true
  | _ => false

def after (position : Position) (lexeme : Lexeme) : Position :=
  if isLineEndReading lexeme.reading then ⟨position.line + 1, 1⟩
  else ⟨position.line, position.column + lexeme.span.length⟩

end Position

/-- A token in its place, or the line of a string that is not closed. -/
inductive Item where
  | token (token : Token)
  | unterminated (line : Nat)
  deriving DecidableEq, Repr

def placeFrom (position : Position) : List Lexeme → List Item
  | [] => []
  | lexeme :: more =>
    let item := match lexeme.reading with
      | .token kind text =>
        Item.token ⟨kind, String.ofList text, position.line, position.column⟩
      | .unterminated => .unterminated position.line
    item :: placeFrom (position.after lexeme) more

def items (text : String) : List Item := placeFrom .start (lexemes text.toList)

end InputTape.Script
