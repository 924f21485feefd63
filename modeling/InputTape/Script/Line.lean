import InputTape.Script.Lexeme

/-! The lines of a script.

No token crosses a line end, so a script is read line by line. Blanks and comments are left
out. A string that is not closed is the last thing on its line.
-/

set_option autoImplicit false

namespace InputTape.Script

/-- What is left of a line: its tokens, and whether an unclosed string stands behind them. -/
structure Line where
  tokens : List Token
  isUnterminated : Bool
  deriving DecidableEq, Repr

namespace Line

def empty : Line := ⟨[], false⟩

def isBlank (line : Line) : Bool := line.tokens.isEmpty && !line.isUnterminated

end Line

def TokenKind.isSpacing : TokenKind → Bool
  | .blank | .comment => true
  | _ => false

/-- Put an item in front of the first line, or open a new line. -/
def addItem (item : Item) (lines : List Line) : List Line :=
  let (first, more) := match lines with
    | first :: more => (first, more)
    | [] => (Line.empty, [])
  match item with
  | .unterminated _ => ⟨first.tokens, true⟩ :: more
  | .token token =>
    if token.kind == .lineEnd then Line.empty :: first :: more
    else if token.kind.isSpacing then first :: more
    else { first with tokens := token :: first.tokens } :: more

def lines (text : String) : List Line := (items text).foldr addItem [Line.empty]

end InputTape.Script
