/-! Lines of a text.

A line ends with a line feed, which may have a carriage return before it. The last line
needs no end, and nothing follows an end that closes the text.
-/

set_option autoImplicit false

namespace InputTape.Text

/-- The text of a line that a line feed ends. The characters come last first. -/
def endedLine : List Char → String
  | '\r' :: line => String.ofList line.reverse
  | line => String.ofList line.reverse

def linesFrom (line : List Char) : List Char → List String
  | [] => if line.isEmpty then [] else [String.ofList line.reverse]
  | c :: rest =>
    if c = '\n' then endedLine line :: linesFrom [] rest else linesFrom (c :: line) rest

def lines (text : String) : List String := linesFrom [] text.toList

def ended (pieces : List String) : String := String.join (pieces.map (· ++ "\n"))

end InputTape.Text
