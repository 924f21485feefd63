/-! Tokens of script text. -/

set_option autoImplicit false

namespace InputTape.Script

inductive Operator where
  | assign
  | equal
  | notEqual
  | plus
  | minus
  | times
  | divide
  deriving DecidableEq, Repr

def Operator.symbol : Operator → String
  | .assign => "="
  | .equal => "=="
  | .notEqual => "!="
  | .plus => "+"
  | .minus => "-"
  | .times => "*"
  | .divide => "/"

inductive Keyword where
  | delay
  | mouse
  | key
  | script
  | exit
  | ifBlock
  | elseBlock
  | endIf
  | whileBlock
  | endWhile
  | leave
  | label
  | goto
  | pixelColor
  | rgb
  | argb
  | custom
  deriving DecidableEq, Repr

namespace Keyword

def spelling : Keyword → String
  | .delay => "delay"
  | .mouse => "mouse"
  | .key => "key"
  | .script => "script"
  | .exit => "exit"
  | .ifBlock => "if"
  | .elseBlock => "else"
  | .endIf => "endif"
  | .whileBlock => "while"
  | .endWhile => "endwhile"
  | .leave => "break"
  | .label => "label"
  | .goto => "goto"
  | .pixelColor => "pixelcolor"
  | .rgb => "rgb"
  | .argb => "argb"
  | .custom => "custom"

def all : List Keyword :=
  [.delay, .mouse, .key, .script, .exit, .ifBlock, .elseBlock, .endIf, .whileBlock, .endWhile,
    .leave, .label, .goto, .pixelColor, .rgb, .argb, .custom]

def ofWord? (word : String) : Option Keyword := all.find? (·.spelling == word.toLower)

end Keyword

inductive TokenKind where
  | blank
  | lineEnd
  | comment
  | operator (operator : Operator)
  | openParen
  | closeParen
  | comma
  | string
  | variable
  | number
  | keyword (keyword : Keyword)
  | word
  | unknown
  deriving DecidableEq, Repr

/-- A token with its place. Lines and columns count from one, columns in characters. The text of
a string lacks its quotes, that of a variable its dollar sign, and every line end is written as
a line feed. -/
structure Token where
  kind : TokenKind
  text : String
  line : Nat
  column : Nat
  deriving DecidableEq, Repr

end InputTape.Script
