import InputTape.Script.Statement
import Mathlib.Data.List.Forall2

/-! The language of scripts, apart from how it is read.

    statement  := Delay '(' number ')'
                | Mouse '(' action ',' number ',' number [',' number] ')'
                | Key '(' action ',' (key | number) ')'
                | Script '(' string (',' string)* ')'
                | Exit | label name | goto name | break
                | if '(' condition ')' | else | endif
                | while '(' condition ')' | endwhile
    condition  := PixelColor '(' number ',' number ')' ('==' | '!=') color
                | Custom '(' string ')'
    color      := RGB '(' number ',' number ',' number [',' number] ')'
                | ARGB '(' number ',' number ',' number ',' number [',' number] ')'
    number     := ['-'] digits

One statement stands on one line. `IsStatement` says which tokens are which statement, and `Nested`
how statements follow each other.
-/

set_option autoImplicit false

namespace InputTape.Script

/-! ## Lines -/

/-- A keyword is a word where nothing but a word is expected. -/
def TokenKind.IsWordlike : TokenKind → Prop
  | .word | .keyword _ => True
  | _ => False

inductive IsParameter : List Token → Parameter → Prop where
  | number {token : Token} {value : Float} : token.kind = .number →
      Decimal.readFloat? token.text = some value → IsParameter [token] (.number value)
  | negative {minus token : Token} {value : Float} : minus.kind = .operator .minus →
      token.kind = .number → Decimal.readFloat? token.text = some value →
      IsParameter [minus, token] (.number (-value))
  | string {token : Token} : token.kind = .string → IsParameter [token] (.string token.text)
  | word {token : Token} : token.kind.IsWordlike → IsParameter [token] (.word token.text)

inductive AreParameters : List Token → List Parameter → Prop where
  | last {tokens : List Token} {parameter : Parameter} {closing : Token} :
      IsParameter tokens parameter → closing.kind = .closeParen →
      AreParameters (tokens ++ [closing]) [parameter]
  | more {first rest : List Token} {parameter : Parameter} {parameters : List Parameter}
      {comma : Token} : IsParameter first parameter → comma.kind = .comma →
      AreParameters rest parameters →
      AreParameters (first ++ comma :: rest) (parameter :: parameters)

inductive InParentheses : List Token → List Parameter → Prop where
  | none {opening closing : Token} : opening.kind = .openParen → closing.kind = .closeParen →
      InParentheses [opening, closing] []
  | some {opening : Token} {tokens : List Token} {parameters : List Parameter} :
      opening.kind = .openParen → AreParameters tokens parameters →
      InParentheses (opening :: tokens) parameters

/-- A number that is exactly this integer, and the integer is not beyond either bound. -/
def Parameter.IsWhole (parameter : Parameter) (low high n : Int) : Prop :=
  ∃ value, parameter = .number value ∧ wholeNumber? value = some n ∧ low ≤ n ∧ n ≤ high

def Parameter.IsInteger (parameter : Parameter) (n : Int32) : Prop :=
  parameter.IsWhole (-2147483648) 2147483647 n.toInt

def Parameter.IsComponent (parameter : Parameter) (n : UInt8) : Prop :=
  parameter.IsWhole 0 255 n.toNat

/-- The name of a key in any letter case, or its code. -/
inductive Parameter.IsKey : Parameter → KeyCode → Prop where
  | named {name : String} {row : KeySpelling} : row ∈ keySpellings →
      row.spelling = name.toLower → IsKey (.word name) ⟨row.code⟩
  | coded {parameter : Parameter} {code : UInt16} : parameter.IsWhole 0 65535 code.toNat →
      IsKey parameter ⟨code⟩

inductive IsTolerance : List Parameter → UInt8 → Prop where
  | none : IsTolerance [] 0
  | some {parameter : Parameter} {n : UInt8} : parameter.IsComponent n → IsTolerance [parameter] n

inductive AreChannels : Bool → List Parameter → Color → UInt8 → Prop where
  | rgb {first second third : Parameter} {more : List Parameter}
      {red green blue tolerance : UInt8} : first.IsComponent red → second.IsComponent green →
      third.IsComponent blue → IsTolerance more tolerance →
      AreChannels false (first :: second :: third :: more) (.opaqueRgb red green blue) tolerance
  | argb {first second third fourth : Parameter} {more : List Parameter}
      {alpha red green blue tolerance : UInt8} : first.IsComponent alpha →
      second.IsComponent red → third.IsComponent green → fourth.IsComponent blue →
      IsTolerance more tolerance →
      AreChannels true (first :: second :: third :: fourth :: more) ⟨alpha, red, green, blue⟩
        tolerance

inductive IsColor : List Token → Color → UInt8 → Prop where
  | channels {hasAlpha : Bool} {name : Token} {tokens : List Token} {parameters : List Parameter}
      {color : Color} {tolerance : UInt8} :
      name.kind = .keyword (if hasAlpha then .argb else .rgb) → InParentheses tokens parameters →
      AreChannels hasAlpha parameters color tolerance → IsColor (name :: tokens) color tolerance

inductive IsCondition : List Token → Condition → Bool → Prop where
  | pixel {name operator : Token} {place colors : List Token} {first second : Parameter}
      {x y : Int32} {color : Color} {tolerance : UInt8} {negated : Bool} :
      name.kind = .keyword .pixelColor → InParentheses place [first, second] →
      first.IsInteger x → second.IsInteger y →
      operator.kind = .operator (if negated then .notEqual else .equal) →
      IsColor colors color tolerance →
      IsCondition (name :: place ++ operator :: colors) (.pixel x y color tolerance) negated
  | expression {name : Token} {tokens : List Token} {source : String} :
      name.kind = .keyword .custom → InParentheses tokens [.string source] →
      IsCondition (name :: tokens) (.expression source) false

inductive IsStatement : List Token → Statement → Prop where
  | delay {command : Token} {tokens : List Token} {milliseconds : Float} :
      command.kind = .keyword .delay → InParentheses tokens [.number milliseconds] →
      0 ≤ milliseconds → milliseconds ≤ longestDelay →
      IsStatement (command :: tokens) (.delay milliseconds)
  | mouse {command : Token} {tokens : List Token} {name : String} {first second : Parameter}
      {action : MouseAction} {x y : Int32} : command.kind = .keyword .mouse →
      InParentheses tokens [.word name, first, second] → action.name.toLower = name.toLower →
      first.IsInteger x → second.IsInteger y →
      IsStatement (command :: tokens) (.mouse action x y 0)
  | wheel {command : Token} {tokens : List Token} {name : String} {first second third : Parameter}
      {x y amount : Int32} : command.kind = .keyword .mouse →
      InParentheses tokens [.word name, first, second, third] →
      MouseAction.wheel.name.toLower = name.toLower → first.IsInteger x → second.IsInteger y →
      third.IsInteger amount → IsStatement (command :: tokens) (.mouse .wheel x y amount)
  | key {command : Token} {tokens : List Token} {name : String} {parameter : Parameter}
      {action : KeyAction} {code : KeyCode} : command.kind = .keyword .key →
      InParentheses tokens [.word name, parameter] → action.name.toLower = name.toLower →
      parameter.IsKey code → IsStatement (command :: tokens) (.key action code)
  | script {command : Token} {tokens : List Token} {lines : List String} :
      command.kind = .keyword .script → InParentheses tokens (lines.map .string) → lines ≠ [] →
      IsStatement (command :: tokens) (.script lines)
  | exit {command : Token} : command.kind = .keyword .exit → IsStatement [command] .exit
  | ifBlock {command opening closing : Token} {tokens : List Token} {condition : Condition}
      {negated : Bool} : command.kind = .keyword .ifBlock → opening.kind = .openParen →
      IsCondition tokens condition negated → closing.kind = .closeParen →
      IsStatement (command :: opening :: tokens ++ [closing]) (.ifBlock condition negated)
  | elseBlock {command : Token} : command.kind = .keyword .elseBlock →
      IsStatement [command] .elseBlock
  | endIf {command : Token} : command.kind = .keyword .endIf → IsStatement [command] .endIf
  | whileBlock {command opening closing : Token} {tokens : List Token} {condition : Condition}
      {negated : Bool} : command.kind = .keyword .whileBlock → opening.kind = .openParen →
      IsCondition tokens condition negated → closing.kind = .closeParen →
      IsStatement (command :: opening :: tokens ++ [closing]) (.whileBlock condition negated)
  | endWhile {command : Token} : command.kind = .keyword .endWhile →
      IsStatement [command] .endWhile
  | leave {command : Token} : command.kind = .keyword .leave → IsStatement [command] .leave
  | label {command name : Token} : command.kind = .keyword .label → name.kind.IsWordlike →
      IsStatement [command, name] (.label name.text)
  | goto {command name : Token} : command.kind = .keyword .goto → name.kind.IsWordlike →
      IsStatement [command, name] (.goto name.text)

/-! ## Scripts -/

def Statement.IsPlain : Statement → Prop
  | .delay _ | .mouse _ _ _ _ | .key _ _ | .script _ | .exit | .label _ | .goto _ => True
  | _ => False

/-- Blocks lie within each other, a conditional has at most one else part, and only a loop is
left. -/
inductive Nested : Bool → List Statement → Prop where
  | nil {inLoop : Bool} : Nested inLoop []
  | plain {inLoop : Bool} {statement : Statement} {rest : List Statement} : statement.IsPlain →
      Nested inLoop rest → Nested inLoop (statement :: rest)
  | leave {rest : List Statement} : Nested true rest → Nested true (.leave :: rest)
  | conditional {inLoop negated : Bool} {condition : Condition} {body rest : List Statement} :
      Nested inLoop body → Nested inLoop rest →
      Nested inLoop (.ifBlock condition negated :: body ++ .endIf :: rest)
  | alternative {inLoop negated : Bool} {condition : Condition}
      {body other rest : List Statement} : Nested inLoop body → Nested inLoop other →
      Nested inLoop rest →
      Nested inLoop (.ifBlock condition negated :: body ++ .elseBlock :: other ++ .endIf :: rest)
  | loop {inLoop negated : Bool} {condition : Condition} {body rest : List Statement} :
      Nested true body → Nested inLoop rest →
      Nested inLoop (.whileBlock condition negated :: body ++ .endWhile :: rest)

def labelNames (statements : List Statement) : List String :=
  statements.filterMap fun
    | .label name => some name
    | _ => none

theorem labelNames_append (first second : List Statement) :
    labelNames (first ++ second) = labelNames first ++ labelNames second :=
  List.filterMap_append

theorem mem_labelNames {statements : List Statement} {name : String} :
    name ∈ labelNames statements ↔ .label name ∈ statements := by
  rw [labelNames, List.mem_filterMap]
  constructor
  · rintro ⟨statement, member, same⟩
    cases statement with
    | label => exact Option.some.inj same ▸ member
    | _ => cases same
  · exact fun member => ⟨_, member, rfl⟩

/-- A label is no keyword, does not begin like the labels of blocks, and is defined once, in any
letter case. -/
structure LabelsAllowed (statements : List Statement) : Prop where
  unreserved : ∀ name ∈ labelNames statements, ∀ keyword : Keyword,
    keyword.spelling ≠ name.toLower
  visible : ∀ name ∈ labelNames statements, ¬ hiddenPrefix.toList <+: (Text.lower name).toList
  distinct : ((labelNames statements).map Text.lower).Nodup

/-- Every jump has its label, in any letter case. -/
def JumpsLand (statements : List Statement) : Prop :=
  ∀ name, .goto name ∈ statements → ∃ label ∈ labelNames statements,
    Text.lower label = Text.lower name

/-- The statements of a text. Its strings are closed, every line that is not blank is one statement
and no other, and the statements fit together. -/
structure IsScript (text : String) (statements : List Statement) : Prop where
  closed : ∀ number, .unterminated number ∉ items text
  lines : List.Forall₂ (fun line statement => ∀ other, IsStatement line.tokens other ↔
    other = statement) ((lines text).filter (!·.tokens.isEmpty)) statements
  nested : Nested false statements
  labels : LabelsAllowed statements
  jumps : JumpsLand statements

end InputTape.Script
