/-! Messages of a playback, by severity, and which of them are wanted. -/

set_option autoImplicit false

namespace InputTape.Journal

inductive Level where
  | trace
  | debug
  | info
  | warn
  deriving DecidableEq, Repr

namespace Level

def name : Level → String
  | .trace => "TRACE"
  | .debug => "DEBUG"
  | .info => "INFO"
  | .warn => "WARN"

def severity : Level → Nat
  | .trace => 0
  | .debug => 1
  | .info => 2
  | .warn => 3

end Level

structure Entry where
  level : Level
  text : String
  deriving DecidableEq, Repr

def Entry.line (entry : Entry) : String := entry.level.name ++ " " ++ entry.text

structure Filter where
  severity : Nat
  deriving DecidableEq, Repr

namespace Filter

def passes (filter : Filter) (entry : Entry) : Bool := filter.severity ≤ entry.level.severity

/-- The severities by name. Above warnings there are only errors, and then nothing. -/
def severities : List (String × Nat) :=
  [("trace", 0), ("debug", 1), ("info", 2), ("warn", 3), ("error", 4), ("off", 5)]

/-- The severity that a directive asks for: a level, or a level behind an equals sign. -/
def severityOf? (directive : List Char) : Option Nat :=
  let word := match directive.dropWhile (· != '=') with
    | _ :: level => level
    | [] => directive
  severities.lookup (String.ofList word).toLower

def directives : List Char → List (List Char)
  | [] => [[]]
  | c :: rest =>
    if c == ',' then [] :: directives rest
    else match directives rest with
      | first :: more => (c :: first) :: more
      | [] => [[c]]

/-- The last directive that names a level counts; without one only errors are wanted. -/
def ofText (text : String) : Filter :=
  ⟨((directives text.toList).reverse.findSome? severityOf?).getD 4⟩

end Filter
end InputTape.Journal
