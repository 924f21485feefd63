import InputTape.Json.Token

/-! JSON text as a tree of what stands where.

A text that goes wrong has a tree too, with the fault in the place where a reader comes upon it.
Readers walk through the tree in the order of the text, and the first thing that is wrong is what
they report.
-/

set_option autoImplicit false

namespace InputTape.Json

inductive Node where
  /-- No value: what is wrong for a reader of values, and for one that skips. -/
  | unreadable (fault skippedFault : Fault)
  | null
  | bool (value : Bool)
  | number (value : Option JsonNumber)
  | string (text : Option String)
  /-- Items, and what is wrong behind them. -/
  | array (items : List Node) (ending : Option Fault)
  /-- Members, and what is wrong behind them for the two kinds of readers. -/
  | object (members : List (Option String × Node)) (ending : Option (Fault × Fault))
  deriving Repr

namespace Node

def misplaced (rest : List Token) : Fault := if rest.isEmpty then .ended else .malformed

def missing (rest : List Token) : Node := .unreadable (misplaced rest) (misplaced rest)

mutual

/-- The value at the front of the tokens, and the tokens behind it. There are at most so many
steps; two of them take a token. -/
def ofTokens : Nat → List Token → Node × List Token
  | 0, rest => (missing rest, rest)
  | limit + 1, tokens =>
    match tokens with
    | .null :: rest => (.null, rest)
    | .bool value :: rest => (.bool value, rest)
    | .number value :: rest => (.number value, rest)
    | .string text :: rest => (.string text, rest)
    | .openArray :: .closeArray :: rest => (.array [] none, rest)
    | .openArray :: rest =>
      let (items, ending, rest) := itemsOfTokens limit rest
      (.array items ending, rest)
    | .openObject :: .closeObject :: rest => (.object [] none, rest)
    | .openObject :: rest =>
      let (members, ending, rest) := membersOfTokens limit rest
      (.object members ending, rest)
    | .broken fault skippedFault :: rest | .brokenString fault skippedFault :: rest =>
      (.unreadable fault skippedFault, rest)
    | _ => (missing tokens, tokens)

def itemsOfTokens : Nat → List Token → List Node × Option Fault × List Token
  | 0, rest => ([], some (misplaced rest), rest)
  | limit + 1, tokens =>
    let (item, rest) := ofTokens limit tokens
    match rest with
    | .closeArray :: rest => ([item], none, rest)
    | .comma :: rest =>
      let (more, ending, rest) := itemsOfTokens limit rest
      (item :: more, ending, rest)
    | _ => ([item], some (misplaced rest), rest)

def membersOfTokens :
    Nat → List Token → List (Option String × Node) × Option (Fault × Fault) × List Token
  | 0, rest => ([], some (misplaced rest, misplaced rest), rest)
  | limit + 1, tokens =>
    match tokens with
    | .string key :: .colon :: rest =>
      let (value, rest) := ofTokens limit rest
      match rest with
      | .closeObject :: rest => ([(key, value)], none, rest)
      | .comma :: rest =>
        let (more, ending, rest) := membersOfTokens limit rest
        ((key, value) :: more, ending, rest)
      | _ => ([(key, value)], some (misplaced rest, misplaced rest), rest)
    | .string key :: rest => ([(key, missing rest)], none, rest)
    | rest => ([], some (keyFault rest), rest)
where
  keyFault : List Token → Fault × Fault
    | .brokenString fault skippedFault :: _ => (fault, skippedFault)
    | rest => (misplaced rest, misplaced rest)

end

def ofText (text : String) : Node × Bool :=
  let tokens := tokens text.toList
  let (node, rest) := ofTokens (2 * tokens.length) tokens
  (node, rest.isEmpty)

end Node
end InputTape.Json
