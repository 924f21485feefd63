import InputTape.Proofs.Script.Names

/-! What a script is laid out as.

`Lays` says which instructions a statement becomes among the blocks that are open, and which
blocks are open behind it. `Layout` says the same of a list of statements. Neither knows drafts or
the lines on which statements stand.
-/

set_option autoImplicit false

namespace InputTape.Script

/-- The blocks that are open, the innermost first, and the number of the next one. -/
structure Nesting where
  blocks : List OpenBlock
  next : Nat

def Nesting.outermost : Nesting := ⟨[], 0⟩

def Statement.action? : Statement → Option Operation
  | .delay milliseconds => some (.delay milliseconds)
  | .mouse action x y wheel => some (.mouse action x y wheel)
  | .key action code => some (.key action code)
  | .script lines => some (.script lines)
  | .exit => some .exit
  | _ => none

def testing (condition : Condition) (negated : Bool) (holds fails : String) : Operation :=
  .branch condition (.label (if negated then fails else holds))
    (.label (if negated then holds else fails))

/-- The instructions of one statement, from the blocks open in front of it to those behind it. -/
inductive Lays : Statement → Nesting → List Operation → Nesting → Prop where
  | action {statement : Statement} {operation : Operation} {nesting : Nesting} :
      statement.action? = some operation → Lays statement nesting [operation] nesting
  | label {name : String} {nesting : Nesting} : Lays (.label name) nesting [.label name] nesting
  | goto {name : String} {nesting : Nesting} :
      Lays (.goto name) nesting [.jump (some name) none] nesting
  | leave {block : OpenBlock} {nesting : Nesting} :
      nesting.blocks.find? (·.kind == .loop) = some block →
      Lays .leave nesting [.jump (some (hiddenLabel .endWhile block.number)) none] nesting
  | ifBlock {condition : Condition} {negated : Bool} {blocks : List OpenBlock} {number line : Nat} :
      Lays (.ifBlock condition negated) ⟨blocks, number⟩
        [testing condition negated (hiddenLabel .thenPart number) (hiddenLabel .elsePart number),
          .label (hiddenLabel .thenPart number)]
        ⟨⟨.conditional, false, number, line⟩ :: blocks, number + 1⟩
  | elseBlock {blocks : List OpenBlock} {next number line : Nat} :
      Lays .elseBlock ⟨⟨.conditional, false, number, line⟩ :: blocks, next⟩
        [.jump (some (hiddenLabel .endIf number)) none, .label (hiddenLabel .elsePart number)]
        ⟨⟨.conditional, true, number, line⟩ :: blocks, next⟩
  | endIf {blocks : List OpenBlock} {next number line : Nat} :
      Lays .endIf ⟨⟨.conditional, false, number, line⟩ :: blocks, next⟩
        [.label (hiddenLabel .elsePart number), .label (hiddenLabel .endIf number)] ⟨blocks, next⟩
  | endElse {blocks : List OpenBlock} {next number line : Nat} :
      Lays .endIf ⟨⟨.conditional, true, number, line⟩ :: blocks, next⟩
        [.label (hiddenLabel .endIf number)] ⟨blocks, next⟩
  | whileBlock {condition : Condition} {negated : Bool} {blocks : List OpenBlock}
      {number line : Nat} :
      Lays (.whileBlock condition negated) ⟨blocks, number⟩
        [.label (hiddenLabel .test number),
          testing condition negated (hiddenLabel .body number) (hiddenLabel .endWhile number),
          .label (hiddenLabel .body number)]
        ⟨⟨.loop, false, number, line⟩ :: blocks, number + 1⟩
  | endWhile {inElse : Bool} {blocks : List OpenBlock} {next number line : Nat} :
      Lays .endWhile ⟨⟨.loop, inElse, number, line⟩ :: blocks, next⟩
        [.jump (some (hiddenLabel .test number)) none, .label (hiddenLabel .endWhile number)]
        ⟨blocks, next⟩

inductive Layout : List Statement → Nesting → List Operation → Nesting → Prop where
  | nil {nesting : Nesting} : Layout [] nesting [] nesting
  | cons {statement : Statement} {rest : List Statement} {before between after : Nesting}
      {first more : List Operation} : Lays statement before first between →
      Layout rest between more after → Layout (statement :: rest) before (first ++ more) after

theorem Layout.append {first second : List Statement} {before between after : Nesting}
    {front back : List Operation} (left : Layout first before front between)
    (right : Layout second between back after) :
    Layout (first ++ second) before (front ++ back) after := by
  induction left with
  | nil => exact right
  | cons lays _ ih =>
    rw [List.append_assoc]
    exact .cons lays (ih right)

theorem layout_append {first second : List Statement} {before after : Nesting}
    {operations : List Operation} :
    Layout (first ++ second) before operations after ↔ ∃ front back between,
      operations = front ++ back ∧ Layout first before front between ∧
        Layout second between back after := by
  constructor
  · intro layout
    induction first generalizing before operations with
    | nil => exact ⟨[], operations, before, rfl, .nil, layout⟩
    | cons statement rest ih =>
      cases layout with
      | cons lays more =>
        obtain ⟨front, back, between, rfl, left, right⟩ := ih more
        exact ⟨_, back, between, (List.append_assoc ..).symm, .cons lays left, right⟩
  · rintro ⟨front, back, between, rfl, left, right⟩
    exact left.append right

/-- The layout of a whole script: all blocks are closed, no two labels are the same, and every jump
has its label. -/
structure LaidOut (statements : List Statement) (operations : List Operation) : Prop where
  layout : ∃ next, Layout statements .outermost operations ⟨[], next⟩
  named : ∀ statement ∈ statements, statement.IsNamed
  distinct : ∀ {first second : Nat} {name other : String},
    operations[first]? = some (Operation.label name) →
    operations[second]? = some (Operation.label other) →
    Text.lower name = Text.lower other → first = second
  found : ∀ {target : Option String} {place : Option Nat},
    Operation.jump target place ∈ operations → ∃ (name : String) (index : Nat) (other : String),
      target = some name ∧ operations[index]? = some (Operation.label other) ∧
      Text.lower other = Text.lower name

end InputTape.Script
