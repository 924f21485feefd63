import InputTape.Proofs.Script.Drafting
import InputTape.Proofs.Script.Grammar

/-! What is laid out is nested.

A layout knows the blocks that are open, and each statement opens or closes at most one. Seen from
its end it consists of whole blocks, for what is open anywhere has to be closed behind that.
-/

set_option autoImplicit false

namespace InputTape.Script

def inLoop (blocks : List OpenBlock) : Bool := blocks.any (·.kind == .loop)

/-- What may stand behind open blocks: each is gone on with and closed. -/
inductive Closes : List OpenBlock → List Statement → Prop where
  | outside {statements : List Statement} : Nested false statements → Closes [] statements
  | endIf {blocks : List OpenBlock} {inElse : Bool} {number line : Nat}
      {body rest : List Statement} : Nested (inLoop blocks) body → Closes blocks rest →
      Closes (⟨.conditional, inElse, number, line⟩ :: blocks) (body ++ .endIf :: rest)
  | elseBlock {blocks : List OpenBlock} {number line : Nat} {body rest : List Statement} :
      Nested (inLoop blocks) body → Closes (⟨.conditional, true, number, line⟩ :: blocks) rest →
      Closes (⟨.conditional, false, number, line⟩ :: blocks) (body ++ .elseBlock :: rest)
  | endWhile {blocks : List OpenBlock} {inElse : Bool} {number line : Nat}
      {body rest : List Statement} : Nested true body → Closes blocks rest →
      Closes (⟨.loop, inElse, number, line⟩ :: blocks) (body ++ .endWhile :: rest)

theorem Closes.behind {blocks : List OpenBlock} {first rest : List Statement}
    (nests : ∀ {body}, Nested (inLoop blocks) body → Nested (inLoop blocks) (first ++ body))
    (closes : Closes blocks rest) : Closes blocks (first ++ rest) := by
  cases closes with
  | outside nested => exact .outside (nests nested)
  | endIf nested closes =>
    rw [← List.append_assoc]
    exact .endIf (nests nested) closes
  | elseBlock nested closes =>
    rw [← List.append_assoc]
    exact .elseBlock (nests nested) closes
  | endWhile nested closes =>
    rw [← List.append_assoc]
    exact .endWhile (nests nested) closes

theorem inLoop_of_find? {blocks : List OpenBlock} {block : OpenBlock}
    (found : blocks.find? (·.kind == .loop) = some block) : inLoop blocks = true :=
  List.any_eq_true.mpr
    ⟨block, List.mem_of_find?_eq_some found, by simpa using List.find?_some found⟩

theorem isPlain_of_action? {statement : Statement} {operation : Operation}
    (acts : statement.action? = some operation) : statement.IsPlain := by
  cases statement <;> trivial

theorem closes_of_layout {statements : List Statement} {before after : Nesting}
    {operations : List Operation} (layout : Layout statements before operations after)
    (closed : after.blocks = []) : Closes before.blocks statements := by
  induction layout with
  | nil =>
    rw [closed]
    exact .outside .nil
  | @cons statement rest _ _ _ _ _ lays _ ih =>
    have closes := ih closed
    cases lays with
    | action acts => exact @Closes.behind _ [statement] _ (.plain (isPlain_of_action? acts)) closes
    | label | goto => exact @Closes.behind _ [_] _ (.plain trivial) closes
    | leave found =>
      refine @Closes.behind _ [.leave] _ (fun nested => ?_) closes
      rw [inLoop_of_find? found] at nested ⊢
      exact .leave nested
    -- The rest closes the block that was opened here, with or without an else.
    | @ifBlock condition negated =>
      cases closes with
      | @endIf _ _ _ _ body rest nested closes =>
        have block := @Closes.behind _ (.ifBlock condition negated :: body ++ [.endIf]) _
          (fun more => by simpa using Nested.conditional nested more) closes
        simpa using block
      | @elseBlock _ _ _ body _ nested closes =>
        cases closes with
        | @endIf _ _ _ _ other rest otherwise closes =>
          have block := @Closes.behind _
            (.ifBlock condition negated :: body ++ .elseBlock :: other ++ [.endIf]) _
            (fun more => by simpa using Nested.alternative nested otherwise more) closes
          simpa using block
    | elseBlock => exact .elseBlock .nil closes
    | endIf | endElse => exact .endIf .nil closes
    | @whileBlock condition negated =>
      cases closes with
      | @endWhile _ _ _ _ body rest nested closes =>
        have block := @Closes.behind _ (.whileBlock condition negated :: body ++ [.endWhile]) _
          (fun more => by simpa using Nested.loop nested more) closes
        simpa using block
    | endWhile => exact .endWhile .nil closes

theorem Layout.nested {statements : List Statement} {operations : List Operation} {next : Nat}
    (layout : Layout statements .outermost operations ⟨[], next⟩) : Nested false statements := by
  cases closes_of_layout layout rfl with
  | outside nested => exact nested

end InputTape.Script
