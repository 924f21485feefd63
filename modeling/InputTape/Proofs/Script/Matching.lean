import InputTape.Proofs.Script.Layout
import InputTape.Proofs.Script.Machine

/-! Looking for the statements of a block finds those it was laid out with.

Between a place in a block and the end of the part, every block that is entered is left again. So
the count of blocks entered on the way is that of the blocks open above the one looked for.
-/

set_option autoImplicit false

namespace InputTape.Script

def depthOf (kind : BlockKind) (blocks : List OpenBlock) : Nat :=
  blocks.countP (·.kind == kind)

theorem depthOf_cons (kind : BlockKind) (block : OpenBlock) (blocks : List OpenBlock) :
    depthOf kind (block :: blocks) = depthOf kind blocks + if block.kind == kind then 1 else 0 :=
  List.countP_cons

theorem opens_of_action? {statement : Statement} {operation : Operation}
    (acts : statement.action? = some operation) (kind : BlockKind) :
    statement.opens kind = false := by
  cases statement <;> first | rfl | cases acts

theorem ends_of_action? {statement : Statement} {operation : Operation}
    (acts : statement.action? = some operation) (kind : BlockKind) (inElse : Bool) :
    statement.ends kind inElse = false := by
  cases statement <;> first | rfl | cases acts

namespace Lays

variable {statement : Statement} {before after : Nesting} {operations : List Operation}

theorem innermost (lays : Lays statement before operations after) {kind : BlockKind} {inElse : Bool}
    (ends : statement.ends kind inElse = true) :
    ∃ block outer, before.blocks = block :: outer ∧ block.kind = kind := by
  cases lays with
  | action acts =>
    rw [ends_of_action? acts] at ends
    cases ends
  | label | goto | leave | ifBlock | whileBlock => cases ends
  | elseBlock =>
    rw [Statement.ends, Bool.and_eq_true] at ends
    exact ⟨_, _, rfl, (beq_iff_eq.mp ends.1).symm⟩
  | endIf | endElse | endWhile => exact ⟨_, _, rfl, (beq_iff_eq.mp ends).symm⟩

/-- A block stays open as it is unless a statement ends the part of it that is reached. -/
theorem above (lays : Lays statement before operations after) {above outer : List OpenBlock}
    {block : OpenBlock} (opened : before.blocks = above ++ block :: outer)
    (stays : above = [] → statement.ends block.kind block.inElse = false) :
    ∃ inside, after.blocks = inside ++ block :: outer ∧ depthOf block.kind inside =
      if statement.opens block.kind then depthOf block.kind above + 1
      else if statement.ends block.kind true then depthOf block.kind above - 1
      else depthOf block.kind above := by
  cases lays with
  | action acts =>
    refine ⟨above, opened, ?_⟩
    rw [opens_of_action? acts, ends_of_action? acts]
    rfl
  | label | goto | leave => exact ⟨above, opened, rfl⟩
  | @ifBlock _ _ _ number line =>
    subst opened
    refine ⟨⟨.conditional, false, number, line⟩ :: above, rfl, ?_⟩
    rw [depthOf_cons]
    cases block.kind <;> rfl
  | @whileBlock _ _ _ number line =>
    subst opened
    refine ⟨⟨.loop, false, number, line⟩ :: above, rfl, ?_⟩
    rw [depthOf_cons]
    cases block.kind <;> rfl
  | @elseBlock _ _ number line =>
    -- If nothing lies above it, the block itself would turn to its other branch.
    rcases above with _ | ⟨top, above⟩
    · cases opened
      cases stays rfl
    · cases opened
      refine ⟨⟨.conditional, true, number, line⟩ :: above, rfl, ?_⟩
      rw [depthOf_cons, depthOf_cons]
      cases block.kind <;> rfl
  | endIf | endElse | endWhile =>
    rcases above with _ | ⟨top, above⟩
    · cases opened
      cases stays rfl
    · cases opened
      refine ⟨above, rfl, ?_⟩
      rw [depthOf_cons]
      cases block.kind <;> rfl

theorem below (lays : Lays statement before operations after) {above outer : List OpenBlock}
    {block : OpenBlock} (isLoop : block.kind = .loop)
    (opened : after.blocks = above ++ block :: outer) :
    (above = [] ∧ before.next = block.number ∧
      ∃ condition negated, statement = .whileBlock condition negated) ∨
    ((depthOf .loop above == 0 && statement.opens .loop) = false ∧
      ∃ inside, before.blocks = inside ++ block :: outer ∧ depthOf .loop inside =
        if statement.ends .loop true then depthOf .loop above + 1
        else if statement.opens .loop then depthOf .loop above - 1
        else depthOf .loop above) := by
  -- Read backwards: what lies above the loop behind the statement tells what lay above it before.
  cases lays with
  | action acts =>
    refine .inr ⟨?_, above, opened, ?_⟩
    · rw [opens_of_action? acts, Bool.and_false]
    · rw [opens_of_action? acts, ends_of_action? acts]
      rfl
  | label | goto | leave => exact .inr ⟨Bool.and_false _, above, opened, rfl⟩
  | ifBlock =>
    rcases above with _ | ⟨top, above⟩
    · cases opened
      cases isLoop
    · cases opened
      refine .inr ⟨Bool.and_false _, above, rfl, ?_⟩
      rw [depthOf_cons]
      rfl
  | whileBlock =>
    rcases above with _ | ⟨top, above⟩
    · cases opened
      exact .inl ⟨rfl, rfl, _, _, rfl⟩
    · cases opened
      refine .inr ⟨?_, above, rfl, ?_⟩
      · rw [depthOf_cons]
        rfl
      · rw [depthOf_cons]
        rfl
  | @elseBlock _ _ number line =>
    rcases above with _ | ⟨top, above⟩
    · cases opened
      cases isLoop
    · cases opened
      refine .inr ⟨Bool.and_false _, ⟨.conditional, false, number, line⟩ :: above, rfl, ?_⟩
      rw [depthOf_cons, depthOf_cons]
      rfl
  | @endIf _ _ number line =>
    subst opened
    exact .inr ⟨Bool.and_false _, ⟨.conditional, false, number, line⟩ :: above, rfl,
      depthOf_cons ..⟩
  | @endElse _ _ number line =>
    subst opened
    exact .inr ⟨Bool.and_false _, ⟨.conditional, true, number, line⟩ :: above, rfl,
      depthOf_cons ..⟩
  | @endWhile inElse _ _ number line =>
    subst opened
    exact .inr ⟨Bool.and_false _, ⟨.loop, inElse, number, line⟩ :: above, rfl, depthOf_cons ..⟩

end Lays

/-- A layout cut where a statement begins. -/
structure Cut (before after : Nesting) (statements : List Statement) (operations : List Operation)
    where
  first : List Statement
  rest : List Statement
  front : List Operation
  back : List Operation
  between : Nesting
  statements_eq : statements = first ++ rest
  operations_eq : operations = front ++ back
  left : Layout first before front between
  right : Layout rest between back after

namespace Cut

variable {before after : Nesting} {statements : List Statement} {operations : List Operation}

def atStart (layout : Layout statements before operations after) :
    Cut before after statements operations :=
  ⟨[], statements, [], operations, before, rfl, rfl, .nil, layout⟩

theorem exists_at (layout : Layout statements before operations after) {place : Nat}
    (bound : place ≤ statements.length) :
    ∃ cut : Cut before after statements operations, cut.first.length = place ∧
      cut.rest = statements.drop place := by
  rw [← List.take_append_drop place statements, layout_append] at layout
  obtain ⟨front, back, between, same, left, right⟩ := layout
  exact ⟨⟨_, _, front, back, between, (List.take_append_drop ..).symm, same, left, right⟩,
    List.length_take_of_le bound, rfl⟩

def later (cut : Cut before after statements operations)
    (second : Cut cut.between after cut.rest cut.back) :
    Cut before after statements operations where
  first := cut.first ++ second.first
  rest := second.rest
  front := cut.front ++ second.front
  back := second.back
  between := second.between
  statements_eq := by rw [List.append_assoc, ← second.statements_eq]; exact cut.statements_eq
  operations_eq := by rw [List.append_assoc, ← second.operations_eq]; exact cut.operations_eq
  left := cut.left.append second.left
  right := second.right

def earlier (cut : Cut before after statements operations)
    (second : Cut before cut.between cut.first cut.front) :
    Cut before after statements operations where
  first := second.first
  rest := second.rest ++ cut.rest
  front := second.front
  back := second.back ++ cut.back
  between := second.between
  statements_eq := by rw [← List.append_assoc, ← second.statements_eq]; exact cut.statements_eq
  operations_eq := by rw [← List.append_assoc, ← second.operations_eq]; exact cut.operations_eq
  left := second.left
  right := second.right.append cut.right

end Cut

/-- Looking for the end of a part that is reached, from any depth inside the block, finds a
statement in front of which the block is the innermost one. -/
theorem seek_ends {rest : List Statement} {nesting after : Nesting} {back : List Operation}
    (layout : Layout rest nesting back after) (closed : after.blocks = [])
    {above outer : List OpenBlock} {block : OpenBlock}
    (opened : nesting.blocks = above ++ block :: outer) :
    ∃ (cut : Cut nesting after rest back) (statement : Statement) (more : List Statement),
      cut.rest = statement :: more ∧ cut.between.blocks = block :: outer ∧
      statement.ends block.kind block.inElse = true ∧
      seek (·.opens block.kind) (·.ends block.kind true) (·.ends block.kind block.inElse)
        (depthOf block.kind above) rest = some cut.first.length := by
  induction layout generalizing above with
  | nil =>
    rw [closed] at opened
    cases above <;> cases opened
  | @cons statement rest before between after ops more lays remaining ih =>
    -- The depth that is counted is the number of blocks of the kind that are open above.
    by_cases here : depthOf block.kind above = 0 ∧ statement.ends block.kind block.inElse = true
    · obtain ⟨top, below, same, kind⟩ := lays.innermost here.2
      rw [same] at opened
      rcases above with _ | ⟨_, above⟩
      · refine ⟨.atStart (.cons lays remaining), statement, rest, rfl, same.trans opened, here.2, ?_⟩
        simp only [seek, here.1, here.2, beq_self_eq_true, Bool.and_self, if_true, Cut.atStart,
          List.length_nil]
      · -- A block above of the same kind would have been counted.
        cases opened
        rw [depthOf_cons, kind, beq_self_eq_true, if_pos rfl] at here
        exact absurd here.1 (Nat.succ_ne_zero _)
    · have stays : above = [] → statement.ends block.kind block.inElse = false := by
        rintro rfl
        rw [← Bool.not_eq_true]
        exact fun ends => here ⟨rfl, ends⟩
      obtain ⟨inside, opened, counted⟩ := lays.above opened stays
      obtain ⟨cut, found, later, same, innermost, ends, sought⟩ := ih closed opened
      have one : Layout [statement] before ops between := by
        simpa only [List.append_nil] using Layout.cons lays .nil
      refine ⟨Cut.later ⟨[statement], rest, ops, more, between, rfl, rfl, one, remaining⟩ cut,
        found, later, same, innermost, ends, ?_⟩
      have passed : (depthOf block.kind above == 0 && statement.ends block.kind block.inElse) =
          false := by
        rw [← Bool.not_eq_true, Bool.and_eq_true, beq_iff_eq]
        exact here
      simp only [seek, passed, Bool.false_eq_true, if_false, ← counted, sought, Option.map_some,
        Cut.later, List.length_append, List.length_singleton, Nat.add_comm 1]

/-- Looking back for the beginning of a loop, from any depth inside it, finds the statement that
the loop was laid out for. -/
theorem seek_opens {first : List Statement} {nesting : Nesting} {front : List Operation}
    (layout : Layout first .outermost front nesting) {above outer : List OpenBlock}
    {block : OpenBlock} (isLoop : block.kind = .loop)
    (opened : nesting.blocks = above ++ block :: outer) :
    ∃ (cut : Cut .outermost nesting first front) (condition : Condition) (negated : Bool)
      (more : List Statement), cut.rest = .whileBlock condition negated :: more ∧
      cut.between.next = block.number ∧
      seek (·.ends .loop true) (·.opens .loop) (·.opens .loop) (depthOf .loop above)
        first.reverse = some more.length := by
  -- From the last statement backwards: each is passed, or is the loop itself.
  generalize reversed : first.reverse = backwards
  induction backwards generalizing first nesting front above with
  | nil =>
    rw [List.reverse_eq_nil_iff] at reversed
    subst reversed
    cases layout
    cases above <;> cases opened
  | cons statement rest ih =>
    rw [List.reverse_eq_cons_iff] at reversed
    subst reversed
    obtain ⟨head, tail, previous, rfl, left, right⟩ := layout_append.mp layout
    cases right with
    | cons lays nothing =>
      cases nothing
      rcases lays.below isLoop opened with
        ⟨rfl, number, condition, negated, rfl⟩ | ⟨passed, inside, opened, counted⟩
      · exact ⟨⟨rest.reverse, _, head, _, previous, rfl, rfl, left, .cons lays .nil⟩, condition,
          negated, [], rfl, number, rfl⟩
      · obtain ⟨cut, condition, negated, more, found, number, sought⟩ :=
          ih left opened (List.reverse_reverse rest)
        refine ⟨Cut.earlier ⟨rest.reverse, [statement], head, _, previous, rfl, rfl, left,
          .cons lays .nil⟩ cut, condition, negated, more ++ [statement], ?_, number, ?_⟩
        · simp only [Cut.earlier, found, List.cons_append]
        · simp only [seek, passed, Bool.false_eq_true, if_false, ← counted, sought,
            Option.map_some, List.length_append, List.length_singleton]

end InputTape.Script
