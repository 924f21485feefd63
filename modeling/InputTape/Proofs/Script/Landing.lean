import InputTape.Proofs.Script.Matching
import InputTape.Proofs.Script.HiddenLabels

/-! Places of a script and indices of its sequence.

A place meets an index if only labels stand between that index and the instruction that acts for
the statement at the place. Wherever the machine goes, the sequence has a label that meets the
place it goes to.
-/

set_option autoImplicit false

namespace InputTape.Script

open Machine (past back labelled)
open Text (IsWord)

def OnlyLabels (operations : List Operation) : Prop :=
  ∀ operation ∈ operations, ∃ name, operation = .label name

theorem onlyLabels_nil : OnlyLabels [] := by
  intro operation member
  cases member

namespace Cut

variable {before after : Nesting} {statements : List Statement} {operations : List Operation}

/-- The index of the instruction that acts for the next statement. A loop has a label in front of
its test. -/
def entry (cut : Cut before after statements operations) : Nat :=
  match cut.rest with
  | .whileBlock _ _ :: _ => cut.front.length + 1
  | _ => cut.front.length

theorem split (cut : Cut before after statements operations) {statement : Statement}
    {more : List Statement} (same : cut.rest = statement :: more) :
    ∃ (opened closed : Nesting) (own : List Operation)
      (following : Cut before after statements operations), Lays statement opened own closed ∧
      cut.between = opened ∧ following.between = closed ∧
      following.first = cut.first ++ [statement] ∧ following.front = cut.front ++ own := by
  obtain ⟨first, rest, front, back, between, statements_eq, operations_eq, left, right⟩ := cut
  cases same
  cases right with
  | @cons _ _ _ between' _ own more' lays remaining =>
    have one : Layout [statement] between own between' := by
      simpa only [List.append_nil] using Layout.cons lays .nil
    refine ⟨between, between', own, ⟨first ++ [statement], more, front ++ own, more', between',
      ?_, ?_, left.append one, remaining⟩, lays, rfl, rfl, rfl, rfl⟩
    · rw [statements_eq, List.append_assoc, List.singleton_append]
    · rw [operations_eq, List.append_assoc]

theorem getElem?_own {cut following : Cut before after statements operations}
    {own : List Operation} (front : following.front = cut.front ++ own) {index : Nat}
    (inside : index < own.length) : operations[cut.front.length + index]? = own[index]? := by
  have whole : operations = cut.front ++ (own ++ following.back) := by
    rw [← List.append_assoc, ← front]
    exact following.operations_eq
  calc operations[cut.front.length + index]?
      = (cut.front ++ (own ++ following.back))[cut.front.length + index]? :=
        congrArg (·[cut.front.length + index]?) whole
    _ = own[index]? := by
        rw [List.getElem?_append_right (Nat.le_add_right ..), Nat.add_sub_cancel_left,
          List.getElem?_append_left inside]

theorem entry_eq (cut : Cut before after statements operations) {statement : Statement}
    {more : List Statement} (same : cut.rest = statement :: more)
    (noLoop : ∀ condition negated, statement ≠ .whileBlock condition negated) :
    cut.entry = cut.front.length := by
  unfold entry
  split
  · next condition negated _ loop =>
    rw [same] at loop
    exact absurd (List.cons.inj loop).1 (noLoop condition negated)
  · rfl

theorem entry_whileBlock (cut : Cut before after statements operations) {condition : Condition}
    {negated : Bool} {more : List Statement}
    (same : cut.rest = .whileBlock condition negated :: more) :
    cut.entry = cut.front.length + 1 := by
  simp only [entry, same]

theorem front_length_le_entry (cut : Cut before after statements operations) :
    cut.front.length ≤ cut.entry := by
  unfold entry
  split <;> omega

theorem getElem?_place (cut : Cut before after statements operations) {statement : Statement}
    {more : List Statement} (same : cut.rest = statement :: more) :
    statements[cut.first.length]? = some statement := by
  have whole := cut.statements_eq
  rw [same] at whole
  calc statements[cut.first.length]?
      = (cut.first ++ statement :: more)[cut.first.length]? :=
        congrArg (·[cut.first.length]?) whole
    _ = some statement := by
        rw [List.getElem?_append_right (Nat.le_refl _), Nat.sub_self, List.getElem?_cons_zero]

theorem length_of_end (cut : Cut before after statements operations) (same : cut.rest = []) :
    cut.first.length = statements.length ∧ cut.entry = operations.length := by
  obtain ⟨first, rest, front, back, between, rfl, rfl, left, right⟩ := cut
  cases same
  cases right
  simp only [entry, List.append_nil, and_self]

theorem entry_lt (cut : Cut before after statements operations) {statement : Statement}
    {more : List Statement} (same : cut.rest = statement :: more) :
    cut.entry < operations.length := by
  obtain ⟨_, _, own, following, lays, -, -, -, front⟩ := cut.split same
  have length : operations.length = cut.front.length + own.length + following.back.length :=
    calc operations.length = (following.front ++ following.back).length := by
          rw [← following.operations_eq]
      _ = _ := by rw [front, List.length_append, List.length_append]
  cases lays with
  | whileBlock =>
    rw [cut.entry_whileBlock same, length]
    simp only [List.length_cons]
    omega
  | action acts =>
    rw [cut.entry_eq same (by rintro _ _ rfl; cases acts), length, List.length_singleton]
    omega
  | _ =>
    rw [cut.entry_eq same nofun, length]
    simp only [List.length_cons]
    omega

theorem label_of_lt_entry (cut : Cut before after statements operations) {index : Nat}
    (low : cut.front.length ≤ index) (high : index < cut.entry) :
    ∃ name, operations[index]? = some (Operation.label name) := by
  unfold entry at high
  split at high
  · next condition negated more same =>
    obtain ⟨_, _, own, following, lays, -, -, -, front⟩ := cut.split same
    obtain rfl : index = cut.front.length + 0 := by omega
    cases lays with
    | action acts => cases acts
    | whileBlock => exact ⟨_, getElem?_own front (Nat.succ_pos _)⟩
  · omega

end Cut

/-- Only labels stand between an index and the instruction that acts for the statement at a
place. -/
def Meets (statements : List Statement) (operations : List Operation) (index place : Nat) : Prop :=
  ∃ (next : Nat) (cut : Cut .outermost ⟨[], next⟩ statements operations),
    cut.first.length = place ∧ index ≤ cut.entry ∧
      ∀ other, index ≤ other → other < cut.entry → ∃ name,
        operations[other]? = some (Operation.label name)

section

variable {statements : List Statement} {operations : List Operation} {next : Nat}

theorem meets_cut (cut : Cut .outermost ⟨[], next⟩ statements operations) :
    Meets statements operations cut.front.length cut.first.length :=
  ⟨next, cut, rfl, cut.front_length_le_entry, fun _ low high => cut.label_of_lt_entry low high⟩

theorem getElem?_of_meets_end {place : Nat}
    (meets : Meets statements operations operations.length place) :
    statements[place]? = none := by
  obtain ⟨next, cut, rfl, bound, -⟩ := meets
  cases found : cut.rest with
  | nil => rw [(cut.length_of_end found).1, List.getElem?_eq_none (Nat.le_refl _)]
  | cons statement more => exact absurd (cut.entry_lt found) (Nat.not_lt.mpr bound)

/-- Where all further instructions of a statement are labels, the next place is met. -/
theorem meets_behind {cut following : Cut .outermost ⟨[], next⟩ statements operations}
    {own : List Operation} (front : following.front = cut.front ++ own) {skipped : Nat}
    (bound : skipped ≤ own.length) (labels : OnlyLabels (own.drop skipped)) :
    Meets statements operations (cut.front.length + skipped) following.first.length := by
  have length : following.front.length = cut.front.length + own.length := by
    rw [front, List.length_append]
  have entry := following.front_length_le_entry
  refine ⟨next, following, rfl, by omega, fun other low high => ?_⟩
  -- What is left of the statement are labels, and so is what comes before the next instruction.
  by_cases inside : other < following.front.length
  · obtain ⟨offset, rfl⟩ := Nat.exists_eq_add_of_le low
    have here : skipped + offset < own.length := by omega
    obtain ⟨name, same⟩ := labels own[skipped + offset]
      (List.mem_drop_iff_getElem.mpr ⟨offset, by omega, rfl⟩)
    refine ⟨name, ?_⟩
    rw [Nat.add_assoc, Cut.getElem?_own front here, List.getElem?_eq_getElem here, same]
  · exact following.label_of_lt_entry (Nat.le_of_not_lt inside) high

def OpenBlock.exit (block : OpenBlock) : String :=
  match block.kind, block.inElse with
  | .conditional, false => hiddenLabel .elsePart block.number
  | .conditional, true => hiddenLabel .endIf block.number
  | .loop, _ => hiddenLabel .endWhile block.number

theorem exit_loop {block : OpenBlock} (isLoop : block.kind = .loop) :
    block.exit = hiddenLabel .endWhile block.number := by
  unfold OpenBlock.exit
  rw [isLoop]

/-- What ends a part of a block has the label behind the part, and behind that only labels. -/
theorem Lays.exit {statement : Statement} {before after : Nesting} {own : List Operation}
    (lays : Lays statement before own after) {block : OpenBlock} {outer : List OpenBlock}
    (opened : before.blocks = block :: outer)
    (ends : statement.ends block.kind block.inElse = true) :
    ∃ skipped, own[skipped]? = some (.label block.exit) ∧ OnlyLabels (own.drop skipped) := by
  cases lays with
  | action acts =>
    rw [ends_of_action? acts] at ends
    cases ends
  | label | goto | leave | ifBlock | whileBlock => cases ends
  | elseBlock =>
    cases opened
    exact ⟨1, rfl, by simp [OnlyLabels]⟩
  | endIf =>
    cases opened
    exact ⟨0, rfl, by simp [OnlyLabels]⟩
  | endElse =>
    cases opened
    exact ⟨0, rfl, by simp [OnlyLabels]⟩
  | endWhile =>
    cases opened
    exact ⟨1, rfl, by simp [OnlyLabels]⟩

theorem past_cut (cut : Cut .outermost ⟨[], next⟩ statements operations) {place : Nat}
    (length : cut.first.length = place + 1) (inner : Cut cut.between ⟨[], next⟩ cut.rest cut.back)
    {kind : BlockKind} {inElse : Bool}
    (sought : seek (·.opens kind) (·.ends kind true) (·.ends kind inElse) 0 cut.rest =
      some inner.first.length) :
    past statements place kind inElse = some ((cut.later inner).first.length + 1) := by
  have dropped : statements.drop (place + 1) = cut.rest :=
    calc statements.drop (place + 1)
        = (cut.first ++ cut.rest).drop cut.first.length := by
          rw [length, ← cut.statements_eq]
      _ = cut.rest := List.drop_left ..
  unfold past
  rw [dropped, sought]
  simp only [Option.map_some, Cut.later, List.length_append, length]

theorem past_lands (cut : Cut .outermost ⟨[], next⟩ statements operations) {place : Nat}
    (length : cut.first.length = place + 1) {above outer : List OpenBlock} {block : OpenBlock}
    (opened : cut.between.blocks = above ++ block :: outer)
    (shallow : depthOf block.kind above = 0) :
    ∃ target index, past statements place block.kind block.inElse = some target ∧
      operations[index]? = some (.label block.exit) ∧ Meets statements operations index target := by
  -- The search finds a cut of the rest, and with it one of the whole layout.
  obtain ⟨inner, statement, more, same, innermost, ends, sought⟩ := seek_ends cut.right rfl opened
  rw [shallow] at sought
  obtain ⟨_, _, own, beyond, lays, rfl, -, first, front⟩ := (cut.later inner).split same
  obtain ⟨skipped, label, only⟩ := lays.exit innermost ends
  obtain ⟨inside, -⟩ := List.getElem?_eq_some_iff.mp label
  refine ⟨beyond.first.length, (cut.later inner).front.length + skipped, ?_,
    (Cut.getElem?_own front inside).trans label, meets_behind front (Nat.le_of_lt inside) only⟩
  rw [past_cut cut length inner sought, first, List.length_append, List.length_singleton]

theorem ends_loop (statement : Statement) (inElse : Bool) :
    statement.ends .loop inElse = statement.ends .loop false := by
  cases statement <;> rfl

theorem past_loop (place : Nat) (inElse : Bool) :
    past statements place .loop inElse = past statements place .loop false := by
  unfold past
  simp only [ends_loop _ inElse]

theorem back_lands (cut : Cut .outermost ⟨[], next⟩ statements operations)
    {outer : List OpenBlock} {block : OpenBlock} (isLoop : block.kind = .loop)
    (opened : cut.between.blocks = block :: outer) :
    ∃ target index, back statements cut.first.length = some target ∧
      operations[index]? = some (.label (hiddenLabel .test block.number)) ∧
      Meets statements operations index target := by
  -- Seeking backwards finds the head that opened the loop.
  have within : cut.between.blocks = [] ++ block :: outer := opened
  obtain ⟨inner, condition, negated, more, same, number, sought⟩ :=
    seek_opens cut.left isLoop within
  have found : (cut.earlier inner).rest = .whileBlock condition negated :: (more ++ cut.rest) := by
    simp only [Cut.earlier, same, List.cons_append]
  obtain ⟨_, _, own, beyond, lays, opening, -, first, front⟩ := (cut.earlier inner).split found
  refine ⟨inner.first.length, inner.front.length + 0, ?_, ?_, meets_cut (cut.earlier inner)⟩
  · have taken : statements.take cut.first.length = cut.first :=
      calc statements.take cut.first.length
          = (cut.first ++ cut.rest).take cut.first.length := by rw [← cut.statements_eq]
        _ = cut.first := List.take_left ..
    have length : cut.first.length = inner.first.length + (more.length + 1) :=
      calc cut.first.length = (inner.first ++ inner.rest).length := by rw [← inner.statements_eq]
        _ = _ := by rw [same, List.length_append, List.length_cons]
    have looked := sought
    unfold back
    rw [taken]
    rw [depthOf, List.countP_nil] at looked
    rw [looked, Option.map_some, length]
    congr 1
    omega
  · cases lays with
    | action acts => cases acts
    | whileBlock =>
      have same : inner.between = ⟨_, _⟩ := opening
      rw [same] at number
      subst number
      exact Cut.getElem?_own front (Nat.succ_pos _)

theorem label_of_mem_layout {found : List Statement} {before after : Nesting}
    {laidOut : List Operation} (layout : Layout found before laidOut after) {name : String}
    (member : Operation.label name ∈ laidOut) :
    (∃ landmark block, name = hiddenLabel landmark block) ∨ Statement.label name ∈ found := by
  induction layout with
  | nil => cases member
  | @cons statement _ _ _ _ own _ lays _ ih =>
    rcases List.mem_append.mp member with here | later
    · cases lays with
      | action acts =>
        rw [← List.mem_singleton.mp here] at acts
        cases statement <;> cases acts
      | label =>
        cases List.mem_singleton.mp here
        exact .inr List.mem_cons_self
      | goto | leave => cases List.mem_singleton.mp here
      | _ =>
        simp only [List.mem_cons, List.not_mem_nil, or_false, reduceCtorEq, false_or, testing,
          Operation.label.injEq] at here
        rcases here with rfl | rfl <;> exact .inl ⟨_, _, rfl⟩
    · rcases ih later with hidden | own
      · exact .inl hidden
      · exact .inr (List.mem_cons_of_mem _ own)

theorem labelled_lands (laid : LaidOut statements operations) {name other : String} {index : Nat}
    (visible : isHidden name = false) (marks : operations[index]? = some (.label other))
    (lower : Text.lower other = Text.lower name) :
    ∃ target, labelled statements name = some target ∧
      Meets statements operations index target := by
  obtain ⟨next, layout⟩ := laid.layout
  -- Labels of blocks are not written in scripts, so the script has the statement.
  rcases label_of_mem_layout layout (List.mem_of_getElem? marks) with ⟨landmark, block, rfl⟩ | written
  · exact absurd lower.symm (lower_ne_hiddenLabel visible landmark block)
  · cases looked : labelled statements name with
    | none =>
      have missed := List.findIdx?_eq_none_iff.mp looked _ written
      simp only [beq_eq_false_iff_ne] at missed
      exact absurd lower missed
    | some target =>
      obtain ⟨inside, hit, -⟩ := List.findIdx?_eq_some_iff_getElem.mp looked
      obtain ⟨cut, length, rest⟩ := Cut.exists_at layout (Nat.le_of_lt inside)
      rw [List.drop_eq_getElem_cons inside] at rest
      refine ⟨target, rfl, ?_⟩
      split at hit
      · next third same =>
        obtain ⟨_, _, own, following, lays, -, -, -, front⟩ := cut.split rest
        rw [same] at lays
        cases lays with
        | action acts => cases acts
        | label =>
          have there : operations[cut.front.length + 0]? = some (.label third) :=
            Cut.getElem?_own front (Nat.succ_pos _)
          rw [laid.distinct marks there (lower.trans (beq_iff_eq.mp hit).symm), ← length]
          exact meets_cut cut
      · cases hit

end
end InputTape.Script
