import InputTape.Proofs.Script.Complaints
import InputTape.Proofs.Script.Drafting
import InputTape.Proofs.Script.Marks

/-! The labels that the blocks of a draft owe.

A block that is opened has some of its labels at once, and owes the others until it is closed. No
label that is owed, and none of a block to come, is ever in a draft, for the names in a script do not
begin like them and blocks have different numbers. So only a label that is written can be there
already.
-/

set_option autoImplicit false

namespace InputTape.Script

/-- The landmarks of a block that have no label yet. -/
def OpenBlock.owes (block : OpenBlock) : List Landmark :=
  match block.kind, block.inElse with
  | .conditional, false => [.elsePart, .endIf]
  | .conditional, true => [.endIf]
  | .loop, _ => [.endWhile]

namespace Draft

/-- The labels of blocks to come are free, and so are those that open blocks owe. -/
structure Reserves (draft : Draft) : Prop where
  ahead : ∀ landmark number, draft.nextBlock ≤ number → ¬ draft.Has (hiddenLabel landmark number)
  owed : ∀ block ∈ draft.blocks, ∀ landmark ∈ block.owes,
    ¬ draft.Has (hiddenLabel landmark block.number)
  apart : draft.blocks.Pairwise fun inner outer => inner.number ≠ outer.number
  below : ∀ block ∈ draft.blocks, block.number < draft.nextBlock

namespace Reserves

variable {draft longer : Draft} {outer : List OpenBlock} {number opened line : Nat} {inElse : Bool}

theorem empty : Draft.empty.Reserves where
  ahead _ _ _ := nofun
  owed := nofun
  apart := .nil
  below := nofun

/-- Only the innermost block may be another one, and it has the number of the labels that are new. -/
theorem moved (reserves : draft.Reserves) {landmarks : List Landmark} {targets : List String}
    (marks : Marks landmarks targets number draft longer)
    (later : draft.nextBlock ≤ longer.nextBlock) (below : number < longer.nextBlock)
    (new : Option OpenBlock) (blocks : longer.blocks = new.toList ++ outer)
    (sublist : outer.Sublist draft.blocks) (others : ∀ block ∈ outer, block.number ≠ number)
    (owes : ∀ block ∈ new, block.number = number ∧ ∀ landmark ∈ block.owes,
      landmark ∉ landmarks ∧ ¬ draft.Has (hiddenLabel landmark number)) : longer.Reserves where
  ahead landmark high above := by
    rw [marks.has]
    rintro (⟨other, -, same⟩ | had)
    · obtain ⟨-, rfl⟩ := hiddenLabel_injective same
      omega
    · exact reserves.ahead landmark high (Nat.le_trans later above) had
  owed block member landmark owed := by
    rw [blocks, List.mem_append, Option.mem_toList] at member
    rcases member with here | outside
    · obtain ⟨rfl, free⟩ := owes block here
      exact marks.not_has (free landmark owed).1 (free landmark owed).2
    · rw [marks.has]
      rintro (⟨other, -, same⟩ | had)
      · exact others block outside (hiddenLabel_injective same).2
      · exact reserves.owed block (sublist.subset outside) landmark owed had
  apart := by
    rw [blocks, List.pairwise_append]
    refine ⟨?_, reserves.apart.sublist sublist, fun block here other outside => ?_⟩
    · cases new <;> simp
    · rw [(owes block (Option.mem_toList.mp here)).1]
      exact (others other outside).symm
  below block member := by
    rw [blocks, List.mem_append, Option.mem_toList] at member
    rcases member with here | outside
    · rw [(owes block here).1]
      exact below
    · exact Nat.lt_of_lt_of_le (reserves.below block (sublist.subset outside)) later

/-- What is laid out without a label of a block keeps free what is. -/
theorem of_has (reserves : draft.Reserves)
    (has : ∀ landmark number, longer.Has (hiddenLabel landmark number) →
      draft.Has (hiddenLabel landmark number))
    (blocks : longer.blocks = draft.blocks) (next : longer.nextBlock = draft.nextBlock) :
    longer.Reserves where
  ahead landmark number above had :=
    reserves.ahead landmark number (next ▸ above) (has landmark number had)
  owed block member landmark owed had :=
    reserves.owed block (blocks ▸ member) landmark owed (has landmark _ had)
  apart := blocks ▸ reserves.apart
  below block member := next ▸ reserves.below block (blocks ▸ member)

theorem opened_above (reserves : draft.Reserves) {block : OpenBlock} {landmarks : List Landmark}
    {targets : List String} (marks : Marks landmarks targets draft.nextBlock draft longer)
    (blocks : longer.blocks = block :: draft.blocks)
    (next : longer.nextBlock = draft.nextBlock + 1) (numbered : block.number = draft.nextBlock)
    (owes : ∀ landmark ∈ block.owes, landmark ∉ landmarks) : longer.Reserves := by
  refine reserves.moved marks (by omega) (by omega) (some block) blocks (.refl _) ?_ ?_
  · exact fun other member => Nat.ne_of_lt (reserves.below other member)
  · rintro _ ⟨⟩
    exact ⟨numbered, fun landmark owed => ⟨owes landmark owed, reserves.ahead _ _ (Nat.le_refl _)⟩⟩

theorem moved_innermost (reserves : draft.Reserves) {landmarks : List Landmark}
    {targets : List String} {old : OpenBlock} (marks : Marks landmarks targets old.number draft longer)
    (within : draft.blocks = old :: outer) (new : Option OpenBlock)
    (blocks : longer.blocks = new.toList ++ outer) (next : longer.nextBlock = draft.nextBlock)
    (owes : ∀ block ∈ new, block.number = old.number ∧ ∀ landmark ∈ block.owes,
      landmark ∉ landmarks ∧ landmark ∈ old.owes) : longer.Reserves := by
  have inside : old ∈ draft.blocks := within ▸ List.mem_cons_self
  have apart := reserves.apart
  rw [within, List.pairwise_cons] at apart
  refine reserves.moved marks (Nat.le_of_eq next.symm) (next ▸ reserves.below old inside) new blocks
    ?_ (fun block member => (apart.1 block member).symm) fun block here => ?_
  · rw [within]
    exact List.sublist_cons_self old outer
  · obtain ⟨same, free⟩ := owes block here
    exact ⟨same, fun landmark owed =>
      ⟨(free landmark owed).1, reserves.owed old inside landmark (free landmark owed).2⟩⟩

theorem of_innermost (reserves : draft.Reserves) {old : OpenBlock}
    (within : draft.blocks = old :: outer) {landmark : Landmark} (owed : landmark ∈ old.owes) :
    ¬ draft.Has (hiddenLabel landmark old.number) :=
  reserves.owed old (within ▸ List.mem_cons_self) landmark owed

end Reserves

/-- A line has a problem by itself, or its statement does not go with what is laid out. -/
theorem addLine_refused {draft : Draft} {number : Nat} {line : Line} {error : CompileError}
    (fails : draft.addLine number line = .error error) : error.problem.IsOfLine line.tokens ∨
      ∃ statement, line.statement? = some statement ∧
        draft.add number statement = .error error.problem := by
  unfold addLine at fails
  cases reading : Script.statement?.run line with
  | error problem =>
    rw [reading] at fails
    cases fails
    exact .inl (complains_statement?.ofLine line (List.Subset.refl _) problem reading)
  | ok read =>
    rw [reading] at fails
    obtain ⟨_ | statement, rest⟩ := read
    · cases fails
    · change Except.mapError _ (draft.add number statement >>= _) = _ at fails
      -- The statement is added first, so its problem comes before one with the rest of the line.
      cases added : draft.add number statement with
      | error problem =>
        rw [added] at fails
        cases fails
        exact .inr ⟨statement, by rw [Line.statement?, reading], added⟩
      | ok longer =>
        rw [added] at fails
        change Except.mapError _ (Functor.discard (LineReader.finish.run rest) >>= _) = _ at fails
        cases ends : LineReader.finish.run rest with
        | error problem =>
          rw [ends] at fails
          cases fails
          have left : rest.tokens ⊆ line.tokens :=
            complains_statement?.keeps line _ rest (List.Subset.refl _) reading
          exact .inl (LineReader.complains_finish.ofLine rest left problem ends)
        | ok finished =>
          rw [ends] at fails
          cases fails

/-- A statement that is added leaves free what is, and if its label is there already it is one that
is written. -/
structure Settles (statement : Statement) (result : Except Problem Draft) : Prop where
  reserves : ∀ longer, result = .ok longer → longer.Reserves
  written : ∀ name, result = .error (.duplicateLabel name) → statement = .label name

theorem Settles.ok {statement : Statement} {longer : Draft} (reserves : longer.Reserves) :
    Settles statement (.ok longer) := by
  refine ⟨?_, nofun⟩
  rintro _ ⟨⟩
  exact reserves

theorem Settles.refused {statement : Statement} {problem : Problem}
    (other : ∀ name, problem ≠ .duplicateLabel name) : Settles statement (.error problem) := by
  refine ⟨nofun, ?_⟩
  rintro name ⟨⟩
  exact absurd rfl (other name)

section

variable {draft : Draft} (reserves : draft.Reserves) {statement : Statement} (line : Nat)

include reserves

theorem settles_pushJump (target : String) :
    Settles statement (.ok (draft.pushJump line target)) :=
  .ok (reserves.of_has (fun _ _ had => had) rfl rfl)

theorem settles_pushLabel {name : String} (visible : isHidden name = false) :
    Settles (.label name) (draft.pushLabel name) := by
  unfold pushLabel
  split
  · refine ⟨nofun, ?_⟩
    rintro _ ⟨⟩
    rfl
  · refine .ok (reserves.of_has ?_ rfl rfl)
    rintro landmark number ⟨index, member⟩
    rcases List.mem_cons.mp member with new | old
    · have same := (Prod.mk.inj new).1
      rw [← lower_hiddenLabel] at same
      exact absurd same.symm (lower_ne_hiddenLabel visible landmark number)
    · exact ⟨index, old⟩

theorem settles_add (named : statement.IsNamed) : Settles statement (draft.add line statement) := by
  cases statement with
  | delay | mouse | key | script | exit => exact .ok (reserves.of_has (fun _ _ had => had) rfl rfl)
  | label name => exact settles_pushLabel reserves named.2
  | goto name => exact settles_pushJump reserves line name
  | leave =>
    simp only [add, leaveLoop]
    split
    · exact settles_pushJump reserves line _
    · exact .refused (by simp)
  | ifBlock condition negated =>
    obtain ⟨longer, opens, blocks, next, marks⟩ := @openIf_of_not_has draft line condition negated
      (reserves.ahead _ _ (Nat.le_refl _))
    rw [add, opens]
    exact .ok (reserves.opened_above marks blocks next rfl (by simp [OpenBlock.owes]))
  | whileBlock condition negated =>
    obtain ⟨longer, opens, blocks, next, marks⟩ := @openWhile_of_not_has draft line condition negated
      (reserves.ahead _ _ (Nat.le_refl _)) (reserves.ahead _ _ (Nat.le_refl _))
    rw [add, opens]
    exact .ok (reserves.opened_above marks blocks next rfl (by simp [OpenBlock.owes]))
  -- The innermost block is a conditional or a loop, and the statement belongs to it or not.
  | elseBlock =>
    rcases within : draft.blocks with _ | ⟨⟨_ | _, _ | _, number, opened⟩, outer⟩
    case elseBlock.cons.conditional.false =>
      obtain ⟨longer, goes, blocks, next, marks⟩ := @openElse_of_not_has draft line number opened outer
        (reserves.of_innermost within (by simp [OpenBlock.owes])) within
      rw [add, goes]
      refine .ok (reserves.moved_innermost marks within (some _) blocks next ?_)
      rintro _ ⟨⟩
      simp [OpenBlock.owes]
    all_goals
      rw [add, openElse, within]
      exact .refused (by simp)
  | endIf =>
    rcases within : draft.blocks with _ | ⟨⟨_ | _, _ | _, number, opened⟩, outer⟩
    case endIf.cons.conditional.false =>
      obtain ⟨longer, closes, blocks, next, marks⟩ := closeIf_of_not_has
        (reserves.of_innermost within (by simp [OpenBlock.owes]))
        (reserves.of_innermost within (by simp [OpenBlock.owes])) within
      rw [add, closes]
      exact .ok (reserves.moved_innermost marks within none blocks next (by simp))
    case endIf.cons.conditional.true =>
      obtain ⟨longer, closes, blocks, next, marks⟩ := closeElse_of_not_has
        (reserves.of_innermost within (by simp [OpenBlock.owes])) within
      rw [add, closes]
      exact .ok (reserves.moved_innermost marks within none blocks next (by simp))
    all_goals
      rw [add, closeIf, within]
      exact .refused (by simp)
  | endWhile =>
    rcases within : draft.blocks with _ | ⟨⟨_ | _, inElse, number, opened⟩, outer⟩
    case endWhile.cons.loop =>
      obtain ⟨longer, closes, blocks, next, marks⟩ := @closeWhile_of_not_has draft line number opened
        inElse outer (reserves.of_innermost within (by simp [OpenBlock.owes])) within
      rw [add, closes]
      exact .ok (reserves.moved_innermost marks within none blocks next (by simp))
    all_goals
      rw [add, closeWhile, within]
      exact .refused (by simp)

theorem addLine_reserves {found : Line}
    (named : ∀ statement, found.statement? = some statement → statement.IsNamed) :
    Yields Draft.Reserves (draft.addLine line found) :=
  Draft.addLine_keeps reserves fun statement stands =>
    (settles_add reserves line (named statement stands)).reserves

theorem addLine_duplicate {found : Line}
    (named : ∀ statement, found.statement? = some statement → statement.IsNamed) {name : String}
    {number : Nat} (fails : draft.addLine line found = .error ⟨.duplicateLabel name, number⟩) :
    found.statement? = some (.label name) := by
  rcases addLine_refused fails with ofLine | ⟨statement, stands, refused⟩
  · exact absurd ofLine id
  · rw [stands, (settles_add reserves line (named statement stands)).written name refused]

end

theorem addLines_duplicate {found : List Line}
    (named : ∀ statement ∈ found.filterMap Line.statement?, statement.IsNamed) {draft : Draft}
    (reserves : draft.Reserves) {first number : Nat} {name : String}
    (fails : draft.addLines first found = .error ⟨.duplicateLabel name, number⟩) :
    .label name ∈ found.filterMap Line.statement? := by
  induction found generalizing draft first with
  | nil => cases fails
  | cons line more ih =>
    have here : ∀ statement, line.statement? = some statement → statement.IsNamed :=
      fun statement stands => named statement (by simp [stands])
    have later : ∀ statement ∈ more.filterMap Line.statement?, statement.IsNamed :=
      fun statement member => by
        obtain ⟨other, inside, stands⟩ := List.mem_filterMap.mp member
        exact named statement
          (List.mem_filterMap.mpr ⟨other, List.mem_cons_of_mem _ inside, stands⟩)
    rw [addLines] at fails
    cases added : draft.addLine first line with
    | error problem =>
      rw [added] at fails
      cases fails
      simp [addLine_duplicate reserves first here added]
    | ok between =>
      rw [added] at fails
      obtain ⟨other, inside, stands⟩ := List.mem_filterMap.mp
        (ih later (addLine_reserves reserves first here between added) fails)
      exact List.mem_filterMap.mpr ⟨other, List.mem_cons_of_mem _ inside, stands⟩

theorem resolve_error {draft : Draft} {error : CompileError} (fails : draft.resolve = .error error) :
    ∃ jump ∈ draft.jumps, error = ⟨.undefinedLabel jump.target jump.line, jump.line⟩ := by
  unfold resolve at fails
  generalize draft.instructions = first at fails
  generalize draft.jumps = jumps at fails ⊢
  induction jumps generalizing first with
  | nil => cases fails
  | cons jump more ih =>
    rw [List.foldlM_cons] at fails
    cases found : draft.find? jump.target with
    | none =>
      rw [found] at fails
      cases fails
      exact ⟨jump, List.mem_cons_self, rfl⟩
    | some index =>
      rw [found] at fails
      obtain ⟨other, member, same⟩ := ih _ fails
      exact ⟨other, List.mem_cons_of_mem _ member, same⟩

end Draft

/-- Only a label that is written in a script is ever there already. -/
theorem written_of_duplicate {text name : String} {line : Nat}
    (fails : compile text = .error ⟨.duplicateLabel name, line⟩) :
    .label name ∈ statements text := by
  unfold compile at fails
  cases added : Draft.empty.addLines 1 (lines text) with
  | error problem =>
    rw [added] at fails
    cases fails
    exact Draft.addLines_duplicate (fun _ => isNamed_of_mem_statements) .empty added
  | ok draft =>
    rw [added] at fails
    change draft.finish = _ at fails
    unfold Draft.finish at fails
    split at fails
    · cases fails
    · cases resolved : draft.resolve with
      | error problem =>
        obtain ⟨jump, -, rfl⟩ := Draft.resolve_error resolved
        rw [resolved] at fails
        cases fails
      | ok instructions =>
        rw [resolved] at fails
        cases fails

end InputTape.Script
