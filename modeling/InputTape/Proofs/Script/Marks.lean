import InputTape.Proofs.Script.HiddenLabels

/-! How blocks are added to a draft.

A block can be opened and closed unless one of its labels is there already. What is new in the draft
are these labels and jumps to others of them.
-/

set_option autoImplicit false

namespace InputTape.Script

namespace Draft

variable {draft between longer : Draft}

def Has (draft : Draft) (key : String) : Prop := ∃ index, (key, index) ∈ draft.labels

theorem pushLabel_of_not_has {name : String} (fresh : ¬ draft.Has (Text.lower name)) :
    draft.pushLabel name = .ok { draft.push (.label name) with
      labels := (Text.lower name, draft.instructions.size) :: draft.labels } := by
  refine if_neg fun found => fresh ?_
  obtain ⟨⟨_, index⟩, member, same⟩ := List.lookup_isSome_iff.mp found
  cases beq_iff_eq.mp same
  exact ⟨index, member⟩

/-- Labels of a block and jumps are all that is new. -/
structure Marks (landmarks : List Landmark) (targets : List String) (number : Nat)
    (draft longer : Draft) : Prop where
  has : ∀ key, longer.Has key ↔
    (∃ landmark ∈ landmarks, key = hiddenLabel landmark number) ∨ draft.Has key
  jumps : ∀ jump ∈ longer.jumps, jump ∈ draft.jumps ∨ jump.target ∈ targets

theorem pushBlockLabel {landmark : Landmark} {number : Nat}
    (fresh : ¬ draft.Has (hiddenLabel landmark number)) :
    ∃ longer, draft.pushLabel (hiddenLabel landmark number) = .ok longer ∧
      longer.blocks = draft.blocks ∧ longer.nextBlock = draft.nextBlock ∧
      Marks [landmark] [] number draft longer := by
  refine ⟨_, pushLabel_of_not_has (by rwa [lower_hiddenLabel]), rfl, rfl, fun key => ?_,
    fun jump member => .inl member⟩
  simp [Has, lower_hiddenLabel, exists_or]

theorem Marks.trans {landmarks others : List Landmark} {targets further : List String}
    {number : Nat} (first : Marks landmarks targets number draft between)
    (second : Marks others further number between longer) :
    Marks (landmarks ++ others) (targets ++ further) number draft longer where
  has key := by
    simp only [second.has, first.has, List.mem_append, or_and_right, exists_or]
    rw [or_left_comm, or_assoc]
  jumps jump member := by
    rw [List.mem_append]
    rcases second.jumps jump member with before | new
    · rcases first.jumps jump before with old | new
      · exact .inl old
      · exact .inr (.inl new)
    · exact .inr (.inr new)

theorem Marks.not_has {landmarks : List Landmark} {targets : List String} {number : Nat}
    (marks : Marks landmarks targets number draft longer) {landmark : Landmark}
    (other : landmark ∉ landmarks) (fresh : ¬ draft.Has (hiddenLabel landmark number)) :
    ¬ longer.Has (hiddenLabel landmark number) := by
  rw [marks.has]
  rintro (⟨again, member, same⟩ | old)
  · rw [(hiddenLabel_injective same).1] at other
    exact other member
  · exact fresh old

theorem marks_nothing {number : Nat} (labels : longer.labels = draft.labels)
    (jumps : longer.jumps = draft.jumps) : Marks [] [] number draft longer where
  has key := by simp [Has, labels]
  jumps jump member := .inl (jumps ▸ member)

theorem marks_pushJump {number line : Nat} {target : String} :
    Marks [] [target] number draft (draft.pushJump line target) where
  has key := by simp [Has, pushJump, push]
  jumps jump member := by
    rcases List.mem_append.mp member with old | new
    · exact .inl old
    · exact .inr (by simp [List.mem_singleton.mp new])

/-! ## Blocks -/

section

variable {line number opened : Nat} {inElse : Bool} {blocks : List OpenBlock}
  {condition : Condition} {negated : Bool}

theorem openIf_of_not_has (fresh : ¬ draft.Has (hiddenLabel .thenPart draft.nextBlock)) :
    ∃ longer, draft.openIf line condition negated = .ok longer ∧
      longer.blocks = ⟨.conditional, false, draft.nextBlock, line⟩ :: draft.blocks ∧
      longer.nextBlock = draft.nextBlock + 1 ∧
      Marks [.thenPart] [] draft.nextBlock draft longer := by
  let branched := ({ draft with nextBlock := draft.nextBlock + 1 }).pushBranch condition negated
    (hiddenLabel .thenPart draft.nextBlock) (hiddenLabel .elsePart draft.nextBlock)
  obtain ⟨landed, pushed, blocks, next, marks⟩ := @pushBlockLabel branched .thenPart _ fresh
  refine ⟨landed.pushBlock ⟨.conditional, false, draft.nextBlock, line⟩, ?_,
    congrArg (List.cons _) blocks, next,
    marks.has, marks.jumps⟩
  change (branched.pushLabel _ >>= _) = _
  rw [pushed]
  rfl

theorem openElse_of_not_has (fresh : ¬ draft.Has (hiddenLabel .elsePart number))
    (inside : draft.blocks = ⟨.conditional, false, number, opened⟩ :: blocks) :
    ∃ longer, draft.openElse line = .ok longer ∧
      longer.blocks = ⟨.conditional, true, number, opened⟩ :: blocks ∧
      longer.nextBlock = draft.nextBlock ∧
      Marks [.elsePart] [hiddenLabel .endIf number] number draft longer := by
  let left := ({ draft with blocks }).pushJump line (hiddenLabel .endIf number)
  obtain ⟨landed, pushed, outer, next, marks⟩ := @pushBlockLabel left .elsePart _ fresh
  have jumps := (@marks_pushJump { draft with blocks } number line (hiddenLabel .endIf number)).trans
    marks
  refine ⟨landed.pushBlock ⟨.conditional, true, number, opened⟩, ?_,
    congrArg (List.cons _) outer, next, jumps.has, jumps.jumps⟩
  unfold openElse
  rw [inside]
  change (left.pushLabel _ >>= _) = _
  rw [pushed]
  rfl

theorem closeIf_of_not_has (other : ¬ draft.Has (hiddenLabel .elsePart number))
    (fresh : ¬ draft.Has (hiddenLabel .endIf number))
    (inside : draft.blocks = ⟨.conditional, false, number, opened⟩ :: blocks) :
    ∃ longer, draft.closeIf = .ok longer ∧ longer.blocks = blocks ∧
      longer.nextBlock = draft.nextBlock ∧ Marks [.elsePart, .endIf] [] number draft longer := by
  obtain ⟨landed, pushed, outer, next, marks⟩ :=
    @pushBlockLabel { draft with blocks } .elsePart _ other
  obtain ⟨longer, ended, outer', next', marks'⟩ := @pushBlockLabel landed .endIf number
    (marks.not_has (by simp) fresh)
  have all := marks.trans marks'
  refine ⟨longer, ?_, outer'.trans outer, next'.trans next, all.has, all.jumps⟩
  unfold closeIf
  rw [inside]
  change (pushLabel { draft with blocks } _ >>= _) = _
  rw [pushed]
  exact ended

theorem closeElse_of_not_has (fresh : ¬ draft.Has (hiddenLabel .endIf number))
    (inside : draft.blocks = ⟨.conditional, true, number, opened⟩ :: blocks) :
    ∃ longer, draft.closeIf = .ok longer ∧ longer.blocks = blocks ∧
      longer.nextBlock = draft.nextBlock ∧ Marks [.endIf] [] number draft longer := by
  obtain ⟨landed, pushed, outer, next, marks⟩ := @pushBlockLabel { draft with blocks } .endIf _ fresh
  refine ⟨landed, ?_, outer, next, marks.has, marks.jumps⟩
  unfold closeIf
  rw [inside]
  exact pushed

theorem openWhile_of_not_has (test : ¬ draft.Has (hiddenLabel .test draft.nextBlock))
    (fresh : ¬ draft.Has (hiddenLabel .body draft.nextBlock)) :
    ∃ longer, draft.openWhile line condition negated = .ok longer ∧
      longer.blocks = ⟨.loop, false, draft.nextBlock, line⟩ :: draft.blocks ∧
      longer.nextBlock = draft.nextBlock + 1 ∧
      Marks [.test, .body] [] draft.nextBlock draft longer := by
  obtain ⟨tested, pushed, blocks, next, marks⟩ :=
    @pushBlockLabel { draft with nextBlock := draft.nextBlock + 1 } .test _ test
  let branched := tested.pushBranch condition negated (hiddenLabel .body draft.nextBlock)
    (hiddenLabel .endWhile draft.nextBlock)
  obtain ⟨landed, again, blocks', next', marks'⟩ := @pushBlockLabel branched .body draft.nextBlock
    (@Marks.not_has _ tested _ _ _ marks _ (by simp) fresh)
  have all := marks.trans ((@marks_nothing tested branched _ rfl rfl).trans marks')
  refine ⟨landed.pushBlock ⟨.loop, false, draft.nextBlock, line⟩, ?_,
    congrArg (List.cons _) (blocks'.trans blocks),
    next'.trans next, all.has, all.jumps⟩
  change (pushLabel { draft with nextBlock := draft.nextBlock + 1 } _ >>= _) = _
  rw [pushed]
  change (branched.pushLabel _ >>= _) = _
  rw [again]
  rfl

theorem closeWhile_of_not_has (fresh : ¬ draft.Has (hiddenLabel .endWhile number))
    (inside : draft.blocks = ⟨.loop, inElse, number, opened⟩ :: blocks) :
    ∃ longer, draft.closeWhile line = .ok longer ∧ longer.blocks = blocks ∧
      longer.nextBlock = draft.nextBlock ∧
      Marks [.endWhile] [hiddenLabel .test number] number draft longer := by
  let looped := ({ draft with blocks }).pushJump line (hiddenLabel .test number)
  obtain ⟨landed, pushed, outer, next, marks⟩ := @pushBlockLabel looped .endWhile _ fresh
  have all := (@marks_pushJump { draft with blocks } number line (hiddenLabel .test number)).trans
    marks
  refine ⟨landed, ?_, outer, next, all.has, all.jumps⟩
  unfold closeWhile
  rw [inside]
  exact pushed

end

end Draft

end InputTape.Script
