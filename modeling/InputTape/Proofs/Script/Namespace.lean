import InputTape.Proofs.Script.Acceptance
import InputTape.Proofs.Script.Aims
import InputTape.Proofs.Script.Debts

/-! The names in a compiled script.

The labels of a sequence are those written in the script and those of the landmarks of its blocks.
The former do not begin like the latter, so what is written leads to what is written, and what was
generated to what was generated.
-/

set_option autoImplicit false

namespace InputTape.Script

open Playback (Carries)

/-- A name is that of a landmark of the block that is opened at a place. -/
def NamedFor (statements : List Statement) (name : String) (block : Nat × Landmark) : Prop :=
  Opens statements block.1 block.2.kind ∧
    name = hiddenLabel block.2 (blockNumber statements block.1)

/-- The names in a sequence are those of its script and those of its blocks, apart from each
other. -/
structure KeepsApart (statements : List Statement) (operations : List Operation)
    (sequence : Sequence) : Prop where
  distinct : ∀ name first second, Carries sequence name first → Carries sequence name second →
    first = second
  labels : ∀ index name, LabelAt sequence index name →
    (isHidden name = false ∧ .label name ∈ statements) ∨
      (isHidden name = true ∧ ∃! block, NamedFor statements name block)
  landmarks : ∀ place (landmark : Landmark), Opens statements place landmark.kind →
    ∃ index target,
      LabelAt sequence index (hiddenLabel landmark (blockNumber statements place)) ∧
      landmark.place? statements place = some target ∧ Meets statements operations index target
  gotos : ∀ name, .goto name ∈ statements → isHidden name = false ∧
    ∃ index other, Resolves sequence name index ∧ LabelAt sequence index other ∧
      .label other ∈ statements
  jumps : ∀ index instruction target place, sequence.get? index = some instruction →
    instruction.operation = .jump target place → ∃ name aim other, target = some name ∧
      place = some aim ∧ Resolves sequence name aim ∧ LabelAt sequence aim other ∧
      ((.goto name ∈ statements ∧ .label other ∈ statements) ∨
        ∃ block, NamedFor statements name block ∧ other = name)
  branches : ∀ index instruction condition onTrue onFalse, sequence.get? index = some instruction →
    instruction.operation = .branch condition onTrue onFalse →
    ∀ target ∈ [onTrue, onFalse], ∃ name aim block, target = .label name ∧
      NamedFor statements name block ∧ Resolves sequence name aim ∧ LabelAt sequence aim name

section

variable {statements : List Statement} {operations : List Operation} {sequence : Sequence}
  {name other : String} {index : Nat}

theorem NamedFor.unique {block another : Nat × Landmark} (one : NamedFor statements name block)
    (two : NamedFor statements name another) : another = block := by
  obtain ⟨opens, rfl⟩ := one
  obtain ⟨opens', same⟩ := two
  obtain ⟨landmarks, numbers⟩ := hiddenLabel_injective same
  exact Prod.ext (blockNumber_injective opens' opens numbers.symm) landmarks.symm

theorem exists_namedFor (isLandmark : IsLandmark .outermost statements name) :
    ∃ block, NamedFor statements name block := by
  obtain ⟨place, landmark, opens, same⟩ := opens_of_isLandmark isLandmark
  exact ⟨(place, landmark), opens, same⟩

theorem NamedFor.isHidden {block : Nat × Landmark} (named : NamedFor statements name block) :
    isHidden name = true := by
  obtain ⟨-, rfl⟩ := named
  exact isHidden_hiddenLabel _ _

theorem label_of_carries (realizes : Realizes sequence operations)
    (carries : Carries sequence name index) :
    ∃ own, operations[index]? = some (.label own) ∧ Text.lower own = Text.lower name := by
  obtain ⟨instruction, own, found, named, same⟩ := carries
  obtain ⟨operation, there, unaims⟩ := realizes.operation found
  rw [← targetName?_unaimed, unaims, targetName?_plain] at named
  subst named
  exact ⟨own, there, same⟩

variable (laid : LaidOut statements operations)

include laid

theorem written_or_namedFor (marks : operations[index]? = some (.label name)) :
    (isHidden name = false ∧ .label name ∈ statements) ∨
      ∃ block, NamedFor statements name block := by
  obtain ⟨next, layout⟩ := laid.layout
  rcases layout.named (List.mem_of_getElem? marks) .label with ⟨statement, inside, written⟩ |
    isLandmark
  · cases written
    exact .inl ⟨(laid.named _ inside).2, inside⟩
  · exact .inr (exists_namedFor isLandmark)

theorem written_of_visible (visible : isHidden name = false)
    (marks : operations[index]? = some (.label other)) (lower : Text.lower other = Text.lower name) :
    .label other ∈ statements := by
  rcases written_or_namedFor laid marks with ⟨-, written⟩ | ⟨block, -, rfl⟩
  · exact written
  · exact absurd lower.symm (lower_ne_hiddenLabel visible _ _)

variable (realizes : Realizes sequence operations)

include realizes

theorem goto_resolves (written : .goto name ∈ statements) : isHidden name = false ∧
    ∃ index other, Resolves sequence name index ∧ LabelAt sequence index other ∧
      .label other ∈ statements := by
  obtain ⟨next, layout⟩ := laid.layout
  obtain ⟨isWord, visible⟩ := laid.named _ written
  obtain ⟨_, index, other, ⟨⟩, marks, lower⟩ := laid.found (jump_of_goto layout written)
  exact ⟨visible, index, other, resolves_of_label laid realizes isWord marks lower,
    realizes.labelAt.mpr marks, written_of_visible laid visible marks lower⟩

end

theorem keepsApart {text : String} {sequence : Sequence} (compiled : compile text = .ok sequence) :
    ∃ operations, LaidOut (statements text) operations ∧ Realizes sequence operations ∧
      KeepsApart (statements text) operations sequence := by
  obtain ⟨draft, operations, added, resolved, records, laid, realizes⟩ := compile_records compiled
  have ⟨next, layout⟩ := laid.layout
  refine ⟨operations, laid, realizes, ?_, ?_, ?_, fun name => goto_resolves laid realizes, ?_, ?_⟩
  · intro name first second left right
    obtain ⟨own, here, lower⟩ := label_of_carries realizes left
    obtain ⟨own', there, lower'⟩ := label_of_carries realizes right
    exact laid.distinct here there (lower.trans lower'.symm)
  · intro index name label
    rcases written_or_namedFor laid (realizes.labelAt.mp label) with written | ⟨block, named⟩
    · exact .inl written
    · exact .inr ⟨named.isHidden, block, named, fun _ other => named.unique other⟩
  · intro place landmark opens
    obtain ⟨index, target, marks, leads, meets⟩ := landmark_lands laid opens
    exact ⟨index, target, realizes.labelAt.mpr marks, leads, meets⟩
  · intro index instruction target place there jumps
    obtain ⟨name, aim, rfl, rfl, found, member⟩ :=
      records.aimed (.of_lines added) resolved there jumps
    obtain ⟨other, marks, lower⟩ := records.find? found
    have resolves := resolves_of_label laid realizes (isWord_of_mentions laid member .jump) marks lower
    refine ⟨name, aim, other, rfl, rfl, resolves, realizes.labelAt.mpr marks, ?_⟩
    rcases layout.named member .jump with ⟨statement, inside, written⟩ | isLandmark
    · cases written
      exact .inl ⟨inside, written_of_visible laid (laid.named _ inside).2 marks lower⟩
    · obtain ⟨aim', label, resolves'⟩ := resolves_of_isLandmark laid realizes isLandmark
      obtain ⟨block, named⟩ := exists_namedFor isLandmark
      -- The label of the landmark itself is the one label that is found.
      have same := resolves'.only aim other (realizes.labelAt.mpr marks) lower
      rw [same] at marks
      have there := realizes.labelAt.mp label
      rw [marks] at there
      cases there
      exact .inr ⟨block, named, rfl⟩
  · intro index instruction condition onTrue onFalse there branches target either
    have laidOut := realizes.operation_eq there (by simp [branches])
    rw [branches] at laidOut
    obtain ⟨name, rfl, isLandmark⟩ := layout.landmarks (List.mem_of_getElem? laidOut) either
    obtain ⟨aim, label, resolves⟩ := resolves_of_isLandmark laid realizes isLandmark
    obtain ⟨block, named⟩ := exists_namedFor isLandmark
    exact ⟨name, aim, block, rfl, named, resolves, label⟩

/-- In a compiled script no two targets have one name, each label is written or stands for one
landmark of one block, and written names lead to written labels, generated ones to generated labels.
No script is refused because a label that is generated is there already. -/
theorem compile_names (text : String) :
    (∀ sequence, compile text = .ok sequence → ∃ operations,
      LaidOut (statements text) operations ∧ Realizes sequence operations ∧
        KeepsApart (statements text) operations sequence) ∧
    ∀ name line, compile text = .error ⟨.duplicateLabel name, line⟩ →
      isHidden name = false ∧ .label name ∈ statements text := by
  refine ⟨fun sequence compiled => keepsApart compiled, fun name line fails => ?_⟩
  have written := written_of_duplicate fails
  exact ⟨(isNamed_of_mem_statements written).2, written⟩

theorem compile_names_loop :
    (∃ operations, KeepsApart (statements loopText) operations loopSequence) ∧
      .label "A" ∈ statements "label a\nlabel A" := by
  obtain ⟨operations, -, -, apart⟩ := (compile_names loopText).1 _ compile_loopText
  have found : lines "label a\nlabel A" =
      [⟨[⟨.keyword .label, "label", 1, 1⟩, ⟨.word, "a", 1, 7⟩], false⟩,
        ⟨[⟨.keyword .label, "label", 2, 1⟩, ⟨.word, "A", 2, 7⟩], false⟩] := by
    decide +kernel
  have fails : compile "label a\nlabel A" = .error ⟨.duplicateLabel "A", 2⟩ := by
    unfold compile
    rw [found]
    rfl
  exact ⟨⟨operations, apart⟩, ((compile_names _).2 _ _ fails).2⟩

end InputTape.Script
