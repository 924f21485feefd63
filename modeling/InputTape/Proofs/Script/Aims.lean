import InputTape.Proofs.Playback.Lookup
import InputTape.Proofs.Playback.Targets
import InputTape.Proofs.Script.Landmarks
import InputTape.Proofs.Script.Refinement

/-! Where the jumps of a compiled script are aimed.

A jump is given its place when the whole script is laid out, and its name is looked up again when it
is fired. Both lead to the one label of that name.
-/

set_option autoImplicit false

namespace InputTape.Script

open Playback (Playhead jumpDirective branchDirective Directive)
open Text (IsWord)

/-! ## Pending jumps -/

/-- The jumps that are pending are the jumps laid out so far. -/
structure Draft.Awaits (draft : Draft) : Prop where
  pending : ∀ jump ∈ draft.jumps,
    draft.instructions[jump.instruction]? = some (.plain (.jump (some jump.target) none))
  pends : ∀ index target place,
    draft.instructions[index]? = some (.plain (.jump target place)) →
    ∃ jump ∈ draft.jumps, jump.instruction = index

namespace Draft.Awaits

variable {draft : Draft}

theorem empty : Draft.empty.Awaits where
  pending := nofun
  pends _ _ _ := nofun

theorem of_same (awaits : draft.Awaits) (other : Draft)
    (instructions : other.instructions = draft.instructions) (jumps : other.jumps = draft.jumps) :
    other.Awaits where
  pending := by rw [instructions, jumps]; exact awaits.pending
  pends := by rw [instructions, jumps]; exact awaits.pends

theorem pending_push (awaits : draft.Awaits) (operation : Operation) {jump : PendingJump}
    (member : jump ∈ draft.jumps) : (draft.push operation).instructions[jump.instruction]? =
      some (.plain (.jump (some jump.target) none)) := by
  have there := awaits.pending jump member
  obtain ⟨inside, -⟩ := Array.getElem?_eq_some_iff.mp there
  rw [push, Array.getElem?_push_lt inside, ← there, Array.getElem?_eq_getElem inside]

theorem push (awaits : draft.Awaits) {operation : Operation}
    (noJump : ∀ target place, operation ≠ .jump target place) : (draft.push operation).Awaits where
  pending _ member := awaits.pending_push operation member
  pends index target place there := by
    rw [Draft.push, Array.getElem?_push] at there
    split at there
    · cases there
      exact absurd rfl (noJump target place)
    · exact awaits.pends index target place there

theorem pushJump (awaits : draft.Awaits) (line : Nat) (target : String) :
    (draft.pushJump line target).Awaits where
  pending jump member := by
    rcases List.mem_append.mp member with old | new
    · exact awaits.pending_push _ old
    · rw [List.mem_singleton.mp new]
      exact Array.getElem?_push_size
  pends index name place there := by
    simp only [Draft.pushJump, Draft.push, List.mem_append, List.mem_singleton] at there ⊢
    rw [Array.getElem?_push] at there
    split at there
    · next last => exact ⟨_, .inr rfl, last.symm⟩
    · obtain ⟨jump, pending, same⟩ := awaits.pends index name place there
      exact ⟨jump, .inl pending, same⟩

theorem pushBranch (awaits : draft.Awaits) (condition : Condition) (negated : Bool)
    (holds fails : String) : (draft.pushBranch condition negated holds fails).Awaits := by
  cases negated <;> exact awaits.push nofun

theorem pushLabel (awaits : draft.Awaits) (name : String) :
    Yields Draft.Awaits (draft.pushLabel name) := by
  unfold Draft.pushLabel
  split
  · exact .error
  · exact .ok ((@push draft awaits (.label name) nofun).of_same _ rfl rfl)

theorem add (awaits : draft.Awaits) (line : Nat) (statement : Statement) :
    Yields Draft.Awaits (draft.add line statement) := by
  -- Every statement is laid out by the same few steps, and each of them keeps it.
  cases statement with
  | delay | mouse | key | script | exit => exact .ok (awaits.push nofun)
  | label name => exact awaits.pushLabel name
  | goto name => exact .ok (awaits.pushJump line name)
  | leave =>
    simp only [Draft.add, Draft.leaveLoop]
    split
    · exact .ok (awaits.pushJump line _)
    · exact .error
  | ifBlock condition negated =>
    have branched := (awaits.of_same { draft with nextBlock := draft.nextBlock + 1 }
      rfl rfl).pushBranch condition negated (hiddenLabel .thenPart draft.nextBlock)
      (hiddenLabel .elsePart draft.nextBlock)
    exact (branched.pushLabel _).bind fun _ landed => .ok (landed.of_same _ rfl rfl)
  | whileBlock condition negated =>
    have opened := awaits.of_same { draft with nextBlock := draft.nextBlock + 1 } rfl rfl
    refine (opened.pushLabel _).bind fun _ tested => ?_
    exact ((tested.pushBranch condition negated _ _).pushLabel _).bind fun _ landed =>
      .ok (landed.of_same _ rfl rfl)
  | elseBlock =>
    simp only [Draft.add, Draft.openElse]
    split
    · next outer _ =>
      have left := (awaits.of_same { draft with blocks := outer } rfl rfl).pushJump line
      exact ((left _).pushLabel _).bind fun _ landed => .ok (landed.of_same _ rfl rfl)
    · exact .error
  | endIf =>
    simp only [Draft.add, Draft.closeIf]
    split
    · next inElse _ _ outer _ =>
      have closed := awaits.of_same { draft with blocks := outer } rfl rfl
      cases inElse with
      | true => exact closed.pushLabel _
      | false => exact (closed.pushLabel _).bind fun _ landed => landed.pushLabel _
    · exact .error
  | endWhile =>
    simp only [Draft.add, Draft.closeWhile]
    split
    · next outer _ =>
      exact ((awaits.of_same { draft with blocks := outer } rfl rfl).pushJump line _).pushLabel _
    · exact .error

theorem of_lines {found : List Line} {number : Nat}
    (added : Draft.empty.addLines number found = .ok draft) : draft.Awaits :=
  Draft.addLines_keeps (fun _ number statement _ awaits => awaits.add number statement) empty number
    draft added

end Draft.Awaits

theorem aim_aim (first second : Nat) (instruction : Instruction) :
    Draft.aim second (Draft.aim first instruction) = Draft.aim second instruction := by
  obtain ⟨gap, name, operation⟩ := instruction
  cases operation <;> rfl

/-- An instruction was aimed by a pending jump at its index, or it is as it was laid out. -/
theorem resolve_at {draft : Draft} {instructions : Array Instruction}
    (resolved : draft.resolve = .ok instructions) {index : Nat} {instruction : Instruction}
    (there : instructions[index]? = some instruction) :
    (draft.instructions[index]? = some instruction ∧
      ∀ jump ∈ draft.jumps, jump.instruction ≠ index) ∨
    ∃ jump ∈ draft.jumps, ∃ place old, jump.instruction = index ∧
      draft.find? jump.target = some place ∧ draft.instructions[index]? = some old ∧
      instruction = Draft.aim place old := by
  unfold Draft.resolve at resolved
  generalize draft.instructions = first at resolved ⊢
  generalize draft.jumps = jumps at resolved ⊢
  induction jumps generalizing first with
  | nil =>
    cases resolved
    exact .inl ⟨there, nofun⟩
  | cons jump more ih =>
    rw [List.foldlM_cons] at resolved
    cases found : draft.find? jump.target with
    | none =>
      rw [found] at resolved
      cases resolved
    | some place =>
      rw [found] at resolved
      have later := ih _ resolved
      rw [Array.getElem?_modify] at later
      by_cases here : jump.instruction = index
      -- A later jump at the same index would aim the instruction again.
      · rw [if_pos here] at later
        rcases later with ⟨aimed, -⟩ | ⟨other, member, place', old, same, found', aimed, rfl⟩
        · obtain ⟨old, before, rfl⟩ := Option.map_eq_some_iff.mp aimed
          exact .inr ⟨jump, List.mem_cons_self, place, old, here, found, before, rfl⟩
        · obtain ⟨old, before, rfl⟩ := Option.map_eq_some_iff.mp aimed
          exact .inr ⟨other, List.mem_cons_of_mem _ member, place', old, same, found', before,
            aim_aim _ _ _⟩
      · rw [if_neg here] at later
        rcases later with ⟨before, none⟩ | ⟨other, member, rest⟩
        · exact .inl ⟨before, List.forall_mem_cons.mpr ⟨here, none⟩⟩
        · exact .inr ⟨other, List.mem_cons_of_mem _ member, rest⟩

/-! ## Names that lead to labels -/

def LabelAt (sequence : Sequence) (index : Nat) (name : String) : Prop :=
  ∃ instruction, sequence.get? index = some instruction ∧ instruction.operation = .label name

/-- A name leads to the one label that it is in lower case, wherever the sequence is played. -/
structure Resolves (sequence : Sequence) (name : String) (index : Nat) : Prop where
  inside : index < sequence.size
  labelled : ∃ other, LabelAt sequence index other ∧ Text.lower other = Text.lower name
  only : ∀ place other, LabelAt sequence place other → Text.lower other = Text.lower name →
    place = index
  found : ∀ playhead : Playhead, playhead.sequence = sequence → playhead.find? name = some index

theorem eq_plain_of_unaimed {instruction : Instruction} {operation : Operation}
    (same : unaimed instruction = .plain operation)
    (noJump : ∀ target place, operation ≠ .jump target place) : instruction = .plain operation := by
  obtain ⟨gap, own, performed⟩ := instruction
  cases performed with
  | jump target place =>
    cases same
    exact absurd rfl (noJump target none)
  | _ => exact same

section

variable {text : String} {sequence : Sequence} {statements : List Statement}
  {operations : List Operation} {draft : Draft} {instruction : Instruction} {name other : String}
  {index : Nat}

theorem Realizes.operation_eq (realizes : Realizes sequence operations)
    (there : sequence.get? index = some instruction)
    (noJump : ∀ target place, instruction.operation ≠ .jump target place) :
    operations[index]? = some instruction.operation := by
  obtain ⟨operation, found, same⟩ := realizes.operation there
  obtain ⟨gap, own, performed⟩ := instruction
  cases performed with
  | jump target place => exact absurd rfl (noJump target place)
  | _ =>
    cases same
    exact found

theorem Realizes.labelAt (realizes : Realizes sequence operations) :
    LabelAt sequence index name ↔ operations[index]? = some (.label name) := by
  constructor
  · rintro ⟨instruction, found, label⟩
    rw [← label]
    exact realizes.operation_eq found (by simp [label])
  · intro there
    obtain ⟨instruction, found, same⟩ := realizes.get? there
    exact ⟨instruction, found, by rw [eq_plain_of_unaimed same nofun]; rfl⟩

theorem resolves_of_label (laid : LaidOut statements operations)
    (realizes : Realizes sequence operations) (isWord : IsWord name)
    (marks : operations[index]? = some (.label other)) (lower : Text.lower other = Text.lower name) :
    Resolves sequence name index where
  inside := by
    rw [realizes.size]
    exact (List.getElem?_eq_some_iff.mp marks).1
  labelled := ⟨other, realizes.labelAt.mpr marks, lower⟩
  only _ _ label same := laid.distinct (realizes.labelAt.mp label) marks (same.trans lower.symm)
  found _ same := find?_label laid realizes same isWord marks lower

theorem isWord_of_mentions (laid : LaidOut statements operations) {operation : Operation}
    (member : operation ∈ operations) (mentions : Mentions operation name) : IsWord name := by
  obtain ⟨next, layout⟩ := laid.layout
  rcases layout.named member mentions with ⟨statement, inside, written⟩ | isLandmark
  · have named := laid.named statement inside
    cases written <;> cases mentions <;> exact named.1
  · obtain ⟨place, landmark, -, rfl⟩ := opens_of_isLandmark isLandmark
    exact isWord_hiddenLabel _ _

theorem Draft.Records.aimed (records : draft.Records operations) (awaits : draft.Awaits)
    (resolved : draft.resolve = .ok sequence.instructions)
    (there : sequence.get? index = some instruction) {target : Option String} {place : Option Nat}
    (jumps : instruction.operation = .jump target place) :
    ∃ name aim, target = some name ∧ place = some aim ∧ draft.find? name = some aim ∧
      .jump (some name) none ∈ operations := by
  rcases resolve_at resolved there with ⟨before, none⟩ | ⟨jump, pending, aim, old, here, found,
    before, rfl⟩
  -- Every jump that was laid out is pending.
  · obtain ⟨operation, -, rfl⟩ := records.instruction before
    change operation = _ at jumps
    subst jumps
    obtain ⟨jump, pending, here⟩ := awaits.pends index target place before
    exact absurd here (none jump pending)
  · subst here
    have laid := awaits.pending jump pending
    rw [laid, Option.some.injEq] at before
    subst before
    cases jumps
    obtain ⟨operation, there, same⟩ := records.instruction laid
    cases same
    exact ⟨jump.target, aim, rfl, rfl, found, List.mem_of_getElem? there⟩

/-- A name of a landmark in a whole script resolves to the label of that very name. -/
theorem resolves_of_isLandmark (laid : LaidOut statements operations)
    (realizes : Realizes sequence operations) (isLandmark : IsLandmark .outermost statements name) :
    ∃ aim, LabelAt sequence aim name ∧ Resolves sequence name aim := by
  obtain ⟨place, landmark, opens, rfl⟩ := opens_of_isLandmark isLandmark
  obtain ⟨aim, _, marks, -⟩ := landmark_lands laid opens
  exact ⟨aim, realizes.labelAt.mpr marks,
    resolves_of_label laid realizes (isWord_hiddenLabel _ _) marks rfl⟩

theorem Layout.landmarks {before after : Nesting} (layout : Layout statements before operations after)
    {condition : Condition} {onTrue onFalse : BranchTarget}
    (member : .branch condition onTrue onFalse ∈ operations) {target : BranchTarget}
    (either : target ∈ [onTrue, onFalse]) :
    ∃ name, target = .label name ∧ IsLandmark before statements name := by
  obtain ⟨holds, fails, rfl, rfl⟩ := layout.branch member
  have named {name : String}
      (mentions : Mentions (.branch condition (.label holds) (.label fails)) name) :
      IsLandmark before statements name := by
    rcases layout.named member mentions with ⟨_, -, written⟩ | isLandmark
    · cases written
    · exact isLandmark
  simp only [List.mem_cons, List.not_mem_nil, or_false] at either
  rcases either with rfl | rfl
  · exact ⟨holds, rfl, named .holds⟩
  · exact ⟨fails, rfl, named .fails⟩

theorem trim_ne_of_isWord (isWord : IsWord name) : Text.trim name ≠ "" := by
  have solid := Text.not_isEmpty_of_isWord isWord
  rw [Text.trim_of_isWord isWord]
  rintro rfl
  cases solid

end

/-- Every jump of a compiled script is aimed at the label of its name, and finds it by its name. The
targets of every branch are names of labels, which they find. -/
theorem compile_aims {text : String} {sequence : Sequence} (compiled : compile text = .ok sequence)
    {index : Nat} {instruction : Instruction} (there : sequence.get? index = some instruction) :
    (∀ target place, instruction.operation = .jump target place →
      ∃ name aim, target = some name ∧ place = some aim ∧ Resolves sequence name aim ∧
        ∀ playhead : Playhead, playhead.sequence = sequence →
          jumpDirective playhead (some name) none = .ok (.jump aim) ∧
          jumpDirective playhead none (some aim) = .ok (.jump aim) ∧
          jumpDirective playhead target place = .ok (.jump aim)) ∧
    (∀ condition onTrue onFalse, instruction.operation = .branch condition onTrue onFalse →
      ∀ target ∈ [onTrue, onFalse], ∃ name aim, target = ⟨some name, none⟩ ∧
        Resolves sequence name aim ∧
        ∀ (playhead : Playhead) (holds : Bool), playhead.sequence = sequence →
          branchDirective playhead holds target = .ok (.jump aim)) := by
  obtain ⟨draft, operations, added, resolved, records, laid, realizes⟩ := compile_records compiled
  constructor
  · intro target place jumps
    obtain ⟨name, aim, rfl, rfl, found, member⟩ :=
      records.aimed (.of_lines added) resolved there jumps
    obtain ⟨other, marks, lower⟩ := records.find? found
    have isWord := isWord_of_mentions laid member .jump
    have resolves := resolves_of_label laid realizes isWord marks lower
    refine ⟨name, aim, rfl, rfl, resolves, fun playhead same => ?_⟩
    have named := Playback.jumpDirective_of_find? (trim_ne_of_isWord isWord)
      (resolves.found playhead same)
    exact ⟨named none, rfl, named (some aim)⟩
  · intro condition onTrue onFalse branches target either
    -- A branch is laid out for a block only, so both targets are landmarks.
    obtain ⟨next, layout⟩ := laid.layout
    have laidOut := realizes.operation_eq there (by simp [branches])
    rw [branches] at laidOut
    obtain ⟨name, rfl, isLandmark⟩ := layout.landmarks (List.mem_of_getElem? laidOut) either
    obtain ⟨aim, -, resolves⟩ := resolves_of_isLandmark laid realizes isLandmark
    obtain ⟨place, landmark, -, rfl⟩ := opens_of_isLandmark isLandmark
    refine ⟨_, aim, rfl, resolves, fun playhead holds same => ?_⟩
    exact Playback.branchDirective_of_find? (trim_ne_of_isWord (isWord_hiddenLabel _ _))
      (resolves.found playhead same) holds

/-- The jumps of a loop lead out of it and back, and its branch into it. -/
theorem compile_aims_loop : compile loopText = .ok loopSequence ∧
    Resolves loopSequence "__dsl_endwhile_0" 5 ∧ Resolves loopSequence "__dsl_while_0" 0 ∧
    ∃ aim, Resolves loopSequence "__dsl_do_0" aim := by
  obtain ⟨_, _, ⟨⟩, ⟨⟩, leaves, -⟩ := (@compile_aims _ _ compile_loopText 3 _ rfl).1 _ _ rfl
  obtain ⟨_, _, ⟨⟩, ⟨⟩, returns, -⟩ := (@compile_aims _ _ compile_loopText 4 _ rfl).1 _ _ rfl
  obtain ⟨_, aim, ⟨⟩, enters, -⟩ :=
    (@compile_aims _ _ compile_loopText 1 _ rfl).2 _ _ _ rfl _ List.mem_cons_self
  exact ⟨compile_loopText, leaves, returns, aim, enters⟩

end InputTape.Script
