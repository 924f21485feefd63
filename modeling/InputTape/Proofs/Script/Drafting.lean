import InputTape.Proofs.Script.Layout
import InputTape.Proofs.Script.Names

/-! Every compiled script has a layout.

A draft records the instructions laid out so far: its labels are those among them, each once, and
a jump is pending for every jump among them. Each statement keeps that, and lays out what `Lays`
says.
-/

set_option autoImplicit false

namespace InputTape.Script

structure Draft.Records (draft : Draft) (operations : List Operation) : Prop where
  instructions : draft.instructions.toList = operations.map .plain
  labels : ∀ key index, (key, index) ∈ draft.labels ↔
    ∃ name, operations[index]? = some (Operation.label name) ∧ Text.lower name = key
  distinct : ∀ key first second, (key, first) ∈ draft.labels → (key, second) ∈ draft.labels →
    first = second
  jumps : ∀ target place, Operation.jump target place ∈ operations →
    ∃ jump ∈ draft.jumps, target = some jump.target

theorem getElem?_concat_eq_some {α : Type} {list : List α} {last wanted : α} {index : Nat} :
    (list ++ [last])[index]? = some wanted ↔
      list[index]? = some wanted ∨ index = list.length ∧ last = wanted := by
  rcases Nat.lt_trichotomy index list.length with inside | rfl | beyond
  · rw [List.getElem?_append_left inside]
    constructor
    · exact .inl
    · rintro (found | ⟨rfl, -⟩)
      · exact found
      · exact absurd inside (Nat.lt_irrefl _)
  · rw [List.getElem?_concat_length, List.getElem?_eq_none (Nat.le_refl _)]
    simp only [Option.some.injEq, reduceCtorEq, true_and, false_or]
  · rw [List.getElem?_eq_none (by simp only [List.length_append, List.length_singleton]; omega),
      List.getElem?_eq_none (by omega)]
    simp only [reduceCtorEq, false_or, false_iff, not_and]
    intro here
    omega

def Draft.nesting (draft : Draft) : Nesting := ⟨draft.blocks, draft.nextBlock⟩

namespace Draft.Records

variable {draft : Draft} {operations : List Operation}

theorem empty : Draft.empty.Records [] where
  instructions := rfl
  labels _ _ := by simp [Draft.empty]
  distinct _ _ _ := nofun
  jumps _ _ := nofun

theorem size (records : draft.Records operations) :
    draft.instructions.size = operations.length := by
  rw [← Array.length_toList, records.instructions, List.length_map]

theorem instruction (records : draft.Records operations) {index : Nat} {instruction : Instruction}
    (there : draft.instructions[index]? = some instruction) :
    ∃ operation, operations[index]? = some operation ∧ instruction = .plain operation := by
  rw [← Array.getElem?_toList, records.instructions, List.getElem?_map,
    Option.map_eq_some_iff] at there
  obtain ⟨operation, laid, rfl⟩ := there
  exact ⟨operation, laid, rfl⟩

theorem find? (records : draft.Records operations) {label : String} {index : Nat}
    (found : draft.find? label = some index) :
    ∃ name, operations[index]? = some (.label name) ∧ Text.lower name = Text.lower label := by
  obtain ⟨before, behind, split, -⟩ := List.lookup_eq_some_iff.mp found
  exact (records.labels _ index).mp (split ▸ List.mem_append_right before List.mem_cons_self)

theorem of_same (records : draft.Records operations) (other : Draft)
    (instructions : other.instructions = draft.instructions) (labels : other.labels = draft.labels)
    (jumps : other.jumps = draft.jumps) : other.Records operations where
  instructions := instructions ▸ records.instructions
  labels := labels ▸ records.labels
  distinct := labels ▸ records.distinct
  jumps := jumps ▸ records.jumps

theorem instructions_push (records : draft.Records operations) (operation : Operation) :
    (draft.push operation).instructions.toList = (operations ++ [operation]).map .plain := by
  simp only [Draft.push, Array.toList_push, records.instructions, List.map_append, List.map_cons,
    List.map_nil]

theorem labels_push (records : draft.Records operations) {operation : Operation}
    (noLabel : ∀ name, operation ≠ .label name) (key : String) (index : Nat) :
    (key, index) ∈ draft.labels ↔ ∃ name,
      (operations ++ [operation])[index]? = some (Operation.label name) ∧ Text.lower name = key := by
  simp only [records.labels, getElem?_concat_eq_some]
  constructor
  · rintro ⟨name, found, same⟩
    exact ⟨name, .inl found, same⟩
  · rintro ⟨name, found | ⟨_, here⟩, same⟩
    · exact ⟨name, found, same⟩
    · exact absurd here (noLabel name)

theorem push (records : draft.Records operations) {operation : Operation}
    (noLabel : ∀ name, operation ≠ .label name)
    (noJump : ∀ target place, operation ≠ .jump target place) :
    (draft.push operation).Records (operations ++ [operation]) where
  instructions := records.instructions_push operation
  labels := records.labels_push noLabel
  distinct := records.distinct
  jumps target place member := by
    rcases List.mem_append.mp member with before | here
    · exact records.jumps target place before
    · exact absurd (List.mem_singleton.mp here).symm (noJump target place)

theorem pushJump (records : draft.Records operations) (line : Nat) (target : String) :
    (draft.pushJump line target).Records (operations ++ [.jump (some target) none]) where
  instructions := records.instructions_push _
  labels := records.labels_push nofun
  distinct := records.distinct
  jumps wanted place member := by
    simp only [Draft.pushJump, List.mem_append, List.mem_singleton]
    rcases List.mem_append.mp member with before | here
    · obtain ⟨jump, pending, same⟩ := records.jumps wanted place before
      exact ⟨jump, .inl pending, same⟩
    · cases List.mem_singleton.mp here
      exact ⟨_, .inr rfl, rfl⟩

theorem pushBranch (records : draft.Records operations) (condition : Condition) (negated : Bool)
    (holds fails : String) :
    (draft.pushBranch condition negated holds fails).Records
      (operations ++ [testing condition negated holds fails]) := by
  have same : draft.pushBranch condition negated holds fails =
      draft.push (testing condition negated holds fails) := by
    cases negated <;> rfl
  rw [same]
  exact records.push nofun nofun

theorem pushLabel (records : draft.Records operations) (name : String) :
    Yields (fun longer => longer.Records (operations ++ [.label name]) ∧
      longer.nesting = draft.nesting) (draft.pushLabel name) := by
  unfold Draft.pushLabel
  split
  · exact .error
  · next fresh =>
    refine .ok ⟨⟨records.instructions_push _, fun key index => ?_, ?_, ?_⟩, rfl⟩
    · simp only [List.mem_cons, Prod.mk.injEq, records.labels, getElem?_concat_eq_some,
        records.size]
      constructor
      · rintro (⟨rfl, rfl⟩ | ⟨other, found, same⟩)
        · exact ⟨name, .inr ⟨rfl, rfl⟩, rfl⟩
        · exact ⟨other, .inl found, same⟩
      · rintro ⟨other, found | ⟨rfl, here⟩, same⟩
        · exact .inr ⟨other, found, same⟩
        · cases here
          exact .inl ⟨same.symm, rfl⟩
    -- The new label is unlike those entered before.
    · have unused : ∀ index, (Text.lower name, index) ∉ draft.labels := fun index member =>
        fresh (List.lookup_isSome_iff.mpr ⟨_, member, beq_self_eq_true _⟩)
      intro key first second left right
      rcases List.mem_cons.mp left with here | before <;>
        rcases List.mem_cons.mp right with there | later
      · rw [(Prod.mk.inj here).2, (Prod.mk.inj there).2]
      · exact absurd ((Prod.mk.inj here).1 ▸ later) (unused second)
      · exact absurd ((Prod.mk.inj there).1 ▸ before) (unused first)
      · exact records.distinct key first second before later
    · intro target place member
      rcases List.mem_append.mp member with before | here
      · exact records.jumps target place before
      · cases List.mem_singleton.mp here

theorem add (records : draft.Records operations) (line : Nat) (statement : Statement) :
    Yields (fun longer => ∃ more, Lays statement draft.nesting more longer.nesting ∧
      longer.Records (operations ++ more)) (draft.add line statement) := by
  obtain ⟨instructions, labels, jumps, blocks, next⟩ := draft
  cases statement with
  | delay milliseconds => exact .ok ⟨_, .action rfl, records.push nofun nofun⟩
  | mouse action x y wheel => exact .ok ⟨_, .action rfl, records.push nofun nofun⟩
  | key action code => exact .ok ⟨_, .action rfl, records.push nofun nofun⟩
  | script lines => exact .ok ⟨_, .action rfl, records.push nofun nofun⟩
  | exit => exact .ok ⟨_, .action rfl, records.push nofun nofun⟩
  | label name =>
    rintro longer added
    obtain ⟨more, same⟩ := records.pushLabel name longer added
    exact ⟨_, same ▸ .label, more⟩
  | goto name => exact .ok ⟨_, .goto, records.pushJump line name⟩
  | leave =>
    simp only [Draft.add, Draft.leaveLoop]
    split
    · next block found => exact .ok ⟨_, .leave found, records.pushJump line _⟩
    · exact .error
  | ifBlock condition negated =>
    have branched := (records.of_same ⟨instructions, labels, jumps, blocks, next + 1⟩
      rfl rfl rfl).pushBranch condition negated (hiddenLabel .thenPart next)
      (hiddenLabel .elsePart next)
    refine .bind (branched.pushLabel _) ?_
    rintro ⟨instructions, labels, jumps, _, _⟩ ⟨landed, ⟨⟩⟩
    refine .ok ⟨_, .ifBlock, ?_⟩
    rw [List.append_assoc] at landed
    exact landed.of_same _ rfl rfl rfl
  -- Only in a conditional without an else part is there anything to lay out.
  | elseBlock =>
    rcases blocks with _ | ⟨⟨_ | _, _ | _, number, opened⟩, outer⟩
    case elseBlock.cons.conditional.false =>
      have left := (records.of_same ⟨instructions, labels, jumps, outer, next⟩
        rfl rfl rfl).pushJump line (hiddenLabel .endIf number)
      refine .bind (left.pushLabel _) ?_
      rintro ⟨instructions, labels, jumps, _, _⟩ ⟨landed, ⟨⟩⟩
      refine .ok ⟨_, .elseBlock, ?_⟩
      rw [List.append_assoc] at landed
      exact landed.of_same _ rfl rfl rfl
    all_goals exact .error
  | endIf =>
    rcases blocks with _ | ⟨⟨_ | _, inElse, number, opened⟩, outer⟩
    case endIf.cons.conditional =>
      have closed := records.of_same ⟨instructions, labels, jumps, outer, next⟩
        rfl rfl rfl
      cases inElse with
      | true =>
        rintro longer added
        obtain ⟨landed, nesting⟩ := closed.pushLabel _ longer added
        exact ⟨_, nesting ▸ .endElse, landed⟩
      | false =>
        refine .bind (closed.pushLabel (hiddenLabel .elsePart number)) ?_
        rintro between ⟨landed, nesting⟩ longer added
        obtain ⟨ended, nesting'⟩ := landed.pushLabel _ longer added
        rw [List.append_assoc] at ended
        exact ⟨_, nesting'.trans nesting ▸ .endIf, ended⟩
    all_goals exact .error
  | whileBlock condition negated =>
    have opened := records.of_same ⟨instructions, labels, jumps, blocks, next + 1⟩
      rfl rfl rfl
    refine .bind (opened.pushLabel (hiddenLabel .test next)) ?_
    rintro ⟨instructions, labels, jumps, _, _⟩ ⟨tested, ⟨⟩⟩
    have branched := tested.pushBranch condition negated (hiddenLabel .body next)
      (hiddenLabel .endWhile next)
    refine .bind (branched.pushLabel _) ?_
    rintro ⟨instructions, labels, jumps, _, _⟩ ⟨landed, ⟨⟩⟩
    refine .ok ⟨_, .whileBlock, ?_⟩
    rw [List.append_assoc, List.append_assoc] at landed
    exact landed.of_same _ rfl rfl rfl
  | endWhile =>
    rcases blocks with _ | ⟨⟨_ | _, inElse, number, opened⟩, outer⟩
    case endWhile.cons.loop =>
      have looped := (records.of_same ⟨instructions, labels, jumps, outer, next⟩
        rfl rfl rfl).pushJump line (hiddenLabel .test number)
      rintro longer added
      obtain ⟨landed, nesting⟩ := looped.pushLabel _ longer added
      rw [List.append_assoc] at landed
      exact ⟨_, nesting ▸ .endWhile, landed⟩
    all_goals exact .error

end Draft.Records

/-! ## Whole scripts -/

def Line.statement? (line : Line) : Option Statement :=
  match Script.statement?.run line with
  | .ok (statement, _) => statement
  | .error _ => none

def statements (text : String) : List Statement := (lines text).filterMap Line.statement?

theorem isNamed_of_mem_statements {text : String} {statement : Statement}
    (member : statement ∈ statements text) : statement.IsNamed := by
  obtain ⟨line, inText, found⟩ := List.mem_filterMap.mp member
  unfold Line.statement? at found
  split at found
  · next read rest reading =>
    subst found
    exact isNamed_statement? (fun _ inside => isSpelled_of_mem_lines inText inside) _ reading _ rfl
  · cases found

theorem Yields.mapError {ε δ α : Type} {wished : α → Prop} {result : Except ε α} {rename : ε → δ}
    (yields : Yields wished result) : Yields wished (result.mapError rename) := by
  cases result with
  | error problem => exact .error
  | ok value => exact .ok (yields value rfl)

theorem Draft.addLine_keeps {kept : Draft → Prop} {draft : Draft} (holds : kept draft)
    {number : Nat} {line : Line} (keeps : ∀ statement, line.statement? = some statement →
      Yields kept (draft.add number statement)) : Yields kept (draft.addLine number line) := by
  unfold Draft.addLine
  refine .mapError ?_
  cases reading : Script.statement?.run line with
  | error problem => exact .error
  | ok read =>
    obtain ⟨_ | statement, rest⟩ := read
    · exact .ok holds
    · have stands : line.statement? = some statement := by rw [Line.statement?, reading]
      exact (keeps statement stands).bind fun longer kept => .behind fun _ => .ok kept

theorem Draft.addLines_keeps {kept : Draft → Prop} {found : List Line}
    (keeps : ∀ draft number, ∀ statement ∈ found.filterMap Line.statement?, kept draft →
      Yields kept (draft.add number statement)) {draft : Draft} (holds : kept draft)
    (number : Nat) : Yields kept (draft.addLines number found) := by
  induction found generalizing draft number with
  | nil => exact .ok holds
  | cons line more ih =>
    have first := @Draft.addLine_keeps kept draft holds number line fun statement stands =>
      keeps draft number statement (by simp [stands]) holds
    refine first.bind fun between grown => ih (fun draft number statement member => ?_) grown _
    refine keeps draft number statement ?_
    rw [List.filterMap_cons]
    split
    · exact member
    · exact List.mem_cons_of_mem _ member

/-- A compiled script is a draft of all its lines with its jumps resolved. -/
theorem exists_draft {text : String} {sequence : Sequence} (compiled : compile text = .ok sequence) :
    ∃ draft, Draft.empty.addLines 1 (lines text) = .ok draft ∧ draft.blocks = [] ∧
      draft.resolve = .ok sequence.instructions := by
  unfold compile at compiled
  cases added : Draft.empty.addLines 1 (lines text) with
  | error problem =>
    rw [added] at compiled
    cases compiled
  | ok draft =>
    rw [added] at compiled
    change draft.finish = .ok sequence at compiled
    unfold Draft.finish at compiled
    split at compiled
    · cases compiled
    · next closed =>
      cases resolved : draft.resolve with
      | error problem =>
        rw [resolved] at compiled
        cases compiled
      | ok instructions =>
        rw [resolved] at compiled
        cases compiled
        exact ⟨draft, rfl, closed, resolved⟩

namespace Draft.Records

theorem addLine {draft : Draft} {operations : List Operation} (records : draft.Records operations)
    (number : Nat) (line : Line) :
    Yields (fun longer => ∃ more, Layout line.statement?.toList draft.nesting more longer.nesting ∧
      longer.Records (operations ++ more)) (draft.addLine number line) := by
  unfold Draft.addLine Line.statement?
  refine .mapError ?_
  cases reading : Script.statement?.run line with
  | error problem => exact .error
  | ok read =>
    obtain ⟨_ | statement, rest⟩ := read
    · exact .ok ⟨[], .nil, by rwa [List.append_nil]⟩
    · change Yields _ (draft.add number statement >>= _)
      refine .bind (records.add number statement) ?_
      rintro longer ⟨more, lays, extended⟩
      refine .behind fun _ => .ok ⟨more, ?_, extended⟩
      simpa only [List.append_nil, Option.toList_some] using Layout.cons lays .nil

theorem addLines {draft : Draft} {operations : List Operation} (records : draft.Records operations)
    (number : Nat) (found : List Line) :
    Yields (fun longer => ∃ more,
      Layout (found.filterMap Line.statement?) draft.nesting more longer.nesting ∧
        longer.Records (operations ++ more)) (draft.addLines number found) := by
  induction found generalizing draft operations number with
  | nil => exact .ok ⟨[], .nil, by rwa [List.append_nil]⟩
  | cons line rest ih =>
    refine .bind (records.addLine number line) ?_
    rintro between ⟨first, layout, extended⟩ longer added
    obtain ⟨more, behind, complete⟩ := ih extended (number + 1) longer added
    refine ⟨first ++ more, ?_, by rwa [← List.append_assoc]⟩
    have split : (line :: rest).filterMap Line.statement? =
        line.statement?.toList ++ rest.filterMap Line.statement? := by
      cases same : line.statement? with
      | none => simp only [List.filterMap_cons, same, Option.toList_none, List.nil_append]
      | some statement => simp only [List.filterMap_cons, same, Option.toList_some, List.singleton_append]
    rw [split]
    exact layout.append behind

end Draft.Records

/-- An instruction without the place that a jump was given. -/
def unaimed (instruction : Instruction) : Instruction :=
  match instruction.operation with
  | .jump name _ => { instruction with operation := .jump name none }
  | _ => instruction

theorem unaimed_aim (index : Nat) (instruction : Instruction) :
    unaimed (Draft.aim index instruction) = unaimed instruction := by
  obtain ⟨gap, name, operation⟩ := instruction
  cases operation <;> rfl

theorem unaimed_of_action? {statement : Statement} {operation : Operation}
    (acts : statement.action? = some operation) : unaimed (.plain operation) = .plain operation := by
  cases statement <;> cases acts <;> rfl

theorem unaimed_of_mem_layout {found : List Statement} {before after : Nesting}
    {operations : List Operation} (layout : Layout found before operations after)
    {operation : Operation} (member : operation ∈ operations) :
    unaimed (.plain operation) = .plain operation := by
  induction layout with
  | nil => cases member
  | cons lays _ ih =>
    rcases List.mem_append.mp member with here | later
    · cases lays with
      | action acts =>
        rw [List.mem_singleton.mp here]
        exact unaimed_of_action? acts
      | _ =>
        simp only [List.mem_cons, List.not_mem_nil, or_false] at here
        rcases here with rfl | rfl | rfl <;> rfl
    · exact ih later

/-- Looking up labels changes nothing but the places of jumps, and finds a label for each. -/
theorem resolve_ok {draft : Draft} {instructions : Array Instruction}
    (resolved : draft.resolve = .ok instructions) :
    instructions.toList.map unaimed = draft.instructions.toList.map unaimed ∧
      ∀ jump ∈ draft.jumps, ∃ index, draft.find? jump.target = some index := by
  unfold Draft.resolve at resolved
  generalize draft.instructions = first at resolved ⊢
  generalize draft.jumps = jumps at resolved ⊢
  induction jumps generalizing first with
  | nil =>
    cases resolved
    exact ⟨rfl, nofun⟩
  | cons jump more ih =>
    rw [List.foldlM_cons] at resolved
    cases found : draft.find? jump.target with
    | none =>
      rw [found] at resolved
      cases resolved
    | some index =>
      rw [found] at resolved
      obtain ⟨same, others⟩ := ih _ resolved
      refine ⟨same.trans ?_, List.forall_mem_cons.mpr ⟨⟨index, found⟩, others⟩⟩
      -- At every place the instruction is what it was, or was given a place to jump to.
      apply List.ext_getElem?
      intro place
      simp only [Array.toList_modify, List.getElem?_map, List.getElem?_modify]
      split
      · simp only [Option.map_eq_map, Option.map_map, Function.comp_def, unaimed_aim]
      · simp only [id_map']

/-- A sequence realizes operations if nothing but places of jumps is added to them. -/
def Realizes (sequence : Sequence) (operations : List Operation) : Prop :=
  sequence.instructions.toList.map unaimed = operations.map .plain

/-- A compiled script is laid out as its statements say, by a draft that records it. -/
theorem compile_records {text : String} {sequence : Sequence}
    (compiled : compile text = .ok sequence) :
    ∃ draft operations, Draft.empty.addLines 1 (lines text) = .ok draft ∧
      draft.resolve = .ok sequence.instructions ∧ draft.Records operations ∧
      LaidOut (statements text) operations ∧ Realizes sequence operations := by
  obtain ⟨draft, added, closed, resolved⟩ := exists_draft compiled
  obtain ⟨operations, layout, records⟩ := Draft.Records.empty.addLines 1 _ draft added
  obtain ⟨same, found⟩ := resolve_ok resolved
  refine ⟨draft, operations, added, resolved, records,
    ⟨?_, fun _ => isNamed_of_mem_statements, ?_, ?_⟩, ?_⟩
  · refine ⟨draft.nextBlock, ?_⟩
    rw [← closed]
    exact layout
  · intro first second name other left right lower
    exact records.distinct (Text.lower name) first second
      ((records.labels _ _).mpr ⟨name, left, rfl⟩)
      ((records.labels _ _).mpr ⟨other, right, lower.symm⟩)
  · intro target place member
    obtain ⟨jump, pending, rfl⟩ := records.jumps target place member
    obtain ⟨index, looked⟩ := found jump pending
    obtain ⟨other, marks, lower⟩ := records.find? looked
    exact ⟨_, index, other, rfl, marks, lower⟩
  · rw [Realizes, same, records.instructions, List.map_map]
    exact List.map_congr_left fun _ member => unaimed_of_mem_layout layout member

theorem compile_ok {text : String} {sequence : Sequence} (compiled : compile text = .ok sequence) :
    ∃ operations, LaidOut (statements text) operations ∧ Realizes sequence operations := by
  obtain ⟨_, operations, -, -, -, laid, realizes⟩ := compile_records compiled
  exact ⟨operations, laid, realizes⟩

end InputTape.Script
