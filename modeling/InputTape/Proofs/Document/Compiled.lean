import InputTape.Proofs.Document.RoundTrip
import InputTape.Proofs.Script.Acceptance

/-! What is compiled can be saved.

An instruction of a compiled sequence has no gap, waits no longer than a statement says, and jumps to
a place within the sequence. There are at most three instructions for a statement, and no more
statements than there are lines with a token on them, so the places of a text that fits into memory
are machine words.
-/

set_option autoImplicit false

namespace InputTape.Script

/-! ## Instructions -/

structure ComesFrom (statements : List Statement) (size : Nat) (instruction : Instruction) :
    Prop where
  gap : instruction.gap = 0
  delay : ∀ milliseconds, instruction.operation = .delay milliseconds →
    .delay milliseconds ∈ statements
  place : ∀ name index, instruction.operation = .jump name (some index) → index < size

theorem ComesFrom.aim {statements : List Statement} {size index : Nat} {instruction : Instruction}
    (comes : ComesFrom statements size instruction) (inside : index < size) :
    ComesFrom statements size (Draft.aim index instruction) := by
  obtain ⟨gap, name, operation⟩ := instruction
  cases operation with
  | jump =>
    refine ⟨comes.gap, nofun, ?_⟩
    rintro _ _ ⟨⟩
    exact inside
  | _ => exact comes

theorem Layout.comesFrom {statements : List Statement} {before after : Nesting}
    {operations : List Operation} (layout : Layout statements before operations after)
    {operation : Operation} (member : operation ∈ operations) (size : Nat) :
    ComesFrom statements size (.plain operation) := by
  induction layout with
  | nil => cases member
  | @cons statement _ _ _ _ _ _ lays _ ih =>
    rcases List.mem_append.mp member with here | later
    · cases lays with
      | action acts =>
        cases List.mem_singleton.mp here
        cases statement with
        | delay =>
          cases acts
          refine ⟨rfl, ?_, nofun⟩
          rintro _ ⟨⟩
          exact List.mem_cons_self
        | mouse | key | script | exit =>
          cases acts
          exact ⟨rfl, nofun, nofun⟩
        | _ => cases acts
      | _ =>
        simp only [List.mem_cons, List.not_mem_nil, or_false] at here
        rcases here with rfl | rfl | rfl <;> exact ⟨rfl, nofun, nofun⟩
    · have comes := ih later
      exact ⟨comes.gap, fun _ waits => List.mem_cons_of_mem _ (comes.delay _ waits), comes.place⟩

theorem Layout.length_le {statements : List Statement} {before after : Nesting}
    {operations : List Operation} (layout : Layout statements before operations after) :
    operations.length ≤ 3 * statements.length := by
  induction layout with
  | nil => exact Nat.le_refl _
  | cons lays _ ih =>
    rw [List.length_append, List.length_cons]
    have few : ∀ {own : List Operation} {statement before after},
        Lays statement before own after → own.length ≤ 3 := by
      intro own statement before after lays
      cases lays <;> simp
    have own := few lays
    omega

/-- What is true of all instructions, however they are aimed, is true when the labels have been looked
up. -/
theorem Draft.resolve_keeps {good : Instruction → Prop} {draft : Draft}
    (start : ∀ instruction ∈ draft.instructions, good instruction)
    (aims : ∀ label index, draft.find? label = some index →
      ∀ instruction, good instruction → good (aim index instruction)) :
    Yields (fun instructions => ∀ instruction ∈ instructions, good instruction) draft.resolve := by
  unfold resolve
  generalize draft.instructions = first at start
  generalize draft.jumps = jumps
  induction jumps generalizing first with
  | nil => exact .ok start
  | cons jump more ih =>
    rw [List.foldlM_cons]
    cases found : draft.find? jump.target with
    | none => exact .error
    | some index =>
      refine ih _ fun instruction member => ?_
      obtain ⟨place, inside, rfl⟩ := Array.mem_iff_getElem.mp member
      rw [Array.getElem_modify]
      split
      · exact aims _ index found _ (start _ (Array.getElem_mem _))
      · exact start _ (Array.getElem_mem _)

theorem comesFrom_of_compile {text : String} {sequence : Sequence}
    (compiled : compile text = .ok sequence) :
    sequence.instructions.size ≤ 3 * (statements text).length ∧
      ∀ instruction ∈ sequence.instructions,
        ComesFrom (statements text) sequence.instructions.size instruction := by
  obtain ⟨draft, operations, -, resolved, records, laid, realizes⟩ := compile_records compiled
  obtain ⟨next, layout⟩ := laid.layout
  have size : sequence.instructions.size = operations.length := by
    simpa using congrArg List.length realizes
  refine ⟨size ▸ layout.length_le, Draft.resolve_keeps (fun instruction member => ?_)
    (fun label index found instruction comes => comes.aim ?_) _ resolved⟩
  · rw [← Array.mem_toList_iff, records.instructions] at member
    obtain ⟨operation, inside, rfl⟩ := List.mem_map.mp member
    exact layout.comesFrom inside _
  · obtain ⟨name, marks, -⟩ := records.find? found
    obtain ⟨inside, -⟩ := List.getElem?_eq_some_iff.mp marks
    exact size ▸ inside

/-! ## Sizes -/

def busyCount (found : List Line) : Nat := found.countP (!·.tokens.isEmpty)

theorem busyCount_cons (first : Line) (more : List Line) :
    busyCount (first :: more) = busyCount more + busyCount [first] := by
  simp [busyCount, List.countP_cons]

theorem busyCount_singleton_le (line : Line) : busyCount [line] ≤ 1 := List.countP_le_length

theorem busyCount_addItems (found : List Item) :
    ∃ first more, found.foldr addItem [Line.empty] = first :: more ∧
      2 * busyCount more + busyCount [first] ≤ found.length := by
  induction found with
  | nil => exact ⟨Line.empty, [], rfl, Nat.le_refl _⟩
  | cons item rest ih =>
    obtain ⟨first, more, same, few⟩ := ih
    have here := busyCount_singleton_le first
    rw [List.foldr_cons, same, List.length_cons]
    simp only [addItem]
    split
    · exact ⟨_, _, rfl, Nat.le_succ_of_le few⟩
    · next token =>
      split
      · refine ⟨Line.empty, first :: more, rfl, ?_⟩
        have none : busyCount [Line.empty] = 0 := rfl
        rw [busyCount_cons]
        omega
      · split
        · exact ⟨_, _, rfl, Nat.le_succ_of_le few⟩
        · refine ⟨_, _, rfl, ?_⟩
          have added := busyCount_singleton_le { first with tokens := token :: first.tokens }
          omega

theorem length_placeFrom (position : Position) (found : List Lexeme) :
    (placeFrom position found).length = found.length := by
  induction found generalizing position with
  | nil => rfl
  | cons lexeme more ih => rw [placeFrom, List.length_cons, ih, List.length_cons]

theorem length_lexemes (text : List Char) : (lexemes text).length ≤ text.length := by
  induction text using lexemes.induct with
  | case1 => simp [lexemes]
  | case2 first rest reading count h ih =>
    rw [lexemes, h, List.length_cons, List.length_cons]
    exact Nat.succ_le_succ (Nat.le_trans ih (by simp))

theorem statement?_of_nil {line : Line} (blank : line.tokens = []) : line.statement? = none := by
  obtain ⟨_, _ | _⟩ := line <;> cases blank <;> rfl

theorem length_statements_le (found : List Line) :
    (found.filterMap Line.statement?).length ≤ busyCount found := by
  induction found with
  | nil => exact Nat.le_refl _
  | cons line more ih =>
    rw [busyCount, List.countP_cons]
    by_cases blank : line.tokens = []
    · rw [List.filterMap_cons_none (statement?_of_nil blank)]
      exact Nat.le_trans ih (Nat.le_add_right _ _)
    · have counts : (!line.tokens.isEmpty) = true := by simpa using blank
      rw [if_pos counts, List.filterMap_cons]
      split
      · exact Nat.le_succ_of_le ih
      · exact Nat.succ_le_succ ih

theorem length_statements (text : String) :
    2 * (statements text).length ≤ text.toList.length + 1 := by
  obtain ⟨first, more, same, few⟩ := busyCount_addItems (items text)
  have one := busyCount_singleton_le first
  have short : (items text).length ≤ text.toList.length := by
    rw [items, length_placeFrom]
    exact length_lexemes _
  have all := length_statements_le (lines text)
  rw [lines, same, busyCount_cons] at all
  rw [statements, lines, same]
  omega

/-! ## Compiled sequences -/

theorem acceptable_of_delay {text : String} {sequence : Sequence}
    (compiled : compile text = .ok sequence) {milliseconds : Float}
    (waits : .delay milliseconds ∈ statements text) : Acceptable milliseconds := by
  obtain ⟨draft, added, -⟩ := bind_eq_ok.mp compiled
  obtain ⟨terminated, numbered, stand, -⟩ := addLines_ok (fun _ => isGenuine_of_mem_lines) added
  rw [statements, stand.filterMap (fun _ => isGenuine_of_mem_lines) terminated] at waits
  obtain ⟨line, -, derives, -⟩ := exists_of_mem_right stand waits
  generalize line.tokens = tokens at derives
  cases derives with
  | delay _ _ least most => exact ⟨least, most⟩

theorem timely_of_compile {text : String} {sequence : Sequence}
    (compiled : compile text = .ok sequence) :
    ∀ instruction ∈ sequence.instructions, instruction.IsTimely := by
  intro instruction member
  have comes := (comesFrom_of_compile compiled).2 instruction member
  refine ⟨?_, fun milliseconds waits => acceptable_of_delay compiled (comes.delay _ waits)⟩
  rw [comes.gap]
  exact ⟨by decide, by decide⟩

theorem isSized_of_compile {text : String} {sequence : Sequence}
    (compiled : compile text = .ok sequence) (short : text.length < 2 ^ 63) :
    ∀ instruction ∈ sequence.instructions, instruction.operation.IsSized := by
  intro instruction member
  obtain ⟨size, all⟩ := comesFrom_of_compile compiled
  have few := length_statements text
  rw [← String.length_toList] at short
  cases same : instruction.operation with
  | jump name index =>
    cases index with
    | none => trivial
    | some index =>
      have inside := (all instruction member).place name index same
      change index < 2 ^ 64
      omega
  | _ => trivial

end InputTape.Script
