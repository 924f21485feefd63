import InputTape.Document.Basic
import InputTape.Proofs.Document.Instructions

/-! Saved sequences are read back.

A sequence is written unless one of its times is no acceptable one, and then the first such time is
what is reported. What is written is read back as the sequence it was written from.
-/

set_option autoImplicit false

namespace InputTape

open Json

/-! ## Times -/

/-- A time that documents may hold: zero to one day. -/
def Acceptable (milliseconds : Float) : Prop := 0 ≤ milliseconds ∧ milliseconds ≤ longestDelay

/-- The gap is acceptable, and the duration too if the instruction is a delay. -/
structure Instruction.IsTimely (instruction : Instruction) : Prop where
  gap : Acceptable instruction.gap
  delay : ∀ milliseconds, instruction.operation = .delay milliseconds → Acceptable milliseconds

/-- The first instruction with an unacceptable time is blamed, for its gap rather than for its
duration. -/
inductive Blamed (instructions : List Instruction) : SequenceError → Prop
  | gap {index : Nat} {instruction : Instruction}
    (found : instructions[index]? = some instruction)
    (earlier : ∀ other ∈ instructions.take index, other.IsTimely)
    (unacceptable : ¬ Acceptable instruction.gap) :
    Blamed instructions (.invalidGap index instruction.gap)
  | delay {index : Nat} {instruction : Instruction} {milliseconds : Float}
    (found : instructions[index]? = some instruction)
    (earlier : ∀ other ∈ instructions.take index, other.IsTimely)
    (acceptable : Acceptable instruction.gap)
    (operation : instruction.operation = .delay milliseconds)
    (unacceptable : ¬ Acceptable milliseconds) :
    Blamed instructions (.invalidDelay index milliseconds)

theorem Blamed.not_timely {instructions : List Instruction} {error : SequenceError}
    (blamed : Blamed instructions error) :
    ¬ ∀ instruction ∈ instructions, instruction.IsTimely := by
  intro timely
  cases blamed with
  | gap found _ bad => exact bad (timely _ (List.mem_of_getElem? found)).gap
  | delay found _ _ operation bad =>
    exact bad ((timely _ (List.mem_of_getElem? found)).delay _ operation)

theorem isAcceptable_iff {milliseconds : Float} :
    Document.isAcceptable milliseconds = true ↔ Acceptable milliseconds := by
  simp [Document.isAcceptable, Acceptable]

theorem isSome_ofFloat? {x : Float} (acceptable : Acceptable x) :
    (ExactFloat.ofFloat? x).isSome = true := by
  obtain ⟨least, most⟩ := acceptable
  have zero : (0 : Float).toModel.unpack = .zero .positive := rfl
  have finite : longestDelay.toModel.unpack.isFinite = true := by decide +kernel
  rw [ofFloat?_eq]
  obtain ⟨_, above, order⟩ := le_iff_compare.mp least
  obtain ⟨_, below, order'⟩ := le_iff_compare.mp most
  rw [zero] at above
  cases found : x.toModel.unpack with
  | zero => rfl
  | finite => rfl
  | notANumber => 
    rw [found] at above
    cases above
  | infinity sign =>
    rw [found] at above below
    cases sign with
    | negative => cases above; cases order
    | positive =>
      cases shape : longestDelay.toModel.unpack with
      | zero => rw [shape] at below; cases below; cases order'
      | finite => rw [shape] at below; cases below; cases order'
      | notANumber => rw [shape] at finite; cases finite
      | infinity => rw [shape] at finite; cases finite

namespace Document

theorem problem?_eq (index : Nat) (instruction : Instruction) :
    problem? index instruction = none ∧ instruction.IsTimely ∨
      problem? index instruction = some (.invalidGap index instruction.gap) ∧
        ¬ Acceptable instruction.gap ∨
      ∃ milliseconds, problem? index instruction = some (.invalidDelay index milliseconds) ∧
        Acceptable instruction.gap ∧ instruction.operation = .delay milliseconds ∧
        ¬ Acceptable milliseconds := by
  obtain ⟨gap, name, operation⟩ := instruction
  simp only [problem?, ← isAcceptable_iff]
  cases good : isAcceptable gap with
  | false => simp
  | true =>
    have acceptable := isAcceptable_iff.mp good
    cases operation with
    | delay milliseconds =>
      cases long : isAcceptable milliseconds with
      | false => exact .inr (.inr ⟨milliseconds, by simp [long]⟩)
      | true =>
        refine .inl ⟨by simp [long], acceptable, ?_⟩
        rintro _ ⟨⟩
        exact isAcceptable_iff.mp long
    | _ => exact .inl ⟨rfl, acceptable, by rintro _ ⟨⟩⟩

/-- The first problem is that of the first instruction with an unacceptable time. -/
theorem blamed_or_timely {before instructions : List Instruction}
    (timely : ∀ instruction ∈ before, instruction.IsTimely) :
    (firstProblem? before.length instructions = none ∧
        ∀ instruction ∈ instructions, instruction.IsTimely) ∨
      ∃ error, firstProblem? before.length instructions = some error ∧
        Blamed (before ++ instructions) error := by
  induction instructions generalizing before with
  | nil => exact .inl ⟨rfl, by simp⟩
  | cons instruction more ih =>
    have found : (before ++ instruction :: more)[before.length]? = some instruction := by simp
    have earlier :
        ∀ other ∈ (before ++ instruction :: more).take before.length, other.IsTimely := by
      rwa [List.take_left]
    rw [firstProblem?]
    rcases problem?_eq before.length instruction with
      ⟨none, here⟩ | ⟨some, bad⟩ | ⟨milliseconds, some, good, operation, bad⟩
    · have sofar : ∀ other ∈ before ++ [instruction], other.IsTimely := by
        intro other member
        rcases List.mem_append.mp member with inside | last
        · exact timely other inside
        · exact List.mem_singleton.mp last ▸ here
      rw [none, Option.none_or]
      have later := ih sofar
      rw [List.length_append, List.length_singleton, List.append_assoc] at later
      exact later.imp_left fun ⟨nothing, others⟩ =>
        ⟨nothing, List.forall_mem_cons.mpr ⟨here, others⟩⟩
    · exact .inr ⟨_, by rw [some]; rfl, .gap found earlier bad⟩
    · exact .inr ⟨_, by rw [some]; rfl, .delay found earlier good operation bad⟩

theorem accept_eq (sequence : Sequence) :
    (accept sequence.instructions.toList = .ok sequence ∧
        ∀ instruction ∈ sequence.instructions, instruction.IsTimely) ∨
      ∃ error, accept sequence.instructions.toList = .error error ∧
        Blamed sequence.instructions.toList error := by
  rw [accept]
  obtain ⟨none, timely⟩ | ⟨error, some, blamed⟩ :=
    @blamed_or_timely [] sequence.instructions.toList (by simp)
  · rw [List.length_nil] at none
    exact .inl ⟨by rw [none], by simpa using timely⟩
  · rw [List.length_nil] at some
    exact .inr ⟨error, by rw [some], blamed⟩

end Document

/-! ## What is written can be read -/

theorem hasWritable_append (left right : List (String × Json)) :
    HasWritable (left ++ right) ↔ HasWritable left ∧ HasWritable right := by
  induction left with
  | nil => simp [HasWritable]
  | cons member left ih => simp [HasWritable, ih, and_assoc]

theorem fits_int32 (x : Int32) : Fits (.integer x.toInt) := by
  have low := x.le_toInt
  have high := x.toInt_lt
  exact ⟨by omega, by omega⟩

theorem fits_natCast {n : Nat} (short : n < 2 ^ 64) : Fits (.integer n) := ⟨by omega, by omega⟩

theorem isWritable_condition (condition : Condition) : IsWritable condition.toJson := by
  cases condition with
  | pixel x y color tolerance =>
    have byte (channel : UInt8) : Fits (.integer channel.toNat) :=
      fits_natCast (channel.toNat_lt.trans (by decide))
    simp [Condition.toJson, Color.toJson, IsWritable, HasWritable, integer, fits_int32, byte]
  | expression source => simp [Condition.toJson, IsWritable, HasWritable]

theorem isWritable_target (target : BranchTarget) : IsWritable target.toJson := by
  rcases target with ⟨_ | name, _ | file⟩ <;>
    simp [BranchTarget.toJson, optionalMember, IsWritable, HasWritable]

theorem areWritable_strings (lines : List String) : AreWritable (lines.map .string) := by
  induction lines with
  | nil => trivial
  | cons line lines ih => exact ⟨trivial, ih⟩

theorem fits_real {x : Float} (acceptable : Acceptable x) : IsWritable (real x) :=
  isSome_ofFloat? acceptable

theorem hasWritable_members {operation : Operation} (sized : operation.IsSized)
    (acceptable : ∀ milliseconds, operation = .delay milliseconds → Acceptable milliseconds) :
    HasWritable operation.members := by
  cases operation with
  | delay milliseconds => exact ⟨fits_real (acceptable _ rfl), trivial⟩
  | mouse action x y wheel =>
    exact ⟨trivial, fits_int32 x, fits_int32 y, fits_int32 wheel, trivial⟩
  | key action code => exact ⟨trivial, fits_natCast (code.code.toNat_lt.trans (by decide)), trivial⟩
  | script lines => exact ⟨areWritable_strings lines, trivial⟩
  | jump name index =>
    refine (hasWritable_append ..).mpr ⟨?_, ?_⟩
    · cases name <;> simp [optionalMember, HasWritable, IsWritable]
    · cases index with
      | none => trivial
      | some index => exact ⟨fits_natCast sized, trivial⟩
  | branch condition onTrue onFalse =>
    exact ⟨isWritable_condition condition, isWritable_target onTrue, isWritable_target onFalse,
      trivial⟩
  | label name => exact ⟨trivial, trivial⟩
  | exit => trivial

theorem isWritable_instruction {instruction : Instruction} (sized : instruction.operation.IsSized)
    (timely : instruction.IsTimely) : IsWritable instruction.toJson := by
  refine ⟨fits_real timely.gap, ?_⟩
  refine (hasWritable_append ..).mpr ⟨?_, ?_, trivial⟩
  · cases instruction.name <;> simp [optionalMember, HasWritable, IsWritable]
  · rw [Operation.toJson_eq]
    exact ⟨trivial, hasWritable_members sized timely.delay⟩

namespace Document

theorem isWritable_toJson {sequence : Sequence}
    (sized : ∀ instruction ∈ sequence.instructions, instruction.operation.IsSized)
    (timely : ∀ instruction ∈ sequence.instructions, instruction.IsTimely) :
    IsWritable (toJson sequence) := by
  have all (instructions : List Instruction) (inside : ∀ instruction ∈ instructions,
      instruction.operation.IsSized ∧ instruction.IsTimely) :
      AreWritable (instructions.map Instruction.toJson) := by
    induction instructions with
    | nil => trivial
    | cons instruction more ih =>
      obtain ⟨here, others⟩ := List.forall_mem_cons.mp inside
      exact ⟨isWritable_instruction here.1 here.2, ih others⟩
  refine ⟨fits_natCast (by decide), all _ fun instruction member => ?_, trivial⟩
  have inside : instruction ∈ sequence.instructions := Array.mem_toList_iff.mp member
  exact ⟨sized instruction inside, timely instruction inside⟩

/-! ## Reading -/

theorem readOnly_eq {α : Type} {name : String} {reader : Node → Reading α}
    {members : List (String × Json)} {found : α}
    (read : Node.recordMembers [name] (fun _ value _ => return some (← reader value))
      (memberNodes members) [] none = .ok (some found)) :
    readOnly name reader (nodeOf (.object members)) = .ok found := by
  rw [readOnly, record_nodeOf read]
  rfl

theorem readVersion_toJson {sequence : Sequence} (writable : IsWritable (toJson sequence)) :
    readVersion ((toJson sequence).text .indented) = .ok version := by
  rw [readVersion, readText_text _ isBlank_indented writable]
  refine readOnly_eq ((recordMembers_known (by simp) (by simp) rfl).trans ?_)
  exact (recordMembers_unknown (by simp)).trans rfl

theorem mapM_read {instructions : List Instruction}
    (sized : ∀ instruction ∈ instructions, instruction.operation.IsSized) :
    (itemNodes (instructions.map Instruction.toJson)).mapM (Instruction.read 2) =
      .ok instructions := by
  induction instructions with
  | nil => rfl
  | cons instruction more ih =>
    obtain ⟨here, others⟩ := List.forall_mem_cons.mp sized
    rw [List.map_cons, itemNodes, List.mapM_cons, Instruction.read_nodeOf here (by decide),
      ih others]
    rfl

theorem readInstructions_toJson {sequence : Sequence} (writable : IsWritable (toJson sequence))
    (sized : ∀ instruction ∈ sequence.instructions, instruction.operation.IsSized) :
    readInstructions ((toJson sequence).text .indented) = .ok sequence.instructions.toList := by
  have items : (nodeOf (.array (sequence.instructions.toList.map Instruction.toJson))).list
      (Instruction.read 2) = .ok sequence.instructions.toList := by
    rw [nodeOf, Node.list, mapM_read (by simpa using sized)]
    rfl
  rw [readInstructions, readText_text _ isBlank_indented writable]
  refine readOnly_eq ((recordMembers_unknown (by simp)).trans ?_)
  refine (recordMembers_known (by simp) (by simp) ?_).trans rfl
  rw [items]
  rfl

/-- A sequence is written exactly if all its times are acceptable, otherwise the first instruction
with one that is not is blamed. What is written is read back as the same sequence. -/
theorem read_write (sequence : Sequence)
    (sized : ∀ instruction ∈ sequence.instructions, instruction.operation.IsSized) :
    ((∃ text, write sequence = .ok text) ↔
      ∀ instruction ∈ sequence.instructions, instruction.IsTimely) ∧
    (∀ error, write sequence = .error error → Blamed sequence.instructions.toList error) ∧
    (∀ text, write sequence = .ok text → read text = .ok sequence) := by
  -- Writing checks the times first, and fails for nothing else.
  rcases accept_eq sequence with ⟨accepted, timely⟩ | ⟨error, refused, blamed⟩
  · have writable := isWritable_toJson sized timely
    have written : write sequence = .ok ((toJson sequence).text .indented) := by
      rw [write, accepted]
      rfl
    refine ⟨⟨fun _ => timely, fun _ => ⟨_, written⟩⟩, ?_, ?_⟩
    · intro error failed
      rw [written] at failed
      cases failed
    · intro text found
      rw [written] at found
      cases found
      rw [read, readVersion_toJson writable, readInstructions_toJson writable sized]
      exact accepted
  · have failed : write sequence = .error error := by
      rw [write, refused]
      rfl
    refine ⟨⟨?_, fun timely => absurd (by simpa using timely) blamed.not_timely⟩, ?_, ?_⟩
    · rintro ⟨text, found⟩
      rw [failed] at found
      cases found
    · intro other found
      rw [failed] at found
      cases found
      exact blamed
    · intro text found
      rw [failed] at found
      cases found

/-- A loop with a delay in it, and a jump to an index. -/
theorem read_write_loop :
    let sequence : Sequence := ⟨#[⟨0, some "again", .delay 1.5⟩, ⟨20, none, .jump none (some 0)⟩]⟩
    ∃ text, write sequence = .ok text ∧ read text = .ok sequence := by
  intro sequence
  have sized : ∀ instruction ∈ sequence.instructions, instruction.operation.IsSized := by
    simp [sequence, Operation.IsSized]
  have timely : ∀ instruction ∈ sequence.instructions, instruction.IsTimely := by
    simp only [sequence, List.mem_toArray, List.forall_mem_cons, List.not_mem_nil, false_imp_iff,
      implies_true, and_true]
    refine ⟨⟨⟨by decide, by decide⟩, ?_⟩, ⟨⟨by decide, by decide⟩, ?_⟩⟩
    · rintro _ ⟨⟩
      exact ⟨by decide, by decide⟩
    · rintro _ ⟨⟩
  obtain ⟨text, written⟩ := (read_write sequence sized).1.mpr timely
  exact ⟨text, written, (read_write sequence sized).2.2 text written⟩

end Document
end InputTape
