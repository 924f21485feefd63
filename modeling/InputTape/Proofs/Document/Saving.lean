import InputTape.Proofs.Document.Compiled
import InputTape.Proofs.Document.Loading

/-! Everything that is loaded can be saved.

A sequence comes from a script or from a document, and either looks at its times in a way of its own.
Both let only times pass that are written again.
-/

set_option autoImplicit false

namespace InputTape

theorem isFinite_of_acceptable {x : Float} (acceptable : Acceptable x) : x.isFinite = true := by
  have known := isSome_ofFloat? acceptable
  rw [ofFloat?_eq] at known
  change x.toModel.unpack.isFinite = true
  cases shape : x.toModel.unpack with
  | zero | finite => rfl
  | notANumber | infinity =>
    rw [shape] at known
    cases known

structure Sequence.HasTimes (sequence : Sequence) : Prop where
  timely : ∀ instruction ∈ sequence.instructions, instruction.IsTimely
  gaps : ∀ instruction ∈ sequence.instructions, instruction.gap.isFinite = true
  delays : ∀ instruction ∈ sequence.instructions, ∀ milliseconds,
    instruction.operation = .delay milliseconds → milliseconds.isFinite = true

theorem Sequence.hasTimes_of_timely {sequence : Sequence}
    (timely : ∀ instruction ∈ sequence.instructions, instruction.IsTimely) : sequence.HasTimes where
  timely := timely
  gaps instruction member := isFinite_of_acceptable (timely instruction member).gap
  delays instruction member milliseconds waits :=
    isFinite_of_acceptable ((timely instruction member).delay milliseconds waits)

namespace Document

variable {sequence : Sequence}

theorem accept_of_timely (timely : ∀ instruction ∈ sequence.instructions, instruction.IsTimely) :
    accept sequence.instructions.toList = .ok sequence := by
  rcases accept_eq sequence with ⟨accepted, -⟩ | ⟨error, -, blamed⟩
  · exact accepted
  · exact absurd (by simpa using timely) blamed.not_timely

theorem write_of_timely (timely : ∀ instruction ∈ sequence.instructions, instruction.IsTimely) :
    write sequence = .ok ((toJson sequence).text .indented) := by
  rw [write, accept_of_timely timely]
  rfl

theorem read_of_timely (timely : ∀ instruction ∈ sequence.instructions, instruction.IsTimely)
    (sized : ∀ instruction ∈ sequence.instructions, instruction.operation.IsSized) :
    read ((toJson sequence).text .indented) = .ok sequence := by
  have writable := isWritable_toJson sized timely
  rw [read_eq (readVersion_toJson writable) (readInstructions_toJson writable sized),
    accept_of_timely timely]

theorem timely_of_read {text : String} (loaded : read text = .ok sequence) :
    (∀ instruction ∈ sequence.instructions, instruction.IsTimely) ∧
      ∀ instruction ∈ sequence.instructions, instruction.operation.IsSized := by
  obtain ⟨-, instructions, listed, accepted⟩ := read_ok loaded
  have sized := isSized_readInstructions text instructions listed
  rcases accept_eq ⟨instructions.toArray⟩ with ⟨same, timely⟩ | ⟨error, refused, -⟩
  · cases same.symm.trans accepted
    exact ⟨timely, by simpa using sized⟩
  · cases refused.symm.trans accepted

/-- A sequence that is compiled or read has times that can be saved, and what is saved is read back.
(A script fits into memory, so the places of its jumps are machine words; those of a document are in
any case.) Only documents of the known version are read, and one that is refused although it has the
right form is blamed for the first time that is out of range. -/
theorem write_loaded (text : String) :
    (∀ sequence, Script.compile text = .ok sequence ∨ read text = .ok sequence →
      sequence.HasTimes ∧ ∃ saved, write sequence = .ok saved ∧
        (read text = .ok sequence ∨ text.length < 2 ^ 63 → read saved = .ok sequence)) ∧
    (∀ sequence, read text = .ok sequence → HasVersion text 1) ∧
    ∀ instructions, readVersion text = .ok version → readInstructions text = .ok instructions →
      ∀ error, read text = .error error → Blamed instructions error := by
  refine ⟨fun sequence loaded => ?_, fun sequence => hasVersion_of_read, ?_⟩
  · have timely : ∀ instruction ∈ sequence.instructions, instruction.IsTimely := by
      rcases loaded with compiled | loaded
      · exact Script.timely_of_compile compiled
      · exact (timely_of_read loaded).1
    refine ⟨Sequence.hasTimes_of_timely timely, _, write_of_timely timely, fun fits => ?_⟩
    apply read_of_timely timely
    rcases loaded with compiled | loaded
    · rcases fits with loaded | short
      · exact (timely_of_read loaded).2
      · exact Script.isSized_of_compile compiled short
    · exact (timely_of_read loaded).2
  · intro instructions versioned listed error refused
    rw [read_eq versioned listed] at refused
    rcases accept_eq ⟨instructions.toArray⟩ with ⟨accepted, -⟩ | ⟨other, found, blamed⟩
    · cases accepted.symm.trans refused
    · cases found.symm.trans refused
      exact blamed

theorem compile_pause : Script.compile "Delay(-0)" = .ok ⟨#[.plain (.delay (-0))]⟩ := by
  have cut : Script.lines "Delay(-0)" =
      [⟨[⟨.keyword .delay, "Delay", 1, 1⟩, ⟨.openParen, "(", 1, 6⟩,
        ⟨.operator .minus, "-", 1, 7⟩, ⟨.number, "0", 1, 8⟩, ⟨.closeParen, ")", 1, 9⟩], false⟩] := by
    decide +kernel
  unfold Script.compile
  rw [cut]
  rfl

/-- A zero with a minus sign passes both checks. -/
theorem write_loaded_pause :
    Script.compile "Delay(-0)" = .ok ⟨#[.plain (.delay (-0))]⟩ ∧
      ∃ saved, write ⟨#[.plain (.delay (-0))]⟩ = .ok saved ∧
        read saved = .ok ⟨#[.plain (.delay (-0))]⟩ ∧ HasVersion saved 1 := by
  obtain ⟨-, saved, written, back⟩ := (write_loaded "Delay(-0)").1 _ (.inl compile_pause)
  have loaded := back (.inr (by decide))
  exact ⟨compile_pause, saved, written, loaded, (write_loaded saved).2.1 _ loaded⟩

end Document
end InputTape
