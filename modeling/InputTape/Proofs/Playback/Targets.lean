import Mathlib.Order.Bounds.Defs
import InputTape.Proofs.Playback.Faults
import InputTape.Proofs.Text.Trimming

/-! Instructions as targets of jumps.

A name leads to the first instruction that carries it, in any letter case, and blanks around the
name that is looked for do not count. Blanks around the name of an instruction do. So an instruction
can be reached by its own name exactly if there are none.
-/

set_option autoImplicit false

namespace InputTape.Playback

open Interaction (Exchange)

def Carries (sequence : Sequence) (name : String) (index : Nat) : Prop :=
  ∃ instruction own, sequence.get? index = some instruction ∧
    instruction.targetName? = some own ∧ Text.lower own = Text.lower name

section

variable {sequence : Sequence} {playhead : Playhead} {name other : String} {index : Nat}

theorem carries_iff (inside : index < sequence.instructions.size) :
    Carries sequence name index ↔
      (sequence.instructions[index].targetName?.any
        (Text.lower · == Text.lower name)) = true := by
  have here : sequence.get? index = some sequence.instructions[index] :=
    Array.getElem?_eq_getElem inside
  simp only [Carries, here, Option.some.injEq, Option.any_eq_true, beq_iff_eq]
  constructor
  · rintro ⟨_, own, rfl, carried⟩
    exact ⟨own, carried⟩
  · rintro ⟨own, carried⟩
    exact ⟨_, own, rfl, carried⟩

theorem Carries.inside (carried : Carries sequence name index) :
    index < sequence.instructions.size := by
  obtain ⟨_, _, found, -⟩ := carried
  exact (Array.getElem?_eq_some_iff.mp found).1

theorem Carries.unique (one : Carries sequence name index) (two : Carries sequence other index) :
    Text.lower name = Text.lower other := by
  obtain ⟨instruction, own, found, named, same⟩ := one
  obtain ⟨_, _, foundAgain, namedAgain, sameAgain⟩ := two
  rw [found, Option.some.injEq] at foundAgain
  subst foundAgain
  rw [named, Option.some.injEq] at namedAgain
  subst namedAgain
  exact same.symm.trans sameAgain

theorem find?_of_blank (blank : Text.trim name = "") : playhead.find? name = none := by
  unfold Playhead.find?
  simp [blank]

theorem find?_of_trim_ne (busy : Text.trim name ≠ "") :
    playhead.find? name = playhead.sequence.instructions.findIdx? fun instruction =>
      instruction.targetName?.any (Text.lower · == Text.lower (Text.trim name)) := by
  unfold Playhead.find?
  simp [busy]

/-- A name leads to the least index that carries it without the blanks around it. -/
theorem find?_eq_some : playhead.find? name = some index ↔
    Text.trim name ≠ "" ∧ IsLeast {place | Carries playhead.sequence (Text.trim name) place} index := by
  by_cases blank : Text.trim name = ""
  · simp [find?_of_blank blank, blank]
  rw [find?_of_trim_ne blank, Array.findIdx?_eq_some_iff_getElem]
  constructor
  · rintro ⟨inside, hit, first⟩
    refine ⟨blank, (carries_iff inside).mpr hit, fun place carried => ?_⟩
    by_contra before
    have before : place < index := Nat.lt_of_not_le before
    exact absurd ((carries_iff carried.inside).mp carried) (first place before)
  · rintro ⟨-, carried, least⟩
    refine ⟨carried.inside, (carries_iff carried.inside).mp carried, fun place before hit => ?_⟩
    have inside : place < playhead.sequence.instructions.size :=
      Nat.lt_trans before carried.inside
    exact absurd (least ((carries_iff inside).mpr hit)) (Nat.not_le.mpr before)

theorem exists_find? (carried : Carries playhead.sequence (Text.trim name) index)
    (busy : Text.trim name ≠ "") : ∃ place, playhead.find? name = some place := by
  rw [← Option.isSome_iff_exists, Option.isSome_iff_ne_none, find?_of_trim_ne busy]
  intro lost
  have missed := Array.findIdx?_eq_none_iff.mp lost _ (Array.getElem_mem carried.inside)
  rw [(carries_iff carried.inside).mp carried] at missed
  cases missed

theorem nonBlank?_of_trim_ne (busy : Text.trim name ≠ "") : nonBlank? (some name) = some name := by
  simp [nonBlank?, Option.filter, busy]

theorem jumpDirective_of_find? (busy : Text.trim name ≠ "")
    (found : playhead.find? name = some index) (place : Option Nat) :
    jumpDirective playhead (some name) place = .ok (.jump index) := by
  unfold jumpDirective toName
  rw [nonBlank?_of_trim_ne busy]
  simp only [found]

theorem branchDirective_of_find? (busy : Text.trim name ≠ "")
    (found : playhead.find? name = some index) (holds : Bool) :
    branchDirective playhead holds (.label name) = .ok (.jump index) := by
  unfold branchDirective toName BranchTarget.label
  simp only [nonBlank?_of_trim_ne busy, found]

theorem find?_of_unresolved {operation : Operation}
    {asked : List (Exchange Request Request.Answer)}
    (fails : (execute playhead operation).run.Traces asked (.error (.flow (.unresolved name)))) :
    playhead.find? name = none := by
  have mishap := mishap_of_execute fails
  generalize unnoted asked = noted at mishap
  cases mishap with
  | jumpUnresolved _ lost => exact lost
  | branchUnresolved _ _ _ lost => exact lost

end

/-- An instruction can be reached by its own name, and the first one with that name is, exactly if
no blanks stand around the name. Then jumps and branches to it lead there, and nothing that is done
in the sequence fails for want of it. -/
theorem find?_ownName {playhead : Playhead} {name : String} {place : Nat}
    (carried : Carries playhead.sequence name place) (busy : Text.trim name ≠ "") :
    ((∃ index, playhead.find? name = some index ∧
        IsLeast {place | Carries playhead.sequence name place} index) ↔ Text.trim name = name) ∧
    (Text.trim name = name → ∃ index, playhead.find? name = some index ∧
      (∀ given, jumpDirective playhead (some name) given = .ok (.jump index)) ∧
      (∀ holds, branchDirective playhead holds (.label name) = .ok (.jump index)) ∧
      ∀ operation asked, ¬ (execute playhead operation).run.Traces asked
        (.error (.flow (.unresolved name)))) := by
  have found (solid : Text.trim name = name) : ∃ index, playhead.find? name = some index :=
    exists_find? (solid.symm ▸ carried) busy
  refine ⟨⟨?_, fun solid => ?_⟩, fun solid => ?_⟩
  -- What is found carries the name without its blanks, and cannot carry it with them too.
  · rintro ⟨index, leads, own, -⟩
    have trimmed := (find?_eq_some.mp leads).2.1
    exact Text.trim_of_lower_trim (trimmed.unique own)
  · obtain ⟨index, leads⟩ := found solid
    have least := (find?_eq_some.mp leads).2
    rw [solid] at least
    exact ⟨index, leads, least⟩
  · obtain ⟨index, leads⟩ := found solid
    refine ⟨index, leads, jumpDirective_of_find? busy leads, branchDirective_of_find? busy leads,
      fun operation asked fails => ?_⟩
    rw [find?_of_unresolved fails] at leads
    cases leads

def twice : Sequence :=
  ⟨#[.plain .exit, ⟨0, some "Tail", .delay 1⟩, .plain (.label "TAIL")]⟩

theorem find?_ownName_twice :
    Carries twice "TAIL" 2 ∧ Text.trim "TAIL" = "TAIL" ∧ ∃ index,
      (Playhead.start twice none false).find? "TAIL" = some index ∧ index = 1 := by
  have carried : Carries twice "TAIL" 2 := ⟨.plain (.label "TAIL"), "TAIL", rfl, rfl, rfl⟩
  have solid : Text.trim "TAIL" = "TAIL" := by decide
  have busy : Text.trim "TAIL" ≠ "" := by rw [solid]; decide
  obtain ⟨index, leads, -⟩ :=
    (@find?_ownName (.start twice none false) "TAIL" 2 carried busy).2 solid
  refine ⟨carried, solid, index, leads, ?_⟩
  have here : (Playhead.start twice none false).find? "TAIL" = some 1 := by decide +kernel
  rw [here] at leads
  exact (Option.some.inj leads).symm

def padded : Sequence := ⟨#[.plain (.label " a ")]⟩

/-- Not every name that an instruction carries leads to one. -/
theorem find?_padded :
    ¬ ∀ (playhead : Playhead) (name : String) (place : Nat),
      Carries playhead.sequence name place → Text.trim name ≠ "" →
      ∃ index, playhead.find? name = some index ∧
        IsLeast {place | Carries playhead.sequence name place} index := by
  intro all
  obtain ⟨index, leads, -⟩ := all (.start padded none false) " a " 0
    ⟨.plain (.label " a "), " a ", rfl, rfl, rfl⟩ (by decide)
  have lost : (Playhead.start padded none false).find? " a " = none := by decide +kernel
  rw [lost] at leads
  cases leads

end InputTape.Playback
