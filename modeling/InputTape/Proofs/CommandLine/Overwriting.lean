import InputTape.Proofs.CommandLine.Compiling
import InputTape.Proofs.Files.Spelling
import InputTape.Proofs.Interaction.Relays

/-! Whether compiling a script destroys it.

An output that is the same path as the script is refused. One that differs from it by a dot in front is not,
and takes the place of the script. All other outputs that never lead up are other files.
-/

set_option autoImplicit false

namespace InputTape.CommandLine

open FilePath (withoutDots opensWithDot)

theorem locate_run {α : Type} (interaction : Console α) {terminal : Terminal} {path : FilePath}
    {location : FileTree.Location}
    (found : terminal.tree.locate terminal.current path = .ok location) :
    let after := (interaction.run Terminal.answer terminal).2
    after.tree.locate after.current path = .ok location := by
  have keeps (request : Request) (state : Terminal)
      (found : state.tree.locate state.current path = .ok location) :
      (Terminal.answer request state).2.tree.locate (Terminal.answer request state).2.current
        path = .ok location := by
    cases request with
    | write target text =>
      simp only [Terminal.answer]
      cases wrote : state.tree.write state.current target text.toUTF8 with
      | error error => exact found
      | ok tree =>
        -- What was walked before is still there when one more file is.
        obtain ⟨place, -, rfl⟩ := FileTree.write_ok wrote
        obtain ⟨first, starts, walks⟩ := FileTree.locate_eq_ok.mp found
        exact FileTree.locate_eq_ok.mpr ⟨first, starts, walks.put⟩
    | _ => exact found
  exact Interaction.run_keeps keeps interaction found

section

variable {terminal : Terminal} {input : FilePath} {asked : Option FilePath}

/-- A compilation that succeeds changes the file that its output then leads to, and no other. -/
theorem content?_compileFile :
    let output := asked.getD (input.withExtension "json")
    let ending := (compileFile input asked).run.run Terminal.answer terminal
    (∃ error, ending.1 = .error error ∧
      ∀ place, ending.2.tree.content? place = terminal.tree.content? place) ∨
    ∃ source sequence text location, ending.1 = .ok () ∧ output.same input = false ∧
      terminal.tree.readText terminal.current input = .ok source ∧
      Script.compile source = .ok sequence ∧ Document.write sequence = .ok text ∧
      ending.2.tree.locate ending.2.current output = .ok location ∧
      ending.2.tree.content? location = some text.toUTF8 ∧
      ∀ place, place ≠ location → ending.2.tree.content? place = terminal.tree.content? place := by
  intro output ending
  rcases run_compileFile Terminal.kept terminal input asked rfl with
    ⟨error, failed, -, unchanged⟩ | ⟨source, sequence, succeeded, compiles⟩
  · exact .inl ⟨error, failed, unchanged.content⟩
  · obtain ⟨text, written, holds⟩ := compiles.document
    obtain ⟨location, leads, content, others⟩ := holds.content
    refine .inr ⟨source, sequence, text, location, succeeded, compiles.other, compiles.reads,
      compiles.compiles, written, ?_, content, others⟩
    change (ending.2.tree.locate ending.2.current output).toOption = some location at leads
    cases found : ending.2.tree.locate ending.2.current output with
    | error error =>
      rw [found] at leads
      cases leads
    | ok place =>
      rw [found] at leads
      exact congrArg Except.ok (Option.some.inj leads)

end

/-- An output that differs from the script in dots alone is refused if both or neither open with a dot,
and nothing has changed then. If only one of them does, a compilation that succeeds puts the document in
the place of the script. Whatever the output is, the script keeps its content but where the output leads to
its file, and of paths that never lead up no others do that. -/
theorem compileFile_sparesScript (terminal : Terminal) (input : FilePath) (asked : Option FilePath) :
    let output := asked.getD (input.withExtension "json")
    let ending := (compileFile input asked).run.run Terminal.answer terminal
    (withoutDots input = withoutDots output → opensWithDot input = opensWithDot output →
      ending = (.error (.overwritesInput output), terminal)) ∧
    ∀ location, terminal.tree.locate terminal.current input = .ok location →
      (withoutDots input = withoutDots output → ending.1 = .ok () →
        opensWithDot input ≠ opensWithDot output ∧ ∃ source sequence text,
          terminal.tree.readText terminal.current input = .ok source ∧
          Script.compile source = .ok sequence ∧ Document.write sequence = .ok text ∧
          ending.2.tree.content? location = some text.toUTF8) ∧
      (ending.2.tree.content? location = terminal.tree.content? location ∨
        ending.1 = .ok () ∧ ending.2.tree.locate ending.2.current output = .ok location) ∧
      (withoutDots input ≠ withoutDots output →
        FilePath.isAbsolute input = FilePath.isAbsolute output →
        .up ∉ FilePath.components input → .up ∉ FilePath.components output →
        ending.2.tree.content? location = terminal.tree.content? location) := by
  intro output ending
  refine ⟨fun alike opened => ?_, fun location found => ?_⟩
  · have same : output.same input = true := FilePath.same_iff.mpr ⟨alike.symm, opened.symm⟩
    simp only [ending, compileFile_same same, Interaction.run, output]
  -- Both paths are followed behind the run, where the output is a file in any case.
  have leads := locate_run (compileFile input asked).run found
  rcases @content?_compileFile terminal input asked with ⟨error, failed, unchanged⟩ |
    ⟨source, sequence, text, place, succeeded, other, reads, compiles, written, wrote, holds, others⟩
  · refine ⟨fun _ done => ?_, .inl (unchanged location), fun _ _ _ _ => unchanged location⟩
    cases failed.symm.trans done
  · refine ⟨fun alike _ => ⟨fun opened => ?_, source, sequence, text, reads, compiles, written, ?_⟩,
      ?_, fun differ absolute input_down output_down => others location ?_⟩
    · rw [FilePath.same_iff.mpr ⟨alike.symm, opened.symm⟩] at other
      cases other
    · rw [FileTree.locate_unique alike leads wrote]
      exact holds
    · by_cases here : location = place
      · exact .inr ⟨succeeded, here ▸ wrote⟩
      · exact .inl (others location here)
    · rintro rfl
      exact differ (FileTree.withoutDots_eq_of_locate absolute input_down output_down leads wrote)

theorem locate_desk : desk.tree.locate desk.current "pause.macro" = .ok ["pause.macro"] := rfl

/-- Only a dot that both paths open with makes no difference, and a name that differs does. -/
theorem compileFile_sparesScript_desk :
    let compiled (input output : FilePath) :=
      (compileFile input (some output)).run.run Terminal.answer desk
    compiled "./pause.macro" "././pause.macro" =
      (.error (.overwritesInput "././pause.macro"), desk) ∧
    (∃ source sequence text, Script.compile source = .ok sequence ∧
      Document.write sequence = .ok text ∧
      (compiled "pause.macro" "./pause.macro").2.tree.content? ["pause.macro"] = some text.toUTF8) ∧
    (compiled "pause.macro" "./pause.json").2.tree.content? ["pause.macro"] =
      some "Delay(-0)".toUTF8 := by
  intro compiled
  refine ⟨?_, ?_, ?_⟩
  · exact (compileFile_sparesScript desk "./pause.macro" (some "././pause.macro")).1
      (by decide +kernel) (by decide +kernel)
  · obtain ⟨_, source, sequence, text, -, compiles, written, holds⟩ :=
      ((compileFile_sparesScript desk "pause.macro" (some "./pause.macro")).2 _ locate_desk).1
        (by decide +kernel) (run_desk ["pause.macro"] (by decide +kernel)
          (by decide +kernel))
    exact ⟨source, sequence, text, compiles, written, holds⟩
  · exact ((compileFile_sparesScript desk "pause.macro" (some "./pause.json")).2 _ locate_desk).2.2
      (by decide +kernel) (by decide +kernel) (by decide +kernel) (by decide +kernel)

/-- A dot in front of the output gets past the refusal, and the script is gone. -/
theorem compileFile_destroys :
    let ending := (compileFile "pause.macro" (some "./pause.macro")).run.run Terminal.answer desk
    withoutDots "pause.macro" = withoutDots "./pause.macro" ∧
    desk.tree.locate desk.current "pause.macro" = .ok ["pause.macro"] ∧ ending.1 = .ok () ∧
    ending.2.tree.content? ["pause.macro"] ≠ desk.tree.content? ["pause.macro"] := by
  intro ending
  have alike : withoutDots "pause.macro" = withoutDots "./pause.macro" := by decide +kernel
  have done : ending.1 = .ok () :=
    run_desk ["pause.macro"] (by decide +kernel) (by decide +kernel)
  refine ⟨alike, locate_desk, done, fun same => ?_⟩
  rcases @content?_compileFile desk "pause.macro" (some "./pause.macro") with
    ⟨error, failed, -⟩ | ⟨source, sequence, text, place, -, -, reads, compiles, written, wrote, holds, -⟩
  · cases failed.symm.trans done
  · have leads := locate_run (compileFile "pause.macro" (some "./pause.macro")).run locate_desk
    rw [← FileTree.locate_unique alike leads wrote] at holds
    have kept : text = "Delay(-0)" :=
      String.toByteArray_inj.mp (Option.some.inj (holds.symm.trans same))
    cases read_desk.symm.trans reads
    -- The script is no document.
    have document := read_document compiles written (by decide)
    rw [kept] at document
    have none : (Document.read "Delay(-0)").toOption.isSome = false := by decide +kernel
    rw [document] at none
    cases none

end InputTape.CommandLine
