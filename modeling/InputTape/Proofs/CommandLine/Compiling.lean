import InputTape.CommandLine.Terminal
import InputTape.Proofs.Document.Saving
import InputTape.Proofs.Files.Writing

/-! Compiling a script leaves a document behind, or nothing.

Surroundings keep files if only a write that succeeds changes any, and only the one that its path leads
to. There a compilation that fails leaves all files as they are, and one that succeeds changes one file.
What that file holds is the compiled sequence, which is the sequence that a playback of the file plays.
-/

set_option autoImplicit false

namespace InputTape.CommandLine

/-! ## Files -/

def Request.isWrite : Request → Bool
  | .write .. => true
  | _ => false

/-- The files of surroundings, as they are seen from outside and as a command finds them. -/
structure Files (Surroundings : Type) where
  answer : (request : Request) → Surroundings → request.Answer × Surroundings
  Place : Type
  content? : Surroundings → Place → Option ByteArray
  place? : Surroundings → FilePath → Option Place

namespace Files

variable {Surroundings : Type} (files : Files Surroundings)

def read (surroundings : Surroundings) (path : FilePath) : Except FileError String :=
  (files.answer (.read path) surroundings).1

structure Unchanged (before after : Surroundings) : Prop where
  content : ∀ place, files.content? after place = files.content? before place
  place : ∀ path, files.place? after path = files.place? before path
  read : ∀ path, files.read after path = files.read before path

structure Written (path : FilePath) (text : String) (before after : Surroundings) : Prop where
  content : ∃ place, files.place? after path = some place ∧
    files.content? after place = some text.toUTF8 ∧
    ∀ other, other ≠ place → files.content? after other = files.content? before other
  read : files.read after path = .ok text

/-- Only a write that succeeds changes files, and what is read is what was written. -/
structure Kept : Prop where
  quiet : ∀ request surroundings, request.isWrite = false →
    files.Unchanged surroundings (files.answer request surroundings).2
  refused : ∀ path text surroundings error,
    (files.answer (.write path text) surroundings).1 = .error error →
    files.Unchanged surroundings (files.answer (.write path text) surroundings).2
  written : ∀ path text surroundings, (files.answer (.write path text) surroundings).1 = .ok () →
    files.Written path text surroundings (files.answer (.write path text) surroundings).2

section

variable {files} {before between after : Surroundings} {path : FilePath} {text : String}

theorem Unchanged.refl (surroundings : Surroundings) : files.Unchanged surroundings surroundings :=
  ⟨fun _ => rfl, fun _ => rfl, fun _ => rfl⟩

theorem Unchanged.trans (first : files.Unchanged before between)
    (second : files.Unchanged between after) : files.Unchanged before after where
  content place := (second.content place).trans (first.content place)
  place path := (second.place path).trans (first.place path)
  read path := (second.read path).trans (first.read path)

theorem Unchanged.written (first : files.Unchanged before between)
    (second : files.Written path text between after) : files.Written path text before after where
  content := by
    obtain ⟨place, leads, holds, others⟩ := second.content
    exact ⟨place, leads, holds, fun other differs => (others other differs).trans (first.content other)⟩
  read := second.read

theorem Written.unchanged (first : files.Written path text before between)
    (second : files.Unchanged between after) : files.Written path text before after where
  content := by
    obtain ⟨place, leads, holds, others⟩ := first.content
    refine ⟨place, (second.place path).trans leads, (second.content place).trans holds, ?_⟩
    exact fun other differs => (second.content other).trans (others other differs)
  read := (second.read path).trans first.read

end

end Files

/-! ## Files in memory -/

def Terminal.files : Files Terminal where
  answer := Terminal.answer
  Place := FileTree.Location
  content? terminal := terminal.tree.content?
  place? terminal path := (terminal.tree.locate terminal.current path).toOption

theorem Terminal.kept : Terminal.files.Kept where
  quiet request terminal quiet := by
    cases request with
    | write path text => cases quiet
    | _ => exact ⟨fun _ => rfl, fun _ => rfl, fun _ => rfl⟩
  refused path text terminal error refused := by
    simp only [files, answer] at refused ⊢
    split at refused
    · cases refused
    · exact .refl terminal
  written path text terminal wrote := by
    simp only [files, answer] at wrote
    split at wrote
    · next tree written =>
      obtain ⟨location, found, rfl⟩ := FileTree.write_ok written
      -- The tree is all that a write changes of a terminal.
      have leads := @FileTree.locate_put _ _ _ _ text.toUTF8 found
      have behind : (files.answer (.write path text) terminal).2 =
          { terminal with tree := terminal.tree.put location text.toUTF8 } := by
        simp only [files, answer, written]
      rw [behind]
      refine ⟨⟨location, congrArg Except.toOption leads, FileTree.content?_put,
        fun other differs => FileTree.content?_put_of_ne differs⟩, ?_⟩
      exact FileTree.readText_eq_ok.mpr (FileTree.read_eq_ok.mpr ⟨location, leads,
        FileTree.content?_put⟩)
    · cases wrote

/-! ## Compiling -/

section

variable {α β ε : Type}

theorem run_check_bind (blame : ε → Error) (result : Except ε α) (next : α → Task β) :
    (check blame result >>= next).run = match result with
      | .error error => .done (.error (blame error))
      | .ok value => (next value).run := by
  cases result <;> rfl

end

theorem compileFile_same {input : FilePath} {asked : Option FilePath}
    (same : (asked.getD (input.withExtension "json")).same input = true) :
    (compileFile input asked).run =
      .done (.error (.overwritesInput (asked.getD (input.withExtension "json")))) := by
  unfold compileFile
  simp only [same]
  rfl

/-- The file is written when all else is done. -/
theorem compileFile_other {input : FilePath} {asked : Option FilePath}
    (other : (asked.getD (input.withExtension "json")).same input = false) :
    let output := asked.getD (input.withExtension "json")
    (compileFile input asked).run = .ask (.read input) fun
      | .error error => .done (.error (.unreadableInput input error))
      | .ok source => match Script.compile source with
        | .error error => .done (.error (.badScript error))
        | .ok sequence => match Document.write sequence with
          | .error error => .done (.error (.notSaved output error))
          | .ok text => .ask (.write output text) fun
            | .error error => .done (.error (.notSaved output (.file error)))
            | .ok () => .ask (.print (input ++ " compiled (" ++
                counted sequence.size "instruction" ++ " written to " ++ output ++ ")."))
              fun _ => .done (.ok ()) := by
  intro output
  unfold compileFile
  simp only [other]
  refine congrArg (Interaction.ask _) (funext fun read => ?_)
  refine (run_check_bind (.unreadableInput input) read _).trans ?_
  cases read with
  | error error => rfl
  | ok source =>
    refine (run_check_bind .badScript (Script.compile source) _).trans ?_
    simp only
    cases Script.compile source with
    | error error => rfl
    | ok sequence =>
      refine (run_check_bind (.notSaved output) (Document.write sequence) _).trans ?_
      simp only
      cases Document.write sequence with
      | error error => rfl
      | ok text =>
        refine congrArg (Interaction.ask _) (funext fun written => ?_)
        cases written <;> rfl

section

variable {Surroundings : Type} (files : Files Surroundings) (input output : FilePath)
  (before : Surroundings)

/-- Why a compilation fails. What is compiled can always be put into words, so that a document which
cannot be saved was refused by its file. -/
inductive Fails : Error → Prop where
  | same : output.same input = true → Fails (.overwritesInput output)
  | unreadable {error : FileError} : files.read before input = .error error →
      Fails (.unreadableInput input error)
  | badScript {source : String} {error : Script.CompileError} :
      files.read before input = .ok source → Script.compile source = .error error →
      Fails (.badScript error)
  | refused {source text : String} {sequence : Sequence} {error : FileError} :
      files.read before input = .ok source → Script.compile source = .ok sequence →
      Document.write sequence = .ok text →
      (files.answer (.write output text) (files.answer (.read input) before).2).1 = .error error →
      Fails (.notSaved output (.file error))

structure Compiles (source : String) (sequence : Sequence) (after : Surroundings) : Prop where
  other : output.same input = false
  reads : files.read before input = .ok source
  compiles : Script.compile source = .ok sequence
  document : ∃ text, Document.write sequence = .ok text ∧ files.Written output text before after

end

section

variable {Surroundings : Type} {files : Files Surroundings} {before after : Surroundings}
  {input output path : FilePath}

theorem read_document {source text : String} {sequence : Sequence}
    (compiled : Script.compile source = .ok sequence) (written : Document.write sequence = .ok text)
    (short : source.length < 2 ^ 63) : Document.read text = .ok sequence := by
  have timely := Script.timely_of_compile compiled
  obtain rfl := Except.ok.inj ((Document.write_of_timely timely).symm.trans written)
  exact Document.read_of_timely timely (Script.isSized_of_compile compiled short)

theorem run_loadSequence {content : Except FileError String} {sequence : Sequence}
    (reads : files.read before path = content)
    (holds : SequenceFile.read path content = .ok sequence) :
    ((loadSequence path).run.run files.answer before).1 = .ok sequence := by
  change (SequenceFile.read path (files.read before path)).mapError (Error.notLoaded path) = _
  rw [reads, holds]
  rfl

theorem read_of_isDocument {text : String} (document : SequenceFile.isDocument path = true) :
    SequenceFile.read path (.ok text) = Document.read text :=
  if_pos document

theorem read_of_not_isDocument {text : String} (script : SequenceFile.isDocument path = false) :
    SequenceFile.read path (.ok text) = (Script.compile text).mapError .script :=
  if_neg (ne_true_of_eq_false script)

theorem run_compileFile (kept : files.Kept) (before : Surroundings) (input : FilePath)
    (asked : Option FilePath) (output_eq : output = asked.getD (input.withExtension "json")) :
    let ending := (compileFile input asked).run.run files.answer before
    (∃ error, ending.1 = .error error ∧ Fails files input output before error ∧
      files.Unchanged before ending.2) ∨
    ∃ source sequence, ending.1 = .ok () ∧
      Compiles files input output before source sequence ending.2 := by
  subst output_eq
  cases same : FilePath.same (asked.getD (input.withExtension "json")) input with
  | true =>
    rw [compileFile_same same]
    exact .inl ⟨_, rfl, .same same, .refl before⟩
  | false =>
    rw [compileFile_other same, Interaction.run]
    have looked := kept.quiet (.read input) before rfl
    cases reads : (files.answer (.read input) before).1 with
    | error error => exact .inl ⟨_, rfl, .unreadable reads, looked⟩
    | ok source =>
      simp only
      cases compiles : Script.compile source with
      | error error => exact .inl ⟨_, rfl, .badScript reads compiles, looked⟩
      | ok sequence =>
        have document := Document.write_of_timely (Script.timely_of_compile compiles)
        simp only [document, Interaction.run]
        -- What the document says does not matter any more, only that there is one.
        generalize (Document.toJson sequence).text .indented = text at document
        cases writes : (files.answer (.write _ text) (files.answer (.read input) before).2).1 with
        | error error =>
          refine .inl ⟨_, rfl, .refused reads compiles document writes, looked.trans ?_⟩
          exact kept.refused _ _ _ _ writes
        | ok done =>
          refine .inr ⟨source, sequence, rfl, same, reads, compiles, text, document, ?_⟩
          exact (looked.written (kept.written _ _ _ writes)).unchanged (kept.quiet (.print _) _ rfl)

/-- A compilation fails if the script cannot be read or is none, or if its file would be overwritten. Where
it fails all files are as they were. Where it succeeds the output alone has changed, and holds the document
of the sequence. If it is named as a document, a playback of the output plays that sequence, as a playback
of the script does. (A script fits into memory.) -/
theorem compileFile_allOrNothing (kept : files.Kept) (before : Surroundings) (input : FilePath)
    (asked : Option FilePath) :
    let output := asked.getD (input.withExtension "json")
    let ending := (compileFile input asked).run.run files.answer before
    let load (surroundings : Surroundings) (path : FilePath) :=
      ((loadSequence path).run.run files.answer surroundings).1
    ((output.same input = true ∨ (∃ error, files.read before input = .error error) ∨
        ∃ source error, files.read before input = .ok source ∧
          Script.compile source = .error error) → ∃ error, ending.1 = .error error) ∧
    (∀ error, ending.1 = .error error →
      Fails files input output before error ∧ files.Unchanged before ending.2) ∧
    (ending.1 = .ok () → ∃ source sequence,
      Compiles files input output before source sequence ending.2 ∧
      (SequenceFile.isDocument output = true → source.length < 2 ^ 63 →
        load ending.2 output = .ok sequence ∧
        (SequenceFile.isDocument input = false → load before input = .ok sequence))) := by
  intro output ending load
  rcases run_compileFile kept before input asked rfl with
    ⟨error, failed, why, unchanged⟩ | ⟨source, sequence, succeeded, compiles⟩
  · refine ⟨fun _ => ⟨error, failed⟩, fun other same => ?_, fun done => ?_⟩
    · cases failed.symm.trans same
      exact ⟨why, unchanged⟩
    · cases failed.symm.trans done
  · refine ⟨fun hindered => ?_, fun error failed => ?_, fun _ => ⟨source, sequence, compiles, ?_⟩⟩
    · rcases hindered with same | ⟨error, unreadable⟩ | ⟨other, error, reads, wrong⟩
      · cases compiles.other.symm.trans same
      · cases compiles.reads.symm.trans unreadable
      · cases compiles.reads.symm.trans reads
        cases compiles.compiles.symm.trans wrong
    · cases succeeded.symm.trans failed
    -- A document is read back as it was written, and the script compiles to what was written.
    · intro document short
      obtain ⟨text, written, holds⟩ := compiles.document
      refine ⟨run_loadSequence holds.read ?_, fun script => run_loadSequence compiles.reads ?_⟩
      · rw [read_of_isDocument document, read_document compiles.compiles written short]
      · rw [read_of_not_isDocument script, compiles.compiles]
        rfl

end

def desk : Terminal := .start ⟨[(["pause.macro"], "Delay(-0)".toUTF8)], []⟩ []

theorem read_desk : Terminal.files.read desk "pause.macro" = .ok "Delay(-0)" := by
  have found : desk.tree.locate desk.current "pause.macro" = .ok ["pause.macro"] := rfl
  exact FileTree.readText_eq_ok.mpr (FileTree.read_eq_ok.mpr ⟨["pause.macro"], found, rfl⟩)

theorem run_desk {asked : Option FilePath} (location : FileTree.Location)
    (other : (asked.getD (FilePath.withExtension "pause.macro" "json")).same "pause.macro" = false)
    (takes : desk.tree.locateForWriting desk.current
      (asked.getD (FilePath.withExtension "pause.macro" "json")) = .ok location) :
    ((compileFile "pause.macro" asked).run.run Terminal.answer desk).1 = .ok () := by
  rcases run_compileFile Terminal.kept desk "pause.macro" asked rfl with
    ⟨error, -, why, -⟩ | ⟨_, _, succeeded, -⟩
  · cases why with
    | same same => cases other.symm.trans same
    | unreadable unreadable => cases read_desk.symm.trans unreadable
    | badScript reads wrong =>
      cases read_desk.symm.trans reads
      cases Document.compile_pause.symm.trans wrong
    | @refused _ text _ _ _ _ _ refused =>
      have written : desk.tree.write desk.current _ text.toUTF8 = .ok _ :=
        Script.bind_eq_ok.mpr ⟨location, takes, rfl⟩
      change (Terminal.answer (.write _ text) desk).1 = .error _ at refused
      simp only [Terminal.answer, written] at refused
      cases refused
  · exact succeeded

theorem compileFile_allOrNothing_pause :
    let ending := (compileFile "pause.macro" none).run.run Terminal.answer desk
    Terminal.files.Kept ∧ ending.1 = .ok () ∧
    ((loadSequence "pause.json").run.run Terminal.answer ending.2).1 =
      .ok ⟨#[.plain (.delay (-0))]⟩ ∧
    ((loadSequence "pause.macro").run.run Terminal.answer desk).1 =
      .ok ⟨#[.plain (.delay (-0))]⟩ := by
  intro ending
  have output : (none : Option FilePath).getD (FilePath.withExtension "pause.macro" "json") =
      "pause.json" := by decide +kernel
  have named : SequenceFile.isDocument "pause.json" = true ∧
      SequenceFile.isDocument "pause.macro" = false := by decide +kernel
  have done : ending.1 = .ok () :=
    run_desk ["pause.json"] (by decide +kernel) (by decide +kernel)
  obtain ⟨source, sequence, compiles, plays⟩ :=
    (compileFile_allOrNothing Terminal.kept desk "pause.macro" none).2.2 done
  cases read_desk.symm.trans compiles.reads
  cases Document.compile_pause.symm.trans compiles.compiles
  rw [output] at plays
  obtain ⟨saved, script⟩ := plays named.1 (by decide)
  exact ⟨Terminal.kept, done, saved, script named.2⟩

end InputTape.CommandLine
