import InputTape.Proofs.Files.Directories
import InputTape.Proofs.Playback.Transfers
import InputTape.Rehearsal

/-! Where the files of a playback are looked up.

A branch names a file as it is seen from the file that the branch stands in. The playback keeps the
directory of the file that it has loaded last, and asks for paths below that. The loader looks these
up below the directory of the first file of all. Neither directory is counted twice, and none is lost:
every file is found beside the one that names it, however many were passed through on the way.
-/

set_option autoImplicit false

namespace InputTape.Playback

open Interaction (Exchange answer_of_transcript)

/-! ## Chains of paths -/

/-- A path as it is seen from a file, if from any. -/
def beside (file : Option FilePath) (target : FilePath) : FilePath :=
  match file with
  | none => target
  | some file =>
    if target.isAbsolute then target else (SequenceFile.directory file).join target

/-- The paths of a chain of targets, each of them seen from the file before it. -/
def resolutions : Option FilePath → List FilePath → List FilePath
  | _, [] => []
  | file, target :: more => beside file target :: resolutions (some (beside file target)) more

/-- Paths that lead from file to file, each to a target below the directory of the file before it.
Directories are told apart by their steps. -/
inductive Trail : FilePath → List FilePath → List FilePath → Prop where
  | ends {file : FilePath} : Trail file [] []
  | goesOn {file directory target : FilePath} {targets paths : List FilePath} :
      directory.same (SequenceFile.directory file) = true →
      Trail (directory.join target) targets paths →
      Trail file (target :: targets) (directory.join target :: paths)

theorem resolutions_concat (file : Option FilePath) (targets : List FilePath) (last : FilePath) :
    resolutions file (targets ++ [last]) = resolutions file targets ++
      [beside ((resolutions file targets).getLast?.or file) last] := by
  induction targets generalizing file with
  | nil => rfl
  | cons target more ih =>
    rw [List.cons_append, resolutions, ih, resolutions, List.getLast?_cons, List.cons_append]
    congr 3
    cases (resolutions (some (beside file target)) more).getLast? <;> rfl

theorem beside_some (file target : FilePath) :
    beside (some file) target = (SequenceFile.directory file).join target := by
  rw [beside]
  split
  · next absolute => exact (FilePath.join_of_isAbsolute absolute _).symm
  · rfl

/-- A path that is asked for below a base directory is seen from the file that is there. -/
theorem join_beside (base file target : FilePath) :
    base.join (beside (some file) target) = (base.join (SequenceFile.directory file)).join target := by
  rw [beside_some, FilePath.join_assoc]

theorem dropLast_resolutions (file : Option FilePath) (target : FilePath) {more : List FilePath}
    (goesOn : more ≠ []) : (resolutions file (target :: more)).dropLast =
      beside file target :: (resolutions (some (beside file target)) more).dropLast := by
  cases more with
  | nil => exact absurd rfl goesOn
  | cons => rfl

/-- Below a base directory a chain of paths leads from file to file, if all but the last have
steps. -/
theorem trail_resolutions {base place : FilePath} {file : Option FilePath} {targets : List FilePath}
    (home : targets ≠ [] → ∃ directory : FilePath,
      directory.same (SequenceFile.directory place) = true ∧
      ∀ target, base.join (beside file target) = directory.join target)
    (solid : ∀ path ∈ (resolutions file targets).dropLast, path.steps ≠ []) :
    Trail place targets ((resolutions file targets).map base.join) := by
  induction targets generalizing place file with
  | nil => exact .ends
  | cons target more ih =>
    obtain ⟨directory, same, seen⟩ := home (List.cons_ne_nil target more)
    rw [resolutions, List.map_cons, seen]
    refine .goesOn same (ih (fun goesOn => ?_) fun path member => ?_)
    · rw [dropLast_resolutions file target goesOn] at solid
      rw [← seen]
      exact ⟨_, SequenceFile.same_join_directory base (solid _ List.mem_cons_self),
        join_beside base _⟩
    · have goesOn : more ≠ [] := by
        rintro rfl
        cases member
      rw [dropLast_resolutions file target goesOn] at solid
      exact solid path (List.mem_cons_of_mem _ member)

/-! ## What rounds ask for -/

def requested? : Exchange Request Request.Answer → Option FilePath
  | ⟨.load path, _⟩ => some path
  | _ => none

def requested (exchanges : List (Exchange Request Request.Answer)) : List FilePath :=
  exchanges.filterMap requested?

def Directive.target? : Directive → Option FilePath
  | .transfer path => some path
  | _ => none

def Round.target? (round : Round) : Option FilePath := round.dispatch.bind (·.directive.target?)

section

variable {options : Options} {state : State} {round : Round}

theorem requested_append (first second : List (Exchange Request Request.Answer)) :
    requested (first ++ second) = requested first ++ requested second := List.filterMap_append

theorem requested_eq_nil {exchanges : List (Exchange Request Request.Answer)}
    (none : ∀ exchange ∈ exchanges, NoLoad exchange.request) : requested exchanges = [] := by
  rw [requested, List.filterMap_eq_nil_iff]
  intro exchange member
  unfold requested?
  split
  · exact absurd rfl (none _ member _)
  · rfl

/-- A round asks for nothing, or for the path that it leads to, as the playhead sees it. If that is
not loaded, the round fails and tells so. -/
theorem Round.Of.seeks (isRound : Round.Of options state round)
    (loader : state.playhead.hasLoader = true) :
    (round.target? = none ∧ ∀ exchange ∈ round.exchanges, NoLoad exchange.request) ∨
    ∃ target loaded more, round.target? = some target ∧
      round.exchanges = round.near ++ ⟨.load (state.playhead.resolve target), loaded⟩ :: more ∧
      (∀ exchange ∈ round.near, NoLoad exchange.request) ∧
      (∀ exchange ∈ more, NoLoad exchange.request) ∧
      ∀ error, loaded = .error error → ∃ instruction, round.result =
        .error (blame state instruction (.flow (.notLoaded (state.playhead.resolve target) error))) := by
  cases isRound with
  | ended approaches | failed approaches =>
    rw [Round.exchanges, List.append_nil]
    exact .inl ⟨rfl, (traces_approach.mp approaches).noLoad⟩
  | dispatched approaches concludes =>
    have quiet := (traces_approach.mp approaches).noLoad
    simp only [Round.target?, Option.bind_some, Round.exchanges]
    -- Only a transfer loads, and it loads once.
    cases traces_conclude.mp concludes with
    | noLoader _ none =>
      rw [loader] at none
      cases none
    | transferred leads =>
      rw [leads]
      exact .inr ⟨_, _, _, rfl, rfl, quiet, by simp [NoLoad, remark], by simp⟩
    | notLoaded leads =>
      rw [leads]
      refine .inr ⟨_, _, _, rfl, rfl, quiet, by simp, ?_⟩
      rintro _ ⟨⟩
      exact ⟨_, rfl⟩
    | tooLong leads | next leads | completed leads | waited leads | interrupted leads
    | outside leads | jumped leads | stopped leads =>
      rw [leads]
      exact .inl ⟨rfl, List.forall_mem_append.mpr ⟨quiet, by simp [NoLoad]⟩⟩

theorem Round.Of.asks (isRound : Round.Of options state round)
    (loader : state.playhead.hasLoader = true) :
    requested round.exchanges = (round.target?.map state.playhead.resolve).toList := by
  rcases isRound.seeks loader with ⟨none, quiet⟩ |
    ⟨target, loaded, more, leads, whole, before, behind, -⟩
  · rw [none, requested_eq_nil quiet]
    rfl
  · rw [whole, leads, requested_append, requested_eq_nil before, ← List.singleton_append,
      requested_append, requested_eq_nil behind]
    rfl

theorem Round.Of.asks_loaded {next : State} (isRound : Round.Of options state round)
    (loader : state.playhead.hasLoader = true) (goesOn : round.result = .ok (.playing next)) :
    requested round.exchanges = (loads round.exchanges).map Prod.fst := by
  rcases isRound.seeks loader with ⟨-, quiet⟩ |
    ⟨target, loaded, more, -, whole, before, behind, fails⟩
  · rw [requested_eq_nil quiet, loads_eq_nil quiet]
    rfl
  · rw [whole, ← List.singleton_append, requested_append, requested_append, loads_append,
      loads_append, requested_eq_nil before, requested_eq_nil behind, loads_eq_nil before,
      loads_eq_nil behind]
    cases loaded with
    | ok sequence => rfl
    | error error =>
      obtain ⟨instruction, failed⟩ := fails error rfl
      cases goesOn.symm.trans failed

theorem Round.Of.notLoaded {path : FilePath} {error : SequenceError}
    (isRound : Round.Of options state round) (loader : state.playhead.hasLoader = true)
    (member : ⟨.load path, .error error⟩ ∈ round.exchanges) : ∃ instruction,
      round.result = .error (blame state instruction (.flow (.notLoaded path error))) := by
  rcases isRound.seeks loader with ⟨-, quiet⟩ |
    ⟨target, loaded, more, -, whole, before, behind, fails⟩
  · exact absurd rfl (quiet _ member path)
  · rw [whole, List.mem_append, List.mem_cons] at member
    rcases member with near | same | far
    · exact absurd rfl (before _ near path)
    · cases same
      exact fails error rfl
    · exact absurd rfl (behind _ far path)

theorem Round.Of.branches {target : FilePath} (isRound : Round.Of options state round)
    (leads : round.target? = some target) :
    ∃ instruction condition onTrue onFalse, state.playhead.current? = some instruction ∧
      instruction.operation = .branch condition onTrue onFalse ∧
      (onTrue.file = some target ∨ onFalse.file = some target) := by
  cases isRound with
  | ended | failed => cases leads
  | dispatched approaches =>
    cases traces_approach.mp approaches with
    | @dispatched instruction _ _ _ directive current _ works =>
      change directive.target? = some target at leads
      cases directive with
      | next | jump | stop => cases leads
      | transfer =>
        cases leads
        obtain ⟨condition, onTrue, onFalse, holds, branch, -, file⟩ := (does_of_execute works).toFile
        refine ⟨instruction, condition, onTrue, onFalse, current, branch, ?_⟩
        cases holds with
        | true => exact .inl file
        | false => exact .inr file

theorem Round.Of.origin (isRound : Round.Of options state round) :
    (round.leaves state).playhead.origin = match (loads round.exchanges).getLast? with
      | some (path, _) => path.parent?
      | none => state.playhead.origin := by
  rcases isRound.moves with ⟨none, index, same⟩ | ⟨path, target, loads, same⟩
  · rw [same, none]
    rfl
  · rw [same, loads]
    rfl

end

/-! ## What a playback asks for -/

theorem resolve_eq_beside {playhead : Playhead} {file : Option FilePath}
    (origin : playhead.origin = file.bind FilePath.parent?) (target : FilePath) :
    playhead.resolve target = beside file target := by
  unfold Playhead.resolve
  rw [origin]
  cases file with
  | none => rfl
  | some file =>
    rw [beside_some, SequenceFile.directory, Option.bind_some]
    cases file.parent? with
    | none => exact (FilePath.empty_join target).symm
    | some directory => rfl

section

variable {σ : Type} {options : Options} {answer : (request : Request) → σ → request.Answer × σ}
  {steps : Nat} {state : State} {surroundings : σ} {earlier later : List Round} {round : Round}

theorem exists_playing
    (split : rounds options answer steps state surroundings = earlier ++ round :: later)
    (more : later ≠ []) : ∃ next, round.result = .ok (.playing next) := by
  obtain ⟨_, -, -, behind⟩ := rounds_split options answer steps state surroundings split
  rw [behind, further] at more
  split at more
  · next playing => exact ⟨_, playing⟩
  · exact absurd rfl more

/-- Whatever was asked for before a round has been loaded. -/
theorem requested_eq_loads (loader : state.playhead.hasLoader = true)
    (split : rounds options answer steps state surroundings = earlier ++ later)
    (more : later ≠ []) : requested (earlier.flatMap Round.exchanges) =
      (loads (earlier.flatMap Round.exchanges)).map Prod.fst := by
  induction earlier using List.reverseRecOn generalizing later with
  | nil => rfl
  | append_singleton earlier round ih =>
    rw [List.append_assoc] at split
    obtain ⟨next, goesOn⟩ := exists_playing split more
    rw [List.flatMap_append, List.flatMap_singleton, requested_append, loads_append,
      List.map_append, ih split (List.cons_ne_nil _ _),
      (Round.Of.of_split split).asks_loaded ((standing_hasLoader split).trans loader) goesOn]

theorem standing_origin (fresh : state.playhead.origin = none)
    (split : rounds options answer steps state surroundings = earlier ++ later) :
    (standing state earlier).playhead.origin =
      (loads (earlier.flatMap Round.exchanges)).getLast?.bind (·.1.parent?) := by
  refine standing_of (motive := fun standing asked =>
    standing.playhead.origin = (loads asked).getLast?.bind (·.1.parent?)) options answer fresh ?_ split
  intro before asked round same isRound
  rw [isRound.origin, loads_append, List.getLast?_append, same]
  cases (loads round.exchanges).getLast? <;> rfl

/-- What is asked for in rounds are the paths of the chain of their targets. -/
theorem requested_eq_resolutions (loader : state.playhead.hasLoader = true)
    (fresh : state.playhead.origin = none)
    (split : rounds options answer steps state surroundings = earlier ++ later) :
    requested (earlier.flatMap Round.exchanges) =
      resolutions none (earlier.filterMap Round.target?) := by
  induction earlier using List.reverseRecOn generalizing later with
  | nil => rfl
  | append_singleton earlier round ih =>
    rw [List.append_assoc] at split
    have before := requested_eq_loads loader split (List.cons_ne_nil _ _)
    have origin := standing_origin fresh split
    have asks := (Round.Of.of_split split).asks ((standing_hasLoader split).trans loader)
    rw [List.flatMap_append, List.flatMap_singleton, requested_append, List.filterMap_append, asks,
      ih split]
    cases leads : round.target? with
    | none => simp [leads]
    | some target =>
      rw [ih split] at before
      have seen : (standing state earlier).playhead.resolve target =
          beside (resolutions none (earlier.filterMap Round.target?)).getLast? target := by
        rw [before, List.getLast?_map]
        apply resolve_eq_beside
        rw [origin]
        cases (loads (earlier.flatMap Round.exchanges)).getLast? <;> rfl
      simp [leads, resolutions_concat, seen]

end

/-! ## Loaders -/

/-- Loads are answered from the files that are there by then, looked up below a base directory. -/
structure LoadsFiles {σ : Type} (answer : (request : Request) → σ → request.Answer × σ)
    (base : FilePath) (tree : σ → FileTree) (current : σ → FileTree.Location) : Prop where
  sound : ∀ surroundings, (tree surroundings).IsSound
  loads : ∀ path surroundings, (answer (.load path) surroundings).1 =
    SequenceFile.load (tree surroundings) (current surroundings) base path

theorem Fault.load_mem {options : Options} {state : State} {instruction : Instruction}
    {asked : List (Exchange Request Request.Answer)} {path : FilePath} {error : SequenceError}
    (fault : Fault options state instruction asked (.flow (.notLoaded path error))) :
    ⟨.load path, .error error⟩ ∈ asked := by
  cases fault with
  | work _ mishap =>
    generalize instruction.operation = operation at mishap
    cases mishap with
    | notLoaded => simp

theorem exists_of_mem_dropLast {α β : Type} {find : α → Option β} {list : List α} {value : β}
    (member : value ∈ (list.filterMap find).dropLast) :
    ∃ before found after, list = before ++ found :: after ∧ find found = some value ∧ after ≠ [] := by
  induction list with
  | nil => cases member
  | cons first more ih =>
    rw [List.filterMap_cons] at member
    cases finds : find first with
    | none =>
      rw [finds] at member
      obtain ⟨before, found, after, rfl, finds, rest⟩ := ih member
      exact ⟨first :: before, found, after, rfl, finds, rest⟩
    | some other =>
      rw [finds] at member
      have goesOn : more.filterMap find ≠ [] := by
        intro none
        simp [none] at member
      simp only [List.dropLast_cons_of_ne_nil goesOn, List.mem_cons] at member
      rcases member with rfl | later
      · exact ⟨[], first, more, rfl, finds, fun none => goesOn (by rw [none]; rfl)⟩
      · obtain ⟨before, found, after, rfl, finds, rest⟩ := ih later
        exact ⟨first :: before, found, after, rfl, finds, rest⟩

/-! ## Whole playbacks -/

section

variable {σ : Type} (options : Options) (steps : Nat) (sequence : Sequence)
  (answer : (request : Request) → σ → request.Answer × σ) (surroundings : σ)

theorem requested_transcript :
    requested ((play options true steps sequence).run.transcript answer surroundings) =
      resolutions none ((history options true steps sequence answer surroundings).rounds.filterMap
        Round.target?) := by
  have chain := requested_eq_resolutions rfl rfl
    ((history_rounds options true steps sequence answer surroundings).symm.trans
      (List.append_nil _).symm)
  have ends (result : Except PlaybackError (Option Report)) : requested (closing result) = [] := by
    rcases result with error | (_ | report) <;> rfl
  rw [transcript_play, requested_append, requested_append, ends, chain]
  simp [opening, requested, requested?]

section

variable {options steps sequence answer surroundings}

/-- A load that fails is the last thing that is asked, and a playback ends with it. -/
theorem ends_with_load {before after : List (Exchange Request Request.Answer)} {path : FilePath}
    {error : SequenceError}
    (split : (play options true steps sequence).run.transcript answer surroundings =
      before ++ ⟨.load path, .error error⟩ :: after) :
    after = [] ∧ ∃ index instruction,
      ((play options true steps sequence).run.run answer surroundings).1 =
        .error ⟨index, instruction, .flow (.notLoaded path error)⟩ := by
  have traces := Interaction.traces_run (play options true steps sequence).run answer surroundings
  refine ⟨(traces.stops (failStop_play true steps sequence) split rfl).1, ?_⟩
  have member : ⟨.load path, .error error⟩ ∈
      (play options true steps sequence).run.transcript answer surroundings := by
    simp [split]
  rw [transcript_play, List.append_assoc, List.mem_append, List.mem_append] at member
  rcases member with opens | inside | closes
  · simp [opening] at opens
  · obtain ⟨round, among, member⟩ := List.mem_flatMap.mp inside
    obtain ⟨earlier, later, split⟩ := List.append_of_mem among
    obtain ⟨instruction, fails⟩ := (Round.Of.of_split split).notLoaded (standing_hasLoader split) member
    obtain rfl : later = [] := by
      by_contra more
      obtain ⟨next, goesOn⟩ := exists_playing split more
      cases fails.symm.trans goesOn
    rw [run_play, ending_eq_error.mpr ⟨earlier, round, split, fails⟩]
    exact ⟨_, _, rfl⟩
  · exact absurd closes (load_not_mem_closing _)

theorem load_of_ended {index : Nat} {instruction : Instruction} {path : FilePath}
    {error : SequenceError}
    (ended : ((play options true steps sequence).run.run answer surroundings).1 =
      .error ⟨index, instruction, .flow (.notLoaded path error)⟩) :
    ∃ before, (play options true steps sequence).run.transcript answer surroundings =
      before ++ [⟨.load path, .error error⟩] := by
  rw [run_play, ending_eq_error] at ended
  obtain ⟨earlier, round, split, fails⟩ := ended
  obtain ⟨_, -, here, -⟩ := rounds_split options answer steps _ _ split
  have blamed := fails
  rw [here, round_eq_error, ← here] at blamed
  obtain ⟨_, _, -, ⟨⟩, fault⟩ := blamed
  have member : ⟨.load path, .error error⟩ ∈
      (play options true steps sequence).run.transcript answer surroundings := by
    rw [transcript_play, List.append_assoc, List.mem_append, List.mem_append, split]
    refine .inr (.inl ?_)
    rw [List.flatMap_append, List.flatMap_singleton]
    exact List.mem_append_right _ (List.mem_of_mem_filter fault.load_mem)
  obtain ⟨before, after, split⟩ := List.append_of_mem member
  obtain ⟨rfl, -⟩ := ends_with_load split
  exact ⟨before, split⟩

theorem LoadsFiles.steps_ne_nil {base : FilePath} {tree : σ → FileTree}
    {current : σ → FileTree.Location} (files : LoadsFiles answer base tree current) {path : FilePath}
    (member : path ∈ (requested
      ((play options true steps sequence).run.transcript answer surroundings)).dropLast) :
    path.steps ≠ [] := by
  obtain ⟨before, ⟨request, loaded⟩, after, split, finds, goesOn⟩ := exists_of_mem_dropLast member
  cases request with
  | load other =>
    cases finds
    cases loaded with
    | error error => exact absurd (ends_with_load split).1 goesOn
    | ok sequence =>
      have told := answer_of_transcript split
      rw [files.loads] at told
      exact SequenceFile.steps_of_load (files.sound _) told.symm
  | _ => cases finds

end

/-- Every file that a playback loads is looked up beside the file that names it. The paths it asks
for are those of the chain of its targets, and each target stands in a branch of the sequence that
was loaded last, whose directory is the origin of relative paths from then on. A load that fails is
reported with the path that was asked for. A loader puts its base directory before a path exactly if
that is relative. So below the directory of a first file the chain leads from each file to the next
as that is seen from it. -/
theorem play_resolves :
    let history := history options true steps sequence answer surroundings
    let asked := (play options true steps sequence).run.transcript answer surroundings
    let ended := ((play options true steps sequence).run.run answer surroundings).1
    let targets := history.rounds.filterMap Round.target?
    requested asked = resolutions none targets ∧
    (∀ earlier round later, history.rounds = earlier ++ round :: later →
      let before := earlier.flatMap Round.exchanges
      round.playhead.origin = (loads before).getLast?.bind (·.1.parent?) ∧
      ∀ target, round.target? = some target →
        ∃ instruction condition onTrue onFalse,
          (played sequence before).get? round.playhead.index = some instruction ∧
          instruction.operation = .branch condition onTrue onFalse ∧
          (onTrue.file = some target ∨ onFalse.file = some target)) ∧
    (∀ before path error after, asked = before ++ ⟨.load path, .error error⟩ :: after →
      after = [] ∧
        ∃ index instruction, ended = .error ⟨index, instruction, .flow (.notLoaded path error)⟩) ∧
    (∀ index instruction path error,
      ended = .error ⟨index, instruction, .flow (.notLoaded path error)⟩ →
      ∃ before, asked = before ++ [⟨.load path, .error error⟩]) ∧
    (∀ tree current main, LoadsFiles answer (SequenceFile.directory main) tree current →
      let base := SequenceFile.directory main
      (∀ path surroundings,
        let place := if path.isAbsolute then path else String.ofList (base.front ++ path.toList)
        (answer (.load path) surroundings).1 =
          SequenceFile.read place ((tree surroundings).readText (current surroundings) place)) ∧
      Trail main targets ((requested asked).map base.join)) := by
  intro history asked ended targets
  have chain : requested asked = resolutions none targets :=
    requested_transcript options steps sequence answer surroundings
  refine ⟨chain, ?_, fun _ _ _ _ => ends_with_load, fun _ _ _ _ => load_of_ended, ?_⟩
  · intro earlier round later split before
    have isRound := Round.Of.of_split split
    rw [isRound.playhead]
    refine ⟨standing_origin rfl split, fun target leads => ?_⟩
    obtain ⟨instruction, condition, onTrue, onFalse, current, branch⟩ := isRound.branches leads
    refine ⟨instruction, condition, onTrue, onFalse, ?_, branch⟩
    rw [← current, Playhead.current?, standing_sequence split]
    rfl
  · intro tree current main files base
    refine ⟨fun path surroundings => ?_, ?_⟩
    · rw [files.loads, SequenceFile.load, FilePath.join_eq]
    rw [chain]
    exact trail_resolutions (fun _ => ⟨base, beq_self_eq_true _, fun _ => rfl⟩)
      fun path => chain ▸ files.steps_ne_nil

end

def cupboard : FileTree :=
  ⟨[(["c", "b", "second.json"], ("\x7b\"version\":1,\"instructions\":[" ++
      "\x7b\"kind\":[\"branch\",[\"expression\",\"true\"],[null,\"third\"]]\x7d]\x7d").toUTF8)],
    [["c"], ["c", "b"]]⟩

theorem isSound_cupboard : cupboard.IsSound := by
  intro location lies
  simp only [FileTree.isDirectory, cupboard, Bool.or_eq_true, List.isEmpty_iff,
    List.contains_iff_mem, List.mem_cons, List.not_mem_nil, or_false] at lies
  rcases lies with rfl | rfl | rfl <;> rfl

def fromCupboard : (request : Request) → Rehearsal → request.Answer × Rehearsal :=
  Rehearsal.answer (SequenceFile.load cupboard [] (SequenceFile.directory "c/main.json"))

def opensCupboard : Sequence := ⟨#[.plain (toFile "b/second.json")]⟩

def missing? : Except PlaybackError (Option Report) → Option FilePath
  | .error ⟨_, _, .flow (.notLoaded path (.file .notFound))⟩ => some path
  | _ => none

-- The missing file is looked for beside the one that names it, two directories down.
theorem play_resolves_twice :
    let atStart := Rehearsal.start .none ⟨.opaqueRgb 0 0 0, []⟩ (.create 10 10)
    let history := history ⟨1, false, 0⟩ true 9 opensCupboard fromCupboard atStart
    let playback := (play ⟨1, false, 0⟩ true 9 opensCupboard).run
    let asked := playback.transcript fromCupboard atStart
    LoadsFiles fromCupboard (SequenceFile.directory "c/main.json") (fun _ => cupboard) (fun _ => []) ∧
    requested asked = ["b/second.json", "b/third"] ∧
    (∃ earlier round later, history.rounds = earlier ++ round :: later ∧
      round.target? = some "third" ∧ ∃ instruction condition onTrue onFalse,
        (played opensCupboard (earlier.flatMap Round.exchanges)).get? round.playhead.index =
          some instruction ∧
        instruction.operation = .branch condition onTrue onFalse ∧
        (onTrue.file = some "third" ∨ onFalse.file = some "third")) ∧
    (∃ before index instruction,
      asked = before ++ [⟨.load "b/third", .error (.file .notFound)⟩] ∧
      (playback.run fromCupboard atStart).1 =
        .error ⟨index, instruction, .flow (.notLoaded "b/third" (.file .notFound))⟩) ∧
    Trail "c/main.json" ["b/second.json", "third"] ["c/b/second.json", "c/b/third"] := by
  intro atStart history playback asked
  obtain ⟨chain, inside, failed, ends, leads⟩ :=
    play_resolves ⟨1, false, 0⟩ 9 opensCupboard fromCupboard atStart
  have files : LoadsFiles fromCupboard (SequenceFile.directory "c/main.json") (fun _ => cupboard)
      (fun _ => []) := ⟨fun _ => isSound_cupboard, fun _ _ => rfl⟩
  have targets : history.rounds.filterMap Round.target? = ["b/second.json", "third"] := by
    decide +kernel
  have asks : requested asked = ["b/second.json", "b/third"] := by
    rw [show requested asked = _ from chain, show List.filterMap _ _ = _ from targets]
    decide
  have places : ["b/second.json", "b/third"].map (SequenceFile.directory "c/main.json").join =
      ["c/b/second.json", "c/b/third"] := by decide
  have missing : missing? (playback.run fromCupboard atStart).1 = some "b/third" := by
    decide +kernel
  refine ⟨files, asks, ?_, ?_, ?_⟩
  · have third : "third" ∈ history.rounds.filterMap Round.target? := by simp [targets]
    obtain ⟨round, among, leads⟩ := List.mem_filterMap.mp third
    obtain ⟨earlier, later, split⟩ := List.append_of_mem among
    exact ⟨earlier, round, later, split, leads, (inside earlier round later split).2 "third" leads⟩
  · unfold missing? at missing
    split at missing
    · next index instruction path ended =>
      obtain rfl := Option.some.inj missing
      obtain ⟨before, split⟩ := ends index instruction "b/third" _ ended
      obtain ⟨-, again⟩ := failed before "b/third" _ [] split
      obtain ⟨index, instruction, ended⟩ := again
      exact ⟨before, index, instruction, split, ended⟩
    · cases missing
  · have whole := (leads _ _ "c/main.json" files).2
    rw [show requested _ = _ from asks, show List.filterMap _ _ = _ from targets, places] at whole
    exact whole

end InputTape.Playback
