import InputTape.Proofs.Script.Agreement
import InputTape.Proofs.Script.Pending

/-! What is wrong at the end of a script.

A line that is not blank bears a statement, or its reading fails there. So a text gets to its end if
all of its lines bear statements and these fit together. What is wrong then is the innermost block
that is open, and without one the first goto whose label is not defined.
-/

set_option autoImplicit false

namespace InputTape.Script

/-- A problem that is found behind the last line only. -/
def Problem.IsOfEnd : Problem → Prop
  | .unterminatedBlock _ _ | .undefinedLabel _ _ => True
  | _ => False

/-- A problem of a statement with those in front of it. -/
def Problem.IsOfLayout : Problem → Prop
  | .duplicateLabel _ | .elseUnmatched | .endIfUnmatched | .endWhileUnmatched => True
  | .breakOutsideLoop => True
  | _ => False

theorem Problem.not_isOfEnd {problem : Problem} {tokens : List Token}
    (early : problem.IsOfLine tokens ∨ problem.IsOfLayout) : ¬ problem.IsOfEnd := by
  cases problem <;> first | exact id | exact (early.elim id id).elim

def Clashes {α : Type} (result : Except Problem α) : Prop :=
  ∀ problem, result = .error problem → problem.IsOfLayout

namespace Clashes

variable {α β : Type}

theorem ok {value : α} : Clashes (.ok value) := nofun

theorem error {problem : Problem} (ofLayout : problem.IsOfLayout) :
    Clashes (.error problem : Except Problem α) := by
  rintro _ ⟨⟩
  exact ofLayout

theorem bind {first : Except Problem α} {second : α → Except Problem β} (clashes : Clashes first)
    (next : ∀ value, Clashes (second value)) : Clashes (first >>= second) := by
  cases first with
  | error problem => exact .error (clashes problem rfl)
  | ok value => exact next value

end Clashes

namespace Draft

variable {draft : Draft}

theorem clashes_pushLabel (name : String) : Clashes (draft.pushLabel name) := by
  unfold pushLabel
  split
  · exact .error trivial
  · exact .ok

theorem clashes_add (line : Nat) (statement : Statement) : Clashes (draft.add line statement) := by
  cases statement with
  | delay | mouse | key | script | exit | goto => exact .ok
  | label name => exact clashes_pushLabel name
  | ifBlock condition negated => exact (clashes_pushLabel _).bind fun _ => .ok
  | whileBlock condition negated =>
    exact (clashes_pushLabel _).bind fun _ => (clashes_pushLabel _).bind fun _ => .ok
  | leave =>
    simp only [add, leaveLoop]
    split
    · exact .ok
    · exact .error trivial
  | elseBlock =>
    simp only [add, openElse]
    split
    · exact (clashes_pushLabel _).bind fun _ => .ok
    · exact .error trivial
  | endIf =>
    simp only [add, closeIf]
    split
    · split
      · exact clashes_pushLabel _
      · exact (clashes_pushLabel _).bind fun _ => clashes_pushLabel _
    · exact .error trivial
  | endWhile =>
    simp only [add, closeWhile]
    split
    · exact clashes_pushLabel _
    · exact .error trivial

theorem addLine_error {number : Nat} {line : Line} {error : CompileError}
    (fails : draft.addLine number line = .error error) :
    error.problem.IsOfLine line.tokens ∨ error.problem.IsOfLayout := by
  refine (addLine_refused fails).imp_right ?_
  rintro ⟨statement, -, refused⟩
  exact clashes_add number statement _ refused

theorem addLines_error {found : List Line} {number : Nat} {error : CompileError}
    (fails : draft.addLines number found = .error error) :
    ∃ line ∈ found, error.problem.IsOfLine line.tokens ∨ error.problem.IsOfLayout := by
  induction found generalizing draft number with
  | nil => cases fails
  | cons line more ih =>
    rw [addLines] at fails
    cases added : draft.addLine number line with
    | error problem =>
      rw [added] at fails
      cases fails
      exact ⟨line, List.mem_cons_self, addLine_error added⟩
    | ok between =>
      rw [added] at fails
      obtain ⟨other, member, early⟩ := ih fails
      exact ⟨other, List.mem_cons_of_mem _ member, early⟩

theorem spares_addLines {found : List Line} {number : Nat} {error : CompileError}
    (fails : draft.addLines number found = .error error) : ¬ error.problem.IsOfEnd := by
  obtain ⟨line, -, early⟩ := addLines_error fails
  exact Problem.not_isOfEnd early

theorem finish_isOfEnd {error : CompileError} (fails : draft.finish = .error error) :
    error.problem.IsOfEnd := by
  unfold finish at fails
  split at fails
  · cases fails
    trivial
  · cases resolved : draft.resolve with
    | error problem =>
      obtain ⟨jump, -, rfl⟩ := resolve_error resolved
      rw [resolved] at fails
      cases fails
      trivial
    | ok instructions =>
      rw [resolved] at fails
      cases fails

end Draft

/-! ## Texts -/

structure Bears (line : Line × Nat) (each : Nat × Statement) : Prop where
  closed : line.1.isUnterminated = false
  number : each.1 = line.2
  derives : IsStatement line.1.tokens each.2
  allowed : each.2.IsAllowed

/-- A text consists of these statements, each on its line, which leave these blocks open. -/
structure Parses (text : String) (numbered : List (Nat × Statement)) (blocks : List Opening) :
    Prop where
  bears : List.Forall₂ Bears (busyLines text) numbered
  leaves : LeavesOpen numbered blocks
  distinct : ((labelNames (numbered.map Prod.snd)).map Text.lower).Nodup

/-- The first goto, in the order of the statements, whose label is not defined. -/
def FirstUndefined (numbered : List (Nat × Statement)) (line : Nat) (name : String) : Prop :=
  ∃ front back, numbered = front ++ (line, .goto name) :: back ∧ ¬ Defines numbered name ∧
    ∀ other, .goto other ∈ front.map Prod.snd → Defines numbered other

theorem busyLines_isBlank {text : String} {line : Line × Nat} (member : line ∈ busyLines text) :
    line.1.isBlank = false := by
  simpa using (List.mem_filter.mp member).2

theorem addLine_bears {draft longer : Draft} {line : Line × Nat}
    (genuine : ∀ token ∈ line.1.tokens, token.IsGenuine) (busy : line.1.isBlank = false) :
    draft.addLine line.2 line.1 = .ok longer ↔
      ∃ each, Bears line each ∧ draft.add each.1 each.2 = .ok longer := by
  rw [addLine_eq_ok genuine]
  constructor
  · rintro ⟨closed, ⟨blank, -⟩ | ⟨statement, derives, allowed, added⟩⟩
    · rw [Line.isBlank, blank, closed] at busy
      cases busy
    · exact ⟨(line.2, statement), ⟨closed, rfl, derives, allowed⟩, added⟩
  · rintro ⟨⟨_, statement⟩, ⟨closed, rfl, derives, allowed⟩, added⟩
    exact ⟨closed, .inr ⟨statement, derives, allowed, added⟩⟩

theorem foldlM_addLine {found : List (Line × Nat)}
    (genuine : ∀ line ∈ found, ∀ token ∈ line.1.tokens, token.IsGenuine)
    (busy : ∀ line ∈ found, line.1.isBlank = false) {draft longer : Draft} :
    found.foldlM (fun between line => between.addLine line.2 line.1) draft = .ok longer ↔
      ∃ numbered, List.Forall₂ Bears found numbered ∧ draft.addAll numbered = .ok longer := by
  induction found generalizing draft with
  | nil =>
    constructor
    · rintro ⟨⟩
      exact ⟨[], .nil, rfl⟩
    · rintro ⟨_, ⟨⟩, ⟨⟩⟩
      rfl
  | cons line more ih =>
    obtain ⟨genuine, genuine'⟩ := List.forall_mem_cons.mp genuine
    obtain ⟨busy, busy'⟩ := List.forall_mem_cons.mp busy
    rw [List.foldlM_cons, bind_eq_ok]
    simp only [addLine_bears genuine busy, ih genuine' busy']
    constructor
    · rintro ⟨between, ⟨each, bears, added⟩, numbered, all, rest⟩
      exact ⟨each :: numbered, .cons bears all, (Draft.addAll_cons added).trans rest⟩
    · rintro ⟨_, bears, added⟩
      cases bears with
      | @cons _ each _ numbered bears all =>
        obtain ⟨between, first, rest⟩ := bind_eq_ok.mp added
        exact ⟨between, ⟨each, bears, first⟩, numbered, all, rest⟩

theorem addLines_bears {text : String} {draft : Draft} :
    Draft.empty.addLines 1 (lines text) = .ok draft ↔
      ∃ numbered, List.Forall₂ Bears (busyLines text) numbered ∧
        Draft.empty.addAll numbered = .ok draft := by
  rw [addLines_eq_foldlM]
  exact foldlM_addLine (fun _ => genuine_of_mem_busyLines) fun _ => busyLines_isBlank

theorem isNamed_of_bears {text : String} {numbered : List (Nat × Statement)}
    (bears : List.Forall₂ Bears (busyLines text) numbered) :
    ∀ each ∈ numbered, each.2.IsNamed := by
  intro each member
  obtain ⟨line, inside, bears⟩ := exists_of_mem_right bears member
  have isWord {name : String} : each.2 = .label name ∨ each.2 = .goto name → Text.IsWord name :=
    bears.derives.isWord (genuine_of_mem_busyLines inside)
  have allowed := bears.allowed
  obtain ⟨number, statement⟩ := each
  cases statement with
  | label name => exact ⟨isWord (.inl rfl), allowed.2⟩
  | goto name => exact ⟨isWord (.inr rfl), allowed.2⟩
  | _ => trivial

theorem exists_firstUndefined {numbered : List (Nat × Statement)} {name : String}
    (goes : .goto name ∈ numbered.map Prod.snd) (undefined : ¬ Defines numbered name) :
    ∃ line first, FirstUndefined numbered line first := by
  suffices ∀ whole : List (Nat × Statement), ¬ Defines whole name → ∃ line first front back,
      numbered = front ++ (line, .goto first) :: back ∧ ¬ Defines whole first ∧
        ∀ other, .goto other ∈ front.map Prod.snd → Defines whole other from this numbered undefined
  clear undefined
  intro whole undefined
  induction numbered with
  | nil => cases goes
  | cons each more ih =>
    -- Either this statement is a goto whose label is not defined, or the first is behind it.
    by_cases here : ∃ other, each.2 = .goto other ∧ ¬ Defines whole other
    · obtain ⟨other, same, missing⟩ := here
      exact ⟨each.1, other, [], more, by rw [← same]; rfl, missing, nofun⟩
    · have later : .goto name ∈ more.map Prod.snd := by
        rcases List.mem_cons.mp goes with same | later
        · exact absurd ⟨name, same.symm, undefined⟩ here
        · exact later
      obtain ⟨line, first, front, back, rfl, missing, earlier⟩ := ih later
      refine ⟨line, first, each :: front, back, rfl, missing, fun other member => ?_⟩
      rcases List.mem_cons.mp member with same | inside
      · exact not_not.mp fun missing => here ⟨other, same.symm, missing⟩
      · exact earlier other inside

theorem Parses.exists_draft {text : String} {numbered : List (Nat × Statement)}
    {blocks : List Opening} (parses : Parses text numbered blocks) :
    ∃ draft, Draft.empty.addAll numbered = .ok draft ∧ draft.Follows numbered ∧
      draft.openings = blocks ∧ compile text = draft.finish := by
  have named := isNamed_of_bears parses.bears
  have moves := leavesOpen_iff.mp parses.leaves
  obtain ⟨draft, added⟩ := Draft.exists_addAll named ⟨⟨blocks, moves⟩, parses.distinct⟩
  have follows := Draft.follows_addAll named draft added
  refine ⟨draft, added, follows, follows.moves.unique moves, ?_⟩
  unfold compile
  rw [addLines_bears.mpr ⟨numbered, parses.bears, added⟩]
  rfl

theorem exists_parses {text : String} {draft : Draft}
    (added : Draft.empty.addLines 1 (lines text) = .ok draft) :
    ∃ numbered, Parses text numbered draft.openings := by
  obtain ⟨numbered, bears, all⟩ := addLines_bears.mp added
  have follows := Draft.follows_addAll (isNamed_of_bears bears) draft all
  exact ⟨numbered, bears, leavesOpen_iff.mpr follows.moves, follows.distinct⟩

theorem compile_of_addLines {text : String} {error : CompileError}
    (fails : Draft.empty.addLines 1 (lines text) = .error error) :
    compile text = .error error := by
  unfold compile
  rw [fails]
  rfl

/-- What becomes of statements that leave blocks open. Only gotos of the script are ever named. -/
inductive Diagnosis (numbered : List (Nat × Statement)) :
    List Opening → Except CompileError Sequence → Prop where
  | unterminated {block : Opening} {outer : List Opening} : Diagnosis numbered (block :: outer)
      (.error ⟨.unterminatedBlock block.kind block.line, block.line⟩)
  | undefined {line : Nat} {name : String} : FirstUndefined numbered line name →
      isHidden name = false → Diagnosis numbered [] (.error ⟨.undefinedLabel name line, line⟩)
  | fine {sequence : Sequence} : JumpsLand (numbered.map Prod.snd) →
      Diagnosis numbered [] (.ok sequence)

theorem Parses.diagnosis {text : String} {numbered : List (Nat × Statement)}
    {blocks : List Opening} (parses : Parses text numbered blocks) :
    Diagnosis numbered blocks (compile text) := by
  have named := isNamed_of_bears parses.bears
  obtain ⟨draft, added, follows, openings, ends⟩ := parses.exists_draft
  rw [ends]
  cases blocks with
  | cons block outer =>
    rw [Draft.finish_open openings]
    exact .unterminated
  | nil =>
    by_cases land : JumpsLand (numbered.map Prod.snd)
    · obtain ⟨sequence, finished⟩ := follows.finish_defined named added openings land
      rw [finished]
      exact .fine land
    · simp only [JumpsLand, not_forall] at land
      obtain ⟨name, goes, undefined⟩ := land
      obtain ⟨line, first, front, back, split, missing, earlier⟩ :=
        exists_firstUndefined goes undefined
      rw [follows.finish_undefined named added openings split missing earlier]
      have visible := (named (line, .goto first) (by simp [split])).2
      exact .undefined ⟨front, back, split, missing, earlier⟩ visible

/-- Statements that parse are diagnosed at the end, and other texts before it. -/
theorem compile_diagnoses (text : String) :
    ((∃ numbered blocks, Parses text numbered blocks) ↔
      ∀ error, compile text = .error error → error.problem.IsOfEnd) ∧
    ∀ numbered blocks, Parses text numbered blocks →
      Diagnosis numbered blocks (compile text) := by
  refine ⟨⟨?_, fun ofEnd => ?_⟩, fun numbered blocks parses => parses.diagnosis⟩
  · rintro ⟨numbered, blocks, parses⟩ error fails
    obtain ⟨draft, -, -, -, ends⟩ := parses.exists_draft
    exact Draft.finish_isOfEnd (ends ▸ fails)
  · cases added : Draft.empty.addLines 1 (lines text) with
    | ok draft =>
      obtain ⟨numbered, parses⟩ := exists_parses added
      exact ⟨numbered, draft.openings, parses⟩
    | error problem =>
      exact absurd (ofEnd problem (compile_of_addLines added)) (Draft.spares_addLines added)

def unfinishedText : String := "goto Here\nif (Custom(`x`))\nelse"

theorem parses_unfinishedText : Parses unfinishedText
    [(1, .goto "Here"), (2, .ifBlock (.expression "x") false), (3, .elseBlock)]
    [⟨.conditional, true, 2⟩] where
  bears := by
    have busy : busyLines unfinishedText =
        [(⟨[⟨.keyword .goto, "goto", 1, 1⟩, ⟨.word, "Here", 1, 6⟩], false⟩, 1),
          (⟨[⟨.keyword .ifBlock, "if", 2, 1⟩, ⟨.openParen, "(", 2, 4⟩,
            ⟨.keyword .custom, "Custom", 2, 5⟩, ⟨.openParen, "(", 2, 11⟩, ⟨.string, "x", 2, 12⟩,
            ⟨.closeParen, ")", 2, 15⟩, ⟨.closeParen, ")", 2, 16⟩], false⟩, 2),
          (⟨[⟨.keyword .elseBlock, "else", 3, 1⟩], false⟩, 3)] := by
      decide +kernel
    rw [busy]
    have visible : Statement.IsAllowed (.goto "Here") := ⟨by decide +kernel, by decide +kernel⟩
    have condition : InParentheses [⟨.openParen, "(", 2, 11⟩, ⟨.string, "x", 2, 12⟩,
        ⟨.closeParen, ")", 2, 15⟩] [.string "x"] := .some rfl (.last (.string rfl) rfl)
    refine .cons ⟨rfl, rfl, .goto rfl trivial, visible⟩
      (.cons ⟨rfl, rfl, ?_, trivial⟩ (.cons ⟨rfl, rfl, .elseBlock rfl, trivial⟩ .nil))
    exact IsStatement.ifBlock rfl rfl (.expression rfl condition) rfl
  leaves := @LeavesOpen.alternative [(1, .goto "Here")] [] [] _ _ _ _ _
    (.outside (.plain trivial .nil)) .nil .nil
  distinct := by simp [labelNames]

theorem compile_diagnoses_unfinished :
    (∃ numbered, Parses unfinishedText numbered [⟨.conditional, true, 2⟩]) ∧
      compile unfinishedText = .error ⟨.unterminatedBlock .conditional 2, 2⟩ := by
  refine ⟨⟨_, parses_unfinishedText⟩, ?_⟩
  generalize result : compile unfinishedText = outcome
  cases result ▸ (compile_diagnoses unfinishedText).2 _ _ parses_unfinishedText
  rfl

end InputTape.Script
