import InputTape.Proofs.Script.Likeness

/-! Scripts that say the same compile to the same.

Lines that are alike lay out instructions that are alike, and where one script has a problem the
other has one too. Blank lines do not count, so lines may stand further down in one script than in
the other.
-/

set_option autoImplicit false

namespace InputTape

section

variable (alike : String → String → Prop)

inductive Operation.Alike : Operation → Operation → Prop where
  | same {operation : Operation} : Alike operation operation
  | label {first second : String} : alike first second → Alike (.label first) (.label second)
  | jump {first second : String} {place : Option Nat} : alike first second →
      Alike (.jump (some first) place) (.jump (some second) place)

structure Instruction.Alike (first second : Instruction) : Prop where
  gap : first.gap = second.gap
  name : first.name = second.name
  operation : Operation.Alike alike first.operation second.operation

/-- The same instructions one by one, but for the names of labels and of the targets of jumps. -/
def Sequence.Alike (first second : Sequence) : Prop :=
  List.Forall₂ (Instruction.Alike alike) first.instructions.toList second.instructions.toList

end

theorem Operation.Alike.mono {alike wider : String → String → Prop}
    (weaker : ∀ first second, alike first second → wider first second) {first second : Operation}
    (same : Operation.Alike alike first second) : Operation.Alike wider first second := by
  cases same with
  | same => exact .same
  | label names => exact .label (weaker _ _ names)
  | jump names => exact .jump (weaker _ _ names)

theorem Sequence.Alike.mono {alike wider : String → String → Prop}
    (weaker : ∀ first second, alike first second → wider first second) {first second : Sequence}
    (same : Sequence.Alike alike first second) : Sequence.Alike wider first second :=
  List.Forall₂.imp (fun _ _ here => { here with operation := here.operation.mono weaker }) same

theorem Instruction.Alike.eq {first second : Instruction}
    (same : Instruction.Alike (· = ·) first second) : first = second := by
  obtain ⟨gap, name, operation⟩ := first
  obtain ⟨_, _, _⟩ := second
  obtain ⟨⟨⟩, ⟨⟩, _ | ⟨⟨⟩⟩ | ⟨⟨⟩⟩⟩ := same <;> rfl

theorem Sequence.Alike.eq {first second : Sequence} (same : Sequence.Alike (· = ·) first second) :
    first = second := by
  have equal : first.instructions.toList = second.instructions.toList := by
    rw [← List.forall₂_eq_eq_eq]
    exact List.Forall₂.imp (fun _ _ => Instruction.Alike.eq) same
  exact congrArg Sequence.mk (Array.toList_inj.mp equal)

namespace Script

/-! ## Results -/

/-- Both are values that match, or both are problems that match. -/
inductive Agree {ε δ α β : Type} (problems : ε → δ → Prop) (values : α → β → Prop) :
    Except ε α → Except δ β → Prop where
  | ok {first : α} {second : β} : values first second →
      Agree problems values (.ok first) (.ok second)
  | error {first : ε} {second : δ} : problems first second →
      Agree problems values (.error first) (.error second)

namespace Agree

variable {ε δ α β γ η : Type} {problems : ε → δ → Prop} {values : α → β → Prop}
  {results : γ → η → Prop}

theorem bind {first : Except ε α} {second : Except δ β} {next : α → Except ε γ}
    {following : β → Except δ η} (agree : Agree problems values first second)
    (later : ∀ value other, values value other →
      Agree problems results (next value) (following other)) :
    Agree problems results (first >>= next) (second >>= following) := by
  cases agree with
  | ok matching => exact later _ _ matching
  | error matching => exact .error matching

theorem flip {first : Except ε α} {second : Except δ β}
    (agree : Agree problems values first second) :
    Agree (flip problems) (flip values) second first := by
  cases agree with
  | ok matching => exact .ok matching
  | error matching => exact .error matching

theorem imp {wider : α → β → Prop} {first : Except ε α} {second : Except δ β}
    (agree : Agree problems values first second)
    (weaker : ∀ value other, values value other → wider value other) :
    Agree problems wider first second := by
  cases agree with
  | ok matching => exact .ok (weaker _ _ matching)
  | error matching => exact .error matching

theorem ok_iff {values : α → α → Prop} {first : Except ε α} {second : Except δ α}
    (agree : Agree problems values first second)
    (equal : ∀ found other, values found other → found = other) (value : α) :
    first = .ok value ↔ second = .ok value := by
  cases agree with
  | ok matching => rw [equal _ _ matching, Except.ok.injEq, Except.ok.injEq]
  | error => exact ⟨nofun, nofun⟩

theorem foldlM {left right : Type} {related : left → right → Prop} {first : List left}
    {second : List right} {step : α → left → Except ε α} {other : β → right → Except δ β}
    (all : List.Forall₂ related first second)
    (steps : ∀ item ∈ first, ∀ item' ∈ second, related item item' → ∀ {value again},
      values value again → Agree problems values (step value item) (other again item'))
    {value : α} {again : β} (starts : values value again) :
    Agree problems values (first.foldlM step value) (second.foldlM other again) := by
  induction all generalizing value again with
  | nil => exact .ok starts
  | cons here _ ih =>
    rw [List.foldlM_cons, List.foldlM_cons]
    refine (steps _ List.mem_cons_self _ List.mem_cons_self here starts).bind fun _ _ matching => ?_
    exact ih (fun _ member _ member' => steps _ (.tail _ member) _ (.tail _ member')) matching

end Agree

theorem forall₂_modify {α β : Type} {related : α → β → Prop} {change : α → α} {alter : β → β}
    (keeps : ∀ {first second}, related first second → related (change first) (alter second))
    {list : List α} {others : List β} (all : List.Forall₂ related list others) (index : Nat) :
    List.Forall₂ related (list.modify index change) (others.modify index alter) := by
  induction all generalizing index with
  | nil => simp
  | cons here later ih =>
    cases index with
    | zero => exact .cons (keeps here) later
    | succ index => exact .cons here (ih index)

/-! ## Drafts -/

section

variable (alike : String → String → Prop) (together : Nat → Nat → Prop)

structure OpenBlock.Alike (first second : OpenBlock) : Prop where
  kind : first.kind = second.kind
  inElse : first.inElse = second.inElse
  number : first.number = second.number
  line : together first.line second.line

structure PendingJump.Alike (first second : PendingJump) : Prop where
  instruction : first.instruction = second.instruction
  target : alike first.target second.target
  line : together first.line second.line

structure Draft.Alike (first second : Draft) : Prop where
  instructions : List.Forall₂ (Instruction.Alike alike) first.instructions.toList
    second.instructions.toList
  labels : first.labels = second.labels
  jumps : List.Forall₂ (PendingJump.Alike alike together) first.jumps second.jumps
  blocks : List.Forall₂ (OpenBlock.Alike together) first.blocks second.blocks
  nextBlock : first.nextBlock = second.nextBlock

end

variable {alike : String → String → Prop} {together : Nat → Nat → Prop}

theorem aim_alike (index : Nat) {first second : Instruction}
    (same : Instruction.Alike alike first second) :
    Instruction.Alike alike (Draft.aim index first) (Draft.aim index second) := by
  obtain ⟨gap, name, operation⟩ := first
  obtain ⟨_, _, other⟩ := second
  obtain ⟨⟨⟩, ⟨⟩, operations⟩ := same
  cases operations with
  | same => cases operation <;> exact ⟨rfl, rfl, .same⟩
  | label names => exact ⟨rfl, rfl, .label names⟩
  | jump names => exact ⟨rfl, rfl, .jump names⟩

namespace Draft.Alike

variable {first second : Draft}

theorem size (same : Draft.Alike alike together first second) :
    first.instructions.size = second.instructions.size := by
  rw [← Array.length_toList, ← Array.length_toList, same.instructions.length_eq]

theorem find? (likeness : IsLikeness alike) (same : Draft.Alike alike together first second)
    {name other : String} (names : alike name other) : first.find? name = second.find? other := by
  rw [Draft.find?, Draft.find?, same.labels, likeness.lower names]

theorem push (same : Draft.Alike alike together first second) {operation other : Operation}
    (operations : Operation.Alike alike operation other) :
    Draft.Alike alike together (first.push operation) (second.push other) where
  instructions := by
    simp only [Draft.push, Array.toList_push]
    exact List.rel_append same.instructions (.cons ⟨rfl, rfl, operations⟩ .nil)
  labels := same.labels
  jumps := same.jumps
  blocks := same.blocks
  nextBlock := same.nextBlock

theorem pushLabel (likeness : IsLikeness alike) (same : Draft.Alike alike together first second)
    {name other : String} (names : alike name other) :
    Agree (fun _ _ => True) (Draft.Alike alike together) (first.pushLabel name)
      (second.pushLabel other) := by
  unfold Draft.pushLabel
  rw [same.find? likeness names]
  split
  · exact .error trivial
  · refine .ok { same.push (.label names) with labels := ?_ }
    rw [likeness.lower names, same.size, same.labels]

theorem pushJump (same : Draft.Alike alike together first second) {line line' : Nat}
    (lines : together line line') {name other : String} (names : alike name other) :
    Draft.Alike alike together (first.pushJump line name) (second.pushJump line' other) :=
  { same.push (.jump names) with
    jumps := List.rel_append same.jumps (.cons ⟨same.size, names, lines⟩ .nil) }

theorem pushBranch (same : Draft.Alike alike together first second) (condition : Condition)
    (negated : Bool) (holds fails : String) :
    Draft.Alike alike together (first.pushBranch condition negated holds fails)
      (second.pushBranch condition negated holds fails) := by
  cases negated <;> exact same.push .same

theorem pushBlock (same : Draft.Alike alike together first second) {block other : OpenBlock}
    (blocks : OpenBlock.Alike together block other) :
    Draft.Alike alike together (first.pushBlock block) (second.pushBlock other) :=
  { same with blocks := .cons blocks same.blocks }

theorem withBlocks (same : Draft.Alike alike together first second) {blocks others : List OpenBlock}
    (left : List.Forall₂ (OpenBlock.Alike together) blocks others) :
    Draft.Alike alike together { first with blocks := blocks } { second with blocks := others } :=
  { same with blocks := left }

theorem withNext (same : Draft.Alike alike together first second) (next : Nat) :
    Draft.Alike alike together { first with nextBlock := next } { second with nextBlock := next } :=
  { same with nextBlock := rfl }

section

variable (likeness : IsLikeness alike) (same : Draft.Alike alike together first second)

include likeness same

theorem closeIf : Agree (fun _ _ => True) (Draft.Alike alike together) first.closeIf
    second.closeIf := by
  obtain ⟨instructions, labels, jumps, blocks, next⟩ := first
  obtain ⟨instructions', labels', jumps', blocks', next'⟩ := second
  cases same.blocks with
  | nil => exact .error trivial
  | @cons block block' outer outer' here left =>
    obtain ⟨kind, inElse, number, opened⟩ := block
    obtain ⟨_, _, _, opened'⟩ := block'
    obtain ⟨⟨⟩, ⟨⟩, ⟨⟩, -⟩ := here
    have closed := same.withBlocks left
    cases kind with
    | loop => exact .error trivial
    | conditional =>
      cases inElse with
      | true => exact closed.pushLabel likeness (likeness.refl _)
      | false =>
        exact (closed.pushLabel likeness (likeness.refl (hiddenLabel .elsePart number))).bind
          fun _ _ landed => landed.pushLabel likeness (likeness.refl _)

variable {line line' : Nat} (lines : together line line')

include lines

theorem openIf (condition : Condition) (negated : Bool) :
    Agree (fun _ _ => True) (Draft.Alike alike together) (first.openIf line condition negated)
      (second.openIf line' condition negated) := by
  unfold Draft.openIf
  dsimp only
  rw [same.nextBlock]
  have branched := (same.withNext (second.nextBlock + 1)).pushBranch condition negated
    (hiddenLabel .thenPart second.nextBlock) (hiddenLabel .elsePart second.nextBlock)
  exact (branched.pushLabel likeness (likeness.refl _)).bind fun _ _ landed =>
    .ok (landed.pushBlock ⟨rfl, rfl, rfl, lines⟩)

theorem openElse : Agree (fun _ _ => True) (Draft.Alike alike together) (first.openElse line)
    (second.openElse line') := by
  obtain ⟨instructions, labels, jumps, blocks, next⟩ := first
  obtain ⟨instructions', labels', jumps', blocks', next'⟩ := second
  cases same.blocks with
  | nil => exact .error trivial
  | @cons block block' outer outer' here left =>
    obtain ⟨kind, inElse, number, opened⟩ := block
    obtain ⟨_, _, _, opened'⟩ := block'
    obtain ⟨⟨⟩, ⟨⟩, ⟨⟩, opens⟩ := here
    cases kind with
    | loop => exact .error trivial
    | conditional =>
      cases inElse with
      | true => exact .error trivial
      | false =>
        have jumped := (same.withBlocks left).pushJump lines
          (likeness.refl (hiddenLabel .endIf number))
        exact (jumped.pushLabel likeness (likeness.refl _)).bind fun _ _ landed =>
          .ok (landed.pushBlock ⟨rfl, rfl, rfl, opens⟩)

theorem openWhile (condition : Condition) (negated : Bool) :
    Agree (fun _ _ => True) (Draft.Alike alike together) (first.openWhile line condition negated)
      (second.openWhile line' condition negated) := by
  unfold Draft.openWhile
  dsimp only
  rw [same.nextBlock]
  refine ((same.withNext (second.nextBlock + 1)).pushLabel likeness (likeness.refl _)).bind
    fun _ _ tested => ?_
  have branched := tested.pushBranch condition negated (hiddenLabel .body second.nextBlock)
    (hiddenLabel .endWhile second.nextBlock)
  exact (branched.pushLabel likeness (likeness.refl _)).bind fun _ _ landed =>
    .ok (landed.pushBlock ⟨rfl, rfl, rfl, lines⟩)

theorem closeWhile : Agree (fun _ _ => True) (Draft.Alike alike together) (first.closeWhile line)
    (second.closeWhile line') := by
  obtain ⟨instructions, labels, jumps, blocks, next⟩ := first
  obtain ⟨instructions', labels', jumps', blocks', next'⟩ := second
  cases same.blocks with
  | nil => exact .error trivial
  | @cons block block' outer outer' here left =>
    obtain ⟨kind, inElse, number, opened⟩ := block
    obtain ⟨_, _, _, opened'⟩ := block'
    obtain ⟨⟨⟩, ⟨⟩, ⟨⟩, -⟩ := here
    cases kind with
    | conditional => exact .error trivial
    | loop =>
      have jumped := (same.withBlocks left).pushJump lines
        (likeness.refl (hiddenLabel .test number))
      exact jumped.pushLabel likeness (likeness.refl _)

theorem leaveLoop : Agree (fun _ _ => True) (Draft.Alike alike together) (first.leaveLoop line)
    (second.leaveLoop line') := by
  have numbers : (first.blocks.find? (·.kind == .loop)).map OpenBlock.number =
      (second.blocks.find? (·.kind == .loop)).map OpenBlock.number := by
    have blocks := same.blocks
    generalize first.blocks = found at blocks
    generalize second.blocks = others at blocks
    induction blocks with
    | nil => rfl
    | cons here _ ih =>
      rw [List.find?_cons, List.find?_cons, here.kind]
      split
      · exact congrArg some here.number
      · exact ih
  unfold Draft.leaveLoop
  cases left : first.blocks.find? (·.kind == .loop) with
  | none =>
    rw [left] at numbers
    rw [Option.map_eq_none_iff.mp numbers.symm]
    exact .error trivial
  | some block =>
    rw [left] at numbers
    obtain ⟨other, right, number⟩ := Option.map_eq_some_iff.mp numbers.symm
    rw [right]
    dsimp only
    rw [number]
    exact .ok (same.pushJump lines (likeness.refl _))

theorem add {statement other : Statement} (statements : Statement.Alike alike statement other) :
    Agree (fun _ _ => True) (Draft.Alike alike together) (first.add line statement)
      (second.add line' other) := by
  cases statements with
  | label names => exact same.pushLabel likeness names
  | goto names => exact .ok (same.pushJump lines names)
  | same =>
    cases statement with
    | delay | mouse | key | script | exit => exact .ok (same.push .same)
    | ifBlock => exact same.openIf likeness lines _ _
    | elseBlock => exact same.openElse likeness lines
    | endIf => exact same.closeIf likeness
    | whileBlock => exact same.openWhile likeness lines _ _
    | endWhile => exact same.closeWhile likeness lines
    | leave => exact same.leaveLoop likeness lines
    | label name => exact same.pushLabel likeness (likeness.refl name)
    | goto name => exact .ok (same.pushJump lines (likeness.refl name))

end

theorem resolve (likeness : IsLikeness alike) (same : Draft.Alike alike together first second) :
    Agree (fun problem other => together problem.line other.line)
      (fun laid others => List.Forall₂ (Instruction.Alike alike) laid.toList others.toList)
      first.resolve second.resolve := by
  unfold Draft.resolve
  refine Agree.foldlM same.jumps (fun jump _ jump' _ here laid others matching => ?_)
    same.instructions
  rw [same.find? likeness here.target]
  cases second.find? jump'.target with
  | none => exact .error here.line
  | some index =>
    refine .ok ?_
    rw [Array.toList_modify, Array.toList_modify, here.instruction]
    exact forall₂_modify (aim_alike index) matching _

theorem finish (likeness : IsLikeness alike) (same : Draft.Alike alike together first second) :
    Agree (fun problem other => together problem.line other.line) (Sequence.Alike alike)
      first.finish second.finish := by
  have blocks := same.blocks
  have resolves := same.resolve likeness
  unfold Draft.finish
  -- Open blocks come first: the labels that jumps go to are looked up only when there are none.
  generalize first.blocks = open' at blocks ⊢
  generalize second.blocks = others at blocks ⊢
  cases blocks with
  | nil => exact resolves.bind fun _ _ matching => .ok matching
  | cons here _ => exact .error here.line

end Draft.Alike

/-! ## Lines -/

def busyLines (text : String) : List (Line × Nat) :=
  ((lines text).zipIdx 1).filter (!·.1.isBlank)

structure Line.Corresponds (alike : String → String → Prop) (together : Nat → Nat → Prop)
    (first second : Line × Nat) : Prop where
  lines : Line.Alike alike first.1 second.1
  numbers : together first.2 second.2

theorem addLine_blank {draft : Draft} {number : Nat} {line : Line} (blank : line.isBlank = true) :
    draft.addLine number line = .ok draft := by
  obtain ⟨_ | _, _ | _⟩ := line
  · rfl
  all_goals cases blank

theorem addLines_eq_foldlM (draft : Draft) (number : Nat) (found : List Line) :
    draft.addLines number found = ((found.zipIdx number).filter (!·.1.isBlank)).foldlM
      (fun between line => between.addLine line.2 line.1) draft := by
  induction found generalizing draft number with
  | nil => rfl
  | cons line more ih =>
    rw [Draft.addLines, List.zipIdx_cons]
    by_cases blank : line.isBlank = true
    · rw [List.filter_cons_of_neg (by simp [blank]), addLine_blank blank]
      exact ih draft (number + 1)
    · rw [List.filter_cons_of_pos (by simp [blank]), List.foldlM_cons]
      refine bind_congr fun between => ih between (number + 1)

theorem line_of_mapError {number : Nat} {problem : CompileError} {result : Except Problem Draft}
    (fails : result.mapError (CompileError.mk · number) = .error problem) :
    problem.line = number := by
  cases result with
  | error found =>
    cases fails
    rfl
  | ok => cases fails

theorem line_of_addLine {draft : Draft} {number : Nat} {line : Line} {problem : CompileError}
    (fails : draft.addLine number line = .error problem) : problem.line = number :=
  line_of_mapError fails

theorem Statement.Alike.isAllowed (likeness : IsLikeness alike) {statement other : Statement}
    (same : Statement.Alike alike statement other) (allowed : statement.IsAllowed) :
    other.IsAllowed := by
  have names {name again : String} (names : alike name again)
      (allowed : Keyword.ofWord? name = none ∧ isHidden name = false) :
      Keyword.ofWord? again = none ∧ isHidden again = false :=
    ⟨keyword_congr (likeness.letters names) ▸ allowed.1, by
      rw [isHidden, ← likeness.lower names]
      exact allowed.2⟩
  cases same with
  | same => exact allowed
  | label labels => exact names labels allowed
  | goto targets => exact names targets allowed

theorem addLine_ok (likeness : IsLikeness alike) {values : Draft → Draft → Prop}
    {first second longer : Draft} {number number' : Nat} {line other : Line}
    (same : Line.Alike alike line other) (genuine : ∀ token ∈ line.tokens, token.IsGenuine)
    (genuine' : ∀ token ∈ other.tokens, token.IsGenuine) (starts : values first second)
    (adds : ∀ {statement again}, Statement.Alike alike statement again →
      Agree (fun _ _ => True) values (first.add number statement) (second.add number' again))
    (added : first.addLine number line = .ok longer) :
    ∃ again, second.addLine number' other = .ok again ∧ values longer again := by
  obtain ⟨terminated, ⟨blank, rfl⟩ | ⟨statement, derives, allowed, grown⟩⟩ :=
    (addLine_eq_ok genuine).mp added
  · have tokens := same.tokens
    rw [blank] at tokens
    have blank' : other.tokens = [] := List.forall₂_nil_left_iff.mp tokens
    exact ⟨second, (addLine_eq_ok genuine').mpr
      ⟨same.isUnterminated ▸ terminated, .inl ⟨blank', rfl⟩⟩, starts⟩
  · obtain ⟨statement', derives', statements⟩ := derives.respell likeness same.tokens
    have agree := adds statements
    rw [grown] at agree
    cases found : second.add number' statement' with
    | error problem =>
      rw [found] at agree
      cases agree
    | ok again =>
      rw [found] at agree
      obtain ⟨matching⟩ := agree
      exact ⟨again, (addLine_eq_ok genuine').mpr ⟨same.isUnterminated ▸ terminated,
        .inr ⟨statement', derives', statements.isAllowed likeness allowed, found⟩⟩, matching⟩

theorem Line.Corresponds.addLine (likeness : IsLikeness alike) {first second : Draft}
    (same : Draft.Alike alike together first second) {line other : Line × Nat}
    (genuine : ∀ token ∈ line.1.tokens, token.IsGenuine)
    (genuine' : ∀ token ∈ other.1.tokens, token.IsGenuine)
    (corresponds : Line.Corresponds alike together line other) :
    Agree (fun problem other => together problem.line other.line) (Draft.Alike alike together)
      (first.addLine line.2 line.1) (second.addLine other.2 other.1) := by
  cases added : first.addLine line.2 line.1 with
  | ok longer =>
    obtain ⟨again, added', matching⟩ := addLine_ok likeness corresponds.lines genuine genuine' same
      (fun statements => same.add likeness corresponds.numbers statements) added
    rw [added']
    exact .ok matching
  | error problem =>
    cases added' : second.addLine other.2 other.1 with
    | ok again =>
      -- The other line could be added, so this one could be added too.
      have back : flip (Draft.Alike alike together) second first := same
      obtain ⟨longer, added'', -⟩ := addLine_ok likeness (corresponds.lines.symm likeness) genuine'
        genuine back (fun statements =>
          (same.add likeness corresponds.numbers (statements.symm likeness)).flip) added'
      rw [added] at added''
      cases added''
    | error problem' =>
      refine .error ?_
      rw [line_of_addLine added, line_of_addLine added']
      exact corresponds.numbers

theorem genuine_of_mem_busyLines {text : String} {line : Line × Nat}
    (member : line ∈ busyLines text) :
    ∀ token ∈ line.1.tokens, token.IsGenuine :=
  isGenuine_of_mem_lines (List.fst_mem_of_mem_zipIdx (List.mem_filter.mp member).1)

/-- Texts whose lines are alike compile to sequences that are alike, or have problems on lines that
correspond. -/
theorem compile_agree (likeness : IsLikeness alike) {first second : String}
    (all : List.Forall₂ (Line.Corresponds alike together) (busyLines first) (busyLines second)) :
    Agree (fun problem other => together problem.line other.line) (Sequence.Alike alike)
      (compile first) (compile second) := by
  have empty : Draft.Alike alike together .empty .empty := ⟨.nil, rfl, .nil, .nil, rfl⟩
  unfold compile
  rw [addLines_eq_foldlM, addLines_eq_foldlM]
  have drafts := Agree.foldlM all (fun _ member _ member' here _ _ same =>
    here.addLine likeness same (genuine_of_mem_busyLines member)
      (genuine_of_mem_busyLines member')) empty
  exact drafts.bind fun _ _ same => same.finish likeness

end Script
end InputTape
