import InputTape.Proofs.Script.Landing

/-! The landmarks of the blocks of a script.

Blocks are numbered as they are opened, and the label of a landmark tells the number of its block.
Every landmark of every block has its label, and at the label a script goes on where the landmark
is. All other names in a layout are written in the script.
-/

set_option autoImplicit false

namespace InputTape.Script

open Machine (past)

def Landmark.kind : Landmark → BlockKind
  | .thenPart | .elsePart | .endIf => .conditional
  | .test | .body | .endWhile => .loop

/-- Where a script goes on at a landmark of the block that is opened at a place. -/
def Landmark.place? (statements : List Statement) (place : Nat) : Landmark → Option Nat
  | .thenPart | .body => some (place + 1)
  | .elsePart => past statements place .conditional false
  | .endIf => past statements place .conditional true
  | .test => some place
  | .endWhile => past statements place .loop false

def Statement.opensBlock (statement : Statement) : Bool :=
  statement.opens .conditional || statement.opens .loop

def Opens (statements : List Statement) (place : Nat) (kind : BlockKind) : Prop :=
  ∃ statement, statements[place]? = some statement ∧ statement.opens kind = true

/-- The number of the block that is opened at a place: so many are opened in front of it. -/
def blockNumber (statements : List Statement) (place : Nat) : Nat :=
  (statements.take place).countP Statement.opensBlock

section

variable {statements : List Statement} {place other : Nat} {kind : BlockKind}

theorem opensBlock_of_opens {statement : Statement} (opens : statement.opens kind = true) :
    statement.opensBlock = true := by
  unfold Statement.opensBlock
  cases kind <;> simp [opens]

theorem opens_cons {statement : Statement} :
    Opens (statement :: statements) (place + 1) kind ↔ Opens statements place kind :=
  Iff.rfl

theorem blockNumber_cons (statement : Statement) (statements : List Statement) (place : Nat) :
    blockNumber (statement :: statements) (place + 1) =
      blockNumber statements place + if statement.opensBlock then 1 else 0 := by
  rw [blockNumber, List.take_succ_cons, List.countP_cons, blockNumber]

theorem blockNumber_lt (opens : Opens statements place kind) (before : place < other) :
    blockNumber statements place < blockNumber statements other := by
  obtain ⟨statement, here, opens⟩ := opens
  obtain ⟨inside, rfl⟩ := List.getElem?_eq_some_iff.mp here
  obtain ⟨more, rfl⟩ := Nat.exists_eq_add_of_lt before
  have split : statements.take (place + more + 1) =
      statements.take place ++ statements[place] :: (statements.drop (place + 1)).take more := by
    rw [Nat.add_assoc, List.take_add, List.drop_eq_getElem_cons inside, List.take_succ_cons]
  rw [blockNumber, blockNumber, split, List.countP_append,
    List.countP_cons_of_pos (opensBlock_of_opens opens)]
  omega

theorem blockNumber_injective {kind' : BlockKind} (left : Opens statements place kind)
    (right : Opens statements other kind')
    (same : blockNumber statements place = blockNumber statements other) : place = other := by
  rcases Nat.lt_trichotomy place other with before | rfl | behind
  · exact absurd same (Nat.ne_of_lt (blockNumber_lt left before))
  · rfl
  · exact absurd same.symm (Nat.ne_of_lt (blockNumber_lt right behind))

end

/-! ## Names in a layout -/

inductive Mentions : Operation → String → Prop where
  | label {name : String} : Mentions (.label name) name
  | jump {name : String} {place : Option Nat} : Mentions (.jump (some name) place) name
  | holds {condition : Condition} {name : String} {onFalse : BranchTarget} :
      Mentions (.branch condition (.label name) onFalse) name
  | fails {condition : Condition} {name : String} {onTrue : BranchTarget} :
      Mentions (.branch condition onTrue (.label name)) name

inductive Written : Operation → Statement → Prop where
  | label {name : String} : Written (.label name) (.label name)
  | goto {name : String} : Written (.jump (some name) none) (.goto name)

/-- A block of this kind and number is open already or is opened by a statement. -/
def Belongs (nesting : Nesting) (statements : List Statement) (kind : BlockKind) (number : Nat) :
    Prop :=
  (∃ block ∈ nesting.blocks, block.kind = kind ∧ block.number = number) ∨
    ∃ place, Opens statements place kind ∧ number = nesting.next + blockNumber statements place

section

variable {statement : Statement} {statements : List Statement} {before after : Nesting}
  {operation : Operation} {operations : List Operation} {name : String} {kind : BlockKind}
  {number : Nat}

theorem opensBlock_of_action? (acts : statement.action? = some operation) :
    statement.opensBlock = false := by
  simp [Statement.opensBlock, opens_of_action? acts]

theorem Lays.next (lays : Lays statement before operations after) :
    after.next = before.next + if statement.opensBlock then 1 else 0 := by
  cases lays with
  | action acts => rw [opensBlock_of_action? acts]; rfl
  | _ => rfl

theorem next_of_layout (layout : Layout statements before operations after) :
    after.next = before.next + statements.countP Statement.opensBlock := by
  induction layout with
  | nil => rfl
  | cons lays _ ih =>
    rw [ih, lays.next, List.countP_cons]
    omega

theorem Lays.belongs (lays : Lays statement before operations after) {block : OpenBlock}
    (opened : block ∈ after.blocks) :
    (∃ old ∈ before.blocks, old.kind = block.kind ∧ old.number = block.number) ∨
      statement.opens block.kind = true ∧ block.number = before.next := by
  cases lays with
  | action | label | goto | leave => exact .inl ⟨block, opened, rfl, rfl⟩
  | ifBlock | whileBlock =>
    rcases List.mem_cons.mp opened with rfl | old
    · exact .inr ⟨rfl, rfl⟩
    · exact .inl ⟨block, old, rfl, rfl⟩
  | elseBlock =>
    rcases List.mem_cons.mp opened with rfl | old
    · exact .inl ⟨_, List.mem_cons_self, rfl, rfl⟩
    · exact .inl ⟨block, List.mem_cons_of_mem _ old, rfl, rfl⟩
  | endIf | endElse | endWhile => exact .inl ⟨block, List.mem_cons_of_mem _ opened, rfl, rfl⟩

theorem Belongs.cons (belongs : Belongs after statements kind number)
    (lays : Lays statement before operations after) :
    Belongs before (statement :: statements) kind number := by
  rcases belongs with ⟨block, opened, rfl, rfl⟩ | ⟨place, opens, rfl⟩
  · rcases lays.belongs opened with ⟨old, inside, kinds, numbers⟩ | ⟨opens, number⟩
    · exact .inl ⟨old, inside, kinds, numbers⟩
    · exact .inr ⟨0, ⟨statement, rfl, opens⟩, number⟩
  · refine .inr ⟨place + 1, opens_cons.mpr opens, ?_⟩
    rw [lays.next, blockNumber_cons]
    omega

theorem name_of_testing {condition : Condition} {negated : Bool} {holds fails : String}
    (mentions : Mentions (testing condition negated holds fails) name) :
    name = holds ∨ name = fails := by
  cases negated <;> cases mentions <;> simp

def IsLandmark (nesting : Nesting) (statements : List Statement) (name : String) : Prop :=
  ∃ landmark number, name = hiddenLabel landmark number ∧
    Belongs nesting statements landmark.kind number

theorem isLandmark_of_mem {block : OpenBlock} (inside : block ∈ before.blocks) (landmark : Landmark)
    (kind : block.kind = landmark.kind) :
    IsLandmark before statements (hiddenLabel landmark block.number) :=
  ⟨landmark, block.number, rfl, .inl ⟨block, inside, kind, rfl⟩⟩

theorem isLandmark_innermost {blocks : List OpenBlock} {inElse : Bool} {next number line : Nat}
    (landmark : Landmark) (same : kind = landmark.kind) :
    IsLandmark ⟨⟨kind, inElse, number, line⟩ :: blocks, next⟩ statements
      (hiddenLabel landmark number) :=
  @isLandmark_of_mem _ _ ⟨kind, inElse, number, line⟩ List.mem_cons_self landmark same

theorem isLandmark_of_opens (landmark : Landmark) (opens : statement.opens landmark.kind = true) :
    IsLandmark before (statement :: statements) (hiddenLabel landmark before.next) :=
  ⟨landmark, before.next, rfl, .inr ⟨0, ⟨statement, rfl, opens⟩, rfl⟩⟩

/-- A name among the instructions of a statement is written there, or it is that of a landmark. -/
theorem Lays.named (lays : Lays statement before operations after) (member : operation ∈ operations)
    (mentions : Mentions operation name) :
    Written operation statement ∨ IsLandmark before (statement :: statements) name := by
  cases lays with
  | action acts =>
    rw [← List.mem_singleton.mp member] at acts
    cases mentions <;> cases statement <;> cases acts
  | label =>
    cases List.mem_singleton.mp member
    exact .inl .label
  | goto =>
    cases List.mem_singleton.mp member
    exact .inl .goto
  -- Leaving a loop aims behind the innermost one that is open.
  | @leave block _ found =>
    cases List.mem_singleton.mp member
    cases mentions
    have isLoop : block.kind = .loop := by simpa using List.find?_some found
    exact .inr (isLandmark_of_mem (List.mem_of_find?_eq_some found) .endWhile isLoop)
  | ifBlock =>
    simp only [List.mem_cons, List.not_mem_nil, or_false] at member
    rcases member with rfl | rfl
    · rcases name_of_testing mentions with rfl | rfl <;> exact .inr (isLandmark_of_opens _ rfl)
    · cases mentions
      exact .inr (isLandmark_of_opens _ rfl)
  | whileBlock =>
    simp only [List.mem_cons, List.not_mem_nil, or_false] at member
    rcases member with rfl | rfl | rfl
    · cases mentions
      exact .inr (isLandmark_of_opens _ rfl)
    · rcases name_of_testing mentions with rfl | rfl <;> exact .inr (isLandmark_of_opens _ rfl)
    · cases mentions
      exact .inr (isLandmark_of_opens _ rfl)
  | elseBlock | endIf | endElse | endWhile =>
    simp only [List.mem_cons, List.not_mem_nil, or_false] at member
    rcases member with rfl | rfl <;> cases mentions <;>
      exact .inr (isLandmark_innermost _ rfl)

theorem IsLandmark.cons (isLandmark : IsLandmark after statements name)
    (lays : Lays statement before operations after) :
    IsLandmark before (statement :: statements) name := by
  obtain ⟨landmark, number, same, belongs⟩ := isLandmark
  exact ⟨landmark, number, same, belongs.cons lays⟩

theorem Layout.named (layout : Layout statements before operations after)
    (member : operation ∈ operations) (mentions : Mentions operation name) :
    (∃ statement ∈ statements, Written operation statement) ∨ IsLandmark before statements name := by
  induction layout with
  | nil => cases member
  | cons lays _ ih =>
    rcases List.mem_append.mp member with here | later
    · rcases lays.named here mentions with written | isLandmark
      · exact .inl ⟨_, List.mem_cons_self, written⟩
      · exact .inr isLandmark
    · rcases ih later with ⟨statement, inside, written⟩ | isLandmark
      · exact .inl ⟨statement, List.mem_cons_of_mem _ inside, written⟩
      · exact .inr (isLandmark.cons lays)

theorem Layout.branch (layout : Layout statements before operations after) {condition : Condition}
    {onTrue onFalse : BranchTarget} (member : .branch condition onTrue onFalse ∈ operations) :
    ∃ holds fails, onTrue = .label holds ∧ onFalse = .label fails := by
  induction layout with
  | nil => cases member
  | @cons statement _ _ _ _ _ _ lays _ ih =>
    rcases List.mem_append.mp member with here | later
    · cases lays with
      | action acts =>
        rw [← List.mem_singleton.mp here] at acts
        cases statement <;> cases acts
      | ifBlock | whileBlock =>
        simp only [List.mem_cons, List.not_mem_nil, or_false, reduceCtorEq, false_or, testing,
          Operation.branch.injEq] at here
        exact ⟨_, _, here.2.1, here.2.2⟩
      | _ => simp at here
    · exact ih later

theorem opens_of_isLandmark (isLandmark : IsLandmark .outermost statements name) :
    ∃ place landmark, Opens statements place landmark.kind ∧
      name = hiddenLabel landmark (blockNumber statements place) := by
  obtain ⟨landmark, number, rfl, ⟨block, opened, -⟩ | ⟨place, opens, rfl⟩⟩ := isLandmark
  · cases opened
  · exact ⟨place, landmark, opens, congrArg _ (Nat.zero_add _)⟩

end

/-! ## The labels of landmarks -/

/-- What is found among fewer wanted statements is looked for from the first of the wanted on. -/
theorem seek_of_seek {enters leaves wanted fewer : Statement → Bool}
    (implies : ∀ statement, fewer statement = true → wanted statement = true)
    {rest : List Statement} {depth found : Nat}
    (sought : seek enters leaves wanted depth rest = some found) :
    seek enters leaves fewer depth rest =
      (seek enters leaves fewer 0 (rest.drop found)).map (· + found) := by
  induction rest generalizing depth found with
  | nil => cases sought
  | cons statement rest ih =>
    rw [seek] at sought
    split at sought
    · next here =>
      cases sought
      rw [Bool.and_eq_true, beq_iff_eq] at here
      simp [here.1]
    · next passed =>
      obtain ⟨later, behind, rfl⟩ := Option.map_eq_some_iff.mp sought
      have missed : ¬ (depth == 0 && fewer statement) = true := by
        rw [Bool.and_eq_true]
        rintro ⟨shallow, wants⟩
        exact passed (by simp [shallow, implies statement wants])
      rw [seek, if_neg missed]
      simp only [ih behind, Option.map_map, List.drop_succ_cons]
      rfl

section

variable {statements : List Statement} {operations : List Operation} {place target : Nat}

theorem past_of_past (reached : past statements place .conditional false = some (target + 1)) :
    past statements place .conditional true =
      (seek (·.opens .conditional) (·.ends .conditional true) (·.ends .conditional true) 0
        (statements.drop target)).map (target + · + 1) := by
  unfold past at reached ⊢
  obtain ⟨found, sought, same⟩ := Option.map_eq_some_iff.mp reached
  obtain rfl : place + 1 + found = target := by omega
  have implies (statement : Statement) (ends : statement.ends .conditional true = true) :
      statement.ends .conditional false = true := by
    cases statement <;> first | exact ends | cases ends
  rw [seek_of_seek implies sought, List.drop_drop, Option.map_map]
  refine congrArg (Option.map · _) (funext fun index => ?_)
  simp only [Function.comp_apply]
  omega

theorem past_endIf (reached : past statements place .conditional false = some (target + 1))
    (ends : statements[target]? = some .endIf) :
    past statements place .conditional true = some (target + 1) := by
  obtain ⟨inside, same⟩ := List.getElem?_eq_some_iff.mp ends
  rw [past_of_past reached, List.drop_eq_getElem_cons inside, same]
  rfl

theorem past_elseBlock (reached : past statements place .conditional false = some (target + 1))
    (ends : statements[target]? = some .elseBlock) :
    past statements place .conditional true = past statements target .conditional true := by
  obtain ⟨inside, same⟩ := List.getElem?_eq_some_iff.mp ends
  have passes : (Statement.elseBlock).ends .conditional true = false := rfl
  rw [past_of_past reached, List.drop_eq_getElem_cons inside, same, seek, past]
  simp only [passes, Bool.and_false, Bool.false_eq_true, if_false, Statement.opens, Option.map_map]
  refine congrArg (Option.map · _) (funext fun index => ?_)
  simp only [Function.comp_apply]
  omega

theorem endIf_lands {next : Nat} (cut : Cut .outermost ⟨[], next⟩ statements operations)
    (length : cut.first.length = place + 1) {number line : Nat} {outer : List OpenBlock}
    (opened : cut.between.blocks = ⟨.conditional, false, number, line⟩ :: outer) :
    ∃ index target, operations[index]? = some (.label (hiddenLabel .endIf number)) ∧
      past statements place .conditional true = some target ∧
      Meets statements operations index target := by
  have within : cut.between.blocks = [] ++ ⟨.conditional, false, number, line⟩ :: outer := opened
  obtain ⟨inner, statement, more, same, innermost, ends, sought⟩ := seek_ends cut.right rfl within
  have reached := past_cut cut length inner sought
  have here := (cut.later inner).getElem?_place same
  obtain ⟨_, _, own, beyond, lays, between, behind, first, front⟩ := (cut.later inner).split same
  have beyondLength : beyond.first.length = (cut.later inner).first.length + 1 := by
    rw [first, List.length_append, List.length_singleton]
  change (cut.later inner).between.blocks = _ at innermost
  rw [between] at innermost
  cases lays with
  | action acts =>
    rw [ends_of_action? acts] at ends
    cases ends
  | label | goto | leave | ifBlock | whileBlock | endWhile => cases ends
  | endElse => cases innermost
  | endIf =>
    cases innermost
    refine ⟨_, _, Cut.getElem?_own front (Nat.lt_succ_self 1), past_endIf reached here, ?_⟩
    rw [← beyondLength]
    exact meets_behind front (by simp) (by simp [OnlyLabels])
  -- Behind the else part stands what ends the conditional.
  | elseBlock =>
    cases innermost
    have inElse : beyond.between.blocks = [] ++ ⟨.conditional, true, number, line⟩ :: outer := by
      rw [behind]
      rfl
    obtain ⟨target, index, ended, label, meets⟩ := past_lands beyond beyondLength inElse rfl
    exact ⟨index, target, label, (past_elseBlock reached here).trans ended, meets⟩

/-- Every landmark of every block has its label, and at the label the landmark is met. -/
theorem landmark_lands (laid : LaidOut statements operations) {landmark : Landmark}
    (opens : Opens statements place landmark.kind) :
    ∃ index target,
      operations[index]? = some (.label (hiddenLabel landmark (blockNumber statements place))) ∧
      landmark.place? statements place = some target ∧
      Meets statements operations index target := by
  obtain ⟨next, layout⟩ := laid.layout
  obtain ⟨statement, here, opens⟩ := opens
  obtain ⟨inside, same⟩ := List.getElem?_eq_some_iff.mp here
  obtain ⟨cut, length, rest⟩ := Cut.exists_at layout (Nat.le_of_lt inside)
  rw [List.drop_eq_getElem_cons inside, same] at rest
  obtain ⟨opened, closed, own, following, lays, between, behind, first, front⟩ := cut.split rest
  have taken : cut.first = statements.take place := by
    conv_rhs => rw [cut.statements_eq, ← length, List.take_left]
  have number : opened.next = blockNumber statements place := by
    rw [← between, next_of_layout cut.left, taken]
    exact Nat.zero_add _
  have later : following.first.length = place + 1 := by
    rw [first, List.length_append, length, List.length_singleton]
  -- Only the heads of blocks open landmarks.
  cases lays with
  | action acts =>
    rw [opens_of_action? acts] at opens
    cases opens
  | label | goto | leave | elseBlock | endIf | endElse | endWhile => cases opens
  | @ifBlock _ _ blocks _ line =>
    subst number
    have within : following.between.blocks =
        [] ++ ⟨.conditional, false, blockNumber statements place, line⟩ :: blocks := by
      rw [behind]
      rfl
    cases landmark with
    | thenPart =>
      refine ⟨_, _, Cut.getElem?_own front (Nat.lt_succ_self 1), rfl, ?_⟩
      rw [← later]
      exact meets_behind front (by simp) (by simp [OnlyLabels])
    | elsePart =>
      obtain ⟨target, index, ended, label, meets⟩ := past_lands following later within rfl
      exact ⟨index, target, label, ended, meets⟩
    | endIf => exact endIf_lands following later within
    | test | body | endWhile => cases opens
  | @whileBlock _ _ blocks _ line =>
    subst number
    have within : following.between.blocks =
        [] ++ ⟨.loop, false, blockNumber statements place, line⟩ :: blocks := by
      rw [behind]
      rfl
    cases landmark with
    | test =>
      refine ⟨_, _, Cut.getElem?_own front (Nat.succ_pos 2), rfl, ?_⟩
      rw [← length]
      exact meets_cut cut
    | body =>
      refine ⟨_, _, Cut.getElem?_own front (Nat.lt_succ_self 2), rfl, ?_⟩
      rw [← later]
      exact meets_behind front (by simp) (by simp [OnlyLabels])
    | endWhile =>
      obtain ⟨target, index, ended, label, meets⟩ := past_lands following later within rfl
      exact ⟨index, target, label, ended, meets⟩
    | thenPart | elsePart | endIf => cases opens

end

end InputTape.Script
