import InputTape.Proofs.Script.Acceptance
import InputTape.Proofs.Script.Debts
import InputTape.Proofs.Script.Unfinished

/-! What a draft still waits for.

A draft follows the statements that it is laid out from: the blocks that are open are those that the
statements leave open, and the jumps with visible names are their gotos, in order. A statement is added
unless it is misplaced or its label is taken, so a draft of all statements is there as soon as they
fit together. When it is finished the jumps of blocks all have their labels, and nothing but a block
that is open or a goto without a label is left to be wrong.
-/

set_option autoImplicit false

namespace InputTape.Script

def OpenBlock.opening (block : OpenBlock) : Opening := ⟨block.kind, block.inElse, block.line⟩

def gotos (numbered : List (Nat × Statement)) : List (Nat × String) :=
  numbered.filterMap fun
    | (line, .goto name) => some (line, name)
    | _ => none

theorem gotos_append (first second : List (Nat × Statement)) :
    gotos (first ++ second) = gotos first ++ gotos second :=
  List.filterMap_append

theorem mem_gotos {numbered : List (Nat × Statement)} {line : Nat} {name : String} :
    (line, name) ∈ gotos numbered ↔ (line, .goto name) ∈ numbered := by
  rw [gotos, List.mem_filterMap]
  constructor
  · rintro ⟨⟨_, statement⟩, member, same⟩
    cases statement with
    | goto =>
      cases same
      exact member
    | _ => cases same
  · exact fun member => ⟨_, member, rfl⟩

def Defines (numbered : List (Nat × Statement)) (name : String) : Prop :=
  ∃ label ∈ labelNames (numbered.map Prod.snd), Text.lower label = Text.lower name

theorem defines_append {first second : List (Nat × Statement)} {name : String} :
    Defines (first ++ second) name ↔ Defines first name ∨ Defines second name := by
  simp only [Defines, List.map_append, labelNames_append, List.mem_append, or_and_right, exists_or]

/-- Statements fit together as far as they go: blocks may still be open, but no label is there
twice. -/
structure Fits (numbered : List (Nat × Statement)) : Prop where
  moves : ∃ blocks, MovesAll numbered [] blocks
  distinct : ((labelNames (numbered.map Prod.snd)).map Text.lower).Nodup

namespace Draft

def openings (draft : Draft) : List Opening := draft.blocks.map OpenBlock.opening

/-- The pending jumps with visible names, and their lines. -/
def gotos (draft : Draft) : List (Nat × String) :=
  (draft.jumps.filter fun jump => !isHidden jump.target).map fun jump => (jump.line, jump.target)

variable {draft longer : Draft} {line : Nat}

/-! ## Jumps of one statement -/

theorem gotos_pushLabel (name : String) :
    Yields (fun longer => longer.gotos = draft.gotos) (draft.pushLabel name) := by
  unfold pushLabel
  split
  · exact .error
  · exact .ok rfl

theorem gotos_pushJump (target : String) : (draft.pushJump line target).gotos =
    draft.gotos ++ if isHidden target then [] else [(line, target)] := by
  rw [gotos, pushJump, List.filter_append, List.map_append]
  by_cases hidden : isHidden target = true
  · rw [if_pos hidden]
    simp [hidden, gotos]
  · rw [if_neg hidden]
    simp [hidden, gotos]

theorem gotos_pushHidden (landmark : Landmark) (number : Nat) :
    (draft.pushJump line (hiddenLabel landmark number)).gotos = draft.gotos := by
  rw [gotos_pushJump, if_pos (isHidden_hiddenLabel landmark number), List.append_nil]

/-- A goto is the only statement that adds a jump with a visible name. -/
theorem gotos_add {statement : Statement} (named : statement.IsNamed) :
    Yields (fun longer => longer.gotos = draft.gotos ++ Script.gotos [(line, statement)])
      (draft.add line statement) := by
  -- Only a goto pends under a name that was written; all other jumps aim at landmarks.
  cases statement with
  | delay | mouse | key | script | exit => exact .ok (List.append_nil _).symm
  | label name =>
    intro longer added
    exact (gotos_pushLabel name longer added).trans (List.append_nil _).symm
  | goto name =>
    refine .ok ((gotos_pushJump name).trans ?_)
    rw [named.2]
    rfl
  | leave =>
    simp only [add, leaveLoop]
    split
    · exact .ok ((gotos_pushHidden _ _).trans (List.append_nil _).symm)
    · exact .error
  | ifBlock condition negated =>
    refine .bind (gotos_pushLabel _) fun longer same => .ok (?_ : longer.gotos = _)
    rw [same]
    cases negated <;> exact (List.append_nil _).symm
  | whileBlock condition negated =>
    refine .bind (gotos_pushLabel _) fun between same => .bind (gotos_pushLabel _)
      fun longer again => .ok (?_ : longer.gotos = _)
    rw [again]
    cases negated <;> exact same.trans (List.append_nil _).symm
  | elseBlock =>
    simp only [add, openElse]
    split
    · refine .bind (gotos_pushLabel _) fun longer same => .ok (?_ : longer.gotos = _)
      exact (same.trans (gotos_pushHidden _ _)).trans (List.append_nil _).symm
    · exact .error
  | endIf =>
    simp only [add, closeIf]
    split
    · split
      · intro longer added
        exact (gotos_pushLabel _ longer added).trans (List.append_nil _).symm
      · refine .bind (gotos_pushLabel _) fun between same longer added => ?_
        exact ((gotos_pushLabel _ longer added).trans same).trans (List.append_nil _).symm
    · exact .error
  | endWhile =>
    simp only [add, closeWhile]
    split
    · intro longer added
      rw [gotos_pushLabel _ longer added, gotos_pushHidden]
      exact (List.append_nil _).symm
    · exact .error

/-! ## One statement -/

inductive Turns (draft : Draft) (line : Nat) (statement : Statement) :
    Except Problem Draft → Prop where
  | added {longer : Draft} : Moves line statement draft.openings longer.openings →
      (∀ name, isHidden name = false → (longer.Has (Text.lower name) ↔
        Defines [(line, statement)] name ∨ draft.Has (Text.lower name))) →
      (∀ label ∈ labelNames [statement], ¬ draft.Has (Text.lower label)) →
      Turns draft line statement (.ok longer)
  | misplaced {problem : Problem} : (∀ after, ¬ Moves line statement draft.openings after) →
      Turns draft line statement (.error problem)
  | taken {name : String} {problem : Problem} : statement = .label name →
      draft.Has (Text.lower name) → Turns draft line statement (.error problem)

namespace Turns

theorem of_hidden {statement : Statement} (unnamed : labelNames [statement] = [])
    (moves : Moves line statement draft.openings longer.openings)
    (has : ∀ key, longer.Has key → draft.Has key ∨ ∃ landmark number, key = hiddenLabel landmark number)
    (keeps : ∀ key, draft.Has key → longer.Has key) : Turns draft line statement (.ok longer) := by
  apply added moves
  · intro name visible
    rw [Defines, List.map_singleton, unnamed]
    constructor
    · intro had
      rcases has _ had with old | ⟨landmark, number, same⟩
      · exact .inr old
      · rw [← lower_hiddenLabel] at same
        exact absurd same (lower_ne_hiddenLabel visible landmark number)
    · rintro (⟨_, none, -⟩ | old)
      · cases none
      · exact keeps _ old
  · rw [unnamed]
    exact nofun

theorem of_marks {statement : Statement} {landmarks : List Landmark} {targets : List String}
    {number : Nat} {before after : List OpenBlock} (unnamed : labelNames [statement] = [])
    (within : draft.blocks = before) (blocks : longer.blocks = after)
    (moves : Moves line statement (before.map OpenBlock.opening) (after.map OpenBlock.opening))
    (marks : Marks landmarks targets number draft longer) :
    Turns draft line statement (.ok longer) := by
  subst within blocks
  apply of_hidden unnamed moves
  · intro key had
    rcases (marks.has key).mp had with ⟨landmark, -, same⟩ | old
    · exact .inr ⟨landmark, number, same⟩
    · exact .inl old
  · exact fun key had => (marks.has key).mpr (.inr had)

theorem of_push {statement : Statement} {operation : Operation} (plain : statement.IsPlain)
    (unnamed : labelNames [statement] = []) :
    Turns draft line statement (.ok (draft.push operation)) :=
  of_hidden unnamed (.plain plain) (fun _ => .inl) fun _ => id

theorem of_pushJump {statement : Statement} {target : String} (unnamed : labelNames [statement] = [])
    (moves : Moves line statement draft.openings draft.openings) :
    Turns draft line statement (.ok (draft.pushJump line target)) :=
  of_hidden unnamed moves (fun _ => .inl) fun _ => id

end Turns

theorem turns_pushLabel {name : String} : Turns draft line (.label name) (draft.pushLabel name) := by
  by_cases there : draft.Has (Text.lower name)
  · obtain ⟨index, member⟩ := there
    have found : (draft.find? name).isSome = true :=
      List.lookup_isSome_iff.mpr ⟨_, member, beq_self_eq_true _⟩
    unfold pushLabel
    rw [if_pos found]
    exact .taken rfl ⟨index, member⟩
  · rw [pushLabel_of_not_has there]
    refine .added (.plain trivial) (fun other _ => ?_) ?_
    · simp [Has, Defines, labelNames, exists_or, eq_comm]
    · simpa [labelNames] using there

theorem withinLoop_openings : withinLoop draft.openings = inLoop draft.blocks := by
  rw [withinLoop, inLoop, openings, List.any_map]
  rfl

theorem turns_add (reserves : draft.Reserves) (line : Nat) (statement : Statement) :
    Turns draft line statement (draft.add line statement) := by
  cases statement with
  | delay | mouse | key | script | exit => exact .of_push trivial rfl
  | label name => exact turns_pushLabel
  | goto name => exact .of_pushJump rfl (.plain trivial)
  | leave =>
    simp only [add, leaveLoop]
    split
    · next block found =>
      exact .of_pushJump rfl (.leave (withinLoop_openings.trans (inLoop_of_find? found)))
    · next none =>
      refine .misplaced fun after moves => ?_
      cases moves with
      | plain plain => cases plain
      | leave inside =>
        rw [withinLoop_openings, inLoop, List.any_eq_true] at inside
        obtain ⟨block, member, loop⟩ := inside
        exact List.find?_eq_none.mp none block member loop
  | ifBlock condition negated =>
    obtain ⟨longer, opens, blocks, -, marks⟩ := @openIf_of_not_has draft line condition negated
      (reserves.ahead _ _ (Nat.le_refl _))
    rw [add, opens]
    exact .of_marks rfl rfl blocks .ifBlock marks
  | whileBlock condition negated =>
    obtain ⟨longer, opens, blocks, -, marks⟩ := @openWhile_of_not_has draft line condition negated
      (reserves.ahead _ _ (Nat.le_refl _)) (reserves.ahead _ _ (Nat.le_refl _))
    rw [add, opens]
    exact .of_marks rfl rfl blocks .whileBlock marks
  -- The innermost block is a conditional or a loop, and the statement belongs to it or not.
  | elseBlock =>
    rcases within : draft.blocks with _ | ⟨⟨_ | _, _ | _, number, opened⟩, outer⟩
    case elseBlock.cons.conditional.false =>
      obtain ⟨longer, goes, blocks, -, marks⟩ := @openElse_of_not_has draft line number opened outer
        (reserves.of_innermost within (by simp [OpenBlock.owes])) within
      rw [add, goes]
      exact .of_marks rfl within blocks .elseBlock marks
    all_goals
      rw [add, openElse, within]
      refine .misplaced fun after moves => ?_
      rw [openings, within] at moves
      cases moves
      contradiction
  | endIf =>
    rcases within : draft.blocks with _ | ⟨⟨_ | _, _ | _, number, opened⟩, outer⟩
    case endIf.cons.conditional.false =>
      obtain ⟨longer, closes, blocks, -, marks⟩ := closeIf_of_not_has
        (reserves.of_innermost within (by simp [OpenBlock.owes]))
        (reserves.of_innermost within (by simp [OpenBlock.owes])) within
      rw [add, closes]
      exact .of_marks rfl within blocks .endIf marks
    case endIf.cons.conditional.true =>
      obtain ⟨longer, closes, blocks, -, marks⟩ := closeElse_of_not_has
        (reserves.of_innermost within (by simp [OpenBlock.owes])) within
      rw [add, closes]
      exact .of_marks rfl within blocks .endIf marks
    all_goals
      rw [add, closeIf, within]
      refine .misplaced fun after moves => ?_
      rw [openings, within] at moves
      cases moves
      contradiction
  | endWhile =>
    rcases within : draft.blocks with _ | ⟨⟨_ | _, inElse, number, opened⟩, outer⟩
    case endWhile.cons.loop =>
      obtain ⟨longer, closes, blocks, -, marks⟩ := @closeWhile_of_not_has draft line number opened
        inElse outer (reserves.of_innermost within (by simp [OpenBlock.owes])) within
      rw [add, closes]
      exact .of_marks rfl within blocks .endWhile marks
    all_goals
      rw [add, closeWhile, within]
      refine .misplaced fun after moves => ?_
      rw [openings, within] at moves
      cases moves
      contradiction

/-! ## Statements one after the other -/

structure Follows (numbered : List (Nat × Statement)) (draft : Draft) : Prop where
  reserves : draft.Reserves
  moves : MovesAll numbered [] draft.openings
  gotos : draft.gotos = Script.gotos numbered
  has : ∀ name, isHidden name = false → (draft.Has (Text.lower name) ↔ Defines numbered name)
  distinct : ((labelNames (numbered.map Prod.snd)).map Text.lower).Nodup

theorem Follows.empty : Follows [] .empty where
  reserves := .empty
  moves := .nil
  gotos := rfl
  has _ _ := ⟨nofun, nofun⟩
  distinct := .nil

section

variable {numbered : List (Nat × Statement)} {statement : Statement}

theorem nodup_concat : ((labelNames ((numbered ++ [(line, statement)]).map Prod.snd)).map
      Text.lower).Nodup ↔
    ((labelNames (numbered.map Prod.snd)).map Text.lower).Nodup ∧
      ∀ label ∈ labelNames [statement], ¬ Defines numbered label := by
  rw [List.map_append, labelNames_append, List.map_append, List.nodup_append]
  cases statement with
  | label name =>
    have single : labelNames [.label name] = [name] := rfl
    simp [single, Defines]
  | _ => simp [labelNames]

theorem Follows.concat (follows : Follows numbered draft) (named : statement.IsNamed) :
    Yields (Follows (numbered ++ [(line, statement)])) (draft.add line statement) := by
  intro longer added
  have turns := turns_add follows.reserves line statement
  rw [added] at turns
  cases turns with
  | added moves has fresh =>
    refine ⟨(settles_add follows.reserves line named).reserves longer added,
      follows.moves.append (.cons moves .nil), ?_, fun name visible => ?_, ?_⟩
    · rw [gotos_add named longer added, follows.gotos, gotos_append]
    · rw [has name visible, follows.has name visible, defines_append, or_comm]
    · refine nodup_concat.mpr ⟨follows.distinct, fun label member defined => ?_⟩
      cases statement with
      | label name =>
        cases List.mem_singleton.mp member
        exact fresh label member ((follows.has label named.2).mpr defined)
      | _ => cases member

theorem addAll_concat : draft.addAll (numbered ++ [(line, statement)]) =
    draft.addAll numbered >>= fun longer => longer.add line statement := by
  rw [addAll, List.foldlM_append]
  exact bind_congr fun longer => bind_pure _

theorem follows_addAll (named : ∀ each ∈ numbered, each.2.IsNamed) :
    Yields (Follows numbered) (Draft.empty.addAll numbered) := by
  induction numbered using List.reverseRecOn with
  | nil => exact .ok .empty
  | append_singleton front last ih =>
    rw [addAll_concat]
    refine .bind (ih fun each member => named each (List.mem_append_left _ member)) ?_
    exact fun draft follows => follows.concat (named last (by simp))

theorem exists_addAll (named : ∀ each ∈ numbered, each.2.IsNamed) (fits : Fits numbered) :
    ∃ draft, Draft.empty.addAll numbered = .ok draft := by
  induction numbered using List.reverseRecOn with
  | nil => exact ⟨.empty, rfl⟩
  | append_singleton front last ih =>
    obtain ⟨line, statement⟩ := last
    obtain ⟨⟨after, all⟩, distinct⟩ := fits
    obtain ⟨between, first, moves⟩ := all.of_concat
    obtain ⟨before, fresh⟩ := nodup_concat.mp distinct
    have earlier : ∀ each ∈ front, each.2.IsNamed := fun each member =>
      named each (List.mem_append_left _ member)
    obtain ⟨draft, added⟩ := ih earlier ⟨⟨between, first⟩, before⟩
    have follows := follows_addAll earlier draft added
    rw [addAll_concat, added]
    change ∃ longer, draft.add line statement = .ok longer
    generalize result : draft.add line statement = outcome
    have turns := result ▸ turns_add follows.reserves line statement
    cases turns with
    | added => exact ⟨_, rfl⟩
    | misplaced never =>
      rw [first.unique follows.moves] at moves
      exact absurd moves (never after)
    | @taken name _ same had =>
      subst same
      have visible := (named (line, .label name) (by simp)).2
      exact absurd ((follows.has name visible).mp had) (fresh name List.mem_cons_self)

end

/-! ## The end -/

theorem find?_eq_none {label : String} : draft.find? label = none ↔
    ¬ draft.Has (Text.lower label) := by
  rw [find?, List.lookup_eq_none_iff]
  constructor
  · rintro none ⟨index, member⟩
    simpa using none _ member
  · intro fresh pair member
    rw [bne_iff_ne]
    intro same
    exact fresh ⟨pair.2, same ▸ member⟩

/-- The first jump without its label is what is wrong. -/
theorem resolve_eq_error {front back : List PendingJump} {jump : PendingJump}
    (split : draft.jumps = front ++ jump :: back)
    (lands : ∀ other ∈ front, draft.Has (Text.lower other.target))
    (missing : ¬ draft.Has (Text.lower jump.target)) :
    draft.resolve = .error ⟨.undefinedLabel jump.target jump.line, jump.line⟩ := by
  unfold resolve
  rw [split]
  clear split
  generalize draft.instructions = first
  induction front generalizing first with
  | nil =>
    rw [List.nil_append, List.foldlM_cons, find?_eq_none.mpr missing]
    rfl
  | cons other more ih =>
    obtain ⟨here, later⟩ := List.forall_mem_cons.mp lands
    rw [List.cons_append, List.foldlM_cons]
    cases looked : draft.find? other.target with
    | none => exact absurd here (find?_eq_none.mp looked)
    | some index => exact ih later _

theorem finish_open {block : Opening} {outer : List Opening}
    (leaves : draft.openings = block :: outer) :
    draft.finish = .error ⟨.unterminatedBlock block.kind block.line, block.line⟩ := by
  obtain ⟨innermost, _, blocks, rfl, -⟩ := List.map_eq_cons_iff.mp leaves
  unfold finish
  rw [blocks]
  rfl

namespace Follows

variable {numbered : List (Nat × Statement)} (follows : Follows numbered draft)

include follows

theorem goto_of_mem {jump : PendingJump} (member : jump ∈ draft.jumps)
    (visible : isHidden jump.target = false) : (jump.line, .goto jump.target) ∈ numbered := by
  rw [← mem_gotos, ← follows.gotos]
  exact List.mem_map_of_mem (List.mem_filter.mpr ⟨member, by rw [visible]; rfl⟩)

variable (named : ∀ each ∈ numbered, each.2.IsNamed)
  (added : Draft.empty.addAll numbered = .ok draft) (closed : draft.openings = [])

include named added closed

theorem hidden_lands {jump : PendingJump} (member : jump ∈ draft.jumps)
    (hidden : isHidden jump.target = true) : draft.Has (Text.lower jump.target) := by
  have leaves := leavesOpen_iff.mpr follows.moves
  rw [closed] at leaves
  obtain ⟨nested⟩ := leaves
  have room : Room (numbered.map Prod.snd) .empty :=
    { visible name member := by
        obtain ⟨each, stands, same⟩ := List.mem_map.mp (mem_labelNames.mp member)
        have visible := named each stands
        rw [same] at visible
        exact visible.2
      distinct := follows.distinct
      fresh _ _ := nofun
      ahead _ _ _ := nofun }
  obtain ⟨longer, completes⟩ := exists_completes nested rfl room nofun
  cases added.symm.trans completes.added
  rcases completes.grows.jumps jump member with none | goes | there | ⟨_, none, -⟩
  · cases none
  · obtain ⟨each, stands, same⟩ := List.mem_map.mp goes
    have visible := named each stands
    rw [same] at visible
    rw [visible.2] at hidden
    cases hidden
  · exact there
  · cases none

/-- A jump has its label unless it is a goto whose label is not defined. -/
theorem lands {jump : PendingJump} (member : jump ∈ draft.jumps)
    (defined : isHidden jump.target = false → Defines numbered jump.target) :
    draft.Has (Text.lower jump.target) := by
  cases visible : isHidden jump.target with
  | true => exact follows.hidden_lands named added closed member visible
  | false => exact (follows.has _ visible).mpr (defined visible)

theorem finish_defined (defined : JumpsLand (numbered.map Prod.snd)) :
    ∃ sequence, draft.finish = .ok sequence := by
  obtain ⟨instructions, resolved⟩ := exists_resolve fun jump member =>
    follows.lands named added closed member fun visible => defined jump.target
      (List.mem_map_of_mem (follows.goto_of_mem member visible))
  refine ⟨⟨instructions⟩, ?_⟩
  unfold finish
  rw [List.map_eq_nil_iff.mp closed, resolved]
  rfl

theorem finish_undefined {front back : List (Nat × Statement)} {line : Nat} {name : String}
    (split : numbered = front ++ (line, .goto name) :: back)
    (undefined : ¬ Defines numbered name)
    (earlier : ∀ other, .goto other ∈ front.map Prod.snd → Defines numbered other) :
    draft.finish = .error ⟨.undefinedLabel name line, line⟩ := by
  have visible : isHidden name = false :=
    (named (line, .goto name) (by simp [split])).2
  -- The gotos are the visible jumps, so they come in this order among all jumps.
  have order := follows.gotos
  rw [split, gotos_append] at order
  obtain ⟨left, _, parts, first, rest⟩ := List.map_eq_append_iff.mp order
  obtain ⟨jump, right, rfl, same, -⟩ := List.map_eq_cons_iff.mp rest
  obtain ⟨before, _, whole, rfl, behind⟩ := List.filter_eq_append_iff.mp parts
  obtain ⟨between, after, rfl, hidden, -, -⟩ := List.filter_eq_cons_iff.mp behind
  obtain ⟨rfl, rfl⟩ := Prod.mk.inj same
  have error := @resolve_eq_error draft (before ++ between) after jump
    (by rw [whole, List.append_assoc]) (fun other member => ?_)
    (mt (follows.has _ visible).mp undefined)
  · unfold finish
    rw [List.map_eq_nil_iff.mp closed, error]
    rfl
  · have inside : other ∈ draft.jumps := by
      rw [whole, ← List.append_assoc]
      exact List.mem_append_left _ member
    refine follows.lands named added closed inside fun visible => ?_
    rcases List.mem_append.mp member with written | unwritten
    · have goto : (other.line, other.target) ∈ Script.gotos front := by
        rw [← first]
        exact List.mem_map_of_mem (List.mem_filter.mpr ⟨written, by rw [visible]; rfl⟩)
      exact earlier _ (List.mem_map_of_mem (mem_gotos.mp goto))
    · exact absurd (by rw [visible]; rfl) (hidden other unwritten)

end Follows

end Draft

end InputTape.Script
