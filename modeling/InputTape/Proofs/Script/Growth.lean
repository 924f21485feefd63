import InputTape.Proofs.Script.Grammar
import InputTape.Proofs.Script.Marks

/-! What is nested can be laid out.

A draft only fails to grow where a label is there already or no block is open. Labels of a script
are told apart by their names, and labels of blocks by the numbers that the blocks have. So the
statements of a script are all added if they are nested, and no two labels are the same.
-/

set_option autoImplicit false

namespace InputTape.Script

namespace Draft

variable {draft between longer : Draft}

/-! ## What is new -/

/-- What is new in a draft are labels of the statements and of blocks in a range, and jumps of the
statements, to labels that are there, or to labels that are pending. -/
structure Grows (statements : List Statement) (low high : Nat) (pending : String → Prop)
    (draft longer : Draft) : Prop where
  keeps : ∀ key, draft.Has key → longer.Has key
  named : ∀ name ∈ labelNames statements, longer.Has (Text.lower name)
  labels : ∀ key, longer.Has key → draft.Has key ∨
    (∃ name ∈ labelNames statements, key = Text.lower name) ∨
    ∃ landmark number, key = hiddenLabel landmark number ∧ low ≤ number ∧ number < high
  jumps : ∀ jump ∈ longer.jumps, jump ∈ draft.jumps ∨ .goto jump.target ∈ statements ∨
    longer.Has (Text.lower jump.target) ∨ pending jump.target

namespace Grows

variable {first second : List Statement} {low high low' high' : Nat} {pending pending' : String → Prop}

theorem trans (left : Grows first low high pending draft between)
    (right : Grows second low high pending between longer) :
    Grows (first ++ second) low high pending draft longer where
  keeps key had := right.keeps key (left.keeps key had)
  named name member := by
    rw [labelNames_append, List.mem_append] at member
    rcases member with before | here
    · exact right.keeps _ (left.named name before)
    · exact right.named name here
  labels key has := by
    simp only [labelNames_append, List.mem_append, or_and_right, exists_or]
    rcases right.labels key has with had | new | block
    · rcases left.labels key had with had | new | block
      · exact .inl had
      · exact .inr (.inl (.inl new))
      · exact .inr (.inr block)
    · exact .inr (.inl (.inr new))
    · exact .inr (.inr block)
  jumps jump member := by
    rw [List.mem_append]
    rcases right.jumps jump member with before | new | there | pends
    · rcases left.jumps jump before with before | new | there | pends
      · exact .inl before
      · exact .inr (.inl (.inl new))
      · exact .inr (.inr (.inl (right.keeps _ there)))
      · exact .inr (.inr (.inr pends))
    · exact .inr (.inl (.inr new))
    · exact .inr (.inr (.inl there))
    · exact .inr (.inr (.inr pends))

theorem mono (grows : Grows first low high pending draft longer) (lower : low' ≤ low)
    (higher : high ≤ high')
    (settles : ∀ target, pending target → longer.Has (Text.lower target) ∨ pending' target) :
    Grows first low' high' pending' draft longer where
  keeps := grows.keeps
  named := grows.named
  labels key has := by
    rcases grows.labels key has with had | new | ⟨landmark, number, same, above, below⟩
    · exact .inl had
    · exact .inr (.inl new)
    · exact .inr (.inr ⟨landmark, number, same, Nat.le_trans lower above,
        Nat.lt_of_lt_of_le below higher⟩)
  jumps jump member := by
    rcases grows.jumps jump member with before | new | there | pends
    · exact .inl before
    · exact .inr (.inl new)
    · exact .inr (.inr (.inl there))
    · exact .inr (.inr (settles _ pends))

theorem not_has (grows : Grows first low high pending draft longer)
    (visible : ∀ name ∈ labelNames first, isHidden name = false) {landmark : Landmark}
    {number : Nat} (outside : number < low ∨ high ≤ number)
    (fresh : ¬ draft.Has (hiddenLabel landmark number)) :
    ¬ longer.Has (hiddenLabel landmark number) := by
  intro has
  rcases grows.labels _ has with had | ⟨name, member, same⟩ | ⟨_, other, same, above, below⟩
  · exact fresh had
  · rw [← lower_hiddenLabel] at same
    exact lower_ne_hiddenLabel (visible name member) landmark number same.symm
  · obtain ⟨-, rfl⟩ := hiddenLabel_injective same
    omega

end Grows

/-- The labels of a block are new labels, and a jump within it is pending. -/
theorem Marks.grows {landmarks : List Landmark} {targets : List String} {number : Nat}
    {pending : String → Prop} (marks : Marks landmarks targets number draft longer)
    {statement : Statement} (unnamed : labelNames [statement] = [])
    (pends : ∀ target ∈ targets, pending target) :
    Grows [statement] number (number + 1) pending draft longer where
  keeps key had := (marks.has key).mpr (.inr had)
  named name member := by
    rw [unnamed] at member
    cases member
  labels key has := by
    rcases (marks.has key).mp has with ⟨landmark, -, same⟩ | had
    · exact .inr (.inr ⟨landmark, number, same, Nat.le_refl _, Nat.lt_succ_self _⟩)
    · exact .inl had
  jumps jump member := by
    rcases marks.jumps jump member with before | new
    · exact .inl before
    · exact .inr (.inr (.inr (pends _ new)))

structure Room (statements : List Statement) (draft : Draft) : Prop where
  visible : ∀ name ∈ labelNames statements, isHidden name = false
  distinct : ((labelNames statements).map Text.lower).Nodup
  fresh : ∀ name ∈ labelNames statements, ¬ draft.Has (Text.lower name)
  ahead : ∀ landmark number, draft.nextBlock ≤ number → ¬ draft.Has (hiddenLabel landmark number)

namespace Room

variable {first second : List Statement}

theorem front (room : Room (first ++ second) draft) : Room first draft where
  visible name member := room.visible name (by simp [labelNames_append, member])
  distinct := by
    have distinct := room.distinct
    rw [labelNames_append, List.map_append, List.nodup_append] at distinct
    exact distinct.1
  fresh name member := room.fresh name (by simp [labelNames_append, member])
  ahead := room.ahead

theorem behind (room : Room (first ++ second) draft) {high : Nat} {pending : String → Prop}
    (grows : Grows first draft.nextBlock high pending draft longer)
    (next : high ≤ longer.nextBlock) (later : draft.nextBlock ≤ longer.nextBlock) :
    Room second longer where
  visible name member := room.visible name (by simp [labelNames_append, member])
  distinct := by
    have distinct := room.distinct
    rw [labelNames_append, List.map_append, List.nodup_append] at distinct
    exact distinct.2.1
  fresh name member has := by
    have behind : name ∈ labelNames (first ++ second) := by simp [labelNames_append, member]
    rcases grows.labels _ has with had | ⟨other, before, same⟩ | ⟨landmark, number, same, -⟩
    · exact room.fresh name behind had
    · have distinct := room.distinct
      rw [labelNames_append, List.map_append, List.nodup_append] at distinct
      exact distinct.2.2 _ (List.mem_map_of_mem before) _ (List.mem_map_of_mem member) same.symm
    · rw [← lower_hiddenLabel] at same
      exact lower_ne_hiddenLabel (room.visible name behind) landmark number same
  ahead landmark number above :=
    grows.not_has room.front.visible (.inr (Nat.le_trans next above))
      (room.ahead landmark number (Nat.le_trans later above))

end Room

/-! ## Lists of statements -/

def addAll (draft : Draft) (numbered : List (Nat × Statement)) : Except Problem Draft :=
  numbered.foldlM (fun draft each => draft.add each.1 each.2) draft

def Leaves (blocks : List OpenBlock) (target : String) : Prop :=
  ∃ block, blocks.find? (·.kind == .loop) = some block ∧
    target = hiddenLabel .endWhile block.number

/-- All statements are added, and no block is open behind them that was not in front of them. -/
structure Completes (numbered : List (Nat × Statement)) (draft longer : Draft) : Prop where
  added : draft.addAll numbered = .ok longer
  blocks : longer.blocks = draft.blocks
  next : draft.nextBlock ≤ longer.nextBlock
  grows : Grows (numbered.map Prod.snd) draft.nextBlock longer.nextBlock (Leaves draft.blocks)
    draft longer

theorem addAll_append {front back : List (Nat × Statement)}
    (added : draft.addAll front = .ok between) :
    draft.addAll (front ++ back) = between.addAll back := by
  rw [addAll, List.foldlM_append]
  change (draft.addAll front >>= _) = _
  rw [added]
  rfl

theorem addAll_cons {line : Nat} {statement : Statement} {rest : List (Nat × Statement)}
    (added : draft.add line statement = .ok between) :
    draft.addAll ((line, statement) :: rest) = between.addAll rest := by
  rw [addAll, List.foldlM_cons, added]
  rfl

theorem Completes.nothing : Completes [] draft draft where
  added := rfl
  blocks := rfl
  next := Nat.le_refl _
  grows :=
    { keeps _ := id
      named := nofun
      labels _ := .inl
      jumps _ := .inl }

theorem Completes.append {front back : List (Nat × Statement)}
    (first : Completes front draft between) (second : Completes back between longer) :
    Completes (front ++ back) draft longer where
  added := (addAll_append first.added).trans second.added
  blocks := second.blocks.trans first.blocks
  next := Nat.le_trans first.next second.next
  grows := by
    have leaves := first.blocks ▸ second.grows
    rw [List.map_append]
    exact (first.grows.mono (Nat.le_refl _) second.next fun _ => .inr).trans
      (leaves.mono first.next (Nat.le_refl _) fun _ => .inr)

theorem grows_pushJump {statement : Statement} (unnamed : labelNames [statement] = [])
    {target : String} {line low : Nat} {pending : String → Prop}
    (lands : statement = .goto target ∨ pending target) :
    Grows [statement] low low pending draft (draft.pushJump line target) where
  keeps _ := id
  named name member := by
    rw [unnamed] at member
    cases member
  labels _ := .inl
  jumps jump member := by
    rcases List.mem_append.mp member with old | new
    · exact .inl old
    · cases List.mem_singleton.mp new
      rcases lands with rfl | pends
      · exact .inr (.inl List.mem_cons_self)
      · exact .inr (.inr (.inr pends))

theorem grows_push {statement : Statement} (unnamed : labelNames [statement] = [])
    {operation : Operation} {low : Nat} {pending : String → Prop} :
    Grows [statement] low low pending draft (draft.push operation) where
  keeps _ := id
  named name member := by
    rw [unnamed] at member
    cases member
  labels _ := .inl
  jumps _ := .inl

theorem completes_plain {statement : Statement} (plain : statement.IsPlain) {line : Nat}
    (room : Room [statement] draft) : ∃ longer, Completes [(line, statement)] draft longer := by
  cases statement with
  | label name =>
    have fresh := room.fresh name List.mem_cons_self
    refine ⟨_, addAll_cons (pushLabel_of_not_has fresh), rfl, Nat.le_refl _, ?_, ?_, ?_, ?_⟩
    · rintro key ⟨index, member⟩
      exact ⟨index, List.mem_cons_of_mem _ member⟩
    · intro other member
      cases List.mem_singleton.mp member
      exact ⟨_, List.mem_cons_self⟩
    · rintro key ⟨index, member⟩
      rcases List.mem_cons.mp member with new | old
      · cases new
        exact .inr (.inl ⟨name, List.mem_cons_self, rfl⟩)
      · exact .inl ⟨index, old⟩
    · exact fun jump => .inl
  | goto name =>
    exact ⟨_, addAll_cons rfl, rfl, Nat.le_refl _, grows_pushJump rfl (.inl rfl)⟩
  | delay | mouse | key | script | exit =>
    exact ⟨_, addAll_cons rfl, rfl, Nat.le_refl _, grows_push rfl⟩
  | _ => cases plain

theorem completes_leave {block : OpenBlock} {line : Nat}
    (inside : draft.blocks.find? (·.kind == .loop) = some block) :
    ∃ longer, Completes [(line, .leave)] draft longer := by
  refine ⟨draft.pushJump line (hiddenLabel .endWhile block.number), addAll_cons ?_, rfl,
    Nat.le_refl _, grows_pushJump rfl (.inr ⟨block, inside, rfl⟩)⟩
  rw [add, leaveLoop, inside]

section Blocks

variable {line last : Nat} {condition : Condition} {negated : Bool}
  {body other : List (Nat × Statement)}

theorem completes_conditional
    (room : Room (.ifBlock condition negated :: body.map Prod.snd ++ [.endIf]) draft)
    (within : ∀ {opened : Draft}, Room (body.map Prod.snd) opened →
      opened.blocks.find? (·.kind == .loop) = draft.blocks.find? (·.kind == .loop) →
      ∃ inner, Completes body opened inner) :
    ∃ longer, Completes ((line, .ifBlock condition negated) :: body ++ [(last, .endIf)]) draft
      longer := by
  have ahead (landmark : Landmark) := room.ahead landmark draft.nextBlock (Nat.le_refl _)
  obtain ⟨opened, opens, outside, next, marks⟩ :=
    @openIf_of_not_has draft line condition negated (ahead .thenPart)
  have leaves (target : String) : Leaves opened.blocks target → Leaves draft.blocks target := by
    rw [outside]
    exact id
  have start := @Marks.grows _ _ _ _ _ (Leaves draft.blocks) marks
    (.ifBlock condition negated) rfl nofun
  have rest : Room (body.map Prod.snd ++ [.endIf]) opened := by
    refine @Room.behind _ _ [_] _ room _ _ start ?_ ?_ <;> omega
  obtain ⟨inner, inside⟩ := within rest.front (by rw [outside]; rfl)
  have unmarked {landmark : Landmark} (new : landmark ∉ [Landmark.thenPart]) :
      ¬ inner.Has (hiddenLabel landmark draft.nextBlock) :=
    inside.grows.not_has rest.front.visible (.inl (by omega)) (marks.not_has new (ahead landmark))
  -- The landmarks behind the block are still free: the statements inside name later blocks only.
  obtain ⟨closed, closes, blocks, after, marks'⟩ := closeIf_of_not_has (unmarked (by simp))
    (unmarked (by simp)) (inside.blocks.trans outside)
  have later := inside.next
  refine ⟨closed, ?_, blocks, by omega, ?_⟩
  · exact (@addAll_cons _ _ line (.ifBlock condition negated) _ opens).trans
      ((addAll_append inside.added).trans (@addAll_cons _ _ last .endIf _ closes))
  · have done := @Marks.grows _ _ _ _ _ (Leaves draft.blocks) marks' .endIf rfl nofun
    have all := ((start.mono (Nat.le_refl _) (by omega : _ ≤ closed.nextBlock)
      fun _ => .inr).trans (inside.grows.mono (by omega) (by omega) fun target pends =>
        .inr (leaves target pends))).trans (done.mono (Nat.le_refl _) (by omega) fun _ => .inr)
    simpa using all

theorem completes_alternative {middle : Nat}
    (room : Room (.ifBlock condition negated :: body.map Prod.snd ++ .elseBlock ::
      other.map Prod.snd ++ [.endIf]) draft)
    (within : ∀ {opened : Draft}, Room (body.map Prod.snd) opened →
      opened.blocks.find? (·.kind == .loop) = draft.blocks.find? (·.kind == .loop) →
      ∃ inner, Completes body opened inner)
    (without : ∀ {opened : Draft}, Room (other.map Prod.snd) opened →
      opened.blocks.find? (·.kind == .loop) = draft.blocks.find? (·.kind == .loop) →
      ∃ inner, Completes other opened inner) :
    ∃ longer, Completes ((line, .ifBlock condition negated) :: body ++ (middle, .elseBlock) ::
      other ++ [(last, .endIf)]) draft longer := by
  have ahead (landmark : Landmark) := room.ahead landmark draft.nextBlock (Nat.le_refl _)
  obtain ⟨opened, opens, outside, next, marks⟩ :=
    @openIf_of_not_has draft line condition negated (ahead .thenPart)
  have start := @Marks.grows _ _ _ _ _
    (fun target => Leaves draft.blocks target ∨ target = hiddenLabel .endIf draft.nextBlock) marks
    (.ifBlock condition negated) rfl nofun
  have rest : Room (body.map Prod.snd ++ .elseBlock :: other.map Prod.snd ++ [.endIf]) opened := by
    refine @Room.behind _ _ [_] _ room _ _ start ?_ ?_ <;> omega
  rw [List.append_assoc] at rest
  obtain ⟨inner, inside⟩ := within rest.front (by rw [outside]; rfl)
  have unmarked {landmark : Landmark} (new : landmark ∉ [Landmark.thenPart]) :
      ¬ inner.Has (hiddenLabel landmark draft.nextBlock) :=
    inside.grows.not_has rest.front.visible (.inl (by omega)) (marks.not_has new (ahead landmark))
  obtain ⟨turned, turns, outside', next', marks'⟩ := @openElse_of_not_has _ middle _ _ _
    (unmarked (by simp)) (inside.blocks.trans outside)
  have later := inside.next
  have turn := @Marks.grows _ _ _ _ _
    (fun target => Leaves draft.blocks target ∨ target = hiddenLabel .endIf draft.nextBlock) marks'
    .elseBlock rfl fun target member => .inr (List.mem_singleton.mp member)
  have first := ((start.mono (Nat.le_refl _) (by omega : _ ≤ turned.nextBlock)
    fun _ => .inr).trans (inside.grows.mono (by omega) (by omega) fun target leaves =>
      .inr (.inl (by rw [outside] at leaves; exact leaves)))).trans
    (turn.mono (Nat.le_refl _) (by omega) fun _ => .inr)
  have rest' : Room (other.map Prod.snd ++ [.endIf]) turned := by
    refine @Room.behind _ _ (.ifBlock condition negated :: body.map Prod.snd ++ [.elseBlock]) _
      (by simpa using room) _ _ first (Nat.le_refl _) ?_
    omega
  obtain ⟨last', inside'⟩ := without rest'.front (by rw [outside']; rfl)
  have later' := inside'.next
  have unmarked' : ¬ last'.Has (hiddenLabel .endIf draft.nextBlock) :=
    inside'.grows.not_has rest'.front.visible (.inl (by omega))
      (marks'.not_has (by simp) (unmarked (by simp)))
  obtain ⟨closed, closes, blocks, after, marks''⟩ := closeElse_of_not_has unmarked'
    (inside'.blocks.trans outside')
  refine ⟨closed, ?_, blocks, by omega, ?_⟩
  · rw [List.append_assoc]
    exact (@addAll_cons _ _ line (.ifBlock condition negated) _ opens).trans
      ((addAll_append inside.added).trans ((@addAll_cons _ _ middle .elseBlock _ turns).trans
        ((addAll_append inside'.added).trans (@addAll_cons _ _ last .endIf _ closes))))
  · have done := @Marks.grows _ _ _ _ _
      (fun target => Leaves draft.blocks target ∨ target = hiddenLabel .endIf draft.nextBlock)
      marks'' .endIf rfl nofun
    have all := ((first.mono (Nat.le_refl _) (by omega : _ ≤ closed.nextBlock)
      fun _ => .inr).trans (inside'.grows.mono (by omega) (by omega) fun target leaves =>
        .inr (.inl (by rw [outside'] at leaves; exact leaves)))).trans
      (done.mono (Nat.le_refl _) (by omega) fun _ => .inr)
    -- The jump over the else part goes to a label that is there by now.
    have settled := @Grows.mono _ _ _ _ _ _ _ _ (Leaves draft.blocks) all (Nat.le_refl _)
      (Nat.le_refl _) fun target pends => by
        rcases pends with leaves | rfl
        · exact .inr leaves
        · rw [lower_hiddenLabel]
          exact .inl ((marks''.has _).mpr (.inl ⟨_, List.mem_cons_self, rfl⟩))
    simpa using settled

theorem completes_loop
    (room : Room (.whileBlock condition negated :: body.map Prod.snd ++ [.endWhile]) draft)
    (within : ∀ {opened : Draft} {block : OpenBlock}, Room (body.map Prod.snd) opened →
      opened.blocks.find? (·.kind == .loop) = some block → ∃ inner, Completes body opened inner) :
    ∃ longer, Completes ((line, .whileBlock condition negated) :: body ++ [(last, .endWhile)]) draft
      longer := by
  have ahead (landmark : Landmark) := room.ahead landmark draft.nextBlock (Nat.le_refl _)
  obtain ⟨opened, opens, outside, next, marks⟩ :=
    @openWhile_of_not_has draft line condition negated (ahead .test) (ahead .body)
  let pending (target : String) : Prop :=
    target = hiddenLabel .endWhile draft.nextBlock ∨ target = hiddenLabel .test draft.nextBlock
  have start := @Marks.grows _ _ _ _ _ pending marks (.whileBlock condition negated) rfl nofun
  have rest : Room (body.map Prod.snd ++ [.endWhile]) opened := by
    refine @Room.behind _ _ [_] _ room _ _ start ?_ ?_ <;> omega
  obtain ⟨inner, inside⟩ := within rest.front (by rw [outside]; rfl)
  have unmarked : ¬ inner.Has (hiddenLabel .endWhile draft.nextBlock) :=
    inside.grows.not_has rest.front.visible (.inl (by omega)) (marks.not_has (by simp) (ahead _))
  obtain ⟨closed, closes, blocks, after, marks'⟩ := @closeWhile_of_not_has _ last _ _ _ _ unmarked
    (inside.blocks.trans outside)
  have later := inside.next
  refine ⟨closed, ?_, blocks, by omega, ?_⟩
  · exact (@addAll_cons _ _ line (.whileBlock condition negated) _ opens).trans
      ((addAll_append inside.added).trans (@addAll_cons _ _ last .endWhile _ closes))
  · have leaves {target : String} (leaves : Leaves opened.blocks target) : pending target := by
      rw [outside] at leaves
      obtain ⟨_, ⟨⟩, rfl⟩ := leaves
      exact .inl rfl
    have done := @Marks.grows _ _ _ _ _ pending marks' .endWhile rfl fun target member =>
      .inr (List.mem_singleton.mp member)
    have all := ((start.mono (Nat.le_refl _) (by omega : _ ≤ closed.nextBlock)
      fun _ => .inr).trans (inside.grows.mono (by omega) (by omega) fun _ pends =>
        .inr (leaves pends))).trans (done.mono (Nat.le_refl _) (by omega) fun _ => .inr)
    have tested := inside.grows.keeps _
      ((marks.has _).mpr (.inl ⟨.test, List.mem_cons_self, rfl⟩))
    -- Jumps out of the loop go behind it, and the one at its end to where it is tested.
    have settled := @Grows.mono _ _ _ _ _ _ _ _ (Leaves draft.blocks) all (Nat.le_refl _)
      (Nat.le_refl _) fun target pends => by
        rcases pends with rfl | rfl
        · rw [lower_hiddenLabel]
          exact .inl ((marks'.has _).mpr (.inl ⟨_, List.mem_cons_self, rfl⟩))
        · rw [lower_hiddenLabel]
          exact .inl ((marks'.has _).mpr (.inr tested))
    simpa using settled

end Blocks

theorem Completes.behind {front back : List (Nat × Statement)} {inside : Bool}
    (first : Completes front draft between) (room : Room ((front ++ back).map Prod.snd) draft)
    (loop : inside = true → ∃ block, draft.blocks.find? (·.kind == .loop) = some block)
    (rest : Room (back.map Prod.snd) between →
      (inside = true → ∃ block, between.blocks.find? (·.kind == .loop) = some block) →
      ∃ longer, Completes back between longer) :
    ∃ longer, Completes (front ++ back) draft longer := by
  rw [List.map_append] at room
  obtain ⟨longer, second⟩ :=
    rest (room.behind first.grows (Nat.le_refl _) first.next) (first.blocks ▸ loop)
  exact ⟨longer, first.append second⟩

theorem exists_split {numbered : List (Nat × Statement)} {front back : List Statement}
    {middle : Statement} (same : numbered.map Prod.snd = front ++ middle :: back) :
    ∃ before line behind, numbered = before ++ (line, middle) :: behind ∧
      before.map Prod.snd = front ∧ behind.map Prod.snd = back := by
  obtain ⟨before, _, rfl, first, second⟩ := List.map_eq_append_iff.mp same
  obtain ⟨⟨line, _⟩, behind, rfl, rfl, rest⟩ := List.map_eq_cons_iff.mp second
  exact ⟨before, line, behind, rfl, first, rest⟩

/-- Nested statements are added whatever their lines are. -/
theorem exists_completes {inside : Bool} {statements : List Statement}
    (nested : Nested inside statements) {numbered : List (Nat × Statement)}
    (same : numbered.map Prod.snd = statements) (room : Room statements draft)
    (loop : inside = true → ∃ block, draft.blocks.find? (·.kind == .loop) = some block) :
    ∃ longer, Completes numbered draft longer := by
  -- Along the nesting: what was laid out leaves room for the rest, and every block is closed again.
  induction nested generalizing numbered draft with
  | nil =>
    cases List.map_eq_nil_iff.mp same
    exact ⟨draft, .nothing⟩
  | @plain inside statement rest plain _ ih =>
    obtain ⟨⟨line, _⟩, more, rfl, rfl, rfl⟩ := List.map_eq_cons_iff.mp same
    obtain ⟨between, first⟩ := completes_plain plain (@Room.front _ [_] _ room)
    exact first.behind room loop (ih rfl)
  | leave _ ih =>
    obtain ⟨⟨line, _⟩, more, rfl, rfl, rfl⟩ := List.map_eq_cons_iff.mp same
    obtain ⟨block, found⟩ := loop rfl
    obtain ⟨between, first⟩ := completes_leave found
    exact first.behind room loop (ih rfl)
  | @conditional inside negated condition body rest _ _ within ih =>
    obtain ⟨⟨line, _⟩, _, rfl, rfl, tail⟩ := List.map_eq_cons_iff.mp same
    obtain ⟨body, last, more, rfl, rfl, rfl⟩ := exists_split tail
    have front : Room (.ifBlock condition negated :: body.map Prod.snd ++ [.endIf]) draft :=
      @Room.front _ _ (more.map Prod.snd) (by simpa using room)
    obtain ⟨between, first⟩ := @completes_conditional _ line last _ _ _ front
      fun {opened} room same => within rfl room fun looping => same ▸ loop looping
    simpa using first.behind (by simpa using room) loop (ih rfl)
  | @alternative inside negated condition body other rest _ _ _ within without ih =>
    obtain ⟨⟨line, _⟩, _, rfl, rfl, tail⟩ := List.map_eq_cons_iff.mp same
    obtain ⟨body, middle, _, rfl, rfl, later⟩ := exists_split (tail.trans (List.append_assoc ..))
    obtain ⟨other, last, more, rfl, rfl, rfl⟩ := exists_split later
    have front : Room (.ifBlock condition negated :: body.map Prod.snd ++ .elseBlock ::
        other.map Prod.snd ++ [.endIf]) draft :=
      @Room.front _ _ (more.map Prod.snd) (by simpa using room)
    obtain ⟨between, first⟩ := @completes_alternative _ line last _ _ _ _ middle front
      (fun {opened} room same => within rfl room fun looping => same ▸ loop looping)
      fun {opened} room same => without rfl room fun looping => same ▸ loop looping
    simpa using first.behind (by simpa using room) loop (ih rfl)
  | @loop inside negated condition body rest _ _ within ih =>
    obtain ⟨⟨line, _⟩, _, rfl, rfl, tail⟩ := List.map_eq_cons_iff.mp same
    obtain ⟨body, last, more, rfl, rfl, rfl⟩ := exists_split tail
    have front : Room (.whileBlock condition negated :: body.map Prod.snd ++ [.endWhile]) draft :=
      @Room.front _ _ (more.map Prod.snd) (by simpa using room)
    obtain ⟨between, first⟩ := @completes_loop _ line last _ _ _ front
      fun {opened block} room found => within rfl room fun _ => ⟨block, found⟩
    simpa using first.behind (by simpa using room) loop (ih rfl)

end Draft

end InputTape.Script
