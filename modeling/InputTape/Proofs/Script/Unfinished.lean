import InputTape.Proofs.Script.Growth
import Mathlib.Data.List.Induction

/-! Scripts that end within blocks.

`LeavesOpen` is the grammar of a script that may still go on: nested statements, with blocks around
the last of them that are opened and not closed. `Moves` says what a single statement does to the
blocks that are open. A script leaves the blocks open that its statements, one after the other, have
left open.
-/

set_option autoImplicit false

namespace InputTape.Script

/-- A block that is open: what opened it, on which line, and whether its else part has begun. -/
structure Opening where
  kind : BlockKind
  inElse : Bool
  line : Nat
  deriving DecidableEq, Repr

def withinLoop (blocks : List Opening) : Bool := blocks.any (·.kind == .loop)

/-- Statements with their lines leave blocks open, the innermost first. -/
inductive LeavesOpen : List (Nat × Statement) → List Opening → Prop where
  | outside {numbered : List (Nat × Statement)} : Nested false (numbered.map Prod.snd) →
      LeavesOpen numbered []
  | conditional {front body : List (Nat × Statement)} {outer : List Opening} {line : Nat}
      {condition : Condition} {negated : Bool} : LeavesOpen front outer →
      Nested (withinLoop outer) (body.map Prod.snd) →
      LeavesOpen (front ++ (line, .ifBlock condition negated) :: body)
        (⟨.conditional, false, line⟩ :: outer)
  | alternative {front body other : List (Nat × Statement)} {outer : List Opening}
      {line middle : Nat} {condition : Condition} {negated : Bool} : LeavesOpen front outer →
      Nested (withinLoop outer) (body.map Prod.snd) →
      Nested (withinLoop outer) (other.map Prod.snd) →
      LeavesOpen (front ++ (line, .ifBlock condition negated) :: body ++ (middle, .elseBlock) :: other)
        (⟨.conditional, true, line⟩ :: outer)
  | loop {front body : List (Nat × Statement)} {outer : List Opening} {line : Nat}
      {condition : Condition} {negated : Bool} : LeavesOpen front outer →
      Nested true (body.map Prod.snd) →
      LeavesOpen (front ++ (line, .whileBlock condition negated) :: body)
        (⟨.loop, false, line⟩ :: outer)

inductive Moves (line : Nat) : Statement → List Opening → List Opening → Prop where
  | plain {statement : Statement} {blocks : List Opening} : statement.IsPlain →
      Moves line statement blocks blocks
  | leave {blocks : List Opening} : withinLoop blocks = true → Moves line .leave blocks blocks
  | ifBlock {condition : Condition} {negated : Bool} {blocks : List Opening} :
      Moves line (.ifBlock condition negated) blocks (⟨.conditional, false, line⟩ :: blocks)
  | elseBlock {opened : Nat} {outer : List Opening} :
      Moves line .elseBlock (⟨.conditional, false, opened⟩ :: outer)
        (⟨.conditional, true, opened⟩ :: outer)
  | endIf {inElse : Bool} {opened : Nat} {outer : List Opening} :
      Moves line .endIf (⟨.conditional, inElse, opened⟩ :: outer) outer
  | whileBlock {condition : Condition} {negated : Bool} {blocks : List Opening} :
      Moves line (.whileBlock condition negated) blocks (⟨.loop, false, line⟩ :: blocks)
  | endWhile {inElse : Bool} {opened : Nat} {outer : List Opening} :
      Moves line .endWhile (⟨.loop, inElse, opened⟩ :: outer) outer

inductive MovesAll : List (Nat × Statement) → List Opening → List Opening → Prop where
  | nil {blocks : List Opening} : MovesAll [] blocks blocks
  | cons {line : Nat} {statement : Statement} {rest : List (Nat × Statement)}
      {before between after : List Opening} : Moves line statement before between →
      MovesAll rest between after → MovesAll ((line, statement) :: rest) before after

/-! ## Statements one after the other -/

theorem Moves.unique {line : Nat} {statement : Statement} {before after other : List Opening}
    (first : Moves line statement before after) (second : Moves line statement before other) :
    after = other := by
  cases first with
  | plain plain =>
    cases second with
    | plain => rfl
    | _ => cases plain
  | _ =>
    cases second with
    | plain plain => cases plain
    | _ => rfl

namespace MovesAll

variable {front back : List (Nat × Statement)} {before between after : List Opening}

theorem append (first : MovesAll front before between) (second : MovesAll back between after) :
    MovesAll (front ++ back) before after := by
  induction first with
  | nil => exact second
  | cons moves _ ih => exact .cons moves (ih second)

theorem of_append (all : MovesAll (front ++ back) before after) :
    ∃ between, MovesAll front before between ∧ MovesAll back between after := by
  induction front generalizing before with
  | nil => exact ⟨before, .nil, all⟩
  | cons first more ih =>
    cases all with
    | cons moves rest =>
      obtain ⟨between, left, right⟩ := ih rest
      exact ⟨between, .cons moves left, right⟩

theorem of_concat {line : Nat} {statement : Statement}
    (all : MovesAll (front ++ [(line, statement)]) before after) :
    ∃ between, MovesAll front before between ∧ Moves line statement between after := by
  obtain ⟨between, first, last⟩ := all.of_append
  cases last with
  | cons moves rest =>
    cases rest
    exact ⟨between, first, moves⟩

theorem unique {other : List Opening} (first : MovesAll front before after)
    (second : MovesAll front before other) : after = other := by
  induction first with
  | nil =>
    cases second
    rfl
  | cons moves _ ih =>
    cases second with
    | cons again rest =>
      cases moves.unique again
      exact ih rest

end MovesAll

/-- Nested statements leave open what was open in front of them. -/
theorem Nested.movesAll {inside : Bool} {statements : List Statement}
    (nested : Nested inside statements) {numbered : List (Nat × Statement)}
    (same : numbered.map Prod.snd = statements) {blocks : List Opening}
    (loop : inside = true → withinLoop blocks = true) : MovesAll numbered blocks blocks := by
  -- What is nested well leaves the open blocks as they were.
  induction nested generalizing numbered blocks with
  | nil =>
    cases List.map_eq_nil_iff.mp same
    exact .nil
  | plain plain _ ih =>
    obtain ⟨⟨line, _⟩, more, rfl, rfl, rfl⟩ := List.map_eq_cons_iff.mp same
    exact .cons (.plain plain) (ih rfl loop)
  | leave _ ih =>
    obtain ⟨⟨line, _⟩, more, rfl, rfl, rfl⟩ := List.map_eq_cons_iff.mp same
    exact .cons (.leave (loop rfl)) (ih rfl loop)
  | conditional _ _ within ih =>
    obtain ⟨⟨line, _⟩, _, rfl, rfl, tail⟩ := List.map_eq_cons_iff.mp same
    obtain ⟨body, last, more, rfl, rfl, rfl⟩ := Draft.exists_split tail
    have inner : MovesAll body (⟨.conditional, false, line⟩ :: blocks)
        (⟨.conditional, false, line⟩ :: blocks) := within rfl loop
    exact .cons .ifBlock (inner.append (.cons .endIf (ih rfl loop)))
  | alternative _ _ _ within without ih =>
    obtain ⟨⟨line, _⟩, _, rfl, rfl, tail⟩ := List.map_eq_cons_iff.mp same
    obtain ⟨body, middle, _, rfl, rfl, later⟩ := Draft.exists_split (tail.trans (List.append_assoc ..))
    obtain ⟨other, last, more, rfl, rfl, rfl⟩ := Draft.exists_split later
    have inner : MovesAll body (⟨.conditional, false, line⟩ :: blocks)
        (⟨.conditional, false, line⟩ :: blocks) := within rfl loop
    have otherwise : MovesAll other (⟨.conditional, true, line⟩ :: blocks)
        (⟨.conditional, true, line⟩ :: blocks) := without rfl loop
    exact .cons .ifBlock (inner.append (.cons .elseBlock
      (otherwise.append (.cons .endIf (ih rfl loop)))))
  | loop _ _ within ih =>
    obtain ⟨⟨line, _⟩, _, rfl, rfl, tail⟩ := List.map_eq_cons_iff.mp same
    obtain ⟨body, last, more, rfl, rfl, rfl⟩ := Draft.exists_split tail
    exact .cons .whileBlock ((within rfl fun _ => rfl).append (.cons .endWhile (ih rfl loop)))

/-! ## The grammar and the steps -/

theorem Nested.append {inside : Bool} {first second : List Statement}
    (left : Nested inside first) (right : Nested inside second) : Nested inside (first ++ second) := by
  induction left with
  | nil => exact right
  | plain plain _ ih => exact .plain plain (ih right)
  | leave _ ih => exact .leave (ih right)
  | conditional body _ _ ih => simpa using Nested.conditional body (ih right)
  | alternative body other _ _ _ ih => simpa using Nested.alternative body other (ih right)
  | loop body _ _ ih => simpa using Nested.loop body (ih right)

namespace LeavesOpen

variable {numbered more : List (Nat × Statement)} {blocks after : List Opening}

theorem append (leaves : LeavesOpen numbered blocks)
    (nested : Nested (withinLoop blocks) (more.map Prod.snd)) :
    LeavesOpen (numbered ++ more) blocks := by
  cases leaves with
  | outside whole =>
    apply outside
    rw [List.map_append]
    exact whole.append nested
  | conditional front body =>
    rw [List.append_assoc, List.cons_append]
    apply conditional front
    rw [List.map_append]
    exact body.append nested
  | alternative front body other =>
    rw [List.append_assoc, List.cons_append]
    apply alternative front body
    rw [List.map_append]
    exact other.append nested
  | loop front body =>
    rw [List.append_assoc, List.cons_append]
    apply loop front
    rw [List.map_append]
    exact body.append nested

theorem moved {line : Nat} {statement : Statement} (leaves : LeavesOpen numbered blocks)
    (moves : Moves line statement blocks after) :
    LeavesOpen (numbered ++ [(line, statement)]) after := by
  cases moves with
  | plain plain => exact leaves.append (.plain plain .nil)
  | leave inLoop =>
    apply leaves.append
    rw [inLoop]
    exact .leave .nil
  | ifBlock => exact .conditional leaves .nil
  | whileBlock => exact .loop leaves .nil
  | elseBlock =>
    cases leaves with
    | conditional front body => exact .alternative front body .nil
  -- A block that is closed is nested in what is around it.
  | @endIf inElse opened =>
    cases leaves with
    | @conditional front body _ _ condition negated leaves nested =>
      have block : Nested (withinLoop after)
          (((opened, Statement.ifBlock condition negated) :: body ++
            [(line, Statement.endIf)]).map Prod.snd) := by
        simpa using Nested.conditional nested .nil
      simpa using leaves.append block
    | @alternative front body other _ _ middle condition negated leaves nested otherwise =>
      have block : Nested (withinLoop after)
          (((opened, Statement.ifBlock condition negated) :: body ++
            (middle, Statement.elseBlock) :: other ++ [(line, Statement.endIf)]).map Prod.snd) := by
        simpa using Nested.alternative nested otherwise .nil
      simpa using leaves.append block
  | @endWhile inElse opened =>
    cases leaves with
    | @loop front body _ _ condition negated leaves nested =>
      have block : Nested (withinLoop after)
          (((opened, Statement.whileBlock condition negated) :: body ++
            [(line, Statement.endWhile)]).map Prod.snd) := by
        simpa using Nested.loop nested .nil
      simpa using leaves.append block

theorem movesAll (leaves : LeavesOpen numbered blocks) : MovesAll numbered [] blocks := by
  induction leaves with
  | outside nested => exact nested.movesAll rfl nofun
  | conditional _ body ih => exact ih.append (.cons .ifBlock (body.movesAll rfl id))
  | alternative _ body other ih =>
    exact (ih.append (.cons .ifBlock (body.movesAll rfl id))).append
      (.cons .elseBlock (other.movesAll rfl id))
  | loop _ body ih => exact ih.append (.cons .whileBlock (body.movesAll rfl fun _ => rfl))

theorem exists_line (leaves : LeavesOpen numbered blocks) :
    ∀ block ∈ blocks, ∃ statement, (block.line, statement) ∈ numbered := by
  induction leaves with
  | outside => exact nofun
  | @conditional _ _ _ _ condition negated _ _ ih
  | @alternative _ _ _ _ _ _ condition negated _ _ _ ih =>
    intro block member
    rcases List.mem_cons.mp member with rfl | inside
    · exact ⟨.ifBlock condition negated, by simp⟩
    · obtain ⟨statement, stands⟩ := ih block inside
      exact ⟨statement, by simp [stands]⟩
  | @loop _ _ _ _ condition negated _ _ ih =>
    intro block member
    rcases List.mem_cons.mp member with rfl | inside
    · exact ⟨.whileBlock condition negated, by simp⟩
    · obtain ⟨statement, stands⟩ := ih block inside
      exact ⟨statement, by simp [stands]⟩

end LeavesOpen

/-- The grammar and the steps agree on which blocks are open. -/
theorem leavesOpen_iff {numbered : List (Nat × Statement)} {blocks : List Opening} :
    LeavesOpen numbered blocks ↔ MovesAll numbered [] blocks := by
  constructor
  · exact LeavesOpen.movesAll
  · intro all
    induction numbered using List.reverseRecOn generalizing blocks with
    | nil =>
      cases all
      exact .outside .nil
    | append_singleton front last ih =>
      obtain ⟨between, first, moves⟩ := all.of_concat
      exact (ih first).moved moves

end InputTape.Script
