import InputTape.Proofs.Playback.Lookup
import InputTape.Proofs.Playback.Stepping
import InputTape.Proofs.Script.Landing

/-! One step of the playback of a compiled script is followed by the machine.

A step over a label that only marks a place is followed by the machine staying where it is. Any
other step is followed by one step of the machine. Either way they meet again.
-/

set_option autoImplicit false

namespace InputTape.Script

open Interaction (Follows Always)
open Playback (Attempt Request Directive ExecutionError Failure State Options Leads Lands BrokenOff
  acts_perform acts_runLines acts_test ask blaming perform runLines test execute toName
  jumpDirective branchDirective)
open Machine (Trouble past back labelled go)
open Text (IsWord)

section

variable {statements : List Statement} {operations : List Operation} {sequence : Sequence}
  {state : State}

theorem follows_work {α : Type} {good : Nat → Nat → Prop} {work : Attempt ExecutionError α}
    (acts : work.run.Always Request.IsAction (fun _ => True))
    {left : α → Attempt Failure Directive} {right : α → Attempt Trouble (Option Nat)}
    (rest : ∀ value, Follows Request.IsCall (fun _ => False) (Leads state good) (left value).run
      (right value).run) :
    Follows Request.IsCall (fun _ => False) (Leads state good)
      (blaming .execution work >>= left).run (blaming .failed work >>= right).run := by
  rw [Playback.run_bind, Playback.run_bind, Playback.run_blaming, Playback.run_blaming,
    Interaction.bind_assoc, Interaction.bind_assoc]
  refine Follows.after_same (acts.mono (fun _ => Request.IsAction.isCall) fun _ => id) fun result => ?_
  cases result with
  | error error => exact .done .failed
  | ok value => exact rest value

variable (laid : LaidOut statements operations) (realizes : Realizes sequence operations)
  (same : state.playhead.sequence = sequence)

include laid realizes same

theorem leads_toName {name other : String} {index target : Nat} (isWord : IsWord name)
    (marks : operations[index]? = some (.label other))
    (lower : Text.lower other = Text.lower name)
    (meets : Meets statements operations index target) :
    Leads state (Meets statements operations) ((toName state.playhead name).mapError .flow)
      (.ok (some target)) := by
  obtain ⟨inside, -⟩ := List.getElem?_eq_some_iff.mp marks
  unfold toName
  rw [find?_label laid realizes same isWord marks lower]
  refine .jump ?_ meets
  rw [same, realizes.size]
  exact inside

/-- A branch goes on behind itself or past a part of a block, as the machine does. -/
theorem follows_testing {condition : Condition} {negated : Bool} {place index behind target : Nat}
    {holds fails : String} {way : Option Nat} (looked : way = some target)
    (thenWord : IsWord holds) (elseWord : IsWord fails)
    (marksThen : operations[index]? = some (.label holds))
    (marksElse : operations[behind]? = some (.label fails))
    (meetsThen : Meets statements operations index (place + 1))
    (meetsElse : Meets statements operations behind target) :
    Follows Request.IsCall (fun _ => False) (Leads state (Meets statements operations))
      (execute state.playhead (testing condition negated holds fails)).run
      (do
        let holds ← blaming .failed (test condition)
        if holds != negated then return some (place + 1)
        else go way : Attempt Trouble (Option Nat)).run := by
  subst looked
  have thenWay := leads_toName laid realizes same thenWord marksThen rfl meetsThen
  have elseWay := leads_toName laid realizes same elseWord marksElse rfl meetsElse
  unfold execute testing
  apply follows_work (acts_test condition)
  intro value
  refine .alone id fun _ => ?_
  -- A negated condition has its labels exchanged, so the machine asks the same of the value.
  have leads : branchDirective state.playhead value
      (if value then .label (if negated then fails else holds)
        else .label (if negated then holds else fails)) =
      toName state.playhead (if value != negated then holds else fails) := by
    cases value <;> cases negated <;>
      simp [branchDirective, BranchTarget.label, nonBlank?_of_isWord thenWord,
        nonBlank?_of_isWord elseWord]
  change Follows _ _ _ (.done (Except.mapError Failure.flow (branchDirective _ _ _))) _
  rw [leads]
  cases value != negated with
  | true => exact .done thenWay
  | false => exact .done elseWay

theorem follows_jump {name other : String} {index target : Nat} {way : Option Nat}
    (looked : way = some target) (isWord : IsWord name)
    (marks : operations[index]? = some (.label other))
    (lower : Text.lower other = Text.lower name)
    (meets : Meets statements operations index target) :
    Follows Request.IsCall (fun _ => False) (Leads state (Meets statements operations))
      (execute state.playhead (.jump (some name) none)).run (go way).run := by
  subst looked
  simp only [execute, jumpDirective, nonBlank?_of_isWord isWord]
  exact .done (leads_toName laid realizes same isWord marks lower meets)

theorem follows_statement {next : Nat} (cut : Cut .outermost ⟨[], next⟩ statements operations)
    {statement : Statement} {more : List Statement} (found : cut.rest = statement :: more)
    (here : state.playhead.index = cut.entry) :
    ∃ operation, operations[cut.entry]? = some operation ∧
      JumpsToWord operation ∧
      Follows Request.IsCall (fun _ => False) (Leads state (Meets statements operations))
        (execute state.playhead operation).run
        (Machine.step statements cut.first.length statement).run := by
  obtain ⟨opened, closed, own, following, lays, opening, closing, first, front⟩ := cut.split found
  have place : following.first.length = cut.first.length + 1 := by
    rw [first, List.length_append, List.length_singleton]
  have statementNamed : statement.IsNamed := laid.named statement (by
    rw [cut.statements_eq, found]
    exact List.mem_append_right _ List.mem_cons_self)
  have behind : ∀ skipped, skipped ≤ own.length → OnlyLabels (own.drop skipped) →
      Meets statements operations (cut.front.length + skipped) (cut.first.length + 1) :=
    fun skipped bound labels => place ▸ meets_behind front bound labels
  have stands : ∀ index, index < own.length →
      operations[cut.front.length + index]? = own[index]? :=
    fun _ inside => Cut.getElem?_own front inside
  -- Each statement has its own instruction, and its own label to meet the machine at.
  cases lays with
  | @action _ operation _ acts =>
    rw [cut.entry_eq found (by rintro _ _ rfl; cases acts)] at here ⊢
    have meets := here ▸ behind 1 (Nat.le_refl 1) onlyLabels_nil
    refine ⟨operation, stands 0 Nat.zero_lt_one, ?_, ?_⟩
    · cases statement <;> cases acts <;> trivial
    · cases statement with
      | delay => cases acts; exact .done (.next meets)
      | mouse => cases acts; exact follows_work (acts_perform _) fun _ => .done (.next meets)
      | key => cases acts; exact follows_work (acts_perform _) fun _ => .done (.next meets)
      | script => cases acts; exact follows_work (acts_runLines 1 _) fun _ => .done (.next meets)
      | exit => cases acts; exact .done .stop
      | _ => cases acts
  | label =>
    rw [cut.entry_eq found (by rintro _ _ ⟨⟩)] at here ⊢
    exact ⟨_, stands 0 Nat.zero_lt_one, trivial,
      .done (.next (here ▸ behind 1 (Nat.le_refl 1) onlyLabels_nil))⟩
  | @goto name =>
    rw [cut.entry_eq found (by rintro _ _ ⟨⟩)] at here ⊢
    have there := stands 0 Nat.zero_lt_one
    obtain ⟨_, index, other, ⟨⟩, marks, lower⟩ := laid.found (List.mem_of_getElem? there)
    obtain ⟨target, looked, meets⟩ := labelled_lands laid statementNamed.2 marks lower
    refine ⟨_, there, ⟨_, rfl, statementNamed.1⟩, ?_⟩
    simp only [Machine.step]
    exact follows_jump laid realizes same looked statementNamed.1 marks lower meets
  | @leave block _ innermost =>
    rw [cut.entry_eq found (by rintro _ _ ⟨⟩)] at here ⊢
    obtain ⟨isLoop, above, outer, split, noLoop⟩ := List.find?_eq_some_iff_append.mp innermost
    have kind : block.kind = .loop := beq_iff_eq.mp isLoop
    have within : following.between.blocks = above ++ block :: outer := by rw [closing, split]
    have shallow : depthOf block.kind above = 0 :=
      List.countP_eq_zero.mpr fun other member => by simpa [kind] using noLoop other member
    obtain ⟨target, index, looked, marks, meets⟩ := past_lands following place within shallow
    rw [kind, past_loop] at looked
    rw [exit_loop kind] at marks
    refine ⟨_, stands 0 Nat.zero_lt_one, ⟨_, rfl, isWord_hiddenLabel ..⟩, ?_⟩
    simp only [Machine.step]
    exact follows_jump laid realizes same looked (isWord_hiddenLabel ..) marks rfl meets
  | @ifBlock condition negated blocks number line =>
    rw [cut.entry_eq found (by rintro _ _ ⟨⟩)] at here ⊢
    have within : following.between.blocks =
        [] ++ ⟨.conditional, false, number, line⟩ :: blocks := by rw [closing]; rfl
    obtain ⟨target, index, looked, marks, meets⟩ := past_lands following place within rfl
    simp only [OpenBlock.exit] at marks
    refine ⟨_, stands 0 (Nat.succ_pos _), trivial, ?_⟩
    simp only [Machine.step]
    exact follows_testing laid realizes same looked (isWord_hiddenLabel ..)
      (isWord_hiddenLabel ..) (stands 1 (Nat.le_refl 2)) marks
      (behind 1 (Nat.le_succ 1) (by simp [OnlyLabels])) meets
  | @elseBlock blocks _ number line =>
    rw [cut.entry_eq found (by rintro _ _ ⟨⟩)] at here ⊢
    have within : following.between.blocks =
        [] ++ ⟨.conditional, true, number, line⟩ :: blocks := by rw [closing]; rfl
    obtain ⟨target, index, looked, marks, meets⟩ := past_lands following place within rfl
    simp only [OpenBlock.exit] at marks
    refine ⟨_, stands 0 (Nat.succ_pos _), ⟨_, rfl, isWord_hiddenLabel ..⟩, ?_⟩
    simp only [Machine.step]
    exact follows_jump laid realizes same looked (isWord_hiddenLabel ..) marks rfl meets
  | endIf | endElse =>
    rw [cut.entry_eq found (by rintro _ _ ⟨⟩)] at here ⊢
    exact ⟨_, stands 0 (Nat.succ_pos _), trivial,
      .done (.next (here ▸ behind 1 (Nat.succ_pos _) (by simp [OnlyLabels])))⟩
  | @whileBlock condition negated blocks number line =>
    rw [cut.entry_whileBlock found] at here ⊢
    have within : following.between.blocks =
        [] ++ ⟨.loop, false, number, line⟩ :: blocks := by rw [closing]; rfl
    obtain ⟨target, index, looked, marks, meets⟩ := past_lands following place within rfl
    simp only [OpenBlock.exit] at marks
    refine ⟨_, stands 1 (Nat.le_succ 2), trivial, ?_⟩
    simp only [Machine.step]
    exact follows_testing laid realizes same looked (isWord_hiddenLabel ..)
      (isWord_hiddenLabel ..) (stands 2 (Nat.le_refl 3)) marks
      (behind 2 (Nat.le_succ 2) (by simp [OnlyLabels])) meets
  | endWhile =>
    rw [cut.entry_eq found (by rintro _ _ ⟨⟩)] at here ⊢
    obtain ⟨target, index, looked, marks, meets⟩ := back_lands cut rfl (congrArg _ opening)
    refine ⟨_, stands 0 (Nat.succ_pos _), ⟨_, rfl, isWord_hiddenLabel ..⟩, ?_⟩
    simp only [Machine.step]
    exact follows_jump laid realizes same looked (isWord_hiddenLabel ..) marks rfl meets

def Advances (statements : List Statement) (operations : List Operation) (passed : Nat)
    (index place : Nat) : Prop :=
  (index < operations.length → index = passed + 1) ∧ Meets statements operations index place

/-- Every step is followed by the machine: it stays where it is while the playback passes a label
in front of the statement, and else it does the statement. -/
theorem follows_or_stays (options : Options) {place : Nat}
    (meets : Meets statements operations state.playhead.index place) :
    Follows Request.IsCall (BrokenOff state)
        (Lands state (Advances statements operations state.playhead.index))
        (Playback.step options state).run (.done (.ok (some place))) ∨
      ∃ statement, statements[place]? = some statement ∧
        Follows Request.IsCall (BrokenOff state) (Lands state (Meets statements operations))
          (Playback.step options state).run (Machine.step statements place statement).run := by
  have current : state.playhead.current? = sequence.get? state.playhead.index := by
    rw [Playback.Playhead.current?, same]
  obtain ⟨next, cut, rfl, bound, labels⟩ := meets
  -- In front of the instruction that acts for the statement there are only labels.
  rcases Nat.lt_or_eq_of_le bound with ahead | arrived
  · left
    obtain ⟨name, there⟩ := labels _ (Nat.le_refl _) ahead
    obtain ⟨instruction, found, unaims⟩ := realizes.get? there
    have further : Meets statements operations (state.playhead.index + 1) cut.first.length :=
      ⟨next, cut, rfl, ahead, fun other low => labels other (Nat.le_of_succ_le low)⟩
    have stays : Follows Request.IsCall (fun _ => False)
        (Leads state (Advances statements operations state.playhead.index))
        (execute state.playhead instruction.operation).run
        (pure (some cut.first.length) : Attempt Trouble (Option Nat)).run := by
      rw [execute_unaimed unaims trivial]
      exact .done (.next ⟨fun _ => rfl, further⟩)
    exact Playback.follows_step (current.trans found) stays
  · cases found : cut.rest with
    | nil =>
      left
      have atEnd : state.playhead.index = sequence.size := by
        rw [arrived, (cut.length_of_end found).2, realizes.size]
      have ended : state.playhead.current? = none := by
        rw [current, atEnd]
        exact Array.getElem?_eq_none (Nat.le_refl _)
      refine Playback.follows_end ended ⟨?_, next, cut, rfl, ?_, ?_⟩
      · rw [same, realizes.size]
        exact fun inside => absurd inside (Nat.lt_irrefl _)
      · rw [same, ← atEnd]
        exact bound
      · rw [same, ← atEnd]
        exact labels
    | cons statement more =>
      right
      obtain ⟨operation, there, named, follows⟩ :=
        follows_statement laid realizes same cut found arrived
      obtain ⟨instruction, stands, unaims⟩ := realizes.get? (arrived ▸ there)
      refine ⟨statement, cut.getElem?_place found,
        Playback.follows_step (current.trans stands) ?_⟩
      rw [execute_unaimed unaims named]
      exact follows

end
end InputTape.Script
