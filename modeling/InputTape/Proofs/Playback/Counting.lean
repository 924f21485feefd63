import InputTape.Playback.Run
import InputTape.Proofs.Playback.Work

/-! Counting does not matter to a playback.

Nothing that a playback does depends on what it has counted. So tallies can be kept in another way,
and the playback goes as before, if samples, instructions and transfers are counted alike in that
way. Two ways are of use: with something counted already, and without the samples.
-/

set_option autoImplicit false

namespace InputTape.Playback

namespace Tally

/-- What was counted first and what was counted behind it, put together. -/
def andThen (first second : Tally) : Tally where
  executed := first.executed + second.executed
  transfers := first.transfers + second.transfers
  samples := first.samples ++ second.samples
  maxLateness := max first.maxLateness second.maxLateness

@[simp] theorem andThen_zero (tally : Tally) : tally.andThen zero = tally := by
  simp [andThen, zero]

@[simp] theorem zero_andThen (tally : Tally) : zero.andThen tally = tally := by
  simp [andThen, zero]

theorem andThen_assoc (first second third : Tally) :
    (first.andThen second).andThen third = first.andThen (second.andThen third) := by
  simp [andThen, Nat.add_assoc, Nat.max_assoc]

theorem andThen_record (before tally : Tally) (keep : Bool) (sample : Sample) :
    before.andThen (tally.record keep sample) = (before.andThen tally).record keep sample := by
  cases keep <;> simp [andThen, record, Nat.max_assoc]

def total : List Tally → Tally
  | [] => zero
  | first :: more => first.andThen (total more)

@[simp] theorem total_nil : total [] = zero := rfl

@[simp] theorem total_cons (first : Tally) (more : List Tally) :
    total (first :: more) = first.andThen (total more) := rfl

def unsampled (tally : Tally) : Tally := { tally with samples := #[] }

end Tally

section

variable (options : Options) (state : State)

theorem always_recordFiring (deadline : Time) :
    (recordFiring options state deadline).run.Always (fun request => ¬ request.IsCall)
      fun result => ∃ tally, result = .ok tally ∧ tally.executed = state.tally.executed ∧
        tally.transfers = state.tally.transfers := by
  refine ⟨id, fun now => ⟨id, fun _ => ?_⟩⟩
  split
  · exact ⟨id, fun _ => ⟨_, rfl, rfl, rfl⟩⟩
  · exact ⟨_, rfl, rfl, rfl⟩

end

/-! ## Tallies kept in another way -/

/-- Tallies are kept in another way, in which all is counted as it was. Other samples may be kept
there, but the schedule and the warnings stay. -/
structure Recounts (options others : Options) (recount : Tally → Tally) : Prop where
  speed : others.speed = options.speed
  warning : others.latenessWarning = options.latenessWarning
  record (tally : Tally) (sample : Sample) :
    (recount tally).record others.captureTiming sample =
      recount (tally.record options.captureTiming sample)
  executed (tally : Tally) : { recount tally with executed := (recount tally).executed + 1 } =
    recount { tally with executed := tally.executed + 1 }
  transfers (tally : Tally) : { recount tally with transfers := (recount tally).transfers + 1 } =
    recount { tally with transfers := tally.transfers + 1 }

def State.recounted (recount : Tally → Tally) (state : State) : State :=
  { state with tally := recount state.tally }

def Report.recounted (recount : Tally → Tally) (report : Report) : Report :=
  { report with tally := recount report.tally }

def Progress.recounted (recount : Tally → Tally) : Progress → Progress
  | .playing state => .playing (state.recounted recount)
  | .ended report => .ended (report.recounted recount)

section

variable {options others : Options} {recount : Tally → Tally}
  (recounts : Recounts options others recount) (state : State) (instruction : Instruction)

@[simp] theorem State.recounted_playhead :
    (state.recounted recount).playhead = state.playhead := rfl

@[simp] theorem State.recounted_scheduled :
    (state.recounted recount).scheduled = state.scheduled := rfl

include recounts

theorem schedule_recounted (time : Time) (milliseconds : Float) :
    schedule others (state.recounted recount) instruction time milliseconds =
      schedule options state instruction time milliseconds := by
  simp only [schedule, Options.after?, blame, State.recounted_playhead, recounts.speed]

theorem recordFiring_recounted (deadline : Time) :
    recordFiring others (state.recounted recount) deadline =
      recount <$> recordFiring options state deadline := by
  unfold recordFiring
  simp only [map_bind, recounts.warning, State.recounted, recounts.record]
  congr 1
  funext now
  congr 1
  funext _
  split <;> simp

theorem goOn_recounted (deadline : Time) (tally : Tally) :
    goOn others (state.recounted recount) instruction deadline (recount tally) =
      Progress.recounted recount <$> goOn options state instruction deadline tally := by
  unfold goOn
  simp only [map_bind, State.recounted_playhead, schedule_recounted recounts]
  congr 1
  funext later
  cases state.playhead.advance? with
  | some playhead => simp [Progress.recounted, State.recounted]
  | none =>
    simp only
    split
    · simp only [map_bind]
      congr 1
      funext outcome
      cases outcome <;> simp [Progress.recounted, Report.recounted]
    · simp [Progress.recounted, Report.recounted]

omit recounts in
theorem goTo_recounted (index : Nat) (tally : Tally) :
    goTo (state.recounted recount) instruction index (recount tally) =
      Progress.recounted recount <$> goTo state instruction index tally := by
  simp [goTo, State.recounted, Progress.recounted, blame]

theorem transferTo_recounted (path : FilePath) (tally : Tally) :
    transferTo (state.recounted recount) instruction path (recount tally) =
      Progress.recounted recount <$> transferTo state instruction path tally := by
  simp [transferTo, State.recounted, Progress.recounted, blame, recounts.transfers]

theorem fire_recounted (deadline : Time) :
    fire others (state.recounted recount) instruction deadline =
      Progress.recounted recount <$> fire options state instruction deadline := by
  unfold fire
  rw [recordFiring_recounted recounts]
  simp only [bind_map_left, map_bind]
  congr 1
  funext tally
  congr 1
  funext _
  congr 1
  funext directive
  rw [recounts.executed]
  cases directive with
  | next => exact goOn_recounted recounts state instruction deadline _
  | jump index => exact goTo_recounted state instruction index _
  | stop => simp [Progress.recounted, Report.recounted]
  | transfer path => exact transferTo_recounted recounts state instruction path _

theorem step_recounted :
    step others (state.recounted recount) =
      Progress.recounted recount <$> step options state := by
  unfold step
  simp only [map_bind, State.recounted_playhead, State.recounted_scheduled,
    schedule_recounted recounts]
  congr 1
  funext isCancelled
  cases isCancelled with
  | true => simp [Progress.recounted, Report.recounted, State.recounted]
  | false =>
    simp only [Bool.false_eq_true, if_false]
    cases state.playhead.current? with
    | none => simp [Progress.recounted, Report.recounted, State.recounted]
    | some instruction =>
      simp only [map_bind]
      congr 1
      funext deadline
      congr 1
      funext outcome
      cases outcome with
      | cancelled => simp [Progress.recounted, Report.recounted, State.recounted]
      | reached => exact fire_recounted recounts state instruction deadline

/-- A playback asks the same, in whatever way its tally is kept. -/
theorem playFrom_recounted (steps : Nat) :
    playFrom others steps (state.recounted recount) =
      Option.map (Report.recounted recount) <$> playFrom options steps state := by
  induction steps generalizing state with
  | zero => simp [playFrom]
  | succ steps ih =>
    unfold playFrom
    rw [step_recounted recounts]
    simp only [bind_map_left, map_bind]
    congr 1
    funext progress
    cases progress with
    | playing next => exact ih next
    | ended report => simp [Progress.recounted]

end

/-! ## Something counted before -/

def State.behind (state : State) (before : Tally) : State :=
  { state with tally := before.andThen state.tally }

def Report.behind (report : Report) (before : Tally) : Report :=
  { report with tally := before.andThen report.tally }

section

variable (options : Options)

theorem recounts_andThen (before : Tally) : Recounts options options before.andThen where
  speed := rfl
  warning := rfl
  record tally sample := (Tally.andThen_record before tally _ sample).symm
  executed _ := rfl
  transfers _ := rfl

theorem playFrom_behind (state : State) (before : Tally) (steps : Nat) :
    playFrom options steps (state.behind before) =
      Option.map (·.behind before) <$> playFrom options steps state :=
  playFrom_recounted (recounts_andThen options before) state steps

/-! ## No samples kept -/

theorem recounts_unsampled (keep : Bool) :
    Recounts { options with captureTiming := keep } { options with captureTiming := false }
      Tally.unsampled where
  speed := rfl
  warning := rfl
  record _ _ := rfl
  executed _ := rfl
  transfers _ := rfl

end
end InputTape.Playback
