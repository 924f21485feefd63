import InputTape.Proofs.Playback.Reports
import Mathlib.Algebra.Order.BigOperators.Group.List
import Mathlib.Algebra.Order.Ring.Nat

/-! The mean lateness of a playback.

The lateness of all samples together is divided by their number, of which 32 bits are kept. So the
mean is right for fewer than 2 ^ 32 samples. For more of them it is right only if it is nothing
either way, and where nothing is left of their number there is none. A playback can go on for that
long.
-/

set_option autoImplicit false

namespace InputTape.Playback

/-! ## Division by what is left of a count -/

/-- Of a count that does not fit in a word less is left, and the quotient by it is greater if it is
not zero. -/
theorem div_mod_eq_div_iff {total count word : Nat} (positive : 0 < word)
    (left : count % word ≠ 0) :
    total / (count % word) = total / count ↔ count < word ∨ total < count % word := by
  rcases Nat.lt_or_ge count word with short | long
  · simp only [Nat.mod_eq_of_lt short, short, true_or]
  have small : count % word < word := Nat.mod_lt _ positive
  have rest : count % word + word ≤ count := by
    have := Nat.mod_le (count - word) word
    rw [Nat.mod_eq_sub_mod long]
    omega
  constructor
  · intro same
    refine .inr (Nat.lt_of_not_le fun enough => ?_)
    have once : 1 ≤ total / (count % word) := (Nat.one_le_div_iff (by omega)).mpr enough
    have below : total / (count % word) * count ≤ total := same ▸ Nat.div_mul_le_self total count
    have above : total < (total / (count % word) + 1) * (count % word) :=
      (Nat.div_lt_iff_lt_mul (by omega)).mp (Nat.lt_succ_self _)
    -- The quotient by what is left would have room for a whole word less in the count.
    have : total < total := calc
      total < total / (count % word) * (count % word) + count % word := by
        rwa [Nat.succ_mul] at above
      _ < total / (count % word) * (count % word) + word := Nat.add_lt_add_left small _
      _ ≤ total / (count % word) * (count % word) + total / (count % word) * word :=
        Nat.add_le_add_left (Nat.le_mul_of_pos_left _ once) _
      _ = total / (count % word) * (count % word + word) := (Nat.mul_add ..).symm
      _ ≤ total / (count % word) * count := Nat.mul_le_mul_left _ rest
      _ ≤ total := below
    exact Nat.lt_irrefl _ this
  · rintro (short | less)
    · exact absurd short (Nat.not_lt.mpr long)
    · rw [Nat.div_eq_of_lt less, Nat.div_eq_of_lt (by omega)]

/-! ## Lateness of many samples -/

def Tally.totalLateness (tally : Tally) : Nat := (tally.samples.toList.map Sample.lateness).sum

theorem foldl_lateness (samples : List Sample) (start : Nat) :
    samples.foldl (fun total sample => total + sample.lateness) start =
      start + (samples.map Sample.lateness).sum := by
  induction samples generalizing start with
  | nil => rfl
  | cons sample more ih =>
    rw [List.foldl_cons, ih, List.map_cons, List.sum_cons, Nat.add_assoc]

theorem lateness_le_greatest {samples : List Sample} {sample : Sample}
    (member : sample ∈ samples) : sample.lateness ≤ greatestLateness samples := by
  induction samples with
  | nil => cases member
  | cons first more ih =>
    rw [greatestLateness_cons]
    rcases List.mem_cons.mp member with rfl | later
    · exact Nat.le_max_left ..
    · exact Nat.le_trans (ih later) (Nat.le_max_right ..)

theorem Tally.totalLateness_le (tally : Tally) :
    tally.totalLateness ≤ tally.samples.size * greatestLateness tally.samples.toList := by
  have each : ∀ late ∈ tally.samples.toList.map Sample.lateness,
      late ≤ greatestLateness tally.samples.toList := by
    intro late member
    obtain ⟨sample, sampled, rfl⟩ := List.mem_map.mp member
    exact lateness_le_greatest sampled
  simpa [Tally.totalLateness] using List.sum_le_card_nsmul _ _ each

/-! ## The mean -/

theorem meanLateness_eq {tally : Tally} (sampled : tally.samples ≠ #[])
    (fits : tally.totalLateness < Duration.limit) : tally.meanLateness =
    if tally.samples.size % 2 ^ 32 = 0 then .error .noCount
    else .ok (some (tally.totalLateness / (tally.samples.size % 2 ^ 32))) := by
  have total : tally.samples.toList.foldl (fun total sample => total + sample.lateness) 0 =
      tally.totalLateness := by
    rw [foldl_lateness, Nat.zero_add, Tally.totalLateness]
  have some : tally.samples.isEmpty = false := by simpa using sampled
  simp only [Tally.meanLateness, total, some, Nat.not_le.mpr fits, Nat.pow_eq, beq_iff_eq,
    Bool.false_eq_true, if_false]

/-- Samples whose lateness together is a duration have a mean unless their number is a multiple of
2 ^ 32. What is told is the true mean, in whole nanoseconds and never above the greatest lateness,
exactly if there are fewer than 2 ^ 32 samples, or so little lateness that both are zero. Else it is
too much. -/
theorem meanLateness_eq_mean_iff {tally : Tally} (sampled : tally.samples ≠ #[])
    (fits : tally.totalLateness < Duration.limit) :
    let count := tally.samples.size
    let mean := tally.totalLateness / count
    (tally.meanLateness = .ok (some mean) ↔
      count < 2 ^ 32 ∨ tally.totalLateness < count % 2 ^ 32) ∧
    (tally.meanLateness = .error .noCount ↔ 2 ^ 32 ∣ count) ∧
    (∀ told, tally.meanLateness = .ok (some told) → mean ≤ told) ∧
    mean ≤ (tally.samples.toList.map Sample.lateness).max?.getD 0 := by
  intro count mean
  have positive : 0 < count := Array.size_pos_iff.mpr sampled
  have mostly : mean ≤ (tally.samples.toList.map Sample.lateness).max?.getD 0 :=
    Nat.div_le_of_le_mul tally.totalLateness_le
  rw [meanLateness_eq sampled fits]
  by_cases nothing : count % 2 ^ 32 = 0
  · have whole : 2 ^ 32 ∣ count := Nat.dvd_of_mod_eq_zero nothing
    have long : ¬ count < 2 ^ 32 := Nat.not_lt.mpr (Nat.le_of_dvd positive whole)
    rw [if_pos nothing, nothing]
    exact ⟨⟨nofun, fun right => right.elim (absurd · long) nofun⟩, ⟨fun _ => whole, fun _ => rfl⟩,
      nofun, mostly⟩
  · have apart : ¬ 2 ^ 32 ∣ count := fun whole => nothing (Nat.mod_eq_zero_of_dvd whole)
    have least : mean ≤ tally.totalLateness / (count % 2 ^ 32) :=
      Nat.div_le_div_left (Nat.mod_le ..) (Nat.pos_of_ne_zero nothing)
    rw [if_neg nothing]
    refine ⟨?_, ⟨nofun, fun whole => absurd whole apart⟩, ?_, mostly⟩
    · rw [Except.ok.injEq, Option.some.injEq]
      exact div_mod_eq_div_iff (by decide) nothing
    · rintro told ⟨⟩
      exact least

theorem meanLateness_eq_mean_iff_three :
    let tally : Tally := ⟨3, 0, #[⟨0, 100, 107⟩, ⟨1, 100, 114⟩, ⟨2, 115, 123⟩], 14⟩
    tally.samples ≠ #[] ∧ tally.totalLateness = 29 ∧ tally.totalLateness < Duration.limit ∧
      tally.meanLateness = .ok (some 9) := by
  intro tally
  have sampled : tally.samples ≠ #[] := by decide
  have fits : tally.totalLateness < Duration.limit := by decide
  have short : tally.samples.size < 2 ^ 32 := by decide
  have mean : tally.totalLateness / tally.samples.size = 9 := by decide
  exact ⟨sampled, by decide, fits, mean ▸ (meanLateness_eq_mean_iff sampled fits).1.mpr (.inl short)⟩

/-! ## A playback that goes on and on -/

def treadmill : Sequence := ⟨#[.plain (.jump none (some 0))]⟩

def patience (request : Request) (left : Nat) : request.Answer × Nat :=
  match request, left with
  | .wait _, 0 => (.cancelled, 0)
  | .wait _, left + 1 => (.reached, left)
  | .clock, left => ((0 : Nat), left)
  | .isCancelled, left => (false, left)
  | .note _, left => ((), left)
  | .gesture _, left => (.ok (), left)
  | .pixel _ _, left => (.opaqueRgb 0 0 0, left)
  | .evaluate _, left => (.ok .nil, left)
  | .load _, left => (.ok treadmill, left)

theorem current?_treadmill : (Playhead.start treadmill none true).current? =
    some (.plain (.jump none (some 0))) := rfl

theorem after?_zero (options : Options) (time : Time) : options.after? time 0 = some time := by
  have idle : ((0 : Float).isNaN || (0 : Float) ≤ 0) = true := by decide
  simp only [Options.after?, idle, if_true]

section

variable (tally : Tally)

def Tally.lap : Tally :=
  ⟨tally.executed + 1, tally.transfers, tally.samples.push ⟨0, 0, 0⟩, max tally.maxLateness 0⟩

theorem step_treadmill (left : Nat) :
    (step ⟨1, true, 0⟩ ⟨.start treadmill none true, 0, tally⟩).run.run patience (left + 1) =
      (.ok (.playing ⟨.start treadmill none true, 0, tally.lap⟩), left) := by
  simp only [step, current?_treadmill, schedule, Instruction.plain, after?_zero]
  rfl

theorem step_treadmill_cancelled :
    (step ⟨1, true, 0⟩ ⟨.start treadmill none true, 0, tally⟩).run.run patience 0 =
      (.ok (.ended ⟨.cancelled, tally⟩), 0) := by
  simp only [step, current?_treadmill, schedule, Instruction.plain, after?_zero]
  rfl

theorem playFrom_treadmill (left : Nat) :
    ∃ report, ((playFrom ⟨1, true, 0⟩ (left + 1)
        ⟨.start treadmill none true, 0, tally⟩).run.run patience left).1 = .ok (some report) ∧
      report.tally.samples.toList = tally.samples.toList ++ List.replicate left ⟨0, 0, 0⟩ := by
  induction left generalizing tally with
  | zero =>
    unfold playFrom
    rw [run_bind, Interaction.run_bind, step_treadmill_cancelled]
    exact ⟨_, rfl, (List.append_nil _).symm⟩
  | succ left ih =>
    unfold playFrom
    rw [run_bind, Interaction.run_bind, step_treadmill]
    -- Behind a lap the playback is where it was, with one sample more and one wait less.
    obtain ⟨report, ends, samples⟩ := ih tally.lap
    refine ⟨report, ends, ?_⟩
    rw [samples, Tally.lap, Array.toList_push, List.append_assoc]
    rfl

end

theorem play_treadmill (left : Nat) :
    ∃ report, ((play ⟨1, true, 0⟩ true (left + 1) treadmill).run.run patience left).1 =
        .ok (some report) ∧
      report.tally.samples.size = left ∧ report.tally.totalLateness = 0 := by
  rw [play_eq, Interaction.run, Interaction.run, Interaction.run_bind, run_wrapUp]
  obtain ⟨report, ends, samples⟩ := playFrom_treadmill .zero left
  refine ⟨report, ends, ?_, ?_⟩
  · simp [← Array.length_toList, samples, Tally.zero]
  · simp [Tally.totalLateness, samples, Tally.zero, Sample.lateness]

/-- A playback of 2 ^ 32 instructions, none of them late, has no mean lateness. -/
theorem play_treadmill_noMean :
    ∃ report, ((play ⟨1, true, 0⟩ true (2 ^ 32 + 1) treadmill).run.run patience (2 ^ 32)).1 =
      .ok (some report) ∧
    report.tally.samples ≠ #[] ∧ report.tally.totalLateness < Duration.limit ∧
    report.tally.meanLateness = .error .noCount ∧ report.tally.meanLateness ≠
      .ok (some (report.tally.totalLateness / report.tally.samples.size)) := by
  obtain ⟨report, ends, count, total⟩ := play_treadmill (2 ^ 32)
  have sampled : report.tally.samples ≠ #[] := by
    rw [← Array.size_pos_iff, count]
    decide
  have fits : report.tally.totalLateness < Duration.limit := by
    rw [total]
    decide
  have noMean : report.tally.meanLateness = .error .noCount := by
    rw [meanLateness_eq sampled fits, if_pos (by rw [count, Nat.mod_self])]
  refine ⟨report, ends, sampled, fits, noMean, ?_⟩
  rw [noMean]
  exact nofun

end InputTape.Playback
