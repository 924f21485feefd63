import InputTape.Time

/-! What a playback has done. -/

set_option autoImplicit false

namespace InputTape.Playback

inductive Outcome where
  | completed
  | stopped
  | cancelled
  deriving DecidableEq, Repr

def Outcome.name : Outcome → String
  | .completed => "Completed"
  | .stopped => "Stopped"
  | .cancelled => "Cancelled"

structure Sample where
  index : Nat
  scheduled : Time
  actual : Time
  deriving DecidableEq, Repr

def Sample.lateness (sample : Sample) : Duration := sample.actual - sample.scheduled

inductive MeanError where
  /-- All the lateness together is no duration. -/
  | tooLong
  /-- Nothing is left of the number of samples in 32 bits. -/
  | noCount
  deriving DecidableEq, Repr

def MeanError.message : MeanError → String
  | .tooLong => "overflow in iter::sum over durations"
  | .noCount => "divide by zero error when dividing duration by scalar"

structure Tally where
  executed : Nat
  transfers : Nat
  samples : Array Sample
  maxLateness : Duration
  deriving DecidableEq, Repr

namespace Tally

def zero : Tally := ⟨0, 0, #[], 0⟩

def record (tally : Tally) (keep : Bool) (sample : Sample) : Tally :=
  { tally with
    maxLateness := max tally.maxLateness sample.lateness
    samples := if keep then tally.samples.push sample else tally.samples }

/-- The mean lateness of the samples if there are any, in whole nanoseconds. Their number is kept in
32 bits. -/
def meanLateness (tally : Tally) : Except MeanError (Option Duration) :=
  let total := tally.samples.toList.foldl (fun total sample => total + sample.lateness) 0
  let count := tally.samples.size % Nat.pow 2 32
  if tally.samples.isEmpty then .ok none
  else if Duration.limit ≤ total then .error .tooLong
  else if count == 0 then .error .noCount
  else .ok (some (total / count))

end Tally

structure Report where
  outcome : Outcome
  tally : Tally
  deriving DecidableEq, Repr

end InputTape.Playback
