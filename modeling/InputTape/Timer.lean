import InputTape.Interaction
import InputTape.Time

/-! Waiting for a deadline.

Far from the deadline there are pauses of limited length, so that a cancellation is noticed soon;
near it the clock is looked at without a pause.
-/

set_option autoImplicit false

namespace InputTape

/-- How to wait: the longest pause, and how near a deadline there is none. -/
structure Pace where
  coarseStep : Duration
  spinThreshold : Duration
  deriving DecidableEq, Repr

namespace Pace

def create (coarseStep spinThreshold : Duration) : Pace :=
  ⟨max coarseStep (Duration.ofMicroseconds 100), spinThreshold⟩

def standard : Pace := create (Duration.ofMilliseconds 5) (Duration.ofMilliseconds 2)

def pause (pace : Pace) (remaining : Duration) : Duration :=
  min (remaining - pace.spinThreshold) pace.coarseStep

end Pace

namespace Timer

inductive Request where
  | isCancelled
  | clock
  /-- Let some time pass, or let others work if it is none. -/
  | pause (duration : Duration)
  deriving DecidableEq, Repr

abbrev Request.Answer : Request → Type
  | .isCancelled => Bool
  | .clock => Time
  | .pause _ => Unit

/-- Wait for a deadline, looking at the clock at most so many times. -/
def waitUntil (pace : Pace) (deadline : Time) :
    Nat → Interaction Request Request.Answer (Option WaitOutcome)
  | 0 => return none
  | looks + 1 => do
    if ← Interaction.send Request.isCancelled then return some .cancelled
    else
      let now : Time ← Interaction.send Request.clock
      if deadline ≤ now then return some .reached
      else
        Interaction.send (Request.pause (pace.pause (deadline - now)))
        waitUntil pace deadline looks

end Timer
end InputTape
