import InputTape.DryRun
import InputTape.Expression.Evaluation
import InputTape.Playback.Request

/-! Playing without consequences.

A rehearsal answers what a playback asks: gestures go to a device that moves nothing, pixels have
given colours, and the clock only moves when something waits. It can be cancelled, and a gesture
made to fail, at a given point. Everything asked of it is kept in order.
-/

set_option autoImplicit false

namespace InputTape

inductive Rehearsal.Event where
  | gesture (gesture : Gesture)
  | pixel (x y : Int32)
  | wait (deadline : Time)
  | load (path : FilePath) (error : Option SequenceError)
  deriving DecidableEq, Repr

/-- What goes on besides the playback. Gestures and waits are counted from zero. -/
structure Rehearsal.Conditions where
  overshoot : Duration
  /-- Cancelled at this wait and all later ones. -/
  cancelAtWait : Option Nat
  cancelAtGesture : Option Nat
  failAtGesture : Option Nat

structure Rehearsal.Screen where
  background : Color
  /-- Pixels of another colour; the first of several in one place counts. -/
  pixels : List ((Int32 × Int32) × Color)

def Rehearsal.Screen.color (screen : Rehearsal.Screen) (x y : Int32) : Color :=
  (screen.pixels.lookup (x, y)).getD screen.background

structure Rehearsal where
  conditions : Rehearsal.Conditions
  screen : Rehearsal.Screen
  device : DryRun
  store : Store
  clipboard : String
  now : Time
  waits : Nat
  gestures : Nat
  isCancelled : Bool
  events : Array Rehearsal.Event
  journal : Array Journal.Entry

namespace Rehearsal

def Conditions.none : Conditions := ⟨0, Option.none, Option.none, Option.none⟩

def start (conditions : Conditions) (screen : Screen) (device : DryRun) : Rehearsal where
  conditions := conditions
  screen := screen
  device := device
  store := .empty
  clipboard := ""
  now := 0
  waits := 0
  gestures := 0
  isCancelled := false
  events := #[]
  journal := #[]

def failure : DeviceError := .failure "injected failure"

def record (rehearsal : Rehearsal) (event : Event) : Rehearsal :=
  { rehearsal with events := rehearsal.events.push event }

def note (rehearsal : Rehearsal) (entries : List Journal.Entry) : Rehearsal :=
  { rehearsal with journal := rehearsal.journal ++ entries }

def perform (rehearsal : Rehearsal) (gesture : Gesture) : Except DeviceError Unit × Rehearsal :=
  let number := rehearsal.gestures
  let isCancelled :=
    rehearsal.isCancelled || rehearsal.conditions.cancelAtGesture == some number
  let counted := { rehearsal with gestures := number + 1, isCancelled := isCancelled }
  if counted.conditions.failAtGesture == some number then (.error failure, counted)
  else
    let recorded := counted.record (.gesture gesture)
    match recorded.device.perform gesture with
    | .ok (device, entries) => (.ok (), { recorded with device := device }.note entries)
    | .error error => (.error error, recorded)

def answerExpression (request : Expression.Request) (rehearsal : Rehearsal) :
    request.Answer × Rehearsal :=
  match request with
  | .gesture gesture => rehearsal.perform gesture
  | .readClipboard => (rehearsal.clipboard, rehearsal)
  | .writeClipboard text => ((), { rehearsal with clipboard := text })

def evaluate (rehearsal : Rehearsal) (line : String) :
    Except EvaluationError Value × Rehearsal :=
  let ((result, store), after) :=
    (Expression.evaluate rehearsal.store line).run answerExpression rehearsal
  (result, { after with store := store })

def wait (rehearsal : Rehearsal) (deadline : Time) : WaitOutcome × Rehearsal :=
  let isCancelled :=
    rehearsal.isCancelled || rehearsal.conditions.cancelAtWait.any (· ≤ rehearsal.waits)
  let counted := { rehearsal with waits := rehearsal.waits + 1, isCancelled := isCancelled }
  if isCancelled then (.cancelled, counted)
  else
    let recorded := counted.record (.wait deadline)
    let now := if recorded.now < deadline then deadline + recorded.conditions.overshoot
      else recorded.now
    (.reached, { recorded with now := now })

def lookAt (rehearsal : Rehearsal) (x y : Int32) : Color × Rehearsal :=
  (rehearsal.screen.color x y, rehearsal.record (.pixel x y))

def recordLoad (rehearsal : Rehearsal) (path : FilePath)
    (result : Except SequenceError Sequence) : Rehearsal :=
  match result with
  | .ok _ => rehearsal.record (.load path none)
  | .error error => rehearsal.record (.load path (some error))

def answer (load : FilePath → Except SequenceError Sequence) (request : Playback.Request)
    (rehearsal : Rehearsal) : request.Answer × Rehearsal :=
  match request with
  | .gesture gesture => rehearsal.perform gesture
  | .pixel x y => rehearsal.lookAt x y
  | .evaluate line => rehearsal.evaluate line
  | .load path => (load path, rehearsal.recordLoad path (load path))
  | .wait deadline => rehearsal.wait deadline
  | .clock => (rehearsal.now, rehearsal)
  | .isCancelled => (rehearsal.isCancelled, rehearsal)
  | .note entry => ((), rehearsal.note [entry])

end Rehearsal
end InputTape
