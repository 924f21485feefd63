import InputTape.Proofs.Interaction.Relays
import InputTape.Rehearsal
import Mathlib.Data.List.Induction

/-! What a history of gestures makes of a device that moves nothing.

A gesture that is refused leaves the device as it is. What is true at first and stays true by every
gesture is true behind every history. The device of a rehearsal is what the gestures on its record
have made of it.
-/

set_option autoImplicit false

namespace InputTape

namespace DryRun

def performed (device : DryRun) (gesture : Gesture) : DryRun :=
  match device.perform gesture with
  | .ok (next, _) => next
  | .error _ => device

def after (device : DryRun) (history : List Gesture) : DryRun := history.foldl performed device

section

variable {device : DryRun} {gesture : Gesture} {history : List Gesture}

theorem after_concat : device.after (history ++ [gesture]) =
    (device.after history).performed gesture := by
  rw [after, List.foldl_append]
  rfl

theorem after_keeps {holds : DryRun → Prop}
    (keeps : ∀ device gesture, holds device → holds (device.performed gesture))
    (first : holds device) : holds (device.after history) := by
  induction history using List.reverseRecOn with
  | nil => exact first
  | append_singleton history gesture ih =>
    rw [after_concat]
    exact keeps _ gesture ih

theorem perform_eq_error {error : DeviceError} : device.perform gesture = .error error ↔
    ∃ width height, (width = 0 ∨ height = 0) ∧ gesture = .setScreen width height ∧
      error = .invalidScreen width height := by
  constructor
  · intro refused
    cases gesture with
    | setScreen width height =>
      simp only [perform, Bool.or_eq_true, beq_iff_eq] at refused
      split at refused
      · next empty =>
        cases refused
        exact ⟨width, height, empty, rfl, rfl⟩
      · cases refused
    | _ => cases refused
  · rintro ⟨width, height, empty, rfl, rfl⟩
    simp only [perform, Bool.or_eq_true, beq_iff_eq, empty, if_true]

theorem performed_of_perform_eq_error {error : DeviceError}
    (refused : device.perform gesture = .error error) : device.performed gesture = device := by
  rw [performed, refused]

theorem performed_setScreen_empty {width height : UInt32} (empty : width = 0 ∨ height = 0) :
    device.performed (.setScreen width height) = device :=
  performed_of_perform_eq_error (perform_eq_error.mpr ⟨width, height, empty, rfl, rfl⟩)

theorem performed_setScreen {width height : UInt32} (whole : ¬ (width = 0 ∨ height = 0)) :
    device.performed (.setScreen width height) =
      { device with width := width, height := height }.moveTo device.cursor.x
        device.cursor.y := by
  have accepted : (width == 0 || height == 0) = false := by simpa using whole
  simp only [performed, perform, accepted]
  rfl

end

end DryRun

namespace Rehearsal

def Event.gesture? : Event → Option Gesture
  | .gesture made => some made
  | .pixel .. | .wait .. | .load .. => none

/-- The gestures on the record of a rehearsal. One that was made to fail is not on it. -/
def gestured (rehearsal : Rehearsal) : List Gesture :=
  rehearsal.events.toList.filterMap Event.gesture?

def fails (rehearsal : Rehearsal) : Bool :=
  rehearsal.conditions.failAtGesture == some rehearsal.gestures

def counted (rehearsal : Rehearsal) : Rehearsal :=
  { rehearsal with
    gestures := rehearsal.gestures + 1
    isCancelled := rehearsal.isCancelled ||
      rehearsal.conditions.cancelAtGesture == some rehearsal.gestures }

section

variable {rehearsal : Rehearsal} {event : Event} {gesture : Gesture}

theorem gestured_record : (rehearsal.record event).gestured =
    rehearsal.gestured ++ event.gesture?.toList := by
  cases event <;> simp [gestured, record, Event.gesture?]

theorem perform_of_fails (fails : rehearsal.fails = true) :
    rehearsal.perform gesture = (.error failure, rehearsal.counted) :=
  if_pos fails

theorem perform_of_not_fails (fails : rehearsal.fails = false) :
    rehearsal.perform gesture =
      match rehearsal.device.perform gesture with
      | .ok (device, entries) =>
        (.ok (), { rehearsal.counted.record (.gesture gesture) with device := device }.note entries)
      | .error error => (.error error, rehearsal.counted.record (.gesture gesture)) :=
  if_neg (ne_true_of_eq_false fails)

theorem perform_reply (fails : rehearsal.fails = false) :
    (rehearsal.perform gesture).1 = (rehearsal.device.perform gesture).map (fun _ => ()) ∧
    (rehearsal.perform gesture).2.device = rehearsal.device.performed gesture ∧
    (rehearsal.perform gesture).2.gestured = rehearsal.gestured ++ [gesture] := by
  rw [perform_of_not_fails fails, DryRun.performed]
  cases rehearsal.device.perform gesture with
  | ok reply => exact ⟨rfl, rfl, gestured_record⟩
  | error error => exact ⟨rfl, rfl, gestured_record⟩

theorem perform_refused {error : DeviceError}
    (refused : rehearsal.device.perform gesture = .error error) :
    (rehearsal.perform gesture).2.device = rehearsal.device := by
  cases fails : rehearsal.fails with
  | true => rw [perform_of_fails fails, counted]
  | false =>
    rw [(perform_reply fails).2.1]
    exact DryRun.performed_of_perform_eq_error refused

theorem perform_conditions : (rehearsal.perform gesture).2.conditions = rehearsal.conditions := by
  cases fails : rehearsal.fails with
  | true => rw [perform_of_fails fails, counted]
  | false =>
    rw [perform_of_not_fails fails]
    cases rehearsal.device.perform gesture <;> rfl

/-- The device is what the gestures on record make of a first one. -/
structure Tracks (conditions : Conditions) (first : DryRun) (rehearsal : Rehearsal) : Prop where
  conditions : rehearsal.conditions = conditions
  device : rehearsal.device = first.after rehearsal.gestured

section

variable {conditions : Conditions} {first : DryRun} (tracks : rehearsal.Tracks conditions first)

include tracks

theorem Tracks.perform : (rehearsal.perform gesture).2.Tracks conditions first := by
  refine ⟨perform_conditions.trans tracks.conditions, ?_⟩
  cases fails : rehearsal.fails with
  | true =>
    rw [perform_of_fails fails]
    exact tracks.device
  | false =>
    obtain ⟨-, device, gestured⟩ := @perform_reply _ gesture fails
    rw [device, gestured, DryRun.after_concat, tracks.device]

theorem Tracks.record (silent : event.gesture? = none) :
    (rehearsal.record event).Tracks conditions first := by
  refine ⟨tracks.conditions, ?_⟩
  rw [gestured_record, silent]
  simpa [Rehearsal.record] using tracks.device

theorem Tracks.evaluate (line : String) :
    (rehearsal.evaluate line).2.Tracks conditions first := by
  -- A line of script makes its gestures on the same device, and puts them on the same record.
  have keeps : ∀ request (rehearsal : Rehearsal), rehearsal.Tracks conditions first →
      (answerExpression request rehearsal).2.Tracks conditions first := by
    intro request rehearsal tracks
    cases request with
    | gesture gesture => exact tracks.perform
    | readClipboard => exact tracks
    | writeClipboard text => exact ⟨tracks.conditions, tracks.device⟩
  have behind := Interaction.run_keeps keeps (Expression.evaluate rehearsal.store line) tracks
  exact ⟨behind.conditions, behind.device⟩

end

theorem tracks_start {conditions : Conditions} {screen : Screen} {device : DryRun} :
    (start conditions screen device).Tracks conditions device :=
  ⟨rfl, rfl⟩

end
end Rehearsal
end InputTape
