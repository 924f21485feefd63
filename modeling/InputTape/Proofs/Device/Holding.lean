import InputTape.Proofs.Device.History

/-! What a device that moves nothing holds.

Whether a key or a button is held can be read off the gestures made: it was pressed, and not let go
since. Gestures for keys leave the buttons and the cursor alone, and gestures for buttons the keys
and the cursor.
-/

set_option autoImplicit false

namespace InputTape

/-! ## Pressed and not let go -/

section

variable {presses letsGo : Gesture → Prop} {history : List Gesture} {gesture : Gesture}

/-- One gesture presses, and none behind it lets go. -/
def Held (presses letsGo : Gesture → Prop) (history : List Gesture) : Prop :=
  ∃ before press behind, history = before ++ press :: behind ∧ presses press ∧
    ∀ later ∈ behind, ¬ letsGo later

theorem not_held_nil : ¬ Held presses letsGo [] := by
  rintro ⟨before, press, behind, split, -⟩
  cases before <;> cases split

theorem held_concat : Held presses letsGo (history ++ [gesture]) ↔
    presses gesture ∨ ¬ letsGo gesture ∧ Held presses letsGo history := by
  constructor
  · rintro ⟨before, press, behind, split, pressed, kept⟩
    -- The last gesture is the press itself, or the last of those behind it.
    cases behind using List.reverseRecOn with
    | nil =>
      obtain ⟨-, same⟩ := List.append_inj' split rfl
      cases same
      exact .inl pressed
    | append_singleton behind last =>
      rw [← List.cons_append, ← List.append_assoc] at split
      obtain ⟨rfl, same⟩ := List.append_inj' split rfl
      cases same
      have last := kept gesture (List.mem_append_right _ (List.mem_singleton_self _))
      refine .inr ⟨last, before, press, behind, rfl, pressed, fun later member => ?_⟩
      exact kept later (List.mem_append_left _ member)
  · rintro (pressed | ⟨keeps, before, press, behind, rfl, pressed, kept⟩)
    · exact ⟨history, gesture, [], rfl, pressed, nofun⟩
    · refine ⟨before, press, behind ++ [gesture], by rw [List.append_assoc]; rfl, pressed, ?_⟩
      intro later member
      rcases List.mem_append.mp member with early | last
      · exact kept later early
      · rw [List.mem_singleton.mp last]
        exact keeps

end

namespace Gesture

def isForKeys : Gesture → Bool
  | .keyDown _ | .keyUp _ | .releaseKeys => true
  | _ => false

def isForButtons : Gesture → Bool
  | .mouseDown _ | .mouseUp _ | .releaseButtons => true
  | _ => false

end Gesture

namespace DryRun

theorem performed_forKeys {gesture : Gesture} (forKeys : gesture.isForKeys = true)
    (device : DryRun) : ∃ keys, device.performed gesture = { device with keys := keys } := by
  cases gesture with
  | keyDown | keyUp | releaseKeys => exact ⟨_, rfl⟩
  | _ => cases forKeys

theorem performed_forButtons {gesture : Gesture} (forButtons : gesture.isForButtons = true)
    (device : DryRun) :
    ∃ buttons, device.performed gesture = { device with buttons := buttons } := by
  cases gesture with
  | mouseDown | mouseUp | releaseButtons => exact ⟨_, rfl⟩
  | _ => cases forButtons

/-- What a press starts, a gesture that lets go ends and all others leave alone is held behind a
history if it was pressed and not let go. -/
theorem holds_after {holds : DryRun → Prop} {presses letsGo : Gesture → Prop}
    (performed : ∀ device gesture, holds (device.performed gesture) ↔
      presses gesture ∨ ¬ letsGo gesture ∧ holds device)
    {first : DryRun} (free : ¬ holds first) (history : List Gesture) :
    holds (first.after history) ↔ Held presses letsGo history := by
  induction history using List.reverseRecOn with
  | nil => exact iff_of_false free not_held_nil
  | append_singleton history gesture ih => rw [after_concat, performed, held_concat, ih]

theorem performed_setScreen_held (device : DryRun) (width height : UInt32) :
    (device.performed (.setScreen width height)).keys = device.keys ∧
      (device.performed (.setScreen width height)).buttons = device.buttons := by
  by_cases empty : width = 0 ∨ height = 0
  · rw [performed_setScreen_empty empty]
    exact ⟨rfl, rfl⟩
  · rw [performed_setScreen empty]
    exact ⟨rfl, rfl⟩

theorem mem_keys_performed (key : KeyCode) (device : DryRun) (gesture : Gesture) :
    key ∈ (device.performed gesture).keys ↔
      gesture = .keyDown key ∨
        ¬ (gesture = .keyUp key ∨ gesture = .releaseKeys) ∧ key ∈ device.keys := by
  cases gesture with
  | keyDown pressed =>
    change key ∈ device.keys.insert pressed ↔ _
    simp [eq_comm]
  | keyUp released =>
    change key ∈ device.keys.filter (· != released) ↔ _
    rw [List.mem_filter, bne_iff_ne, and_comm, ne_comm]
    simp
  | releaseKeys =>
    change key ∈ [] ↔ _
    simp
  | setScreen width height => simp [(performed_setScreen_held device width height).1]
  | _ =>
    change key ∈ device.keys ↔ _
    simp

theorem mem_buttons_performed (button : MouseButton) (device : DryRun) (gesture : Gesture) :
    button ∈ (device.performed gesture).buttons ↔
      gesture = .mouseDown button ∨
        ¬ (gesture = .mouseUp button ∨ gesture = .releaseButtons) ∧ button ∈ device.buttons := by
  cases gesture with
  | mouseDown pressed =>
    change button ∈ device.buttons.insert pressed ↔ _
    simp [eq_comm]
  | mouseUp released =>
    change button ∈ device.buttons.filter (· != released) ↔ _
    rw [List.mem_filter, bne_iff_ne, and_comm, ne_comm]
    simp
  | releaseButtons =>
    change button ∈ [] ↔ _
    simp
  | setScreen width height => simp [(performed_setScreen_held device width height).2]
  | _ =>
    change button ∈ device.buttons ↔ _
    simp

section

variable {width height : UInt32} {history : List Gesture}

theorem mem_keys_after {key : KeyCode} : key ∈ ((create width height).after history).keys ↔
    Held (· = .keyDown key) (fun later => later = .keyUp key ∨ later = .releaseKeys) history :=
  @holds_after (key ∈ ·.keys) _ _ (mem_keys_performed key) _ List.not_mem_nil history

theorem mem_buttons_after {button : MouseButton} :
    button ∈ ((create width height).after history).buttons ↔
      Held (· = .mouseDown button)
        (fun later => later = .mouseUp button ∨ later = .releaseButtons) history :=
  @holds_after (button ∈ ·.buttons) _ _ (mem_buttons_performed button) _ List.not_mem_nil history

end

theorem nothing_held_after (width height : UInt32) (history : List Gesture) :
    let device := (create width height).after (history ++ [.releaseKeys, .releaseButtons])
    (∀ key, key ∉ device.keys) ∧ ∀ button, button ∉ device.buttons := by
  have one_by_one : history ++ [.releaseKeys, .releaseButtons] =
      history ++ [.releaseKeys] ++ [.releaseButtons] := by
    rw [List.append_assoc]
    rfl
  refine ⟨fun key => ?_, fun button => ?_⟩
  · rw [mem_keys_after, one_by_one, held_concat, held_concat]
    simp
  · rw [mem_buttons_after, one_by_one, held_concat]
    simp

end DryRun

end InputTape
