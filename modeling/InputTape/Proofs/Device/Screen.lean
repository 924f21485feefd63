import InputTape.Proofs.Device.History

/-! Where the cursor of a device that moves nothing can be.

The screen has at least one pixel, and the cursor is on it, behind every history of gestures. A
coordinate beyond the greatest 32-bit integer is never reached on a greater screen. Moves are exact:
a sum that goes beyond the integers goes beyond the screen too.
-/

set_option autoImplicit false

namespace InputTape.DryRun

/-! ## Coordinates -/

/-- The last coordinate on a screen of some size. On a screen without pixels there is none. -/
def lastOn (size : UInt32) : Int := min (size.toNat - 1) 2147483647

section

variable {size : UInt32} {x dx : Int32}

theorem clampTo_toInt : (clampTo size x).toInt = max 0 (min (lastOn size) x.toInt) := by
  rw [clampTo, Int32.toInt_ofInt_of_le]
  · rfl
  · omega
  · omega

theorem saturatingAdd_toInt : (saturatingAdd x dx).toInt =
    max (-2147483648) (min 2147483647 (x.toInt + dx.toInt)) := by
  rw [saturatingAdd, Int32.toInt_ofInt_of_le]
  · omega
  · omega

/-- What a sum loses by saturation is off the screen. -/
theorem clampTo_saturatingAdd_toInt : (clampTo size (saturatingAdd x dx)).toInt =
    max 0 (min (lastOn size) (x.toInt + dx.toInt)) := by
  rw [clampTo_toInt, saturatingAdd_toInt, lastOn]
  -- The last coordinate is never beyond the integers, so cutting there first makes no difference.
  omega

end

/-! ## Coordinates in words

The same by operations that may not have a result: a difference that would be negative, and a value
between bounds out of order.
-/

def difference? (left right : UInt32) : Option UInt32 :=
  if right ≤ left then some (left - right) else none

def coordinate (word : UInt32) : Int32 :=
  if word.toNat ≤ 2147483647 then Int32.ofNat word.toNat else Int32.maxValue

def between? (low high x : Int32) : Option Int32 :=
  if high < low then none
  else some (if x < low then low else if high < x then high else x)

def clamp? (size : UInt32) (x : Int32) : Option Int32 := do
  between? 0 (coordinate (← difference? size 1)) x

theorem coordinate_toInt (word : UInt32) :
    (coordinate word).toInt = min word.toNat 2147483647 := by
  rw [coordinate]
  split
  · next small =>
    rw [Int32.toInt_ofNat_of_lt (Nat.lt_succ_of_le small)]
    omega
  · rw [Int32.toInt_maxValue]
    omega

theorem between?_zero {high : Int32} (inOrder : 0 ≤ high.toInt) {x nearest : Int32}
    (near : nearest.toInt = max 0 (min high.toInt x.toInt)) : between? 0 high x = some nearest := by
  have low : ¬ high < 0 := by rwa [Int32.lt_iff_toInt_lt, Int32.toInt_zero, Int.not_lt]
  rw [between?, if_neg low, Option.some.injEq, ← Int32.toInt_inj, near]
  simp only [Int32.lt_iff_toInt_lt, Int32.toInt_zero]
  split
  · rw [Int32.toInt_zero]
    omega
  · split
    · omega
    · omega

theorem clamp?_eq {size : UInt32} (pixels : 1 ≤ size.toNat) (x : Int32) :
    clamp? size x = some (clampTo size x) := by
  have below : 1 ≤ size := UInt32.le_iff_toNat_le.mpr pixels
  have last : (coordinate (size - 1)).toInt = lastOn size := by
    rw [coordinate_toInt, UInt32.toNat_sub_of_le _ _ below, lastOn, UInt32.toNat_one]
    omega
  rw [clamp?, difference?, if_pos below]
  refine between?_zero ?_ ?_
  · rw [last, lastOn]
    omega
  · rw [last, clampTo_toInt]

/-! ## The screen -/

/-- The screen has a pixel, and the cursor is on a pixel. -/
structure OnScreen (device : DryRun) : Prop where
  width : 1 ≤ device.width.toNat
  height : 1 ≤ device.height.toNat
  x : 0 ≤ device.cursor.x.toInt ∧ device.cursor.x.toInt ≤ lastOn device.width
  y : 0 ≤ device.cursor.y.toInt ∧ device.cursor.y.toInt ≤ lastOn device.height

theorem clampTo_bounds {size : UInt32} (pixels : 1 ≤ size.toNat) (x : Int32) :
    0 ≤ (clampTo size x).toInt ∧ (clampTo size x).toInt ≤ lastOn size := by
  rw [clampTo_toInt, lastOn]
  omega

theorem onScreen_moveTo {device : DryRun} (width : 1 ≤ device.width.toNat)
    (height : 1 ≤ device.height.toNat) (x y : Int32) : (device.moveTo x y).OnScreen :=
  ⟨width, height, clampTo_bounds width x, clampTo_bounds height y⟩

theorem onScreen_create (width height : UInt32) : (create width height).OnScreen := by
  have pixels (size : UInt32) : 1 ≤ (max size 1).toNat := by
    rw [show max size 1 = if size ≤ 1 then 1 else size from rfl]
    split
    · exact Nat.le_refl 1
    · next more =>
      rw [UInt32.le_iff_toNat_le, UInt32.toNat_one] at more
      omega
  have corner (size : UInt32) : 0 ≤ lastOn (max size 1) := by
    have := pixels size
    rw [lastOn]
    omega
  exact ⟨pixels width, pixels height, ⟨Int.le_refl 0, corner width⟩, ⟨Int.le_refl 0, corner height⟩⟩

theorem one_le_toNat {size : UInt32} (pixels : size ≠ 0) : 1 ≤ size.toNat :=
  Nat.one_le_iff_ne_zero.mpr (UInt32.toNat_inj.not.mpr pixels)

theorem OnScreen.performed {device : DryRun} (on : device.OnScreen) (gesture : Gesture) :
    (device.performed gesture).OnScreen := by
  cases gesture with
  | mouseMove dx dy => exact onScreen_moveTo on.width on.height _ _
  | mouseMoveTo x y => exact onScreen_moveTo on.width on.height x y
  | setScreen width height =>
    by_cases empty : width = 0 ∨ height = 0
    · rw [performed_setScreen_empty empty]
      exact on
    · obtain ⟨wide, high⟩ := not_or.mp empty
      rw [performed_setScreen empty]
      exact onScreen_moveTo (one_le_toNat wide) (one_le_toNat high) _ _
  -- The others have nothing to do with the screen or the cursor.
  | _ => exact ⟨on.width, on.height, on.x, on.y⟩

/-- Behind every history the screen has a pixel and the cursor is on one. Every coordinate can be
brought on screen, and a move ends where the exact sum is brought on screen. A screen without pixels
is refused, and changes nothing. -/
theorem onScreen_after (width height : UInt32) (history : List Gesture) :
    let device := (create width height).after history
    device.OnScreen ∧
    (∀ x y, clamp? device.width x = some (clampTo device.width x) ∧
      clamp? device.height y = some (clampTo device.height y)) ∧
    (∀ dx dy, ∃ x y, device.performed (.mouseMove dx dy) = { device with cursor := ⟨x, y⟩ } ∧
      x.toInt = max 0 (min (lastOn device.width) (device.cursor.x.toInt + dx.toInt)) ∧
      y.toInt = max 0 (min (lastOn device.height) (device.cursor.y.toInt + dy.toInt))) ∧
    (∀ width height, width = 0 ∨ height = 0 →
      device.perform (.setScreen width height) = .error (.invalidScreen width height) ∧
      ∀ rehearsal : Rehearsal, rehearsal.device = device →
        (rehearsal.perform (.setScreen width height)).2.device = device) := by
  intro device
  have on : device.OnScreen := after_keeps (fun _ gesture on => on.performed gesture)
    (onScreen_create width height)
  refine ⟨on, fun x y => ⟨clamp?_eq on.width x, clamp?_eq on.height y⟩, fun dx dy => ?_,
    fun width height empty => ?_⟩
  · exact ⟨_, _, rfl, clampTo_saturatingAdd_toInt, clampTo_saturatingAdd_toInt⟩
  · have refused := (@perform_eq_error device _ _).mpr ⟨width, height, empty, rfl, rfl⟩
    refine ⟨refused, fun rehearsal same => ?_⟩
    rw [← same] at refused ⊢
    exact Rehearsal.perform_refused refused

theorem onScreen_after_extremes :
    let device := (create 0 4294967295).after [.mouseMoveTo 5 2147483647, .mouseMove 9 2147483647]
    device.cursor = ⟨0, 2147483647⟩ ∧ device.OnScreen ∧ clamp? device.width 7 = some 0 ∧
      device.perform (.setScreen 0 2) = .error (.invalidScreen 0 2) ∧
      ((Rehearsal.start .none ⟨.opaqueRgb 0 0 0, []⟩ device).perform (.setScreen 0 2)).2.device =
        device := by
  intro device
  obtain ⟨on, clamps, -, refuses⟩ := onScreen_after 0 4294967295
    [.mouseMoveTo 5 2147483647, .mouseMove 9 2147483647]
  obtain ⟨refused, unchanged⟩ := refuses 0 2 (.inl rfl)
  exact ⟨by decide, on, (clamps 7 0).1, refused, unchanged _ rfl⟩

end InputTape.DryRun
