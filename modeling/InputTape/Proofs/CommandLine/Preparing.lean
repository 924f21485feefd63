import InputTape.Proofs.CommandLine.Rehearsing
import InputTape.Proofs.Input.Colors
import InputTape.Proofs.Interaction.Always

/-! Valid settings are used as they are.

Settings are put to use in four places, and each has a check of its own: a colour is read, a screen is set,
a speed may be replaced and a pause may be lengthened. The settings are valid exactly if all four take them
without a change.
-/

set_option autoImplicit false

namespace InputTape

/-! ## Four checks -/

namespace Playback.Options

theorem checked_eq_done_iff {options : Options} :
    options.checked = .done options ↔ isPlayable options.speed = true := by
  rw [checked]
  cases isPlayable options.speed <;> simp

end Playback.Options

namespace DryRun

theorem perform_setScreen_iff {width height : UInt32} :
    (∀ device : DryRun, ∃ shown entries,
      device.perform (.setScreen width height) = .ok (shown, entries) ∧
        shown.width = width ∧ shown.height = height) ↔ width ≠ 0 ∧ height ≠ 0 := by
  constructor
  · intro accepts
    -- What is refused does not depend on the device.
    obtain ⟨shown, entries, accepted, -⟩ := accepts (create 1 1)
    refine not_or.mp fun empty => ?_
    cases accepted.symm.trans (perform_eq_error.mpr ⟨width, height, empty, rfl, rfl⟩)
  · rintro ⟨wide, high⟩ device
    refine ⟨device.performed (.setScreen width height), ?_⟩
    rw [performed_setScreen (not_or.mpr ⟨wide, high⟩)]
    simp only [perform, beq_false_of_ne wide, beq_false_of_ne high]
    exact ⟨_, rfl, rfl, rfl⟩

end DryRun

/-- No whole number of milliseconds but zero is below the least limit of a pause. -/
theorem Pace.coarseStep_create_iff {n : Nat} {spinThreshold : Duration} :
    (Pace.create (Duration.ofMilliseconds n) spinThreshold).coarseStep = Duration.ofMilliseconds n ↔
      n ≠ 0 := by
  -- One millisecond is ten times that limit.
  change max (n * 1000000) (100 * 1000) = n * 1000000 ↔ n ≠ 0
  omega

namespace Settings

/-- A playback is set up from the settings with none of them refused or replaced. -/
structure Usable (settings : Settings) : Prop where
  probe : ∃ color, settings.probeColor? = some color
  screen : ∀ device : DryRun, ∃ shown entries,
    device.perform (.setScreen settings.screenWidth settings.screenHeight) = .ok (shown, entries) ∧
      shown.width = settings.screenWidth ∧ shown.height = settings.screenHeight
  speed : settings.options.checked = .done settings.options
  coarseStep : settings.pace.coarseStep = Duration.ofMilliseconds settings.coarseStep.toNat

theorem coarseStep_pace_iff {settings : Settings} :
    settings.pace.coarseStep = Duration.ofMilliseconds settings.coarseStep.toNat ↔
      settings.coarseStep ≠ 0 := by
  refine Pace.coarseStep_create_iff.trans (not_congr ?_)
  exact @UInt64.toNat_inj _ 0

theorem checked_options_iff {settings : Settings} :
    settings.options.checked = .done settings.options ↔
      Playback.Options.isPlayable settings.speed = true :=
  Playback.Options.checked_eq_done_iff

theorem usable_iff {settings : Settings} : settings.Usable ↔ settings.problem? = none := by
  rw [settings.problem?_eq_none_iff]
  constructor
  · intro usable
    obtain ⟨wide, high⟩ := DryRun.perform_setScreen_iff.mp usable.screen
    exact ⟨⟨checked_options_iff.mp usable.speed, coarseStep_pace_iff.mp usable.coarseStep, wide,
      high⟩, usable.probe⟩
  · rintro ⟨⟨playable, step, wide, high⟩, probe⟩
    exact ⟨probe, DryRun.perform_setScreen_iff.mpr ⟨wide, high⟩, checked_options_iff.mpr playable,
      coarseStep_pace_iff.mpr step⟩

theorem usable_default : Settings.default.Usable := usable_iff.mpr (by decide)

theorem usable_of_read {text : String} {settings : Settings}
    (reads : Settings.read text = .ok settings) : settings.Usable := by
  rw [Settings.read] at reads
  split at reads
  · cases reads
  · split at reads
    · cases reads
    · next valid =>
      cases reads
      exact usable_iff.mpr valid

end Settings

namespace CommandLine

theorem readSettings_usable (asked user : Option FilePath) :
    (readSettings asked user).run.Always (fun _ => True)
      fun result => ∀ settings, result = .ok settings → settings.Usable := by
  have readFrom (path : FilePath) : (readSettings.readFrom path).run.Always (fun _ => True)
      fun result => ∀ settings, result = .ok settings → settings.Usable := by
    refine ⟨trivial, fun answer => ?_⟩
    cases answer with
    | error error => rintro settings ⟨⟩
    | ok text =>
      intro settings (reads : (Settings.read text).mapError (Error.badSettings path) = .ok settings)
      cases found : Settings.read text with
      | error error =>
        rw [found] at reads
        cases reads
      | ok _ =>
        rw [found] at reads
        cases reads
        exact Settings.usable_of_read found
  -- A file that was asked for must be there; that of the user need not.
  match asked, user with
  | some path, _ => exact readFrom path
  | none, none =>
    rintro settings ⟨⟩
    exact Settings.usable_default
  | none, some path =>
    refine ⟨trivial, fun there => ?_⟩
    cases there with
    | true => exact readFrom path
    | false =>
      rintro settings ⟨⟩
      exact Settings.usable_default

section

variable {settings : Settings} {options : Playback.Options}

/-- A playback with everything as it was set: at its speed, with its pauses, and on a screen of its size and
colour. It is relayed to a rehearsal there, and nothing fails before. -/
structure AsSet (settings : Settings) (options : Playback.Options) : Prop where
  speed : options.checked = .done options
  coarseStep : settings.pace.coarseStep = Duration.ofMilliseconds settings.coarseStep.toNat
  begins : ∃ color device entries, settings.probeColor? = some color ∧
    (DryRun.create 1920 1080).perform
      (.setScreen settings.screenWidth settings.screenHeight) = .ok (device, entries) ∧
    device.width = settings.screenWidth ∧ device.height = settings.screenHeight ∧
    ∀ filter file sequence, rehearse filter settings file options sequence =
      ExceptT.lift ((entries.forM (note filter)).bind fun _ =>
        (perform settings.releaseOnStop options sequence).relay
          (answer filter settings.pace (SequenceFile.directory file))
          (.start .none ⟨color, []⟩ device))

theorem asSet_of_usable (usable : settings.Usable)
    (playable : Playback.Options.isPlayable options.speed = true) : AsSet settings options where
  speed := Playback.Options.checked_eq_done_iff.mpr playable
  coarseStep := usable.coarseStep
  begins := by
    obtain ⟨color, spelled⟩ := usable.probe
    obtain ⟨device, entries, accepted, width, height⟩ := usable.screen (.create 1920 1080)
    exact ⟨color, device, entries, spelled, accepted, width, height, fun filter file sequence =>
      rehearse_accepted filter spelled file options sequence accepted⟩

theorem playbackOptions_eq (speed : Option Float) (timing : Bool) :
    playbackOptions settings speed timing =
      if speed.all Playback.Options.isPlayable then
        .ok ⟨speed.getD settings.speed, settings.captureTiming || timing,
          Duration.ofMilliseconds settings.coarseStep.toNat⟩
      else .error .invalidSpeed := by
  cases speed with
  | none => rfl
  | some asked =>
    simp only [playbackOptions, Option.all_some]
    split <;> rfl

theorem isPlayable_getD (valid : settings.problem? = none) {speed : Option Float}
    (accepted : speed.all Playback.Options.isPlayable = true) :
    Playback.Options.isPlayable (speed.getD settings.speed) = true := by
  cases speed with
  | none => exact (settings.problem?_eq_none_iff.mp valid).1.1
  | some asked =>
    rw [Option.all_some] at accepted
    rwa [Option.getD_some]

end

/-- The settings are valid exactly if they are usable, and so are the default ones, all that are read and
all that a command starts from. A speed that may be asked for is kept, as is everything else that was set. -/
theorem rehearse_asSet (settings : Settings) :
    (settings.problem? = none ↔ settings.Usable) ∧ Settings.default.Usable ∧
    (∀ text, Settings.read text = .ok settings → settings.Usable) ∧
    (∀ asked user, (readSettings asked user).run.Always (fun _ => True)
      fun result => ∀ settings, result = .ok settings → settings.Usable) ∧
    ∀ (speed : Option Float) (timing : Bool), match playbackOptions settings speed timing with
      | .error error => error = .invalidSpeed ∧
        ∃ asked, speed = some asked ∧ Playback.Options.isPlayable asked = false
      | .ok options =>
        options = ⟨speed.getD settings.speed, settings.captureTiming || timing,
          Duration.ofMilliseconds settings.coarseStep.toNat⟩ ∧
        (settings.problem? = none → AsSet settings options) := by
  refine ⟨Settings.usable_iff.symm, Settings.usable_default, fun _ => Settings.usable_of_read,
    readSettings_usable, fun speed timing => ?_⟩
  rw [playbackOptions_eq]
  cases accepted : speed.all Playback.Options.isPlayable with
  | false =>
    cases speed with
    | none => cases accepted
    | some asked => exact ⟨rfl, asked, rfl, accepted⟩
  | true =>
    refine ⟨rfl, fun valid => asSet_of_usable (Settings.usable_iff.mpr valid) ?_⟩
    exact isPlayable_getD valid accepted

/-- Settings with nothing as it is by default are played at half their speed. -/
theorem rehearse_asSet_slowed :
    let settings : Settings := ⟨1, 50, 3, true, false, 3, 2, "#80FFFFFF", "trace"⟩
    settings.problem? = none ∧ settings.Usable ∧
    (playbackOptions settings (some 1.5) false = .ok ⟨1.5, true, .ofMilliseconds 1⟩) ∧
      AsSet settings ⟨1.5, true, .ofMilliseconds 1⟩ := by
  intro settings
  have valid : settings.problem? = none := by decide +kernel
  obtain ⟨usable, -, -, -, starts⟩ := rehearse_asSet settings
  have asked := starts (some 1.5) false
  have accepted : playbackOptions settings (some 1.5) false = .ok ⟨1.5, true, .ofMilliseconds 1⟩ := by
    rw [playbackOptions_eq, if_pos (by decide +kernel)]
    rfl
  rw [accepted] at asked
  exact ⟨valid, usable.mp valid, accepted, asked.2 valid⟩

end CommandLine
end InputTape
