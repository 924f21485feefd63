import InputTape.CommandLine.Terminal
import InputTape.Proofs.Device.Holding

/-! What a playback on the command line leaves held.

The device of a rehearsal on the command line is what the gestures of the playback make of it. If
the playback breaks off and the settings say so, the last of them let go of everything, whatever was
pressed before and whatever broke it off.
-/

set_option autoImplicit false

namespace InputTape.CommandLine

section

variable {σ : Type} (reply : (request : Request) → σ → request.Answer × σ) (surroundings : σ)
  (filter : Journal.Filter) {conditions : Rehearsal.Conditions} {first : DryRun}
  {rehearsal : Rehearsal}

theorem run_passOnWith {α : Type} (result : α × Rehearsal) :
    ((passOnWith filter result).run reply surroundings).1 =
      (result.1, { result.2 with journal := #[] }) := by
  change ((Interaction.bind (Interaction.bind _ _) _).run reply surroundings).1 = _
  rw [Interaction.run_bind, Interaction.run_bind]
  rfl

theorem run_answer_note (pace : Pace) (directory : FilePath) (rehearsal : Rehearsal)
    (entry : Journal.Entry) :
    ∃ later, (answer filter pace directory (.note entry) rehearsal).run reply surroundings =
      (((), rehearsal), later) := by
  change ∃ later, ((note filter entry).bind fun told => .done (told, rehearsal)).run reply
    surroundings = _
  rw [Interaction.run_bind]
  exact ⟨_, rfl⟩

theorem tracks_answer (pace : Pace) (directory : FilePath) (request : Playback.Request)
    (tracks : rehearsal.Tracks conditions first) :
    ((answer filter pace directory request rehearsal).run reply surroundings).1.2.Tracks conditions
      first := by
  have passed {α : Type} (result : α × Rehearsal) (tracks : result.2.Tracks conditions first) :
      ((passOnWith filter result).run reply surroundings).1.2.Tracks conditions first := by
    rw [run_passOnWith]
    exact ⟨tracks.conditions, tracks.device⟩
  cases request with
  | gesture gesture => exact passed _ tracks.perform
  | pixel x y => exact passed _ (tracks.record rfl)
  | evaluate line => exact passed _ (tracks.evaluate line)
  | note entry =>
    obtain ⟨_, noted⟩ :=
      run_answer_note reply surroundings filter pace directory rehearsal entry
    rw [noted]
    exact tracks
  -- Files, the clock and the wish to stop come from outside.
  | _ => exact tracks

theorem run_answer_gesture (pace : Pace) (directory : FilePath) (rehearsal : Rehearsal)
    (gesture : Gesture) (unfailing : rehearsal.fails = false)
    (accepted : (rehearsal.device.perform gesture).map (fun _ => ()) = .ok ()) :
    ∃ after later, (answer filter pace directory (.gesture gesture) rehearsal).run reply
        surroundings = ((.ok (), after), later) ∧
      after.conditions = rehearsal.conditions ∧
      after.gestured = rehearsal.gestured ++ [gesture] := by
  obtain ⟨replies, -, gestured⟩ := @Rehearsal.perform_reply _ gesture unfailing
  have passed := run_passOnWith reply surroundings filter (rehearsal.perform gesture)
  refine ⟨{ (rehearsal.perform gesture).2 with journal := #[] },
    ((passOnWith filter (rehearsal.perform gesture)).run reply surroundings).2,
    Prod.ext (passed.trans ?_) rfl, Rehearsal.perform_conditions, gestured⟩
  rw [replies, accepted]

/-- The buttons are let go of only if the keys could be. -/
theorem cleanUp_eq :
    let failed (error : DeviceError) : Interaction Playback.Request Playback.Request.Answer Unit :=
      .ask (.note ⟨.warn, "Failed to release input: " ++ error.message⟩) .done
    cleanUp = .ask (.note ⟨.info, "Releasing held input after abnormal stop"⟩) fun _ =>
      .ask (.gesture .releaseKeys) fun
        | .error error => failed error
        | .ok () => .ask (.gesture .releaseButtons) fun
          | .error error => failed error
          | .ok () => .done () := by
  rw [cleanUp]
  refine congrArg (Interaction.ask _) (funext fun _ => ?_)
  refine congrArg (Interaction.ask _) (funext fun keys => ?_)
  cases keys with
  | error error => rfl
  | ok _ =>
    refine congrArg (Interaction.ask _) (funext fun buttons => ?_)
    cases buttons <;> rfl

theorem run_cleanUp (pace : Pace) (directory : FilePath) (rehearsal : Rehearsal)
    (unfailing : rehearsal.conditions.failAtGesture = none) :
    ∃ left later, (cleanUp.relay (answer filter pace directory) rehearsal).run reply surroundings =
        (((), left), later) ∧
      left.gestured = rehearsal.gestured ++ [.releaseKeys, .releaseButtons] := by
  have never {other : Rehearsal} (same : other.conditions = rehearsal.conditions) :
      other.fails = false := by
    rw [Rehearsal.fails, same, unfailing]
    rfl
  -- Each answer is given by what the one before has left.
  obtain ⟨told, notes⟩ := run_answer_note reply surroundings filter pace directory rehearsal
    ⟨.info, "Releasing held input after abnormal stop"⟩
  obtain ⟨freed, later, keys, same, gestured⟩ :=
    run_answer_gesture reply told filter pace directory rehearsal .releaseKeys (never rfl) rfl
  obtain ⟨left, last, buttons, -, more⟩ :=
    run_answer_gesture reply later filter pace directory freed .releaseButtons (never same) rfl
  refine ⟨left, last, ?_, ?_⟩
  · rw [cleanUp_eq, Interaction.run_relay_ask notes, Interaction.run_relay_ask keys]
    exact Interaction.run_relay_ask buttons
  · rw [more, gestured, List.append_assoc]
    rfl

theorem perform_eq (releaseOnStop : Bool) (options : Playback.Options) (sequence : Sequence) :
    perform releaseOnStop options sequence =
      (options.checked.bind fun options =>
        (Playback.play options true unlimited sequence).run).bind fun ending =>
          if !isClean ending && releaseOnStop then cleanUp.bind fun _ => .done ending
          else .done ending := by
  rw [Interaction.bind_assoc]
  rfl

/-- A playback leaves what its gestures make of the device, and the last of them let go of
everything if it breaks off. -/
theorem run_perform (pace : Pace) (directory : FilePath) (releaseOnStop : Bool)
    (options : Playback.Options) (sequence : Sequence) (tracks : rehearsal.Tracks .none first) :
    let (ending, left) := (((perform releaseOnStop options sequence).relay
      (answer filter pace directory) rehearsal).run reply surroundings).1
    left.Tracks .none first ∧ (releaseOnStop = true → isClean ending = false →
      ∃ before, left.gestured = before ++ [.releaseKeys, .releaseButtons]) := by
  have keeps := fun request rehearsal surroundings tracks =>
    @tracks_answer _ reply surroundings filter .none first rehearsal pace directory request tracks
  rw [perform_eq]
  -- What is played does not matter: whatever it asks, the answers keep track of the device.
  generalize (options.checked.bind fun options =>
    (Playback.play options true unlimited sequence).run) = playing
  rcases played : (playing.relay (answer filter pace directory) rehearsal).run reply surroundings
    with ⟨⟨ending, between⟩, later⟩
  have tracked : between.Tracks .none first := by
    have := Interaction.run_relay_keeps keeps playing tracks surroundings
    rwa [played] at this
  rw [Interaction.run_relay_bind played]
  cases breaks : !isClean ending && releaseOnStop with
  | false =>
    refine ⟨tracked, fun wanted (unclean : isClean ending = false) => ?_⟩
    rw [wanted, unclean] at breaks
    cases breaks
  | true =>
    obtain ⟨left, _, cleaned, gestured⟩ := run_cleanUp reply later filter pace directory between
      (by rw [tracked.conditions]; rfl)
    have kept := Interaction.run_relay_keeps keeps cleanUp tracked later
    rw [cleaned] at kept
    rw [if_pos rfl, Interaction.run_relay_bind cleaned]
    exact ⟨kept, fun _ _ => ⟨_, gestured⟩⟩

/-- Settings that no rehearsal begins with, and what is said of them. The colour is looked at before
the screen is. -/
inductive Unfit (settings : Settings) : Error → Prop where
  | probe : settings.probeColor? = none → Unfit settings (.badProbe (.invalidProbe settings.probe))
  | screen {color : Color} : settings.probeColor? = some color →
      settings.screenWidth = 0 ∨ settings.screenHeight = 0 →
      Unfit settings (.badScreen (.invalidScreen settings.screenWidth settings.screenHeight))

theorem rehearse_colorless {settings : Settings} (colorless : settings.probeColor? = none)
    (file : FilePath) (options : Playback.Options) (sequence : Sequence) :
    (rehearse filter settings file options sequence).run =
      .done (.error (.badProbe (.invalidProbe settings.probe))) := by
  rw [rehearse, Settings.probeColor, colorless]
  rfl

theorem rehearse_refused {settings : Settings} {color : Color}
    (colored : settings.probeColor? = some color) (file : FilePath) (options : Playback.Options)
    (sequence : Sequence) {error : DeviceError}
    (refused : (DryRun.create 1920 1080).perform
      (.setScreen settings.screenWidth settings.screenHeight) = .error error) :
    (rehearse filter settings file options sequence).run = .done (.error (.badScreen error)) := by
  rw [rehearse, Settings.probeColor, colored, refused]
  rfl

theorem rehearse_accepted {settings : Settings} {color : Color}
    (colored : settings.probeColor? = some color) (file : FilePath) (options : Playback.Options)
    (sequence : Sequence) {device : DryRun} {entries : List Journal.Entry}
    (accepted : (DryRun.create 1920 1080).perform
      (.setScreen settings.screenWidth settings.screenHeight) = .ok (device, entries)) :
    rehearse filter settings file options sequence =
      ExceptT.lift ((entries.forM (note filter)).bind fun _ =>
        (perform settings.releaseOnStop options sequence).relay
          (answer filter settings.pace (SequenceFile.directory file))
          (.start .none ⟨color, []⟩ device)) := by
  rw [rehearse, Settings.probeColor, colored, accepted]
  exact (ExceptT.lift_bind (entries.forM (note filter)) _).symm

theorem run_rehearse_accepted {settings : Settings} {color : Color}
    (colored : settings.probeColor? = some color) (file : FilePath) (options : Playback.Options)
    (sequence : Sequence) {device : DryRun} {entries : List Journal.Entry}
    (accepted : (DryRun.create 1920 1080).perform
      (.setScreen settings.screenWidth settings.screenHeight) = .ok (device, entries)) :
    ∃ later, ((rehearse filter settings file options sequence).run.run reply surroundings).1 =
      .ok (((perform settings.releaseOnStop options sequence).relay
        (answer filter settings.pace (SequenceFile.directory file))
        (.start .none ⟨color, []⟩ device)).run reply later).1 := by
  refine ⟨((entries.forM (note filter)).run reply surroundings).2, ?_⟩
  rw [rehearse_accepted filter colored file options sequence accepted]
  change ((Interaction.bind (Interaction.bind _ _) _).run reply surroundings).1 = _
  rw [Interaction.run_bind, Interaction.run_bind]
  rfl

theorem run_rehearse (settings : Settings) (file : FilePath) (options : Playback.Options)
    (sequence : Sequence) :
    match ((rehearse filter settings file options sequence).run.run reply surroundings).1 with
    | .error error => Unfit settings error
    | .ok (ending, left) =>
      left.device = (DryRun.create 1920 1080).after
        (.setScreen settings.screenWidth settings.screenHeight :: left.gestured) ∧
      (settings.releaseOnStop = true → isClean ending = false →
        ∃ before, left.gestured = before ++ [.releaseKeys, .releaseButtons]) := by
  -- What can be wrong is found in order: the color first, then the size of the screen.
  cases colored : settings.probeColor? with
  | none =>
    rw [rehearse_colorless filter colored file options sequence]
    exact .probe colored
  | some color =>
    cases screen : (DryRun.create 1920 1080).perform
      (.setScreen settings.screenWidth settings.screenHeight) with
    | error error =>
      obtain ⟨width, height, empty, same, rfl⟩ := DryRun.perform_eq_error.mp screen
      cases same
      rw [rehearse_refused filter colored file options sequence screen]
      exact .screen colored empty
    | ok accepted =>
      obtain ⟨later, ends⟩ :=
        run_rehearse_accepted reply surroundings filter colored file options sequence screen
      have performed : (DryRun.create 1920 1080).performed
          (.setScreen settings.screenWidth settings.screenHeight) = accepted.1 := by
        rw [DryRun.performed, screen]
      obtain ⟨tracks, released⟩ := run_perform reply later filter settings.pace
        (SequenceFile.directory file) settings.releaseOnStop options sequence
        (@Rehearsal.tracks_start .none ⟨color, []⟩ accepted.1)
      rw [ends]
      refine ⟨?_, released⟩
      rw [tracks.device, ← performed]
      rfl

/-- What is held behind a history was pressed and not let go since, and gestures for keys and for
buttons leave each other alone. So nothing stays held behind a playback that breaks off, if the
settings say so, whatever it was asked for and answered before. -/
theorem held_iff_pressed (width height : UInt32) (history : List Gesture) (settings : Settings)
    (file : FilePath) (options : Playback.Options) (sequence : Sequence) :
    let device := (DryRun.create width height).after history
    (∀ key, key ∈ device.keys ↔ Held (· = .keyDown key)
      (fun later => later = .keyUp key ∨ later = .releaseKeys) history) ∧
    (∀ button, button ∈ device.buttons ↔ Held (· = .mouseDown button)
      (fun later => later = .mouseUp button ∨ later = .releaseButtons) history) ∧
    (∀ gesture, (gesture.isForKeys = true →
        ∃ keys, device.performed gesture = { device with keys := keys }) ∧
      (gesture.isForButtons = true →
        ∃ buttons, device.performed gesture = { device with buttons := buttons })) ∧
    match ((rehearse filter settings file options sequence).run.run reply surroundings).1 with
    | .error error => Unfit settings error
    | .ok (ending, left) =>
      left.device = (DryRun.create 1920 1080).after
        (.setScreen settings.screenWidth settings.screenHeight :: left.gestured) ∧
      (settings.releaseOnStop = true → isClean ending = false →
        (∀ key, key ∉ left.device.keys) ∧ ∀ button, button ∉ left.device.buttons) := by
  intro device
  refine ⟨fun _ => DryRun.mem_keys_after, fun _ => DryRun.mem_buttons_after, fun gesture =>
    ⟨fun forKeys => DryRun.performed_forKeys forKeys device,
      fun forButtons => DryRun.performed_forButtons forButtons device⟩, ?_⟩
  have rehearsed := run_rehearse reply surroundings filter settings file options sequence
  generalize ((rehearse filter settings file options sequence).run.run reply surroundings).1 =
    outcome at rehearsed
  cases outcome with
  | error error => exact rehearsed
  | ok left =>
    obtain ⟨behind, released⟩ := rehearsed
    refine ⟨behind, fun wanted unclean => ?_⟩
    obtain ⟨before, gestured⟩ := released wanted unclean
    rw [behind, gestured]
    exact DryRun.nothing_held_after _ _ (.setScreen _ _ :: before)

end

/-- A key and a button are pressed, and then there is nowhere to go. -/
def dangling : Sequence :=
  ⟨#[.plain (.key .down ⟨65⟩), .plain (.mouse .leftDown 0 0 0), .plain (.jump none none)]⟩

theorem held_iff_pressed_dangling :
    ∃ error left, ((rehearse ⟨5⟩ .default "dangling.json" ⟨1, false, 0⟩ dangling).run.run
        Terminal.answer (.start .empty [])).1 = .ok (.error error, left) ∧
      left.gestured = [.keyDown ⟨65⟩, .mouseDown .left, .releaseKeys, .releaseButtons] ∧
      (∀ key, key ∉ left.device.keys) ∧ ∀ button, button ∉ left.device.buttons := by
  have ends : ((rehearse ⟨5⟩ .default "dangling.json" ⟨1, false, 0⟩ dangling).run.run
      Terminal.answer (.start .empty [])).1.toOption.map
        (fun (ending, left) => (ending.isOk, left.gestured)) =
      some (false, [.keyDown ⟨65⟩, .mouseDown .left, .releaseKeys, .releaseButtons]) := by
    decide +kernel
  obtain ⟨-, -, -, rehearsed⟩ := held_iff_pressed Terminal.answer (.start .empty []) ⟨5⟩ 1 1 []
    .default "dangling.json" ⟨1, false, 0⟩ dangling
  generalize ((rehearse ⟨5⟩ .default "dangling.json" ⟨1, false, 0⟩ dangling).run.run
    Terminal.answer (.start .empty [])).1 = outcome at ends rehearsed
  rcases outcome with error | ⟨error | report, left⟩
  · cases ends
  · obtain ⟨-, gestured⟩ := Prod.mk.inj (Option.some.inj ends)
    exact ⟨error, left, rfl, gestured, rehearsed.2 rfl rfl⟩
  · cases ends

end InputTape.CommandLine
