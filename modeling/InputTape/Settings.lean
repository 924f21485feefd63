import InputTape.Input.Color
import InputTape.Playback.Run
import InputTape.Timer
import InputTape.Toml.Document

/-! Settings of a playback, from a TOML document.

Whatever a document leaves out has its default. Settings are valid if a playback can be set up
from them without changing any.
-/

set_option autoImplicit false

namespace InputTape

structure Settings where
  /-- Milliseconds; also the lateness above which there is a warning. -/
  coarseStep : UInt64
  /-- Microseconds. -/
  spinThreshold : UInt64
  speed : Float
  captureTiming : Bool
  /-- Let go of everything after a playback that has not come to its end? -/
  releaseOnStop : Bool
  screenWidth : UInt32
  screenHeight : UInt32
  /-- The colour that every pixel is taken to have, as text. -/
  probe : String
  logFilter : String
  deriving BEq, Repr

inductive SettingsError where
  /-- The text is no TOML, or a value has the wrong form. -/
  | malformed
  | invalidSpeed (speed : Float)
  | noCoarseStep
  | noScreen
  | invalidProbe (text : String)
  deriving BEq, Repr

def SettingsError.message : SettingsError → String
  | .malformed => "malformed settings"
  | .invalidSpeed speed => "playback.speed must be greater than 0, got " ++ numberText speed
  | .noCoarseStep => "timer.coarse_step_ms must be at least 1"
  | .noScreen => "playback screen size must be non-zero"
  | .invalidProbe text => "invalid probe.color '" ++ text ++ "'"

namespace Settings

def default : Settings where
  coarseStep := 5
  spinThreshold := 2000
  speed := 1
  captureTiming := false
  releaseOnStop := true
  screenWidth := 1920
  screenHeight := 1080
  probe := "#FF000000"
  logFilter := "info"

section Form

open Toml (optional?)

def uint64? (value : Toml) : Option UInt64 :=
  (value.naturalBelow? (Nat.pow 2 64)).map UInt64.ofNat

def uint32? (value : Toml) : Option UInt32 :=
  (value.naturalBelow? (Nat.pow 2 32)).map UInt32.ofNat

def withTimer? (settings : Settings) (value : Toml) : Option Settings := do
  match ← value.fields? ["coarse_step_ms", "spin_threshold_us"] with
  | [step, threshold] =>
    return { settings with
      coarseStep := ← optional? uint64? settings.coarseStep step
      spinThreshold := ← optional? uint64? settings.spinThreshold threshold }
  | _ => none

def withPlayback? (settings : Settings) (value : Toml) : Option Settings := do
  match ← value.fields?
    ["speed", "capture_timing", "release_on_stop", "screen_width", "screen_height"] with
  | [speed, capture, release, width, height] =>
    return { settings with
      speed := ← optional? Toml.float? settings.speed speed
      captureTiming := ← optional? Toml.bool? settings.captureTiming capture
      releaseOnStop := ← optional? Toml.bool? settings.releaseOnStop release
      screenWidth := ← optional? uint32? settings.screenWidth width
      screenHeight := ← optional? uint32? settings.screenHeight height }
  | _ => none

def withProbe? (settings : Settings) (value : Toml) : Option Settings := do
  match ← value.fields? ["color"] with
  | [color] => return { settings with probe := ← optional? Toml.string? settings.probe color }
  | _ => none

def withLog? (settings : Settings) (value : Toml) : Option Settings := do
  match ← value.fields? ["filter"] with
  | [filter] =>
    return { settings with logFilter := ← optional? Toml.string? settings.logFilter filter }
  | _ => none

def ofToml? (value : Toml) : Option Settings := do
  match ← value.fields? ["timer", "playback", "probe", "log"] with
  | [timer, playback, probe, log] =>
    let settings ← optional? (withTimer? .default) .default timer
    let settings ← optional? (withPlayback? settings) settings playback
    let settings ← optional? (withProbe? settings) settings probe
    optional? (withLog? settings) settings log
  | _ => none

end Form

def probeColor? (settings : Settings) : Option Color := Color.ofHex? settings.probe

def probeColor (settings : Settings) : Except SettingsError Color :=
  match settings.probeColor? with
  | some color => .ok color
  | none => .error (.invalidProbe settings.probe)

def problem? (settings : Settings) : Option SettingsError :=
  if !Playback.Options.isPlayable settings.speed then some (.invalidSpeed settings.speed)
  else if settings.coarseStep == 0 then some .noCoarseStep
  else if settings.screenWidth == 0 || settings.screenHeight == 0 then some .noScreen
  else if settings.probeColor?.isNone then some (.invalidProbe settings.probe)
  else none

def read (text : String) : Except SettingsError Settings :=
  match Toml.read? text >>= ofToml? with
  | none => .error .malformed
  | some settings => match settings.problem? with
    | some error => .error error
    | none => .ok settings

def pace (settings : Settings) : Pace :=
  .create (Duration.ofMilliseconds settings.coarseStep.toNat)
    (Duration.ofMicroseconds settings.spinThreshold.toNat)

def options (settings : Settings) : Playback.Options where
  speed := settings.speed
  captureTiming := settings.captureTiming
  latenessWarning := Duration.ofMilliseconds settings.coarseStep.toNat

end Settings
end InputTape
