import Kodama.Core.Frame
import Kodama.Lib.Machine

/-!
# The capture process (crates/kodama/src/capture/video.rs)

`VideoCapture` runs one process of the camera's encoder, and changes the bitrate by stopping it
and starting another. The new bitrate is stored between the two, so a start that fails leaves
the new bitrate in the configuration and no process; a second call for the same bitrate finds
nothing to do and succeeds.

`Settled` is what holds between calls all the same: a process that runs was started with the
configuration there is. So a call tells the truth, except for such a second call
(`truthful_iff`).
-/

namespace Kodama

open Lib.Machine

/-- Video capture configuration. -/
structure VideoCaptureConfig where
  width : UInt32 := 1280
  height : UInt32 := 720
  fps : UInt32 := 30
  /-- bitrate in bits per second (0 = auto) -/
  bitrate : UInt32 := 0
  inlineHeaders : Bool := true
  /-- keyframe interval in frames (0 = auto) -/
  keyframeInterval : UInt32 := 20
deriving DecidableEq

/-- The arguments `start_process` makes of a configuration. -/
def VideoCaptureConfig.args (config : VideoCaptureConfig) : List String :=
  ["-t", "0", "--width", toString config.width, "--height", toString config.height,
    "--framerate", toString config.fps, "--codec", "h264", "-o", "-", "--flush", "-n"] ++
  (if config.inlineHeaders then ["--inline"] else []) ++
  (if 0 < config.bitrate then ["--bitrate", toString config.bitrate] else []) ++
  (if 0 < config.keyframeInterval then ["--intra", toString config.keyframeInterval] else [])

/-- A capture process, and the configuration its reader has a clone of. -/
structure CaptureProcess where
  cmd : String
  args : List String
  readConfig : VideoCaptureConfig
deriving DecidableEq

/-- Handle to a running video capture process. -/
structure VideoCapture where
  child : Option CaptureProcess
  config : VideoCaptureConfig
deriving DecidableEq

/-- What the system does when a process is started. -/
structure Spawning where
  /-- `rpicam-vid --help` runs -/
  rpicam : Bool
  /-- the process is spawned -/
  spawned : Bool
deriving DecidableEq

namespace VideoCapture

/-- Start (or restart) the rpicam-vid process. -/
def startProcess (self : VideoCapture) (spawning : Spawning) : Result Unit × VideoCapture :=
  let cmd := if spawning.rpicam then "rpicam-vid" else "libcamera-vid"
  -- standard output is piped, so it can be taken
  if spawning.spawned then
    (.ok (), { self with child := some ⟨cmd, self.config.args, self.config⟩ })
  else (.error s!"Failed to spawn {cmd}. Is it installed?", self)

/-- Stop the current capture process (if running). -/
def stopProcess (self : VideoCapture) : VideoCapture := { self with child := none }

/-- `VideoCapture::start`: the capture, if its process starts. -/
def start (config : VideoCaptureConfig) (spawning : Spawning) : Result VideoCapture :=
  let (result, capture) := startProcess ⟨none, config⟩ spawning
  result.map fun _ => capture

/-- Update the encoding bitrate by restarting rpicam-vid. -/
def updateBitrate (self : VideoCapture) (bitrateBps : UInt32) (spawning : Spawning) :
    Result Unit × VideoCapture :=
  if self.config.bitrate = bitrateBps then (.ok (), self)
  else
    let self := self.stopProcess
    { self with config := { self.config with bitrate := bitrateBps } }.startProcess spawning

/-- A process is running that was started with a configuration. -/
def Runs (self : VideoCapture) (config : VideoCaptureConfig) : Prop :=
  ∃ process, self.child = some process ∧ process.args = config.args ∧ process.readConfig = config

/-- A process is running that was started with a bitrate. -/
def RunsWith (self : VideoCapture) (bitrateBps : UInt32) : Prop :=
  ∃ config, self.Runs config ∧ config.bitrate = bitrateBps

/-- If a process is running, it was started with the configuration there is. -/
def Settled (self : VideoCapture) : Prop := self.child = none ∨ self.Runs self.config

variable {t u : VideoCapture} {bitrate : UInt32} {spawning : Spawning}

theorem start_eq_ok {config : VideoCaptureConfig} (h : start config spawning = .ok t) :
    t.Runs t.config := by
  unfold start startProcess at h
  dsimp only at h
  split at h
  · cases h
    exact ⟨_, rfl, rfl, rfl⟩
  · cases h

/-- What a call does when it has something to do. -/
theorem updateBitrate_of_ne (hne : t.config.bitrate ≠ bitrate) (spawning : Spawning) :
    (t.updateBitrate bitrate spawning).2.config = { t.config with bitrate } ∧
    (((t.updateBitrate bitrate spawning).1 = .ok () ∧
      (t.updateBitrate bitrate spawning).2.Runs { t.config with bitrate }) ∨
    ((t.updateBitrate bitrate spawning).1 ≠ .ok () ∧
      (t.updateBitrate bitrate spawning).2.child = none)) := by
  unfold updateBitrate startProcess
  rw [if_neg hne]
  dsimp only [stopProcess]
  split
  · exact ⟨rfl, .inl ⟨rfl, _, rfl, rfl, rfl⟩⟩
  · exact ⟨rfl, .inr ⟨by simp, rfl⟩⟩

/-- After a call the configuration has its bitrate, also when it fails. -/
theorem updateBitrate_config (t : VideoCapture) (bitrate : UInt32) (spawning : Spawning) :
    (t.updateBitrate bitrate spawning).2.config = { t.config with bitrate } := by
  by_cases heq : t.config.bitrate = bitrate
  · subst heq
    rw [updateBitrate, if_pos rfl]
  · exact (updateBitrate_of_ne heq spawning).1

theorem Settled.updateBitrate (h : t.Settled) (bitrate : UInt32) (spawning : Spawning) :
    (t.updateBitrate bitrate spawning).2.Settled := by
  by_cases heq : t.config.bitrate = bitrate
  · rwa [VideoCapture.updateBitrate, if_pos heq]
  · obtain ⟨hconfig, ⟨-, hruns⟩ | ⟨-, hchild⟩⟩ := updateBitrate_of_ne heq spawning
    · exact .inr (hconfig ▸ hruns)
    · exact .inl hchild

theorem Settled.runsWith_iff (h : t.Settled) : t.RunsWith t.config.bitrate ↔ t.child ≠ none := by
  constructor
  · rintro ⟨-, ⟨process, hchild, -⟩, -⟩
    simp [hchild]
  · intro hchild
    exact ⟨t.config, h.resolve_left hchild, rfl⟩

/-! ## Runs of calls -/

/-- A call of `update_bitrate`. -/
def step (self : VideoCapture) (call : UInt32 × Spawning) : Option VideoCapture :=
  some (self.updateBitrate call.1 call.2).2

/-- A call that succeeds leaves a process running that was started with its bitrate. -/
def Truthful (t : VideoCapture) (call : UInt32 × Spawning) (u : VideoCapture) : Prop :=
  (t.updateBitrate call.1 call.2).1 = .ok () → u.RunsWith call.1

/-- A call does not ask for the bitrate there is while no process is running. -/
def AsksAnew (t : VideoCapture) (call : UInt32 × Spawning) (_ : VideoCapture) : Prop :=
  t.child = none → t.config.bitrate ≠ call.1

theorem truthful_step (hsettled : t.Settled) {call : UInt32 × Spawning}
    (hstep : step t call = some u) : Truthful t call u ↔ AsksAnew t call u := by
  obtain rfl := Option.some.inj hstep
  obtain ⟨bitrate, spawning⟩ := call
  unfold Truthful AsksAnew
  dsimp only
  by_cases heq : t.config.bitrate = bitrate
  · subst heq
    -- the call does nothing
    rw [updateBitrate, if_pos rfl]
    simpa using hsettled.runsWith_iff
  · obtain ⟨-, ⟨-, hruns⟩ | ⟨hfails, -⟩⟩ := updateBitrate_of_ne heq spawning
    · exact iff_of_true (fun _ => ⟨_, hruns, rfl⟩) fun _ => heq
    · exact iff_of_true (fun hok => absurd hok hfails) fun _ => heq

/-- **`update_bitrate` tells the truth** in all calls of a run if and only if none of them asks
again for the bitrate of a start that has failed. -/
theorem truthful_iff (config : VideoCaptureConfig) (spawning : Spawning) (capture : VideoCapture)
    (hstart : start config spawning = .ok capture) (calls : List (UInt32 × Spawning)) :
    EachStep step Truthful capture calls ↔ EachStep step AsksAnew capture calls := by
  have hsettled : Always step Settled capture calls := by
    refine always_of_step (.inr (start_eq_ok hstart)) ?_ calls
    intro t call u h hstep
    obtain rfl := Option.some.inj hstep
    exact h.updateBitrate call.1 call.2
  exact eachStep_congr_of_always hsettled fun _ _ _ h hstep => truthful_step h hstep

/-- A capture with a process. -/
def exampleCapture : VideoCapture :=
  ⟨some ⟨"rpicam-vid", VideoCaptureConfig.args {}, {}⟩, {}⟩

instance {call : UInt32 × Spawning} : Decidable (AsksAnew t call u) :=
  inferInstanceAs (Decidable (t.child = none → t.config.bitrate ≠ call.1))

theorem truthful_restart : EachStep step Truthful exampleCapture
    [(500000, ⟨true, false⟩), (1000000, ⟨true, true⟩)] :=
  (truthful_iff {} ⟨true, true⟩ exampleCapture rfl _).mpr (by decide)

/-- A call fails to start the process; the same call again succeeds, and there is none. -/
theorem truthful_retry : ¬ ∀ (config : VideoCaptureConfig) (spawning : Spawning)
    (capture : VideoCapture), start config spawning = .ok capture →
    ∀ calls, EachStep step Truthful capture calls := by
  intro h
  have hcalls := h {} ⟨true, true⟩ exampleCapture rfl
    [(500000, ⟨true, false⟩), (500000, ⟨true, true⟩)]
  obtain ⟨-, ⟨process, hchild, -⟩, -⟩ := hcalls [(500000, ⟨true, false⟩)] (500000, ⟨true, true⟩)
    _ _ (List.prefix_refl _) rfl rfl rfl
  cases hchild

end VideoCapture

end Kodama
