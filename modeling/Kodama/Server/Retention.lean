import Kodama.Storage.Recording

/-!
# Retention (crates/kodama/src/server/storage.rs)

The storage manager stores the frames of the cameras and, periodically or on demand, deletes
the segments that ended before `now - retention`. The cutoff is a Unix time; the end of a
segment is the timestamp of a frame, and the firmware stamps a frame with the time since its
session started (apps/kodama-firmware/src/camera.rs). A `Capture` is a frame together with
the wall clock at its session's start and at its capture, and the proof that this is how its
timestamp came about.

- `KeepsRetained`: a cleanup deletes no file that holds a capture within the retention
  period.
- `keepsRetained_iff_noEarlyExpiry`: in any run, all cleanups do so exactly if each of them,
  for every indexed segment whose deletion would work, finds the end time within the
  retention period of the wall clock or nothing but old captures in the file.
- `cleanup_deletesFresh`: a camera that starts today has its recordings deleted at once.
-/

namespace Kodama

open Lib

structure StorageConfig where
  /-- Maximum storage size in bytes (0 = unlimited). -/
  maxSizeBytes : UInt64
  /-- Retention period in seconds (0 = unlimited). -/
  retentionSecs : UInt64
  keyframesOnly : Bool
  cleanupIntervalSecs : UInt64

/-- `StorageConfig::default`. -/
def StorageConfig.default : StorageConfig where
  maxSizeBytes := 10 * 1024 * 1024 * 1024
  retentionSecs := 7 * 24 * 60 * 60
  keyframesOnly := false
  cleanupIntervalSecs := 3600

structure StorageStats where
  bytesUsed : UInt64 := 0
  framesStored : UInt64 := 0
  framesSkipped : UInt64 := 0
  bytesCleaned : UInt64 := 0

/-- A frame as a camera captures it. Wall-clock times are Unix microseconds. -/
structure Capture where
  sessionStart : Nat
  wall : Nat
  frame : Frame
  started : sessionStart ≤ wall
  timestamp_eq : frame.timestampUs = UInt64.ofNat (wall - sessionStart)

/-- The timestamping of `run_async`: the time elapsed since the session started. -/
def Capture.stamp (sessionStart wall : Nat) (h : sessionStart ≤ wall) (frame : Frame) : Capture :=
  ⟨sessionStart, wall, frame.withTimestamp (UInt64.ofNat (wall - sessionStart)), h, rfl⟩

/-- The manager on its local storage backend. -/
structure StorageManager where
  config : StorageConfig
  backend : Recording Capture
  stats : StorageStats

namespace StorageManager

/-- `StorageManager::new` on an empty local storage. -/
def new (config : StorageConfig) (localConfig : LocalStorageConfig) : StorageManager :=
  ⟨config, .onEmptyRoot localConfig, {}⟩

/-- Store a frame; also whether it was stored or skipped. `none` if the backend fails. -/
def store (m : StorageManager) (c : Capture) : Option (StorageManager × Bool) :=
  if m.config.keyframesOnly && !c.frame.flags.isKeyframe then
    some ({ m with stats := { m.stats with framesSkipped := m.stats.framesSkipped + 1 } }, false)
  else
    let currentUsage := m.backend.storage.usageBytes
    if m.config.maxSizeBytes > 0 && currentUsage ≥ m.config.maxSizeBytes then some (m, false)
    else
      (m.backend.store Capture.frame c).map fun backend =>
        ({ m with
            backend
            stats := { m.stats with
              framesStored := m.stats.framesStored + 1
              bytesUsed := currentUsage + UInt64.ofNat c.frame.payload.length } }, true)

/-- The end times before which segments are deleted. -/
def cutoffTimeUs (config : StorageConfig) (now : UInt64) : UInt64 :=
  let retentionUs := config.retentionSecs * 1_000_000
  if retentionUs ≤ now then now - retentionUs else 0

/-- Run cleanup based on the retention policy, at wall-clock time `now`; also the bytes
freed. -/
def cleanup (m : StorageManager) (now : Nat) (unlinkFails : SourceId → Nat → Bool) :
    StorageManager × UInt64 :=
  if m.config.retentionSecs = 0 then (m, 0)
  else
    let cutoff := cutoffTimeUs m.config (UInt64.ofNat now)
    let deleted := (m.backend.storage.cleanup cutoff unlinkFails).2
    ({ m with
        backend := m.backend.cleanup cutoff unlinkFails
        stats := if deleted > 0 then
            { m.stats with bytesCleaned := m.stats.bytesCleaned + deleted }
          else m.stats }, deleted)

/-- A tick of the task started by `start_cleanup_task`, which repeats the body of `cleanup`
on a clone of the configuration and the shared backend and statistics. -/
def cleanupTick (m : StorageManager) (now : Nat) (unlinkFails : SourceId → Nat → Bool) :
    StorageManager :=
  (m.cleanup now unlinkFails).1

inductive Event where
  | store (c : Capture)
  | flush
  | cleanup (now : Nat) (unlinkFails : SourceId → Nat → Bool)
  | cleanupTick (now : Nat) (unlinkFails : SourceId → Nat → Bool)

def step (m : StorageManager) : Event → Option StorageManager
  | .store c => (m.store c).map Prod.fst
  | .flush => some { m with backend := m.backend.flush }
  | .cleanup now unlinkFails => some (m.cleanup now unlinkFails).1
  | .cleanupTick now unlinkFails => some (m.cleanupTick now unlinkFails)

/-! ## What is held is what is in the files -/

variable {m m' : StorageManager} {now : Nat} {unlinkFails : SourceId → Nat → Bool}

/-- A frame is skipped, or goes to the backend. -/
theorem store_cases {c : Capture} {stored : Bool} (h : m.store c = some (m', stored)) :
    m'.config = m.config ∧
      (stored = false ∧ m'.backend = m.backend ∨
        stored = true ∧ m.backend.store Capture.frame c = some m'.backend) := by
  unfold store at h
  split at h
  · cases h
    exact ⟨rfl, .inl ⟨rfl, rfl⟩⟩
  · dsimp only at h
    split at h
    · cases h
      exact ⟨rfl, .inl ⟨rfl, rfl⟩⟩
    · obtain ⟨backend, hbackend, heq⟩ := Option.map_eq_some_iff.mp h
      cases heq
      exact ⟨rfl, .inr ⟨rfl, hbackend⟩⟩

theorem cleanup_of_unlimited (h : m.config.retentionSecs = 0) :
    (m.cleanup now unlinkFails).1 = m := by
  rw [cleanup, if_pos h]

theorem cleanup_backend (h : m.config.retentionSecs ≠ 0) :
    (m.cleanup now unlinkFails).1.backend =
      m.backend.cleanup (cutoffTimeUs m.config (UInt64.ofNat now)) unlinkFails := by
  rw [cleanup, if_neg h]

theorem faithful_step {event : Event} (h : Recording.Faithful Capture.frame m.backend)
    (hm : m.step event = some m') : Recording.Faithful Capture.frame m'.backend := by
  have hcleanup : ∀ now unlinkFails,
      Recording.Faithful Capture.frame (m.cleanup now unlinkFails).1.backend := by
    intro now unlinkFails
    by_cases hunlimited : m.config.retentionSecs = 0
    · rw [cleanup_of_unlimited hunlimited]
      exact h
    · rw [cleanup_backend hunlimited]
      exact h.cleanup _ _
  cases event with
  | store c =>
    obtain ⟨⟨m'', stored⟩, hstore, rfl⟩ := Option.map_eq_some_iff.mp hm
    obtain ⟨-, ⟨-, hskip⟩ | ⟨-, hbackend⟩⟩ := store_cases hstore
    · show Recording.Faithful Capture.frame m''.backend
      rw [hskip]
      exact h
    · exact h.store hbackend
  | flush =>
    obtain rfl := Option.some.inj hm
    exact h.flush
  | cleanup now unlinkFails =>
    obtain rfl := Option.some.inj hm
    exact hcleanup now unlinkFails
  | cleanupTick now unlinkFails =>
    obtain rfl := Option.some.inj hm
    exact hcleanup now unlinkFails

/-- In every run, the files and open segments hold the frames of exactly the captures
recorded for them. -/
theorem always_faithful (config : StorageConfig) (localConfig : LocalStorageConfig)
    (events : List Event) :
    Machine.Always step (fun m => Recording.Faithful Capture.frame m.backend)
      (new config localConfig) events :=
  Machine.always_of_step (.onEmptyRoot localConfig) (fun _ _ _ h hm => faithful_step h hm) events

/-! ## Retention -/

/-- The retention period in microseconds. -/
def retentionUs (m : StorageManager) : Nat := m.config.retentionSecs.toNat * 1_000_000

/-- No capture within the retention period, at `now`, was in a file that has been deleted. -/
def KeepsCaptures (m : StorageManager) (now : Nat) (m' : StorageManager) : Prop :=
  ∀ p i, m.backend.storage.fs.names.lookup p = some i →
    m'.backend.storage.fs.names.lookup p = none →
    ∀ c ∈ m.backend.held i, ¬ now < c.wall + m.retentionUs

/-- No cleanup deletes a capture within the retention period. -/
def KeepsRetained (m : StorageManager) : Event → StorageManager → Prop
  | .cleanup now _, m' => m.KeepsCaptures now m'
  | .cleanupTick now _, m' => m.KeepsCaptures now m'
  | _, _ => True

/-- At `now`, every indexed segment whose file is there and can be deleted ends, by the
timestamps of its frames, within the retention period, or has only older captures in it.
The clock and the period are 64-bit. -/
def NothingExpiresEarly (m : StorageManager) (now : Nat)
    (unlinkFails : SourceId → Nat → Bool) : Prop :=
  m.config.retentionSecs = 0 ∨
  ∀ source seg i, (seg, i) ∈ (m.backend.storage.segmentsOf source).zipIdx →
    unlinkFails source i = false →
    now % 2 ^ 64 ≤ seg.endTimeUs.toNat + m.retentionUs % 2 ^ 64 ∨
    ∀ inode, m.backend.storage.fs.names.lookup seg.path = some inode →
      ∀ c ∈ m.backend.held inode, c.wall + m.retentionUs ≤ now

def NoEarlyExpiry (m : StorageManager) : Event → Prop
  | .cleanup now unlinkFails => m.NothingExpiresEarly now unlinkFails
  | .cleanupTick now unlinkFails => m.NothingExpiresEarly now unlinkFails
  | _ => True

/-- Ending before the cutoff, as a relation between the clock and the entry. -/
theorem lt_cutoffTimeUs (m : StorageManager) (now : Nat) (endTimeUs : UInt64) :
    endTimeUs < cutoffTimeUs m.config (UInt64.ofNat now) ↔
      ¬ now % 2 ^ 64 ≤ endTimeUs.toNat + m.retentionUs % 2 ^ 64 := by
  have hnow : (UInt64.ofNat now).toNat = now % 2 ^ 64 := UInt64.toNat_ofNat
  have hretention : (m.config.retentionSecs * 1_000_000).toNat = m.retentionUs % 2 ^ 64 :=
    UInt64.toNat_mul _ _
  simp only [cutoffTimeUs]
  split
  · next hle =>
    rw [UInt64.lt_iff_toNat_lt, UInt64.toNat_sub_of_le _ _ hle, hnow, hretention]
    rw [UInt64.le_iff_toNat_le, hnow, hretention] at hle
    omega
  · next hlt =>
    rw [UInt64.le_iff_toNat_le, hnow, hretention] at hlt
    rw [UInt64.lt_iff_toNat_lt, UInt64.toNat_zero]
    omega

/-- A cleanup keeps the captures within the retention period exactly if nothing expires
early. -/
theorem keepsCaptures_cleanup_iff :
    m.KeepsCaptures now (m.cleanup now unlinkFails).1 ↔
      m.NothingExpiresEarly now unlinkFails := by
  by_cases hunlimited : m.config.retentionSecs = 0
  · rw [cleanup_of_unlimited hunlimited]
    refine iff_of_true (fun p i hp hgone => ?_) (.inl hunlimited)
    cases hp.symm.trans hgone
  · obtain ⟨-, -, hnames⟩ :=
      m.backend.storage.cleanup_spec (cutoffTimeUs m.config (UInt64.ofNat now)) unlinkFails
    rw [KeepsCaptures, cleanup_backend hunlimited, NothingExpiresEarly, or_iff_right hunlimited]
    constructor
    · intro hkeeps source seg i hseg hworks
      refine or_iff_not_imp_left.mpr fun hexpired inode hinode c hc => ?_
      -- an expired entry whose deletion works loses its file
      have hdeletes : LocalStorage.Deletes (unlinkFails source)
          (cutoffTimeUs m.config (UInt64.ofNat now)) seg i :=
        ⟨(lt_cutoffTimeUs m now seg.endTimeUs).mpr hexpired, hworks⟩
      refine Nat.not_lt.mp (hkeeps seg.path inode hinode ?_ c hc)
      refine Option.eq_none_iff_forall_ne_some.mpr fun j hj => ?_
      exact ((hnames seg.path j).mp hj).2 source seg i hseg hdeletes rfl
    · intro hnothing p inode hp hgone c hc hfresh
      have hkept : (m.backend.cleanup (cutoffTimeUs m.config (UInt64.ofNat now))
          unlinkFails).storage.fs.names.lookup p = some inode := by
        refine (hnames p inode).mpr ⟨hp, fun source seg i hseg hdeletes hpath => ?_⟩
        rcases hnothing source seg i hseg hdeletes.2 with hends | hold
        · exact absurd hends ((lt_cutoffTimeUs m now seg.endTimeUs).mp hdeletes.1)
        · exact Nat.not_lt.mpr (hold inode (hpath ▸ hp) c hc) hfresh
      cases hkept.symm.trans hgone

/-- **When cleanups respect the retention period.** In any run, no cleanup deletes a capture
within the retention period if and only if nothing expires early at any of them. -/
theorem keepsRetained_iff_noEarlyExpiry (config : StorageConfig)
    (localConfig : LocalStorageConfig) (events : List Event) :
    Machine.EachStep step KeepsRetained (new config localConfig) events ↔
      Machine.EachStep step (fun m event _ => m.NoEarlyExpiry event) (new config localConfig)
        events := by
  refine Machine.eachStep_congr fun m event m' hm => ?_
  cases event with
  | store c => exact Iff.rfl
  | flush => exact Iff.rfl
  | cleanup now unlinkFails =>
    obtain rfl := Option.some.inj hm
    exact keepsCaptures_cleanup_iff
  | cleanupTick now unlinkFails =>
    obtain rfl := Option.some.inj hm
    exact keepsCaptures_cleanup_iff

/-- A camera whose session starts in November 2023 captures a frame 5 µs later. -/
def firstCapture : Capture :=
  Capture.stamp 1_700_000_000_000_000 1_700_000_000_000_005 (by decide)
    (Frame.video ⟨[8, 7, 6, 5, 4, 3, 2, 1], rfl⟩ [0x65] true)

/-- The wall-clock time a minute after the session started. -/
def minuteLater : Nat := 1_700_000_060_000_000

/-- With the default retention of seven days, a cleanup a minute after the session started
deletes what was recorded: its timestamp, taken for a Unix time, is in 1970. The periodic
task does the same. -/
theorem cleanup_deletesFresh :
    minuteLater < firstCapture.wall + (new .default ⟨60_000_000⟩).retentionUs ∧
    (Machine.run step (new .default ⟨60_000_000⟩) [.store firstCapture, .flush]).map
        (fun m => m.backend.storage.getFrames firstCapture.frame.source 0 10) =
      some (.ok [firstCapture.frame]) ∧
    ∀ event ∈ [Event.cleanup minuteLater fun _ _ => false,
        Event.cleanupTick minuteLater fun _ _ => false],
      (Machine.run step (new .default ⟨60_000_000⟩) [.store firstCapture, .flush, event]).map
          (fun m => (m.backend.storage.getFrames firstCapture.frame.source 0 10,
            m.backend.storage.fs.names.keys)) =
        some (.ok [], []) := by
  simp only [List.forall_mem_cons, List.not_mem_nil, false_imp_iff, implies_true, and_true]
  decide +kernel

end StorageManager

end Kodama
