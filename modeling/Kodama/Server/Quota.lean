import Kodama.Server.Retention
import Kodama.Storage.DiskUsage

/-!
# The storage quota (crates/kodama/src/server/storage.rs, `StorageManager::store`)

A frame is refused once `usage_bytes` has reached the maximum. The usage is that of the
finalized segments: what has gone into open ones, of however many sources, is not in it, and
a segment stays open for as long as its source's frames fall into one window.

- `QuotaKept`: the segment files, open ones and buffers included, exceed the maximum by no
  more than the record stored last and a segment header.
- `Covered`: the usage and the bytes in open segments are together no less than the bytes of
  all segment files. A rotation moves what its segment gathered from the one to the other.
- `quotaKept`: so the quota is kept in every run in which the frames that pass the check find
  the usage and the bytes in open segments together within the maximum.
- `quota_exceeded`: ten frames of one window and a maximum of 100 bytes.
-/

namespace Kodama

open Lib

namespace StorageManager

variable {m m' : StorageManager} {c : Capture}

/-- The size of the record stored last. -/
def lastRecord (m : StorageManager) : Nat :=
  match m.backend.log.getLast? with
  | some c => (encodeRecord c.frame).length
  | none => 0

def QuotaKept (m : StorageManager) : Prop :=
  m.backend.storage.allBytes ≤ m.config.maxSizeBytes.toNat + (m.lastRecord + 20)

/-- The checks of `store` let a frame pass. -/
def Admits (m : StorageManager) (c : Capture) : Prop :=
  ¬ (m.config.keyframesOnly = true ∧ c.frame.flags.isKeyframe = false) ∧
    ¬ (m.config.maxSizeBytes > 0 ∧ m.backend.storage.usageBytes ≥ m.config.maxSizeBytes)

/-- If a frame passes the checks, it would pass with what is in open segments counted too: it
and the usage are within the maximum. -/
def OpenWithin (m : StorageManager) (c : Capture) : Prop :=
  m.Admits c → m.backend.storage.usageBytes.toNat + m.backend.storage.openSegmentBytes ≤
    m.config.maxSizeBytes.toNat

instance (m : StorageManager) (c : Capture) : Decidable (m.Admits c) :=
  inferInstanceAs (Decidable (¬ (_ ∧ _) ∧ ¬ (_ ∧ _)))

instance (m : StorageManager) (c : Capture) : Decidable (m.OpenWithin c) :=
  inferInstanceAs (Decidable (m.Admits c → _))

/-- A run of stores. -/
def storeStep (m : StorageManager) (c : Capture) : Option StorageManager := m.step (.store c)

/-! ## What a store adds -/

/-- A frame that passes the checks goes to the backend, another changes no file. -/
theorem storeStep_cases (h : m.storeStep c = some m') :
    m'.config = m.config ∧
      (¬ m.Admits c ∧ m'.backend = m.backend ∨
        m.Admits c ∧ m.backend.store Capture.frame c = some m'.backend) := by
  obtain ⟨⟨m', stored⟩, hstore, rfl⟩ := Option.map_eq_some_iff.mp h
  refine ⟨(store_cases hstore).1, ?_⟩
  unfold store at hstore
  split at hstore
  · next hskip =>
    cases hstore
    refine .inl ⟨fun hadmits => hadmits.1 ?_, rfl⟩
    simpa using hskip
  · next hframe =>
    dsimp only at hstore
    split at hstore
    · next hlimit =>
      cases hstore
      refine .inl ⟨fun hadmits => hadmits.2 ?_, rfl⟩
      simpa using hlimit
    · next hlimit =>
      obtain ⟨backend, hbackend, heq⟩ := Option.map_eq_some_iff.mp hstore
      cases heq
      refine .inr ⟨⟨?_, ?_⟩, hbackend⟩
      · simpa using hframe
      · simpa using hlimit

/-! ## The usage and the open segments -/

/-- The usage and the bytes in open segments cover all segment files. -/
structure Covered (m : StorageManager) : Prop where
  placed : Recording.Placed Capture.frame m.backend
  counted : Recording.Counted Capture.frame m.backend
  covers : m.backend.storage.allBytes ≤
    m.backend.storage.usageBytes.toNat + m.backend.storage.openSegmentBytes

theorem Covered.new (config : StorageConfig) (localConfig : LocalStorageConfig) :
    Covered (new config localConfig) where
  placed := .onEmptyRoot localConfig
  counted := .onEmptyRoot localConfig
  covers := Nat.zero_le _

/-- A store keeps this, and the quota, if the frame finds the open segments within the maximum. -/
theorem Covered.storeStep (h : m.Covered) (hkept : m.QuotaKept) (hwithin : m.OpenWithin c)
    (hstep : m.storeStep c = some m') : m'.Covered ∧ m'.QuotaKept := by
  obtain ⟨hconfig, ⟨-, hsame⟩ | ⟨hadmits, hstore⟩⟩ := storeStep_cases hstep
  · refine ⟨⟨?_, ?_, ?_⟩, ?_⟩
    · rw [hsame]
      exact h.placed
    · rw [hsame]
      exact h.counted
    · rw [hsame]
      exact h.covers
    · rw [QuotaKept, lastRecord, hsame, hconfig]
      exact hkept
  · have hwithin := hwithin hadmits
    have hcovers := h.covers
    have hmax := m.config.maxSizeBytes.toNat_lt
    have hlast : m'.lastRecord = (encodeRecord c.frame).length := by
      rw [lastRecord, Recording.store_log hstore, List.getLast?_concat]
    obtain ⟨hcounted, husage⟩ := Recording.usage_store h.placed h.counted hstore fun _ => by omega
    rw [QuotaKept, hlast, hconfig]
    rcases Recording.allBytes_store h.placed hstore with
      ⟨writer, hcurrent, hbytes⟩ | ⟨hnone, hbytes⟩
    · rw [if_neg (by rw [hcurrent]; simp)] at husage
      exact ⟨⟨h.placed.store hstore, hcounted, by omega⟩, by omega⟩
    · rw [if_pos hnone] at husage
      exact ⟨⟨h.placed.store hstore, hcounted, by omega⟩, by omega⟩

/-- **When the quota is kept.** In every run of stores on an empty storage directory in which each
frame that passes the checks finds the usage and the bytes in open segments within the maximum,
the segment files never exceed it by more than the record stored last and a segment header. -/
theorem quotaKept (config : StorageConfig) (localConfig : LocalStorageConfig)
    (captures : List Capture)
    (hwithin : Machine.EachStep storeStep (fun m c _ => m.OpenWithin c) (new config localConfig)
      captures) :
    Machine.Always storeStep QuotaKept (new config localConfig) captures := by
  have halways : Machine.Always storeStep (fun m => m.Covered ∧ m.QuotaKept)
      (new config localConfig) captures :=
    Machine.always_of_eachStep ⟨.new config localConfig, Nat.zero_le _⟩
      (fun _ _ _ h hwithin hstep => h.1.storeStep h.2 hwithin hstep) hwithin
  exact halways.mono fun _ h => h.2

/-- Two cameras and three windows. -/
def twoCameras : List Capture :=
  [(0, 5), (1, 5), (0, 12), (1, 12), (0, 25), (1, 25)].map fun (camera, wall) =>
    Capture.stamp 0 wall (Nat.zero_le wall)
      (Frame.video ⟨[camera, 1, 2, 3, 5, 8, 13, 21], rfl⟩ [0x65] true)

/-- A maximum of five segments with a record each: the sixth brings the files to the bound. -/
theorem quotaKept_twoCameras :
    (Machine.run storeStep (new { StorageConfig.default with maxSizeBytes := 215 } ⟨10⟩)
      twoCameras).map (fun m => (m.backend.log.length, m.backend.storage.usageBytes,
        m.backend.storage.allBytes)) = some (6, 172, 258) ∧
    Machine.Always storeStep QuotaKept
      (new { StorageConfig.default with maxSizeBytes := 215 } ⟨10⟩) twoCameras :=
  ⟨by decide +kernel, quotaKept _ _ _ (by decide +kernel)⟩

/-- Ten frames of one camera in one window. -/
def oneWindow : List Capture :=
  (List.range 10).map fun i => Capture.stamp 0 i (Nat.zero_le i)
    (Frame.video ⟨[1, 1, 2, 3, 5, 8, 13, 21], rfl⟩ [0x65] true)

/-- A maximum of 100 bytes, and no other limit. -/
def hundredBytes : StorageConfig := { StorageConfig.default with maxSizeBytes := 100 }

/-- All ten are stored: the usage is 0 as long as their segment is open. -/
theorem quota_exceeded :
    (Machine.run storeStep (new hundredBytes ⟨60_000_000⟩) oneWindow).map (fun m =>
        (m.backend.storage.usageBytes, m.config.maxSizeBytes, m.backend.storage.allBytes,
          m.lastRecord)) = some (0, 100, 250, 23) ∧
    ¬ Machine.Always storeStep QuotaKept (new hundredBytes ⟨60_000_000⟩) oneWindow := by
  have hrun : (Machine.run storeStep (new hundredBytes ⟨60_000_000⟩) oneWindow).map (fun m =>
        (m.backend.storage.usageBytes, m.config.maxSizeBytes, m.backend.storage.allBytes,
          m.lastRecord)) = some (0, 100, 250, 23) := by
    decide +kernel
  refine ⟨hrun, fun h => ?_⟩
  obtain ⟨m, hkept, hobserved⟩ := h.observed hrun
  obtain ⟨-, hobserved⟩ := Prod.mk.inj hobserved
  obtain ⟨hmax, hobserved⟩ := Prod.mk.inj hobserved
  obtain ⟨hbytes, hlast⟩ := Prod.mk.inj hobserved
  rw [QuotaKept, hmax, hbytes, hlast] at hkept
  exact absurd hkept (by decide)

end StorageManager

end Kodama
