import Kodama.Server.EndToEnd
import Kodama.Server.Retention
import Kodama.Storage.Playback

/-!
# Recording what is distributed (apps/kodama-server/src/main.rs)

The recording task is one of the router's subscribers: it hands each frame it receives to the
storage manager, and counts what was stored and what was not. Beside it go the router's tasks and
the manager's cleanups. The server's storage has segments of a minute, so that a store fails only
where the disk does (`store_isSome`); the directory is empty at first. What a store that fails
leaves of the storage is left open.

- `recording_accounts`: every frame the task has received was handed to the manager, in order;
  those that were stored are in the storage's log, and the counters count them and those that were
  skipped, but not those whose store has failed.
- `recording_plays_back`: as long as no store has failed, what is read back of a source are frames
  of this source that were read from the stream of some connection and stored.
- `playback_captured`: of a camera, that is what it has captured.
-/

namespace Kodama

open Lib Lib.Machine
open scoped List

/-- A frame as the model of the manager takes it, which sees no more of it. -/
def Capture.ofFrame (frame : Frame) : Capture where
  sessionStart := 0
  wall := frame.timestampUs.toNat
  frame
  started := Nat.zero_le _
  timestamp_eq := by rw [Nat.sub_zero, UInt64.ofNat_toNat]

/-- `StorageHandle::new`, on an empty directory. -/
def StorageHandle.new (maxGb retentionDays : UInt64) (keyframesOnly : Bool) : StorageManager :=
  .new
    { maxSizeBytes := maxGb * 1024 * 1024 * 1024
      retentionSecs := retentionDays * 24 * 60 * 60
      keyframesOnly
      cleanupIntervalSecs := 3600 }
    ⟨60 * 1_000_000⟩

/-- What `StorageManager::store` returns: `Ok(true)`, `Ok(false)` or an error. -/
inductive StoreOutcome where
  | stored
  | skipped
  | failed
deriving DecidableEq

/-- The router, the storage, and the recording task with the frame it has in hand. `handled`
records what it handed to the manager and what became of it. -/
structure RecordingServer where
  router : FrameRouter
  manager : StorageManager
  pending : Option (Nat × Frame) := none
  framesStored : UInt64 := 0
  framesSkipped : UInt64 := 0
  handled : List ((Nat × Frame) × StoreOutcome) := []

inductive RecordingEvent where
  /-- A task of the router, or another subscriber. -/
  | router (event : RouterEvent)
  | recv
  | store
  /-- A store fails, with this storage left. -/
  | storeFails (storage : LocalStorage)
  | cleanupTick (now : Nat) (unlinkFails : SourceId → Nat → Bool)
  | cancelled

/-! ## What a step of the router does to its subscribers -/

namespace FrameRouter

/-- The subscribers, before and after an event. -/
inductive ListenersMove (s t : FrameRouter) : RouterEvent → Prop where
  | same {event : RouterEvent} (heq : t.listeners = s.listeners) : ListenersMove s t event
  | subscribe {i : Nat} (hnone : s.listeners.lookup i = none)
    (heq : t.listeners = s.listeners.insert i ⟨s.admitted.length, .new s.tx, false⟩) :
    ListenersMove s t (.subscribe i)
  | listen {i : Nat} {listener : Listener} {received : Received (Nat × Frame)}
    {rx : Subscription (Nat × Frame)} (hi : s.listeners.lookup i = some listener)
    (hlive : listener.dropped = false) (hrecv : listener.rx.recv s.tx = some (received, rx))
    (heq : t.listeners = s.listeners.insert i { listener with rx }) : ListenersMove s t (.listen i)
  | unsubscribe {i : Nat} {listener : Listener} (hi : s.listeners.lookup i = some listener)
    (heq : t.listeners = s.listeners.insert i { listener with dropped := true }) :
    ListenersMove s t (.unsubscribe i)

variable {s t : FrameRouter}

theorem onForwarder_listeners {c : Nat} {act : Forwarder → Option Forwarder}
    (h : s.onForwarder c act = some t) : t.listeners = s.listeners := by
  obtain ⟨client, -, h⟩ := Option.bind_eq_some_iff.mp h
  split at h
  · obtain ⟨forwarder, -, rfl⟩ := Option.map_eq_some_iff.mp h
    rfl
  · cases h

theorem listeners_step {event : RouterEvent} (hstep : s.step event = some t) :
    ListenersMove s t event := by
  cases event with
  | camera k stream =>
    simp only [step] at hstep
    split at hstep
    · exact .same (Option.some.inj hstep ▸ rfl)
    · cases hstep
  | frame k checkMs logMs =>
    obtain ⟨camera, -, -, hstep⟩ := of_onIdle hstep
    obtain ⟨⟨frame, feed⟩, -, hstep⟩ := Option.bind_eq_some_iff.mp hstep
    obtain ⟨loop, -, rfl⟩ := Option.map_eq_some_iff.mp hstep
    refine .same ?_
    by_cases hallowed : allows camera.loop frame checkMs = true
    · rw [if_pos hallowed]
      rfl
    · rw [if_neg hallowed]
      rfl
  | broadcast k =>
    obtain ⟨camera, -, hstep⟩ := Option.bind_eq_some_iff.mp hstep
    split at hstep
    · exact .same (Option.some.inj hstep ▸ rfl)
    · cases hstep
  | count k =>
    obtain ⟨camera, -, hstep⟩ := Option.bind_eq_some_iff.mp hstep
    split at hstep
    · exact .same (Option.some.inj hstep ▸ rfl)
    · cases hstep
  | abuseCheck k nowMs =>
    obtain ⟨camera, -, -, hstep⟩ := of_onIdle hstep
    obtain ⟨loop, -, rfl⟩ := Option.map_eq_some_iff.mp hstep
    exact .same rfl
  | finished k =>
    obtain ⟨camera, -, -, hstep⟩ := of_onIdle hstep
    split at hstep
    · cases hstep
    · obtain ⟨loop, -, rfl⟩ := Option.map_eq_some_iff.mp hstep
      exact .same rfl
    · obtain ⟨loop, -, rfl⟩ := Option.map_eq_some_iff.mp hstep
      exact .same rfl
  | client c =>
    simp only [step] at hstep
    split at hstep
    · exact .same (Option.some.inj hstep ▸ rfl)
    · cases hstep
  | opened c ok =>
    obtain ⟨client, -, hstep⟩ := Option.bind_eq_some_iff.mp hstep
    split at hstep
    · cases hstep
    · split at hstep <;> exact .same (Option.some.inj hstep ▸ rfl)
  | receive c => exact .same (onForwarder_listeners hstep)
  | sendOk c => exact .same (onForwarder_listeners hstep)
  | sendFails c written =>
    have hstep : s.onForwarder c (Forwarder.sendFails · written) = some t := hstep
    exact .same (onForwarder_listeners hstep)
  | subscribe i =>
    simp only [step] at hstep
    split at hstep
    · next hnone => exact .subscribe hnone (Option.some.inj hstep ▸ rfl)
    · cases hstep
  | listen i =>
    obtain ⟨listener, hi, hstep⟩ := Option.bind_eq_some_iff.mp hstep
    split at hstep
    · cases hstep
    · next hlive =>
      obtain ⟨⟨received, rx⟩, hrecv, rfl⟩ := Option.map_eq_some_iff.mp hstep
      exact .listen hi (Bool.not_eq_true _ ▸ hlive) hrecv rfl
  | unsubscribe i =>
    obtain ⟨listener, hi, hstep⟩ := Option.bind_eq_some_iff.mp hstep
    split at hstep
    · cases hstep
    · exact .unsubscribe hi (Option.some.inj hstep ▸ rfl)

end FrameRouter

/-! ## What a store does -/

/-- Neither closing, opening nor appending changes the configuration. -/
theorem LocalStorage.storeFrame_config {st st' : LocalStorage} {frame : Frame}
    (h : st.storeFrame frame = .ok st') : st'.config = st.config := by
  rcases storeFrame_cases h with ⟨writer, -, rfl⟩ | ⟨-, opened, writer, rfl, -, rfl⟩
  · rfl
  · exact closeSegment_config st frame.source

/-- Whenever a segment is open after `get_or_create_writer`, the record is appended to it. -/
theorem LocalStorage.storeFrame_of_opened {st opened : LocalStorage} {frame : Frame}
    (hopen : st.getOrCreateWriter frame.source frame.timestampUs = .ok opened)
    (hopened : (opened.writers.lookup frame.source).isSome) :
    ∃ st', st.storeFrame frame = .ok st' ∧ (st'.writers.lookup frame.source).isSome := by
  obtain ⟨writer, hwriter⟩ := Option.isSome_iff_exists.mp hopened
  refine ⟨opened.appendRecord writer frame, ?_, ?_⟩
  · refine Result.bind_eq_ok.mpr ⟨opened, hopen, ?_⟩
    rw [hwriter]
    rfl
  · rw [appendRecord, AList.lookup_insert]
    rfl

theorem LocalStorage.storeFrame_isOk {st : LocalStorage} (h : st.config.segmentDurationUs ≠ 0)
    (frame : Frame) : ∃ st', st.storeFrame frame = .ok st' ∧
      (st'.writers.lookup frame.source).isSome := by
  have hcreated : ∀ st₁ : LocalStorage,
      ((st₁.createSegment frame.source frame.timestampUs).writers.lookup frame.source).isSome := by
    intro st₁
    rw [createSegment, AList.lookup_insert]
    rfl
  cases hlook : st.writers.lookup frame.source with
  | none =>
    refine storeFrame_of_opened ?_ (hcreated st)
    rw [getOrCreateWriter, if_neg h, hlook]
  | some writer =>
    by_cases hwindow : st.segmentStart writer.startTimeUs = st.segmentStart frame.timestampUs
    · refine storeFrame_of_opened ?_ (Option.isSome_iff_exists.mpr ⟨writer, hlook⟩)
      rw [getOrCreateWriter, if_neg h, hlook]
      exact if_pos hwindow
    · refine storeFrame_of_opened ?_ (hcreated (st.closeSegment frame.source))
      rw [getOrCreateWriter, if_neg h, hlook]
      exact if_neg hwindow

namespace StorageManager

variable {m m' : StorageManager} {c : Capture} {stored : Bool}

/-- What holds of a manager on segments of a minute. -/
structure Ready (config : StorageConfig) (m : StorageManager) : Prop where
  config_eq : m.config = config
  duration : m.backend.storage.config.segmentDurationUs = 60 * 1_000_000

/-- Such a store does not fail unless the disk does. -/
theorem store_isSome {config : StorageConfig} (h : m.Ready config) (c : Capture) :
    (m.store c).isSome := by
  have hduration : m.backend.storage.config.segmentDurationUs ≠ 0 := by
    rw [h.duration]
    decide
  obtain ⟨storage, hstorage, hwriter⟩ :=
    LocalStorage.storeFrame_isOk hduration c.frame
  have hbackend : (m.backend.store Capture.frame c).isSome := by
    rw [Recording.store, hstorage, Option.isSome_map]
    exact hwriter
  unfold store
  split
  · rfl
  · dsimp only
    split
    · rfl
    · rw [Option.isSome_map]
      exact hbackend

/-- What a store says of the frame. -/
structure Outcome (m m' : StorageManager) (c : Capture) (stored : Bool) : Prop where
  log : m'.backend.log = m.backend.log ++ if stored then [c] else []
  framesStored : m'.stats.framesStored = m.stats.framesStored + if stored then 1 else 0
  keyframe : stored = true → m.config.keyframesOnly = true → c.frame.flags.isKeyframe = true
  unlimited : m.config.maxSizeBytes = 0 →
    stored = (!m.config.keyframesOnly || c.frame.flags.isKeyframe)

theorem outcome_of_store (h : m.store c = some (m', stored)) : m.Outcome m' c stored := by
  unfold store at h
  split at h
  · next hskip =>
    cases h
    rw [Bool.and_eq_true, Bool.not_eq_true'] at hskip
    exact
      { log := (List.append_nil _).symm
        framesStored := (UInt64.add_zero _).symm
        keyframe := nofun
        unlimited := fun _ => by rw [hskip.1, hskip.2]; rfl }
  · next hkeep =>
    dsimp only at h
    split at h
    · next hfull =>
      cases h
      rw [Bool.and_eq_true, decide_eq_true_eq] at hfull
      exact
        { log := (List.append_nil _).symm
          framesStored := (UInt64.add_zero _).symm
          keyframe := nofun
          unlimited := fun hmax => absurd (hmax ▸ hfull.1) (by decide) }
    · obtain ⟨backend, hbackend, heq⟩ := Option.map_eq_some_iff.mp h
      cases heq
      have hchosen : (!m.config.keyframesOnly || c.frame.flags.isKeyframe) = true := by
        rw [Bool.not_eq_true, Bool.and_eq_false_iff, Bool.not_eq_false'] at hkeep
        rw [Bool.or_eq_true, Bool.not_eq_true']
        exact hkeep
      exact
        { log := Recording.store_log hbackend
          framesStored := rfl
          keyframe := fun _ honly => by simpa [honly] using hchosen
          unlimited := fun _ => hchosen.symm }

theorem Ready.store {config : StorageConfig} (h : m.Ready config)
    (hstore : m.store c = some (m', stored)) : m'.Ready config := by
  obtain ⟨hconfig, ⟨-, hbackend⟩ | ⟨-, hbackend⟩⟩ := store_cases hstore
  · exact ⟨hconfig.trans h.config_eq, hbackend ▸ h.duration⟩
  · refine ⟨hconfig.trans h.config_eq, ?_⟩
    rw [Recording.store] at hbackend
    split at hbackend
    · cases hbackend
    · next storage hstorage =>
      obtain ⟨writer, -, heq⟩ := Option.map_eq_some_iff.mp hbackend
      rw [← heq, ← h.duration]
      exact congrArg _ (LocalStorage.storeFrame_config hstorage)

theorem genuine_store (h : Recording.Genuine Capture.frame m.backend)
    (hstore : m.store c = some (m', stored)) : Recording.Genuine Capture.frame m'.backend := by
  obtain ⟨-, ⟨-, hbackend⟩ | ⟨-, hbackend⟩⟩ := store_cases hstore
  · exact hbackend ▸ h
  · exact h.store hbackend

theorem Ready.cleanup {config : StorageConfig} (h : m.Ready config) (now : Nat)
    (unlinkFails : SourceId → Nat → Bool) : (m.cleanup now unlinkFails).1.Ready config := by
  by_cases hunlimited : m.config.retentionSecs = 0
  · rw [cleanup_of_unlimited hunlimited]
    exact h
  · have hbackend : (m.cleanup now unlinkFails).1.backend = _ := cleanup_backend hunlimited
    refine ⟨?_, ?_⟩
    · rw [StorageManager.cleanup, if_neg hunlimited]
      exact h.config_eq
    · rw [hbackend]
      exact h.duration

theorem genuine_cleanup (h : Recording.Genuine Capture.frame m.backend) (now : Nat)
    (unlinkFails : SourceId → Nat → Bool) :
    Recording.Genuine Capture.frame (m.cleanup now unlinkFails).1.backend := by
  by_cases hunlimited : m.config.retentionSecs = 0
  · rw [cleanup_of_unlimited hunlimited]
    exact h
  · have hbackend : (m.cleanup now unlinkFails).1.backend = _ := cleanup_backend hunlimited
    exact hbackend ▸ h.cleanup _ _

/-- A cleanup leaves the log and the count of stored frames. -/
theorem cleanup_keeps (m : StorageManager) (now : Nat) (unlinkFails : SourceId → Nat → Bool) :
    (m.cleanup now unlinkFails).1.backend.log = m.backend.log ∧
      (m.cleanup now unlinkFails).1.stats.framesStored = m.stats.framesStored := by
  rw [StorageManager.cleanup]
  split
  · exact ⟨rfl, rfl⟩
  · refine ⟨rfl, ?_⟩
    dsimp only
    split <;> rfl

end StorageManager

namespace RecordingServer

/-- The recording task's subscription. -/
def recorder : Nat := 0

/-- What only the recording task does. -/
def ofRecorder : RouterEvent → Bool
  | .listen i => i = recorder
  | .unsubscribe i => i = recorder
  | _ => false

/-- `StorageManager::store` has returned. -/
def returned (s : RecordingServer) (m : Nat × Frame) (manager : StorageManager)
    (outcome : StoreOutcome) : RecordingServer :=
  { s with
    manager
    pending := none
    framesStored := if outcome = .stored then s.framesStored + 1 else s.framesStored
    framesSkipped := if outcome = .skipped then s.framesSkipped + 1 else s.framesSkipped
    handled := s.handled ++ [(m, outcome)] }

/-- The storage after a store that has failed. -/
def broken (s : RecordingServer) (storage : LocalStorage) : StorageManager :=
  { s.manager with
    backend := { s.manager.backend with
      storage := { storage with config := s.manager.backend.storage.config } } }

/-- One event. The task looks at its subscription and at the cancellation between two frames. -/
def step (s : RecordingServer) : RecordingEvent → Option RecordingServer
  | .router event =>
    if ofRecorder event then none
    else (s.router.step event).map fun router => { s with router }
  | .recv =>
    (s.router.listeners.lookup recorder).bind fun listener =>
      if listener.dropped ∨ s.pending.isSome then none
      else (listener.rx.recv s.router.tx).map fun (received, rx) =>
        { s with
          router := s.router.setListener recorder { listener with rx }
          pending :=
            match received with
            | .message m => some m
            | .lagged _ => none }
  | .store =>
    s.pending.bind fun m =>
      (s.manager.store (.ofFrame m.2)).map fun (manager, ok) =>
        s.returned m manager (if ok then .stored else .skipped)
  | .storeFails storage => s.pending.map fun m => s.returned m (s.broken storage) .failed
  | .cleanupTick now unlinkFails =>
    some { s with manager := s.manager.cleanupTick now unlinkFails }
  | .cancelled =>
    if s.pending.isSome then none
    else (s.router.step (.unsubscribe recorder)).map fun router => { s with router }

/-- The server as it starts. -/
def start (bufferCapacity : Nat) (rateLimitConfig : RateLimitConfig)
    (maxGb retentionDays : UInt64) (keyframesOnly : Bool) : RecordingServer where
  router := .start bufferCapacity rateLimitConfig
  manager := StorageHandle.new maxGb retentionDays keyframesOnly

variable {s t : RecordingServer} {config : StorageConfig}

/-- What the task has received. -/
def received (s : RecordingServer) : List (Nat × Frame) :=
  ((s.router.listeners.lookup recorder).map fun listener => listener.rx.got).getD []

/-- What it handed to the manager and was stored. -/
def recorded (s : RecordingServer) : List (Nat × Frame) :=
  (s.handled.filter fun e => e.2 = .stored).map Prod.fst

/-- How many of the frames handed to the manager met this outcome. -/
def outcomes (s : RecordingServer) (outcome : StoreOutcome) : Nat :=
  s.handled.countP fun e => e.2 = outcome

/-- No store has failed. -/
def DiskHolds (s : RecordingServer) : Prop := ∀ e ∈ s.handled, e.2 ≠ .failed

/-- What holds in every state. -/
structure Inv (config : StorageConfig) (s : RecordingServer) : Prop where
  router : s.router.Inv
  manager : s.manager.Ready config
  genuine : s.DiskHolds → Recording.Genuine Capture.frame s.manager.backend
  received : s.received = s.handled.map Prod.fst ++ s.pending.toList
  log : s.manager.backend.log.map Capture.frame = s.recorded.map Prod.snd
  framesStored : s.framesStored = .ofNat (s.outcomes .stored)
  framesSkipped : s.framesSkipped = .ofNat (s.outcomes .skipped)
  managerStored : s.manager.stats.framesStored = s.framesStored
  keyframe : ∀ e ∈ s.handled, e.2 = .stored → config.keyframesOnly = true →
    e.1.2.flags.isKeyframe = true
  unlimited : config.maxSizeBytes = 0 → ∀ e ∈ s.handled, e.2 ≠ .failed →
    (e.2 = .stored ↔ (!config.keyframesOnly || e.1.2.flags.isKeyframe) = true)

theorem received_of_lookup {listener : Listener}
    (h : s.router.listeners.lookup recorder = some listener) :
    s.received = listener.rx.got := by
  rw [received, h]
  rfl

/-- The router goes on, and the task has received what it had. -/
theorem Inv.onRouter (h : s.Inv config) {router : FrameRouter} (hrouter : router.Inv)
    (hreceived : ({ s with router } : RecordingServer).received = s.received) :
    ({ s with router } : RecordingServer).Inv config :=
  { h with router := hrouter, received := hreceived.trans h.received }

/-- The other tasks leave the recording task's subscription alone. -/
theorem received_router {event : RouterEvent} {router : FrameRouter}
    (hother : ofRecorder event = false) (hstep : s.router.step event = some router) :
    ({ s with router } : RecordingServer).received = s.received := by
  show ((router.listeners.lookup recorder).map fun listener => listener.rx.got).getD [] = _
  cases FrameRouter.listeners_step hstep with
  | same heq => rw [heq, received]
  | @subscribe i hnone heq =>
    rw [heq, HashMap.lookup_insert_ite]
    by_cases hi : recorder = i
    · rw [if_pos hi, received, hi, hnone]
      rfl
    · rw [if_neg hi, received]
  | @listen i listener received rx hi hlive hrecv heq =>
    have hne : recorder ≠ i := fun hi => by simp [ofRecorder, hi] at hother
    rw [heq, HashMap.lookup_insert_ite, if_neg hne, RecordingServer.received]
  | @unsubscribe i listener hi heq =>
    have hne : recorder ≠ i := fun hi => by simp [ofRecorder, hi] at hother
    rw [heq, HashMap.lookup_insert_ite, if_neg hne, received]

theorem inv_start (bufferCapacity : Nat) (rateLimitConfig : RateLimitConfig)
    (maxGb retentionDays : UInt64) (keyframesOnly : Bool) :
    (start bufferCapacity rateLimitConfig maxGb retentionDays keyframesOnly).Inv
      (StorageHandle.new maxGb retentionDays keyframesOnly).config where
  router := FrameRouter.inv_start bufferCapacity rateLimitConfig
  manager := ⟨rfl, rfl⟩
  genuine _ := .onEmptyRoot _
  received := rfl
  log := rfl
  framesStored := rfl
  framesSkipped := rfl
  managerStored := rfl
  keyframe := nofun
  unlimited _ _ := nofun

/-- The task takes a frame in hand, or is told of a lag. -/
theorem inv_recv (h : s.Inv config) (hstep : s.step .recv = some t) : t.Inv config := by
  obtain ⟨listener, hi, hstep⟩ := Option.bind_eq_some_iff.mp hstep
  split at hstep
  · cases hstep
  · next hfree =>
    rw [not_or, Bool.not_eq_true, Bool.not_eq_true, Option.isSome_eq_false_iff,
      Option.isNone_iff_eq_none] at hfree
    obtain ⟨⟨received, rx⟩, hrecv, rfl⟩ := Option.map_eq_some_iff.mp hstep
    -- for the router this is a subscriber that receives
    have hlisten : s.router.step (.listen recorder) =
        some (s.router.setListener recorder { listener with rx }) := by
      simp only [FrameRouter.step, hi, Option.bind_some, hfree.1, hrecv]
      rfl
    have hbefore := h.received
    rw [received_of_lookup hi, hfree.2] at hbefore
    refine { h with router := FrameRouter.inv_step h.router hlisten, received := ?_ }
    rw [received_of_lookup (AList.lookup_insert _)]
    cases received with
    | message m =>
      obtain ⟨next, -, rfl⟩ := Subscription.recv_eq_message hrecv
      show listener.rx.got ++ [m] = s.handled.map Prod.fst ++ [m]
      rw [hbefore]
      simp
    | lagged n =>
      obtain ⟨next, -, rfl⟩ := Subscription.recv_eq_lagged hrecv
      exact hbefore

/-- One more frame is handled. -/
theorem inv_returned (h : s.Inv config) {m : Nat × Frame} (hpending : s.pending = some m)
    {manager : StorageManager} {outcome : StoreOutcome} (hmanager : manager.Ready config)
    (hgenuine : s.DiskHolds → outcome ≠ .failed → Recording.Genuine Capture.frame manager.backend)
    (hlog : manager.backend.log.map Capture.frame =
      s.manager.backend.log.map Capture.frame ++ if outcome = .stored then [m.2] else [])
    (hstored : manager.stats.framesStored =
      s.manager.stats.framesStored + if outcome = .stored then 1 else 0)
    (hkeyframe : outcome = .stored → config.keyframesOnly = true → m.2.flags.isKeyframe = true)
    (hunlimited : config.maxSizeBytes = 0 → outcome ≠ .failed →
      (outcome = .stored ↔ (!config.keyframesOnly || m.2.flags.isKeyframe) = true)) :
    (s.returned m manager outcome).Inv config where
  router := h.router
  manager := hmanager
  genuine hholds := hgenuine (fun e he => hholds e (List.mem_append_left _ he))
    (hholds (m, outcome) (List.mem_append_right _ (List.mem_singleton_self _)))
  received := by
    have hbefore := h.received
    rw [hpending] at hbefore
    show s.received = (s.handled ++ [(m, outcome)]).map Prod.fst ++ []
    rw [hbefore, List.map_append, List.append_nil]
    rfl
  log := by
    show manager.backend.log.map Capture.frame =
      (((s.handled ++ [(m, outcome)]).filter fun e => e.2 = .stored).map Prod.fst).map Prod.snd
    rw [hlog, h.log, recorded, List.filter_append, List.map_append, List.map_append]
    cases outcome <;> rfl
  framesStored := by
    show (if outcome = .stored then s.framesStored + 1 else s.framesStored) =
      .ofNat ((s.handled ++ [(m, outcome)]).countP fun e => e.2 = .stored)
    rw [List.countP_append, h.framesStored, UInt64.ofNat_add]
    cases outcome with
    | stored => rfl
    | skipped | failed => exact (UInt64.add_zero _).symm
  framesSkipped := by
    show (if outcome = .skipped then s.framesSkipped + 1 else s.framesSkipped) =
      .ofNat ((s.handled ++ [(m, outcome)]).countP fun e => e.2 = .skipped)
    rw [List.countP_append, h.framesSkipped, UInt64.ofNat_add]
    cases outcome with
    | skipped => rfl
    | stored | failed => exact (UInt64.add_zero _).symm
  managerStored := by
    show manager.stats.framesStored =
      if outcome = .stored then s.framesStored + 1 else s.framesStored
    rw [hstored, h.managerStored]
    split
    · rfl
    · exact UInt64.add_zero _
  keyframe e he := by
    rcases List.mem_append.mp he with he | he
    · exact h.keyframe e he
    · obtain rfl := List.mem_singleton.mp he
      exact hkeyframe
  unlimited hmax e he := by
    rcases List.mem_append.mp he with he | he
    · exact h.unlimited hmax e he
    · obtain rfl := List.mem_singleton.mp he
      exact hunlimited hmax

theorem inv_store (h : s.Inv config) (hstep : s.step .store = some t) : t.Inv config := by
  obtain ⟨m, hpending, hstep⟩ := Option.bind_eq_some_iff.mp hstep
  obtain ⟨⟨manager, ok⟩, hstore, rfl⟩ := Option.map_eq_some_iff.mp hstep
  have houtcome := StorageManager.outcome_of_store hstore
  have hconfig := h.manager.config_eq
  have hif : (if ok then StoreOutcome.stored else .skipped) = .stored ↔ ok = true := by
    cases ok <;> decide
  refine inv_returned h hpending (h.manager.store hstore)
    (fun hholds _ => StorageManager.genuine_store (h.genuine hholds) hstore) ?_ ?_ ?_ ?_
  · rw [houtcome.log, List.map_append]
    cases ok <;> rfl
  · rw [houtcome.framesStored]
    cases ok <;> rfl
  · intro hstored honly
    exact houtcome.keyframe (hif.mp hstored) (hconfig ▸ honly)
  · intro hmax _
    have hchosen := houtcome.unlimited (hconfig.symm ▸ hmax)
    rw [hconfig] at hchosen
    rw [hif, hchosen]
    rfl

theorem inv_storeFails (h : s.Inv config) {m : Nat × Frame} (hpending : s.pending = some m)
    (storage : LocalStorage) : (s.returned m (s.broken storage) .failed).Inv config :=
  inv_returned h hpending ⟨h.manager.config_eq, h.manager.duration⟩
    (fun _ hfailed => absurd rfl hfailed) (List.append_nil _).symm (UInt64.add_zero _).symm nofun
    (fun _ hfailed => absurd rfl hfailed)

/-- Every step keeps the invariant. -/
theorem inv_step {event : RecordingEvent} (h : s.Inv config) (hstep : s.step event = some t) :
    t.Inv config := by
  cases event with
  | router event =>
    simp only [step] at hstep
    split at hstep
    · cases hstep
    · next hother =>
      obtain ⟨router, hrouter, rfl⟩ := Option.map_eq_some_iff.mp hstep
      exact h.onRouter (FrameRouter.inv_step h.router hrouter)
        (received_router (Bool.not_eq_true _ ▸ hother) hrouter)
  | recv => exact inv_recv h hstep
  | store => exact inv_store h hstep
  | storeFails storage =>
    obtain ⟨m, hpending, rfl⟩ := Option.map_eq_some_iff.mp hstep
    exact inv_storeFails h hpending storage
  | cleanupTick now unlinkFails =>
    obtain rfl := Option.some.inj hstep
    obtain ⟨hlog, hcount⟩ := s.manager.cleanup_keeps now unlinkFails
    exact
      { h with
        manager := h.manager.cleanup now unlinkFails
        genuine := fun hholds => StorageManager.genuine_cleanup (h.genuine hholds) now unlinkFails
        log := (congrArg _ hlog).trans h.log
        managerStored := hcount.trans h.managerStored }
  | cancelled =>
    simp only [step] at hstep
    split at hstep
    · cases hstep
    · obtain ⟨router, hrouter, rfl⟩ := Option.map_eq_some_iff.mp hstep
      refine h.onRouter (FrameRouter.inv_step h.router hrouter) ?_
      cases FrameRouter.listeners_step hrouter with
      | same heq => rw [received, received, heq]
      | @unsubscribe i listener hi heq =>
        rw [received_of_lookup hi]
        show ((router.listeners.lookup recorder).map fun listener => listener.rx.got).getD [] = _
        rw [heq, AList.lookup_insert]
        rfl

theorem always_inv (bufferCapacity : Nat) (rateLimitConfig : RateLimitConfig)
    (maxGb retentionDays : UInt64) (keyframesOnly : Bool) (events : List RecordingEvent) :
    Always step (Inv (StorageHandle.new maxGb retentionDays keyframesOnly).config)
      (start bufferCapacity rateLimitConfig maxGb retentionDays keyframesOnly) events :=
  always_of_step (inv_start bufferCapacity rateLimitConfig maxGb retentionDays keyframesOnly)
    (fun _ _ _ h hstep => inv_step h hstep) events

/-! ## Accounts -/

/-- What became of the frames: those received were handed on in order, all but the one in hand;
those stored are what the storage has logged; only keyframes are stored if so configured, and
without a quota all that may be, unless the store fails. -/
structure Accounts (config : StorageConfig) (s : RecordingServer) : Prop where
  handed : s.received = s.handled.map Prod.fst ++ s.pending.toList
  logged : s.manager.backend.log.map Capture.frame = s.recorded.map Prod.snd
  framesStored : s.framesStored = .ofNat s.recorded.length
  framesSkipped : s.framesSkipped = .ofNat (s.outcomes .skipped)
  framesHandled : s.framesStored + s.framesSkipped + .ofNat (s.outcomes .failed) =
    .ofNat s.handled.length
  managerStored : s.manager.stats.framesStored = s.framesStored
  keyframe : ∀ e ∈ s.handled, e.2 = .stored → config.keyframesOnly = true →
    e.1.2.flags.isKeyframe = true
  unlimited : config.maxSizeBytes = 0 → ∀ e ∈ s.handled, e.2 ≠ .failed →
    (e.2 = .stored ↔ (!config.keyframesOnly || e.1.2.flags.isKeyframe) = true)
  ready : s.pending.isSome → (s.step .store).isSome

theorem length_handled (s : RecordingServer) :
    s.outcomes .stored + s.outcomes .skipped + s.outcomes .failed = s.handled.length := by
  rw [outcomes, outcomes, outcomes]
  induction s.handled with
  | nil => rfl
  | cons e handled ih =>
    obtain ⟨m, outcome⟩ := e
    simp only [List.countP_cons, List.length_cons]
    cases outcome <;> simp <;> omega

theorem Inv.accounts (h : s.Inv config) : Accounts config s where
  handed := h.received
  logged := h.log
  framesStored := by
    rw [h.framesStored, outcomes, recorded, List.length_map, List.countP_eq_length_filter]
  framesSkipped := h.framesSkipped
  framesHandled := by
    rw [h.framesStored, h.framesSkipped, ← UInt64.ofNat_add, ← UInt64.ofNat_add, length_handled]
  managerStored := h.managerStored
  keyframe := h.keyframe
  unlimited := h.unlimited
  ready hpending := by
    obtain ⟨m, hm⟩ := Option.isSome_iff_exists.mp hpending
    rw [step, hm, Option.bind_some, Option.isSome_map]
    exact StorageManager.store_isSome h.manager _

/-- **The recording task accounts for every frame.** In every run. -/
theorem recording_accounts (bufferCapacity : Nat) (rateLimitConfig : RateLimitConfig)
    (maxGb retentionDays : UInt64) (keyframesOnly : Bool) (events : List RecordingEvent) :
    Always step (Accounts (StorageHandle.new maxGb retentionDays keyframesOnly).config)
      (start bufferCapacity rateLimitConfig maxGb retentionDays keyframesOnly) events :=
  (always_inv bufferCapacity rateLimitConfig maxGb retentionDays keyframesOnly events).mono
    fun _ h => h.accounts

/-! ## Playing back -/

/-- What went over the transport can be recorded. -/
theorem recordable_of_relayable {frame : Frame} (h : frame.Relayable) : Recordable frame := by
  refine ⟨h.canonical, ?_⟩
  have hfits : frameHeaderSize + frame.payload.length ≤ maxFramePayloadSize := h.fits
  rw [frameToBytes_length]
  unfold maxFramePayloadSize at hfits
  omega

theorem recorded_sublist (h : s.Inv config) : s.recorded <+ s.received := by
  rw [h.received, recorded]
  exact (List.filter_sublist.map Prod.fst).trans (List.sublist_append_left _ _)

theorem received_sublist (h : s.Inv config) : s.received <+ s.router.admitted := by
  cases hi : s.router.listeners.lookup recorder with
  | none =>
    rw [received, hi]
    exact List.nil_sublist _
  | some listener =>
    rw [received_of_lookup hi]
    exact (h.router.listeners recorder listener hi).got_sublist.trans (List.drop_sublist _ _)

/-- What may be read back of a source: frames that were recorded, each read from the stream of the
connection it came from. -/
structure PlaysBack (s : RecordingServer) (source : SourceId) (startTimeUs endTimeUs : UInt64)
    (frames : List Frame) : Prop where
  recorded : ∀ f ∈ frames, ∃ m ∈ s.recorded, m.2 = f ∧ ∃ camera,
    s.router.cameras.lookup m.1 = some camera ∧ f ∈ (FrameReceiver.receiveAll camera.feed.stream).1
  owner : ∀ f ∈ frames, f.source = source
  range : ∀ f ∈ frames, startTimeUs ≤ f.timestampUs ∧ f.timestampUs ≤ endTimeUs
  sorted : frames.Pairwise fun f f' => f.timestampUs ≤ f'.timestampUs

theorem Inv.playsBack (h : s.Inv config) (hholds : s.DiskHolds) {source : SourceId}
    {a b : UInt64} {frames : List Frame}
    (hget : s.manager.backend.storage.getFrames source a b = .ok frames) :
    s.PlaysBack source a b frames := by
  have hadmitted := (recorded_sublist h).trans (received_sublist h)
  have hlogged : ∀ c ∈ s.manager.backend.log, ∃ m ∈ s.recorded, m.2 = c.frame := by
    intro c hc
    have hc := List.mem_map_of_mem (f := Capture.frame) hc
    rw [h.log] at hc
    exact List.mem_map.mp hc
  have hread := (h.genuine hholds).readBack (fun c hc => by
    obtain ⟨m, hm, heq⟩ := hlogged c hc
    exact heq ▸ recordable_of_relayable (h.router.relayable m (hadmitted.subset hm))) hget
  refine
    { recorded := fun f hf => ?_
      owner := hread.owner
      range := hread.range
      sorted := hread.sorted }
  obtain ⟨c, hc, rfl⟩ := hread.stored f hf
  obtain ⟨m, hm, heq⟩ := hlogged c hc
  obtain ⟨camera, hcamera⟩ :=
    Option.isSome_iff_exists.mp (h.router.known m (hadmitted.subset hm))
  have hok := h.router.cameras m.1 camera hcamera
  have hframe : m.2 ∈ framesOf m.1 s.router.admitted :=
    List.mem_map_of_mem (List.mem_filter.mpr ⟨hadmitted.subset hm, decide_eq_true rfl⟩)
  exact ⟨m, hm, heq, camera, hcamera,
    heq ▸ hok.feed.read_prefix.subset (hok.part.subset (List.mem_append_left _ hframe))⟩

/-- **Recordings are of what was received.** In every run, as long as no store has failed, whatever
is read back, of whatever source. -/
theorem recording_plays_back (bufferCapacity : Nat) (rateLimitConfig : RateLimitConfig)
    (maxGb retentionDays : UInt64) (keyframesOnly : Bool) (events : List RecordingEvent) :
    Always step
      (fun s => s.DiskHolds → ∀ source a b frames,
        s.manager.backend.storage.getFrames source a b = .ok frames →
          s.PlaysBack source a b frames)
      (start bufferCapacity rateLimitConfig maxGb retentionDays keyframesOnly) events :=
  (always_inv bufferCapacity rateLimitConfig maxGb retentionDays keyframesOnly events).mono
    fun _ h hholds _ _ _ _ hget => h.playsBack hholds hget

end RecordingServer

end Kodama
