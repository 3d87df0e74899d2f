import Kodama.Core.Frame
import Kodama.Lib.Broadcast
import Kodama.Server.Peers
import Mathlib.Data.Finset.Image

/-!
# The camera list of a browser (crates/kodama/src/web/ws.rs)

`handle_ws` lists the cameras for its browser. A source is added when a frame of it arrives,
and removed at a stats tick, when a camera that the *previous* tick's peers have is no longer
registered. So a source is only ever removed on account of a camera that a tick has seen: one
that comes and goes between two ticks, or a frame that waits in the queue while its camera
goes, leaves a ghost in the list.

`AccountedFor` is what a tick needs of a listed source to leave it in the list rightly, or to
remove it (`accountedFor_iff`): after each tick all that is listed is connected, exactly when at
each tick all was accounted for (`connected_iff`). What is listed has arrived since the last tick,
or is of a camera of that tick (`ListedSeen`); so it is enough that no frame is received of a
camera that neither tick sees, and that no camera comes back as a client (`no_ghosts`).
-/

namespace Kodama

open Lib Lib.Machine

/-- A node's public key. -/
structure PublicKey where
  bytes : Bytes
  length_eq : bytes.length = 32
deriving DecidableEq

/-- Generate from node id bytes (truncates to the first 8 bytes). -/
def SourceId.fromNodeIdBytes (key : PublicKey) : SourceId where
  bytes := key.bytes.take 8
  length_eq := by rw [List.length_take, key.length_eq]; rfl

/-- What `peers` returns, without the times. -/
def Peers.details (r : Peers PublicKey) : List (PublicKey × PeerRole) :=
  r.peers.entries.map fun e => (e.1, e.2.role)

/-- The sources of the cameras among some peers. -/
def cameraSources (peers : List (PublicKey × PeerRole)) : Finset SourceId :=
  ((peers.filter fun p => p.2 = .camera).map fun p => SourceId.fromNodeIdBytes p.1).toFinset

/-- Where `handle_ws` is. -/
inductive WsPhase where
  /-- not subscribed to the frames -/
  | opening
  | subscribed
  /-- the first camera list is sent -/
  | listed
  | looping
  | ended
deriving DecidableEq

/-- A connection of a browser, with the router it asks and the frames it receives. -/
structure WsCameras where
  router : Peers PublicKey := .new
  frameTx : Broadcast Frame
  rx : Nat := 0
  phase : WsPhase := .opening
  /-- sends to the browser succeed -/
  socket : Bool := true
  knownCameras : Finset SourceId := ∅
  knownPeers : List (PublicKey × PeerRole) := []
  /-- the camera list last sent, without its order -/
  sentList : Finset SourceId := ∅
  /-- the cameras that have disconnected since the last tick -/
  disconnected : List PublicKey := []
  /-- the cameras of the first list and the sources of the frames received, since the last tick -/
  arrived : Finset SourceId := ∅

inductive WsEvent where
  /-- a peer connects or disconnects -/
  | peer (call : PeerCall PublicKey)
  /-- the router broadcasts a frame -/
  | broadcast (frame : Frame)
  /-- the next part of what comes before the loop -/
  | enter
  /-- the frame branch of the loop -/
  | receive
  /-- the stats branch of the loop -/
  | tick
  /-- the browser goes; sends fail from now on -/
  | close

namespace WsCameras

/-- The cameras of `known_peers` that are not registered any more. -/
def removedPeers (self : WsCameras) : List (PublicKey × PeerRole) :=
  self.knownPeers.filter fun p => p.1 ∉ self.router.details.map Prod.fst

/-- A frame from the router broadcast: detect a new camera. -/
def receiveFrame (self : WsCameras) (frame : Frame) : WsCameras :=
  if frame.source ∈ self.knownCameras then self
  else
    let knownCameras := insert frame.source self.knownCameras
    if self.socket then { self with knownCameras, sentList := knownCameras }
    else { self with knownCameras, phase := .ended }

/-- Periodic stats and peer change detection. -/
def statsTick (self : WsCameras) : WsCameras :=
  if self.socket then
    let gone := cameraSources self.removedPeers
    let knownCameras := self.knownCameras \ gone
    { self with
      knownCameras
      sentList := if gone = ∅ then self.sentList else knownCameras
      knownPeers := self.router.details
      disconnected := []
      arrived := ∅ }
  else
    -- the statistics are sent at every tick
    { self with phase := .ended }

/-- The keys of the cameras that a call disconnects. -/
def cameraGone (router router' : Peers PublicKey) : List PublicKey :=
  (router.details.filter fun p =>
    p.2 = .camera ∧ p.1 ∉ router'.details.map Prod.fst).map Prod.fst

def step (self : WsCameras) : WsEvent → Option WsCameras
  | .peer call => (peerStep self.router call).map fun router =>
    { self with router, disconnected := self.disconnected ++ cameraGone self.router router }
  | .broadcast frame => some { self with frameTx := self.frameTx.send frame }
  | .enter =>
    match self.phase with
    | .opening => some { self with rx := self.frameTx.subscribe, phase := .subscribed }
    | .subscribed =>
      let cameras := cameraSources self.router.details
      some { self with
        knownCameras := cameras, sentList := cameras, phase := .listed, arrived := cameras }
    | .listed => some { self with knownPeers := self.router.details, phase := .looping }
    | _ => none
  | .receive =>
    match self.phase with
    | .looping => (self.frameTx.recv self.rx).map fun (received, rx) =>
      match received with
      | .message frame =>
        { self.receiveFrame frame with rx, arrived := insert frame.source self.arrived }
      | .lagged _ => { self with rx }
    | _ => none
  | .tick =>
    match self.phase with
    | .looping => some self.statsTick
    | _ => none
  | .close => some { self with socket := false }

/-- A browser that connects to a router with the capacity for frames. -/
def start (capacity : Nat) : WsCameras := { frameTx := { capacity } }

variable {t u : WsCameras} {event : WsEvent} {source : SourceId} {key : PublicKey}
  {peers : List (PublicKey × PeerRole)}

/-! ## What a tick keeps -/

theorem mem_cameraSources : source ∈ cameraSources peers ↔
    ∃ key, (key, .camera) ∈ peers ∧ SourceId.fromNodeIdBytes key = source := by
  simp only [cameraSources, List.mem_toFinset, List.mem_map, List.mem_filter, decide_eq_true_eq]
  constructor
  · rintro ⟨⟨key, role⟩, ⟨hmem, rfl⟩, hsource⟩
    exact ⟨key, hmem, hsource⟩
  · rintro ⟨key, hmem, hsource⟩
    exact ⟨(key, .camera), ⟨hmem, rfl⟩, hsource⟩

theorem mem_removedPeers {role : PeerRole} : (key, role) ∈ t.removedPeers ↔
    (key, role) ∈ t.knownPeers ∧ ∀ role', (key, role') ∉ t.router.details := by
  simp [removedPeers]

/-- A source is accounted for at a tick: it is of a camera that is registered now, or that was at
the last tick and has not come back as a client. -/
def AccountedFor (t : WsCameras) (source : SourceId) : Prop :=
  ∃ key, SourceId.fromNodeIdBytes key = source ∧ ((key, .camera) ∈ t.router.details ∨
    (key, .camera) ∈ t.knownPeers ∧ (key, .client) ∉ t.router.details)

/-- A source is of a camera that is registered. -/
def Connected (t : WsCameras) (source : SourceId) : Prop :=
  ∃ key, SourceId.fromNodeIdBytes key = source ∧ (key, .camera) ∈ t.router.details

theorem connected_iff_mem : t.Connected source ↔ source ∈ cameraSources t.router.details := by
  rw [mem_cameraSources]
  exact exists_congr fun key => and_comm

/-- What a tick keeps of the known sources is connected, if they were accounted for; and what it
removes was. -/
theorem accountedFor_iff : (∀ source ∈ t.knownCameras, t.AccountedFor source) ↔
    ∀ source ∈ t.knownCameras \ cameraSources t.removedPeers, t.Connected source := by
  constructor
  · intro h source hmem
    obtain ⟨hknown, hkept⟩ := Finset.mem_sdiff.mp hmem
    obtain ⟨key, hsource, hnow | ⟨hbefore, hclient⟩⟩ := h source hknown
    · exact ⟨key, hsource, hnow⟩
    · refine ⟨key, hsource, ?_⟩
      -- if it were not registered, the tick would have removed the source
      by_contra hcamera
      refine hkept (mem_cameraSources.mpr ⟨key, mem_removedPeers.mpr ⟨hbefore, ?_⟩, hsource⟩)
      intro role
      cases role with
      | camera => exact hcamera
      | client => exact hclient
  · intro h source hknown
    by_cases hgone : source ∈ cameraSources t.removedPeers
    · obtain ⟨key, hremoved, hsource⟩ := mem_cameraSources.mp hgone
      obtain ⟨hbefore, hnone⟩ := mem_removedPeers.mp hremoved
      exact ⟨key, hsource, .inr ⟨hbefore, hnone .client⟩⟩
    · obtain ⟨key, hsource, hnow⟩ := h source (Finset.mem_sdiff.mpr ⟨hknown, hgone⟩)
      exact ⟨key, hsource, .inl hnow⟩

/-! ## Runs -/

/-- Nothing about the list and where the loop is changes. -/
structure KeepsList (t u : WsCameras) : Prop where
  phase : u.phase = t.phase
  knownCameras : u.knownCameras = t.knownCameras
  sentList : u.sentList = t.sentList
  knownPeers : u.knownPeers = t.knownPeers
  arrived : u.arrived = t.arrived

/-- A part of what comes before the loop. -/
inductive Enters (t : WsCameras) : WsCameras → Prop
  | subscribe (hphase : t.phase = .opening) :
    Enters t { t with rx := t.frameTx.subscribe, phase := .subscribed }
  | list (hphase : t.phase = .subscribed) :
    Enters t { t with
      knownCameras := cameraSources t.router.details
      sentList := cameraSources t.router.details
      phase := .listed
      arrived := cameraSources t.router.details }
  | snapshot (hphase : t.phase = .listed) :
    Enters t { t with knownPeers := t.router.details, phase := .looping }

/-- What a step does to the list. -/
theorem step_cases (hstep : step t event = some u) :
    KeepsList t u ∨ event = .enter ∧ Enters t u ∨
    (event = .receive ∧ t.phase = .looping ∧ ∃ frame rx, u =
      { t.receiveFrame frame with rx, arrived := insert frame.source t.arrived }) ∨
    event = .tick ∧ t.phase = .looping ∧ u = t.statsTick := by
  cases event with
  | peer call =>
    obtain ⟨router, -, rfl⟩ := Option.map_eq_some_iff.mp hstep
    exact .inl ⟨rfl, rfl, rfl, rfl, rfl⟩
  | broadcast frame =>
    obtain rfl := Option.some.inj hstep
    exact .inl ⟨rfl, rfl, rfl, rfl, rfl⟩
  | enter =>
    refine .inr (.inl ⟨rfl, ?_⟩)
    simp only [step] at hstep
    split at hstep
    · next hphase => exact Option.some.inj hstep ▸ .subscribe hphase
    · next hphase => exact Option.some.inj hstep ▸ .list hphase
    · next hphase => exact Option.some.inj hstep ▸ .snapshot hphase
    · cases hstep
  | receive =>
    simp only [step] at hstep
    split at hstep
    · next hphase =>
      obtain ⟨⟨received, rx⟩, -, rfl⟩ := Option.map_eq_some_iff.mp hstep
      cases received with
      | message frame => exact .inr (.inr (.inl ⟨rfl, hphase, frame, rx, rfl⟩))
      | lagged missed => exact .inl ⟨rfl, rfl, rfl, rfl, rfl⟩
    · cases hstep
  | tick =>
    simp only [step] at hstep
    split at hstep
    · next hphase => exact .inr (.inr (.inr ⟨rfl, hphase, (Option.some.inj hstep).symm⟩))
    · cases hstep
  | close =>
    obtain rfl := Option.some.inj hstep
    exact .inl ⟨rfl, rfl, rfl, rfl, rfl⟩

/-- Until the loop ends, the browser has been sent what is known. -/
def ListSent (t : WsCameras) : Prop := t.phase ≠ .ended → t.sentList = t.knownCameras

theorem ListSent.receiveFrame (h : t.ListSent) (frame : Frame) :
    (t.receiveFrame frame).ListSent := by
  unfold WsCameras.receiveFrame
  split
  · exact h
  · dsimp only
    split
    · exact fun _ => rfl
    · exact fun hne => absurd rfl hne

theorem ListSent.statsTick (h : t.ListSent) (hlooping : t.phase = .looping) :
    t.statsTick.ListSent := by
  unfold WsCameras.statsTick
  split
  · intro _
    dsimp only
    split
    · next hgone =>
      rw [hgone, Finset.sdiff_empty]
      exact h (by simp [hlooping])
    · rfl
  · exact fun hne => absurd rfl hne

theorem ListSent.step (h : t.ListSent) (hstep : WsCameras.step t event = some u) : u.ListSent := by
  obtain hkeeps | ⟨-, henters⟩ | ⟨-, -, frame, rx, rfl⟩ | ⟨-, hlooping, rfl⟩ := step_cases hstep
  · rw [ListSent, hkeeps.phase, hkeeps.sentList, hkeeps.knownCameras]
    exact h
  · cases henters with
    | subscribe hphase => exact fun _ => h (by simp [hphase])
    | list hphase => exact fun _ => rfl
    | snapshot hphase => exact fun _ => h (by simp [hphase])
  · exact h.receiveFrame frame
  · exact h.statsTick hlooping

theorem always_listSent (capacity : Nat) (events : List WsEvent) :
    Always step ListSent (start capacity) events :=
  always_of_step (fun _ => rfl) (fun _ _ _ h hstep => h.step hstep) events

/-- What is listed in the loop has arrived since the last tick, or is of a camera of that tick. -/
def ListedSeen (t : WsCameras) : Prop :=
  match t.phase with
  | .opening | .subscribed | .listed => t.knownCameras ⊆ t.arrived
  | .looping => t.knownCameras ⊆ t.arrived ∪ cameraSources t.knownPeers
  | .ended => True

/-- Each source that has arrived since the last tick is of a camera that is registered, or was at
that tick; and no camera of that tick has come back as a client. -/
def ArrivalsSeen (t : WsCameras) : Prop :=
  t.arrived ⊆ cameraSources (t.router.details ++ t.knownPeers) ∧
    ∀ peer ∈ t.knownPeers, peer.2 = .camera → (peer.1, .client) ∉ t.router.details

theorem ArrivalsSeen.accountedFor (h : t.ArrivalsSeen)
    (hmem : source ∈ t.arrived ∪ cameraSources t.knownPeers) : t.AccountedFor source := by
  have hkey : ∃ key, SourceId.fromNodeIdBytes key = source ∧
      ((key, .camera) ∈ t.router.details ∨ (key, .camera) ∈ t.knownPeers) := by
    rcases Finset.mem_union.mp hmem with harrived | hbefore
    · obtain ⟨key, hpeer, hsource⟩ := mem_cameraSources.mp (h.1 harrived)
      exact ⟨key, hsource, List.mem_append.mp hpeer⟩
    · obtain ⟨key, hpeer, hsource⟩ := mem_cameraSources.mp hbefore
      exact ⟨key, hsource, .inr hpeer⟩
  obtain ⟨key, hsource, hnow | hbefore⟩ := hkey
  · exact ⟨key, hsource, .inl hnow⟩
  · exact ⟨key, hsource, .inr ⟨hbefore, h.2 _ hbefore rfl⟩⟩

theorem ListedSeen.accountedFor (h : t.ListedSeen) (hlooping : t.phase = .looping)
    (hseen : t.ArrivalsSeen) : ∀ source ∈ t.knownCameras, t.AccountedFor source := by
  rw [ListedSeen, hlooping] at h
  exact fun source hmem => hseen.accountedFor (h hmem)

theorem receiveFrame_eq (frame : Frame) :
    (t.receiveFrame frame).knownCameras = insert frame.source t.knownCameras ∧
      (t.receiveFrame frame).knownPeers = t.knownPeers ∧
      ((t.receiveFrame frame).phase = t.phase ∨ (t.receiveFrame frame).phase = .ended) := by
  unfold receiveFrame
  split
  · next hmem => exact ⟨(Finset.insert_eq_of_mem hmem).symm, rfl, .inl rfl⟩
  · dsimp only
    split
    · exact ⟨rfl, rfl, .inl rfl⟩
    · exact ⟨rfl, rfl, .inr rfl⟩

theorem ListedSeen.receiveFrame (h : t.ListedSeen) (hlooping : t.phase = .looping)
    (frame : Frame) (rx : Nat) :
    ListedSeen { t.receiveFrame frame with rx, arrived := insert frame.source t.arrived } := by
  obtain ⟨hknown, hpeers, hphase⟩ := t.receiveFrame_eq frame
  rw [ListedSeen, hlooping] at h
  rcases hphase with hphase | hphase
  · simp only [ListedSeen, hphase, hlooping, hknown, hpeers, Finset.insert_union]
    exact Finset.insert_subset_insert _ h
  · simp only [ListedSeen, hphase]

/-- After a tick all that is listed is of the cameras of this tick. -/
theorem ListedSeen.statsTick (h : t.ListedSeen) (hlooping : t.phase = .looping)
    (hseen : t.socket = true → t.ArrivalsSeen) : t.statsTick.ListedSeen := by
  cases hsocket : t.socket with
  | false => simp [WsCameras.statsTick, hsocket, ListedSeen]
  | true =>
    have hconnected := accountedFor_iff.mp (h.accountedFor hlooping (hseen hsocket))
    simp only [WsCameras.statsTick, hsocket, if_true, ListedSeen, hlooping, Finset.empty_union]
    exact fun source hmem => connected_iff_mem.mp (hconnected source hmem)

/-- At a tick, what has arrived since the last one is seen by one of the two. -/
def TickSees (t : WsCameras) (event : WsEvent) (_ : WsCameras) : Prop :=
  event = .tick → t.socket = true → t.ArrivalsSeen

theorem ListedSeen.step (h : t.ListedSeen) (hsees : TickSees t event u)
    (hstep : WsCameras.step t event = some u) : u.ListedSeen := by
  obtain hkeeps | ⟨-, henters⟩ | ⟨-, hlooping, frame, rx, rfl⟩ | ⟨rfl, hlooping, rfl⟩ :=
    step_cases hstep
  · rw [ListedSeen, hkeeps.phase, hkeeps.knownCameras, hkeeps.arrived, hkeeps.knownPeers]
    exact h
  · unfold ListedSeen at h
    cases henters with
    | subscribe hphase =>
      rw [hphase] at h
      exact h
    | list hphase => exact Finset.Subset.refl _
    | snapshot hphase =>
      rw [hphase] at h
      exact h.trans Finset.subset_union_left
  · exact h.receiveFrame hlooping frame rx
  · exact h.statsTick hlooping (hsees rfl)

theorem always_listedSeen {capacity : Nat} {events : List WsEvent}
    (hsees : EachStep step TickSees (start capacity) events) :
    Always step ListedSeen (start capacity) events :=
  always_of_eachStep (Finset.Subset.refl ∅) (fun _ _ _ h hsees hstep => h.step hsees hstep) hsees

/-- At a tick, every listed source is accounted for. -/
def TickAccounts (t : WsCameras) (event : WsEvent) (_ : WsCameras) : Prop :=
  event = .tick → t.socket = true → ∀ source ∈ t.knownCameras, t.AccountedFor source

/-- After a tick, every source in the list sent last is connected. -/
def TickConnected (_ : WsCameras) (event : WsEvent) (u : WsCameras) : Prop :=
  event = .tick → u.phase = .looping → ∀ source ∈ u.sentList, u.Connected source

/-- After a tick, every source in the list sent last, which is the list of all that are known, is
of a camera that is registered or has disconnected since the tick before. -/
def NoGhosts (t : WsCameras) (event : WsEvent) (u : WsCameras) : Prop :=
  event = .tick → u.phase = .looping → u.sentList = u.knownCameras ∧
    ∀ source ∈ u.sentList, ∃ key, SourceId.fromNodeIdBytes key = source ∧
      ((key, .camera) ∈ u.router.details ∨ key ∈ t.disconnected)

theorem tick_eq_some (hstep : step t .tick = some u) :
    t.phase = .looping ∧ u = t.statsTick := by
  simp only [step] at hstep
  split at hstep
  · next hphase => exact ⟨hphase, (Option.some.inj hstep).symm⟩
  · cases hstep

theorem tickConnected_iff (hsent : u.ListSent) (hstep : step t event = some u) :
    TickAccounts t event u ↔ TickConnected t event u := by
  refine forall_congr' ?_
  rintro rfl
  obtain ⟨hphase, rfl⟩ := tick_eq_some hstep
  cases hsocket : t.socket with
  | false =>
    have hended : t.statsTick.phase = .ended := by simp [statsTick, hsocket]
    simp [hended]
  | true =>
    have htick : t.statsTick.phase = .looping ∧
        t.statsTick.knownCameras = t.knownCameras \ cameraSources t.removedPeers ∧
        t.statsTick.router = t.router := by
      simp [statsTick, hsocket, hphase]
    rw [hsent (by simp [htick.1]), htick.2.1, accountedFor_iff]
    simp only [htick.1, forall_const, Connected, htick.2.2]

/-- **The list is right after every tick** if and only if at every tick all that is listed is
accounted for. -/
theorem connected_iff (capacity : Nat) (events : List WsEvent) :
    EachStep step TickConnected (start capacity) events ↔
      EachStep step TickAccounts (start capacity) events := by
  have hsent := (always_listSent capacity events).eachStep
  constructor
  · intro h pre event t u hpre hrun hstep
    exact (tickConnected_iff (hsent pre event t u hpre hrun hstep) hstep).mpr
      (h pre event t u hpre hrun hstep)
  · intro h pre event t u hpre hrun hstep
    exact (tickConnected_iff (hsent pre event t u hpre hrun hstep) hstep).mp
      (h pre event t u hpre hrun hstep)

/-- **No ghost cameras**, in every run in which each source that arrives between two ticks is of
a camera that one of them sees, and no camera of the first is a client at the second. -/
theorem no_ghosts (capacity : Nat) (events : List WsEvent)
    (hsees : EachStep step TickSees (start capacity) events) :
    EachStep step NoGhosts (start capacity) events := by
  have hsent := (always_listSent capacity events).eachStep
  have haccounts : EachStep step TickAccounts (start capacity) events := by
    rintro pre event t u hpre hrun hstep rfl hsocket
    have hlisted := always_listedSeen hsees pre t ((List.prefix_append _ _).trans hpre) hrun
    exact hlisted.accountedFor (tick_eq_some hstep).1
      (hsees pre .tick t u hpre hrun hstep rfl hsocket)
  have hconnected := (connected_iff capacity events).mpr haccounts
  intro pre event t u hpre hrun hstep htick hlooping
  refine ⟨hsent pre event t u hpre hrun hstep (by simp [hlooping]), fun source hsource => ?_⟩
  obtain ⟨key, hkey, hnow⟩ := hconnected pre event t u hpre hrun hstep htick hlooping source hsource
  exact ⟨key, hkey, .inl hnow⟩

/-! ### Two runs -/

instance : Decidable (t.Connected source) := decidable_of_iff _ connected_iff_mem.symm

instance : Decidable (event = .tick) :=
  match event with
  | .tick => isTrue rfl
  | .peer _ | .broadcast _ | .enter | .receive | .close => isFalse (by simp)

instance : Decidable t.ArrivalsSeen :=
  inferInstanceAs (Decidable (t.arrived ⊆ cameraSources (t.router.details ++ t.knownPeers) ∧
    ∀ peer ∈ t.knownPeers, peer.2 = .camera → (peer.1, .client) ∉ t.router.details))

instance : Decidable (TickSees t event u) :=
  inferInstanceAs (Decidable (event = .tick → t.socket = true → t.ArrivalsSeen))

/-- All frames come from cameras that are connected. -/
def FromCameras (t : WsCameras) : WsEvent → WsCameras → Prop
  | .broadcast frame, _ => t.Connected frame.source
  | _, _ => True

instance : Decidable (FromCameras t event u) :=
  match event with
  | .broadcast frame => inferInstanceAs (Decidable (t.Connected frame.source))
  | .peer _ | .tick | .enter | .receive | .close => isTrue trivial

def exampleKey : PublicKey := ⟨.replicate 32 7, rfl⟩

def exampleAudio : Frame := .audio (.fromNodeIdBytes exampleKey) [0, 1]

/-- The browser joins, a camera connects, and sends a frame; a tick comes before it goes. -/
def exampleSeen : List WsEvent :=
  [.enter, .enter, .enter, .tick, .peer (.register exampleKey .camera 3), .broadcast exampleAudio,
    .receive, .tick, .peer (.unregister exampleKey 0), .tick, .tick]

theorem no_ghosts_seen : EachStep step NoGhosts (start 4) exampleSeen :=
  no_ghosts 4 exampleSeen (by decide +kernel)

/-- The same without the tick before the camera goes, and before the last tick. -/
def exampleUnseen : List WsEvent :=
  [.enter, .enter, .enter, .tick, .peer (.register exampleKey .camera 3), .broadcast exampleAudio,
    .receive, .peer (.unregister exampleKey 0), .tick]

/-- After one more tick the camera is still listed. -/
theorem ghost_stays : ¬ ∀ (capacity : Nat) (events : List WsEvent),
    EachStep step FromCameras (start capacity) events →
      EachStep step NoGhosts (start capacity) events := by
  intro h
  have hframes : EachStep step FromCameras (start 4) (exampleUnseen ++ [.tick]) := by
    decide +kernel
  have hrun : (run step (start 4) exampleUnseen).map (fun t => decide (t.phase = .looping ∧
      t.statsTick.phase = .looping ∧ t.statsTick.sentList = {.fromNodeIdBytes exampleKey} ∧
      t.statsTick.router.details = [] ∧ t.disconnected = [])) = some true := by decide +kernel
  obtain ⟨t, ht, heq⟩ := Option.map_eq_some_iff.mp hrun
  obtain ⟨hphase, hlooping, hlist, hdetails, hdisconnected⟩ := of_decide_eq_true heq
  have hstep : step t .tick = some t.statsTick := by simp only [step, hphase]
  obtain ⟨-, hlisted⟩ := h 4 _ hframes exampleUnseen .tick t t.statsTick (List.prefix_refl _) ht
    hstep rfl hlooping
  obtain ⟨key, -, hnow | hgone⟩ := hlisted _ (hlist ▸ Finset.mem_singleton_self _)
  · rw [hdetails] at hnow
    cases hnow
  · rw [hdisconnected] at hgone
    cases hgone

end WsCameras

end Kodama
