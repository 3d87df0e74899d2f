import Kodama.Server.CameraLoop
import Kodama.Server.Peers

/-!
# The connection handlers (server/router.rs)

`handle_camera`, `handle_camera_with_receiver` and `handle_client` register their peer,
serve its stream until it ends, and unregister it. The second is given the stream; the other
two open it after the registration, with a `?` that leaves the function when that fails.
A handler runs step by step, each step with an outcome of its own, while everyone else
changes the router in any way that leaves the handler's peer alone.

- `undone_iff_opened`: when a handler has returned, its registration is gone and its
  contribution to the connected counters is undone exactly if opening the stream did not
  fail.
- `openFailed_leaks`: a peer whose stream could not be opened stays registered and counted.
-/

namespace Kodama

open Lib

variable {κ : Type} [DecidableEq κ]

/-- The part of `RouterInner` the handlers use. -/
structure Router (κ : Type) where
  registry : Peers κ
  framesReceived : UInt64
  framesBroadcast : UInt64
  /-- Receivers of the frame broadcast. -/
  subscribers : Nat
  rateLimitConfig : RateLimitConfig

namespace Router

/-- `Router::new`. -/
def new : Router κ := ⟨.new, 0, 0, 0, .default⟩

/-- Broadcast a frame to all subscribers; without any, the send fails. -/
def broadcastFrame (r : Router κ) : Router κ :=
  let r := { r with framesReceived := r.framesReceived + 1 }
  if r.subscribers > 0 then { r with framesBroadcast := r.framesBroadcast + 1 } else r

/-- `frame_tx.subscribe()`. -/
def subscribe (r : Router κ) : Router κ := { r with subscribers := r.subscribers + 1 }

/-- The receiver is dropped. -/
def unsubscribe (r : Router κ) : Router κ := { r with subscribers := r.subscribers - 1 }

end Router

/-- The three handlers. -/
inductive Handler where
  | handleCameraWithReceiver
  | handleCamera
  | handleClient
deriving DecidableEq

def Handler.role : Handler → PeerRole
  | handleCameraWithReceiver => .camera
  | handleCamera => .camera
  | handleClient => .client

/-- How far a call of a handler has come. -/
inductive ServePhase where
  /-- In `register_peer`, the generation not yet drawn. -/
  | entered
  /-- In `register_peer`, the map not yet locked. -/
  | registering (generation : UInt64)
  /-- Before `accept_frame_stream` or `open_frame_stream`. -/
  | opening (generation : UInt64)
  | receiving (generation : UInt64) (loop : CameraLoop)
  | forwarding (generation : UInt64)
  | unregistering (generation : UInt64)
  | returned (result : Result Unit)

/-- What a call has returned, if it has. -/
def ServePhase.result : ServePhase → Option (Result Unit)
  | returned result => some result
  | _ => none

theorem ServePhase.result_eq_some {phase : ServePhase} {result : Result Unit} :
    phase.result = some result ↔ phase = .returned result := by
  cases phase <;> simp [ServePhase.result]

/-- A call of a handler, the router, and what the call has added to the connected counters. -/
structure HandlerCall (κ : Type) where
  handler : Handler
  key : κ
  phase : ServePhase
  router : Router κ
  contribution : PeerRole → UInt64

namespace HandlerCall

/-- The handler is called. -/
def start (handler : Handler) (key : κ) (router : Router κ) : HandlerCall κ :=
  ⟨handler, key, .entered, router, fun _ => 0⟩

/-- The outcomes of the handler's own steps, and what the others do to the router. -/
inductive Event (κ : Type) where
  | drawGeneration
  | insert (now : Nat)
  | opened
  | openFailed (error : String)
  /-- The camera's stream, the clock of its limiter. -/
  | camera (event : CameraLoop.Event)
  | forwarded
  | sendFailed
  | lagged (missed : UInt64)
  | broadcastClosed
  | unregister
  | others (router : Router κ)

/-- The camera loop broadcasts the frame that arrives. -/
def broadcasts : CameraLoop → CameraLoop.Event → Bool
  | .receiving limiter _, .frame frame checkMs _ =>
    (limiter.checkFrame checkMs frame.channel (UInt64.ofNat frame.payload.length)).1 = .allowed
  | _, _ => false

/-- Where the handler continues after its registration. A client subscribes to the frames
before it opens the stream. -/
def afterRegister (handler : Handler) (generation : UInt64) (router : Router κ) :
    ServePhase × Router κ :=
  match handler with
  | .handleCameraWithReceiver =>
    (.receiving generation (.start router.rateLimitConfig), router)
  | .handleCamera => (.opening generation, router)
  | .handleClient => (.opening generation, router.subscribe)

/-- The receiver of a client is dropped when its handler returns. -/
def atReturn (handler : Handler) (router : Router κ) : Router κ :=
  match handler with
  | .handleClient => router.unsubscribe
  | _ => router

/-- One step of the handler itself. -/
def ownStep (handler : Handler) (key : κ) (router : Router κ) :
    ServePhase → Event κ → Option (ServePhase × Router κ)
  | .entered, .drawGeneration =>
    let (generation, registry) := router.registry.nextGeneration
    some (.registering generation, { router with registry })
  | .registering generation, .insert now =>
    some (afterRegister handler generation
      { router with registry := router.registry.insertPeer key handler.role generation now })
  | .opening generation, .opened =>
    match handler with
    | .handleClient => some (.forwarding generation, router)
    | _ => some (.receiving generation (.start router.rateLimitConfig), router)
  | .opening _, .openFailed error => some (.returned (.error error), atReturn handler router)
  | .receiving generation loop, .camera event =>
    (loop.step event).map fun loop' =>
      (if loop'.exitReason.isSome then .unregistering generation else .receiving generation loop',
        if broadcasts loop event then router.broadcastFrame else router)
  | .forwarding generation, .forwarded => some (.forwarding generation, router)
  | .forwarding generation, .sendFailed => some (.unregistering generation, router)
  | .forwarding generation, .lagged _ => some (.forwarding generation, router)
  | .forwarding generation, .broadcastClosed => some (.unregistering generation, router)
  | .unregistering generation, .unregister =>
    some (.returned (.ok ()), atReturn handler
      { router with registry := router.registry.unregisterPeer key generation })
  | _, _ => none

/-- A step of the handler, whose effect on the counters is its contribution, or of the
others, who do not involve the handler's peer. -/
def step (s : HandlerCall κ) : Event κ → Option (HandlerCall κ)
  | .others router =>
    if router.registry.peers.lookup s.key = s.router.registry.peers.lookup s.key then
      some { s with router }
    else none
  | event => (ownStep s.handler s.key s.router s.phase event).map fun (phase, router) =>
    { s with
      phase, router
      contribution := fun role => s.contribution role +
        (router.registry.connected role - s.router.registry.connected role) }

/-- The registration of the call is not in the map and not counted. -/
def Undone (s : HandlerCall κ) : Prop :=
  s.router.registry.peers.lookup s.key = none ∧ ∀ role, s.contribution role = 0

end HandlerCall

/-! ## What the registry steps do to the handler's peer -/

section Registry

variable {r : Peers κ} {key : κ} {role : PeerRole} {generation : UInt64} {now : Nat}

/-- A new key is counted under its role. -/
theorem insertPeer_of_absent (h : r.peers.lookup key = none) (role : PeerRole)
    (generation : UInt64) (now : Nat) :
    (r.insertPeer key role generation now).peers.lookup key = some ⟨role, generation, now⟩ ∧
      ∀ role', (r.insertPeer key role generation now).connected role' =
        if role = role' then r.connected role' + 1 else r.connected role' := by
  simp only [Peers.insertPeer, h, Option.isNone_none, if_true]
  constructor
  · rw [Peers.modifyConnected_peers]
    exact AList.lookup_insert _
  · intro role'
    rw [Peers.connected_modifyConnected]
    rfl

/-- A registration is undone under the role it holds. -/
theorem unregisterPeer_of_stored {info : PeerInfo} (h : r.peers.lookup key = some info) :
    (r.unregisterPeer key info.generation).peers.lookup key = none ∧
      ∀ role', (r.unregisterPeer key info.generation).connected role' =
        if info.role = role' then r.connected role' - 1 else r.connected role' := by
  simp only [Peers.unregisterPeer, h, if_true]
  constructor
  · rw [Peers.modifyConnected_peers]
    exact AList.lookup_erase _ _
  · intro role'
    rw [Peers.connected_modifyConnected]
    rfl

end Registry

/-! ## What a step of the handler does -/

/-- The generation of a call between its registration and its end. -/
def ServePhase.serving : ServePhase → Option UInt64
  | opening generation => some generation
  | receiving generation _ => some generation
  | forwarding generation => some generation
  | unregistering generation => some generation
  | _ => none

namespace HandlerCall

variable {handler : Handler} {key : κ} {router router' : Router κ} {phase phase' : ServePhase}
  {event : Event κ} {s s' : HandlerCall κ}

omit [DecidableEq κ] in
@[simp] theorem atReturn_registry : (atReturn handler router).registry = router.registry := by
  cases handler <;> rfl

omit [DecidableEq κ] in
theorem afterRegister_spec (handler : Handler) (generation : UInt64) (router : Router κ) :
    (afterRegister handler generation router).1.serving = some generation ∧
      (afterRegister handler generation router).2.registry = router.registry := by
  cases handler <;> exact ⟨rfl, rfl⟩

omit [DecidableEq κ] in
@[simp] theorem broadcastFrame_registry : router.broadcastFrame.registry = router.registry := by
  rw [Router.broadcastFrame]
  split <;> rfl

/-- The handler draws its generation, registers, serves, fails to open its stream, or
unregisters. -/
theorem ownStep_cases (h : ownStep handler key router phase event = some (phase', router')) :
    (∃ generation, phase = .entered ∧ event = .drawGeneration ∧
      phase' = .registering generation ∧ router'.registry = router.registry.nextGeneration.2) ∨
    (∃ generation now, phase = .registering generation ∧ event = .insert now ∧
      phase'.serving = some generation ∧
      router'.registry = router.registry.insertPeer key handler.role generation now) ∨
    (∃ generation, phase.serving = some generation ∧ phase'.serving = some generation ∧
      router'.registry = router.registry ∧ ∀ error, event ≠ .openFailed error) ∨
    (∃ generation error, phase.serving = some generation ∧ event = .openFailed error ∧
      phase' = .returned (.error error) ∧ router'.registry = router.registry) ∨
    (∃ generation, phase = .unregistering generation ∧ event = .unregister ∧
      phase' = .returned (.ok ()) ∧
      router'.registry = router.registry.unregisterPeer key generation) := by
  cases phase with
  | entered =>
    cases event <;> cases h
    exact .inl ⟨_, rfl, rfl, rfl, rfl⟩
  | registering generation =>
    cases event with
    | insert now =>
      have hspec := afterRegister_spec handler generation { router with
        registry := router.registry.insertPeer key handler.role generation now }
      have heq : afterRegister handler generation _ = (phase', router') := Option.some.inj h
      rw [heq] at hspec
      exact .inr (.inl ⟨generation, now, rfl, rfl, hspec.1, hspec.2⟩)
    | _ => cases h
  | opening generation =>
    cases event with
    | opened =>
      refine .inr (.inr (.inl ⟨generation, rfl, ?_, ?_, nofun⟩)) <;>
        cases handler <;> cases h <;> rfl
    | openFailed error =>
      cases h
      exact .inr (.inr (.inr (.inl ⟨generation, error, rfl, rfl, rfl, atReturn_registry⟩)))
    | _ => cases h
  | receiving generation loop =>
    cases event with
    | camera event =>
      obtain ⟨loop', -, heq⟩ := Option.map_eq_some_iff.mp h
      cases heq
      -- the loop may broadcast a frame, or end and be followed by the unregistration
      refine .inr (.inr (.inl ⟨generation, rfl, ?_, ?_, nofun⟩))
      · split <;> rfl
      · split
        · exact broadcastFrame_registry
        · rfl
    | _ => cases h
  | forwarding generation =>
    cases event <;> cases h <;> exact .inr (.inr (.inl ⟨generation, rfl, rfl, rfl, nofun⟩))
  | unregistering generation =>
    cases event <;> cases h
    exact .inr (.inr (.inr (.inr ⟨generation, rfl, rfl, rfl, atReturn_registry⟩)))
  | returned result => cases event <;> cases h

/-- A step is one of the handler itself or leaves its peer, phase and contribution alone. -/
theorem step_cases (h : s.step event = some s') :
    (∃ router, event = .others router ∧
      router.registry.peers.lookup s.key = s.router.registry.peers.lookup s.key ∧
      s' = { s with router }) ∨
    (∃ phase router, ownStep s.handler s.key s.router s.phase event = some (phase, router) ∧
      s' = { s with
        phase, router
        contribution := fun role => s.contribution role +
          (router.registry.connected role - s.router.registry.connected role) }) := by
  cases event with
  | others router =>
    simp only [step] at h
    split at h
    · next hsame =>
      cases h
      exact .inl ⟨router, rfl, hsame, rfl⟩
    · cases h
  | _ =>
    obtain ⟨⟨phase, router⟩, hown, rfl⟩ := Option.map_eq_some_iff.mp h
    exact .inr ⟨phase, router, hown, rfl⟩

/-! ## The registration through the run of a call -/

/-- The registration of the call is in the map and counted once. -/
def Registered (s : HandlerCall κ) (generation : UInt64) : Prop :=
  (∃ info, s.router.registry.peers.lookup s.key = some info ∧
    info.generation = generation ∧ info.role = s.handler.role) ∧
  ∀ role, s.contribution role = if s.handler.role = role then 1 else 0

/-- The registration is there while the call serves its peer and after it failed to, and not
before and not after it has unregistered. -/
structure Tracked (s : HandlerCall κ) : Prop where
  serving : ∀ generation, s.phase.serving = some generation → s.Registered generation
  failed : ∀ error, s.phase = .returned (.error error) → ∃ generation, s.Registered generation
  undone : s.phase.serving = none → (∀ error, s.phase ≠ .returned (.error error)) → s.Undone

theorem start_tracked (h : router.registry.peers.lookup key = none) :
    Tracked (start handler key router) where
  serving := nofun
  failed := nofun
  undone _ _ := ⟨h, fun _ => rfl⟩

theorem Registered.congr {generation : UInt64} (h : s.Registered generation)
    (hhandler : s'.handler = s.handler) (hkey : s'.key = s.key)
    (hlookup : s'.router.registry.peers.lookup s.key = s.router.registry.peers.lookup s.key)
    (hcontribution : s'.contribution = s.contribution) : s'.Registered generation := by
  rw [Registered, hhandler, hkey, hlookup, hcontribution]
  exact h

omit [DecidableEq κ] in
theorem contribution_unchanged (s : HandlerCall κ) {registry : Peers κ}
    (h : ∀ role, registry.connected role = s.router.registry.connected role) :
    (fun role => s.contribution role +
      (registry.connected role - s.router.registry.connected role)) = s.contribution := by
  funext role
  rw [h, UInt64.sub_self, UInt64.add_zero]

theorem Tracked.others (h : s.Tracked)
    (hsame : router.registry.peers.lookup s.key = s.router.registry.peers.lookup s.key) :
    Tracked { s with router } where
  serving generation hserving := (h.serving generation hserving).congr rfl rfl hsame rfl
  failed error herror :=
    (h.failed error herror).imp fun _ hreg => hreg.congr rfl rfl hsame rfl
  undone hnone hok :=
    have hundone := h.undone hnone hok
    ⟨hsame.trans hundone.1, hundone.2⟩

theorem tracked_of_serving {generation : UInt64} (hserving : s.phase.serving = some generation)
    (h : s.Registered generation) : Tracked s where
  serving _ hgeneration := Option.some.inj (hserving.symm.trans hgeneration) ▸ h
  failed _ herror := by
    rw [herror] at hserving
    cases hserving
  undone hnone := by
    rw [hserving] at hnone
    cases hnone

theorem Tracked.step (h : s.Tracked) (hstep : s.step event = some s') : s'.Tracked := by
  obtain ⟨router, -, hsame, rfl⟩ | ⟨phase, router, hown, rfl⟩ := step_cases hstep
  · exact h.others hsame
  obtain ⟨generation, hphase, -, rfl, hregistry⟩ |
    ⟨generation, now, hphase, -, hserving, hregistry⟩ |
    ⟨generation, hphase, hserving, hregistry, -⟩ |
    ⟨generation, error, hphase, -, rfl, hregistry⟩ |
    ⟨generation, hphase, -, rfl, hregistry⟩ := ownStep_cases hown
  · -- the generation is drawn, the map and the counters are as before
    have hundone := h.undone (hphase ▸ rfl) (hphase ▸ nofun)
    refine ⟨nofun, nofun, fun _ _ => ⟨?_, fun role => ?_⟩⟩
    · show router.registry.peers.lookup s.key = none
      rw [hregistry]
      exact hundone.1
    · refine (congrFun (contribution_unchanged s fun role => ?_) role).trans (hundone.2 role)
      rw [hregistry]
      cases role <;> rfl
  · -- the registration is inserted and counted
    have hundone := h.undone (hphase ▸ rfl) (hphase ▸ nofun)
    obtain ⟨hlookup, hconnected⟩ :=
      insertPeer_of_absent hundone.1 s.handler.role generation now
    rw [← hregistry] at hlookup hconnected
    refine tracked_of_serving hserving ⟨⟨_, hlookup, rfl, rfl⟩, fun role => ?_⟩
    show s.contribution role +
      (router.registry.connected role - s.router.registry.connected role) = _
    rw [hconnected, hundone.2, UInt64.zero_add]
    split
    · rw [UInt64.add_comm, UInt64.add_sub_cancel]
    · exact UInt64.sub_self _
  · -- serving on: the registration stays
    refine tracked_of_serving hserving ((h.serving generation hphase).congr rfl rfl ?_ ?_)
    · exact congrArg (fun r : Peers κ => r.peers.lookup s.key) hregistry
    · exact contribution_unchanged s fun role => hregistry ▸ rfl
  · -- the failed open returns with the registration in place
    have hreg := h.serving generation hphase
    refine ⟨nofun, fun _ _ => ⟨generation, hreg.congr rfl rfl ?_ ?_⟩,
      fun _ hok => absurd rfl (hok error)⟩
    · exact congrArg (fun r : Peers κ => r.peers.lookup s.key) hregistry
    · exact contribution_unchanged s fun role => hregistry ▸ rfl
  · -- the stored registration is the call's own: its generation matches, and its role
    obtain ⟨⟨info, hlookup, rfl, hrole⟩, hcontribution⟩ := h.serving generation (hphase ▸ rfl)
    obtain ⟨hgone, hconnected⟩ := unregisterPeer_of_stored hlookup
    rw [← hregistry] at hgone hconnected
    refine ⟨nofun, nofun, fun _ _ => ⟨hgone, fun role => ?_⟩⟩
    show s.contribution role +
      (router.registry.connected role - s.router.registry.connected role) = 0
    rw [hconnected, hcontribution, hrole]
    split
    · grind
    · rw [UInt64.sub_self]
      rfl

/-- The call has returned with an error exactly if opening its stream has failed. -/
theorem run_failed_iff (handler : Handler) (key : κ) (router : Router κ)
    (events : List (Event κ)) :
    ∀ s, Machine.run step (start handler key router) events = some s →
      ((∃ error, s.phase = .returned (.error error)) ↔ ∃ error, .openFailed error ∈ events) := by
  induction events using List.reverseRecOn with
  | nil =>
    rintro s ⟨⟩
    exact iff_of_false nofun nofun
  | append_singleton events event ih =>
    intro s hrun
    obtain ⟨t, hrun, hstep⟩ := Machine.run_concat_eq_some.mp hrun
    have ih := ih t hrun
    simp only [List.mem_append, List.mem_singleton, exists_or]
    rw [← ih]
    obtain ⟨router, rfl, -, rfl⟩ | ⟨phase, router, hown, rfl⟩ := step_cases hstep
    · exact ⟨.inl, fun h => h.resolve_right nofun⟩
    -- a call that has returned takes no further step
    have hrunning : ¬ ∃ error, t.phase = .returned (.error error) := by
      rintro ⟨error, hreturned⟩
      rw [hreturned] at hown
      cases event <;> cases hown
    rw [or_iff_right hrunning]
    obtain ⟨generation, -, rfl, rfl, -⟩ | ⟨generation, now, -, rfl, hserving, -⟩ |
      ⟨generation, -, hserving, -, hevent⟩ | ⟨generation, error, -, rfl, rfl, -⟩ |
      ⟨generation, -, rfl, rfl, -⟩ := ownStep_cases hown
    · exact iff_of_false nofun nofun
    · refine iff_of_false ?_ nofun
      rintro ⟨error, rfl⟩
      cases hserving
    · refine iff_of_false ?_ fun ⟨error, herror⟩ => hevent error herror.symm
      rintro ⟨error, rfl⟩
      cases hserving
    · exact iff_of_true ⟨error, rfl⟩ ⟨error, rfl⟩
    · exact iff_of_false nofun nofun

/-- **When nothing is leaked.** Started in any state of the router in which no connection of
its peer is registered, whatever the outcomes of its steps and whatever the others do to
other peers: when a handler has returned, its registration is gone from the map and its
contribution to both counters is undone exactly if opening its stream did not fail. -/
theorem undone_iff_opened (handler : Handler) (key : κ) (router : Router κ)
    (habsent : router.registry.peers.lookup key = none) (events : List (Event κ))
    (s : HandlerCall κ) (hrun : Machine.run step (start handler key router) events = some s)
    (result : Result Unit) (hreturned : s.phase = .returned result) :
    s.Undone ↔ ∀ error, .openFailed error ∉ events := by
  have htracked : s.Tracked :=
    (Machine.always_of_step (start_tracked habsent) (fun _ _ _ h hstep => h.step hstep)
      events).final hrun
  rw [← not_exists, ← run_failed_iff handler key router events s hrun]
  constructor
  · rintro hundone ⟨error, herror⟩
    obtain ⟨generation, ⟨info, hlookup, -⟩, -⟩ := htracked.failed error herror
    cases hundone.1.symm.trans hlookup
  · intro hok
    exact htracked.undone (hreturned ▸ rfl) fun error herror => hok ⟨error, herror⟩

/-- A client that forwards a frame and stops when the broadcast is closed, while another
peer registers, leaves nothing behind. -/
theorem undone_closedClient :
    let others : Router Nat := { (Router.new : Router Nat) with
      registry := (Peers.new.insertPeer 7 .client 0 0).insertPeer 8 .camera 1 1 }
    ∃ s, Machine.run step (start .handleClient 7 .new) [.drawGeneration, .insert 0, .opened,
        .forwarded, .others others, .broadcastClosed, .unregister] = some s ∧ s.Undone := by
  intro others
  have hreturns : (Machine.run step (start .handleClient 7 .new) [.drawGeneration, .insert 0,
      .opened, .forwarded, .others others, .broadcastClosed, .unregister]).map
        (fun s => s.phase.result) = some (some (.ok ())) := by
    decide +kernel
  obtain ⟨s, hrun, hresult⟩ := Option.map_eq_some_iff.mp hreturns
  exact ⟨s, hrun, (undone_iff_opened .handleClient 7 .new rfl _ s hrun (.ok ())
    (ServePhase.result_eq_some.mp hresult)).mpr (by simp)⟩

/-- The stream of a registered peer cannot be opened. -/
def openFails : List (Event Nat) := [.drawGeneration, .insert 0, .openFailed "timed out"]

theorem leaks_of_openFails (handler : Handler)
    (h : (Machine.run step (start handler 7 .new) openFails).map (fun s =>
      (s.phase.result, s.router.registry.peers.lookup s.key)) =
        some (some (.error "timed out"), some ⟨handler.role, 0, 0⟩)) :
    ∃ s, Machine.run step (start handler 7 .new) openFails = some s ∧
      s.phase = .returned (.error "timed out") ∧ ¬ s.Undone := by
  obtain ⟨s, hrun, hobserved⟩ := Option.map_eq_some_iff.mp h
  obtain ⟨hresult, hlookup⟩ := Prod.mk.inj hobserved
  refine ⟨s, hrun, ServePhase.result_eq_some.mp hresult, fun hundone => ?_⟩
  cases hundone.1.symm.trans hlookup

/-- On a new router, a camera whose frame stream cannot be accepted, and a client whose
stream cannot be opened, stay registered when their handler has returned the error. -/
theorem openFailed_leaks :
    (∃ s, Machine.run step (start .handleCamera 7 .new) openFails = some s ∧
      s.phase = .returned (.error "timed out") ∧ ¬ s.Undone) ∧
    ∃ s, Machine.run step (start .handleClient 7 .new) openFails = some s ∧
      s.phase = .returned (.error "timed out") ∧ ¬ s.Undone :=
  ⟨leaks_of_openFails .handleCamera (by decide +kernel),
    leaks_of_openFails .handleClient (by decide +kernel)⟩

end HandlerCall

end Kodama
