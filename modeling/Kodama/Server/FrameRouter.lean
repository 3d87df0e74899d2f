import Kodama.Lib.HashMap
import Kodama.Server.CameraLoop
import Kodama.Transport.Forwarder

/-!
# Distributing frames (server/router.rs, `handle_camera_with_receiver`, `handle_client`)

The router's tasks around its broadcast channel: each camera's handler reads its stream, asks
the limiter of its connection, and broadcasts what is allowed; each client's handler sends what
it receives from the channel; others (the recording task, the web server) only subscribe. Any
task may take the next step, also between the three of `broadcast_frame`. A frame that is
broadcast while nobody is subscribed is gone.

- `router_delivers`: what a client receives are frames that the limiters allowed since it
  subscribed, those of one camera in the order of its stream, each at most once, and all of them
  as long as its handler has not lagged.
- `listener_receives`: the same of what other subscribers receive.
- `router_counts`: what a camera's handler has read was allowed or is in its limiter's count of
  dropped frames; `frames_received` and `frames_broadcast` count the frames that were allowed, and
  those of them that the channel took, which are all from the first live subscription on.

`admitted` records the frames the limiters allowed, each with the number of its connection, in
the order in which they came to the channel.
-/

namespace Kodama

open Lib Lib.Machine
open scoped List

/-- Where a handler stands in `broadcast_frame`. -/
inductive BroadcastCall where
  | idle
  /-- The frame is counted as received. -/
  | received (frame : Frame)
  /-- The channel has taken it. -/
  | taken

namespace BroadcastCall

/-- The frame that has not come to the channel. -/
def waiting : BroadcastCall → Option Frame
  | received frame => some frame
  | idle | taken => none

def isTaken : BroadcastCall → Bool
  | taken => true
  | idle | received _ => false

end BroadcastCall

/-- A camera's stream and the loop of its handler. Its limiter is its own, so that the loop takes
its step on a frame when the frame is checked. -/
structure RouterCamera where
  feed : Feed
  loop : CameraLoop
  call : BroadcastCall := .idle

/-- A client's handler, which subscribes before it opens its stream. `since` is the number of
frames that were admitted by then. -/
structure RouterClient where
  since : Nat
  forwarder : Forwarder
  opened : Bool := false

/-- Another subscriber. -/
structure Listener where
  since : Nat
  rx : Subscription (Nat × Frame)
  dropped : Bool := false

structure FrameRouter where
  tx : Broadcast (Nat × Frame)
  rateLimitConfig : RateLimitConfig
  cameras : HashMap Nat RouterCamera := ∅
  clients : HashMap Nat RouterClient := ∅
  listeners : HashMap Nat Listener := ∅
  framesReceived : UInt64 := 0
  framesBroadcast : UInt64 := 0
  admitted : List (Nat × Frame) := []

/-- What can happen. -/
inductive RouterEvent where
  | camera (k : Nat) (stream : Bytes)
  /-- A camera's handler receives a frame; with the readings of the limiter's clock. -/
  | frame (k : Nat) (checkMs logMs : UInt64)
  /-- The frame is sent on the channel. -/
  | broadcast (k : Nat)
  /-- It is counted as broadcast. -/
  | count (k : Nat)
  | abuseCheck (k : Nat) (nowMs : UInt64)
  /-- A camera's stream is closed, or fails. -/
  | finished (k : Nat)
  | client (c : Nat)
  | opened (c : Nat) (ok : Bool)
  | receive (c : Nat)
  | sendOk (c : Nat)
  | sendFails (c : Nat) (written : Nat)
  /-- `RouterHandle::subscribe` -/
  | subscribe (i : Nat)
  | listen (i : Nat)
  | unsubscribe (i : Nat)

namespace FrameRouter

/-- The limiter's answer for a frame. -/
def allows (loop : CameraLoop) (frame : Frame) (checkMs : UInt64) : Bool :=
  (loop.limiter.checkFrame checkMs frame.channel (.ofNat frame.payload.length)).1 = .allowed

/-- Receivers of the channel. -/
def receivers (s : FrameRouter) : Nat :=
  HashMap.countWhere (fun client => !client.forwarder.ended) s.clients +
    HashMap.countWhere (fun listener => !listener.dropped) s.listeners

def setCamera (s : FrameRouter) (k : Nat) (camera : RouterCamera) : FrameRouter :=
  { s with cameras := s.cameras.insert k camera }

def setClient (s : FrameRouter) (c : Nat) (client : RouterClient) : FrameRouter :=
  { s with clients := s.clients.insert c client }

def setListener (s : FrameRouter) (i : Nat) (listener : Listener) : FrameRouter :=
  { s with listeners := s.listeners.insert i listener }

/-- `broadcast_frame` begins: the frame is counted. -/
def receiveFrame (s : FrameRouter) (k : Nat) (frame : Frame) (feed : Feed) (loop : CameraLoop) :
    FrameRouter :=
  { s with framesReceived := s.framesReceived + 1 }.setCamera k ⟨feed, loop, .received frame⟩

/-- The frame comes to the channel, which does not take it without a receiver. -/
def broadcastFrame (s : FrameRouter) (k : Nat) (camera : RouterCamera) (frame : Frame) :
    FrameRouter :=
  { s with
    tx := s.tx.offer s.receivers (k, frame)
    admitted := s.admitted ++ [(k, frame)] }.setCamera k
      { camera with call := if s.receivers = 0 then .idle else .taken }

/-- A step of a camera's handler that is not in `broadcast_frame`. -/
def onIdle (s : FrameRouter) (k : Nat) (act : RouterCamera → Option FrameRouter) :
    Option FrameRouter :=
  (s.cameras.lookup k).bind fun camera =>
    match camera.call with
    | .idle => act camera
    | _ => none

/-- A step of a client's handler that its forwarder takes. -/
def onForwarder (s : FrameRouter) (c : Nat) (act : Forwarder → Option Forwarder) :
    Option FrameRouter :=
  (s.clients.lookup c).bind fun client =>
    if client.opened then
      (act client.forwarder).map fun forwarder => s.setClient c { client with forwarder }
    else none

/-- One event. -/
def step (s : FrameRouter) : RouterEvent → Option FrameRouter
  | .camera k stream =>
    if s.cameras.lookup k = none then
      some (s.setCamera k ⟨.new stream, .start s.rateLimitConfig, .idle⟩)
    else none
  | .frame k checkMs logMs =>
    s.onIdle k fun camera =>
      camera.feed.recv.bind fun (frame, feed) =>
        (camera.loop.step (.frame frame checkMs logMs)).map fun loop =>
          if allows camera.loop frame checkMs then s.receiveFrame k frame feed loop
          else s.setCamera k ⟨feed, loop, .idle⟩
  | .broadcast k =>
    (s.cameras.lookup k).bind fun camera =>
      match camera.call with
      | .received frame => some (s.broadcastFrame k camera frame)
      | _ => none
  | .count k =>
    (s.cameras.lookup k).bind fun camera =>
      match camera.call with
      | .taken =>
        some ({ s with framesBroadcast := s.framesBroadcast + 1 }.setCamera k
          { camera with call := .idle })
      | _ => none
  | .abuseCheck k nowMs =>
    s.onIdle k fun camera =>
      (camera.loop.step (.tick nowMs)).map fun loop => s.setCamera k { camera with loop }
  | .finished k =>
    s.onIdle k fun camera =>
      match FrameReceiver.recv camera.feed.reader with
      | .ok (some _) => none
      | .ok none => (camera.loop.step .closed).map fun loop => s.setCamera k { camera with loop }
      | .error _ => (camera.loop.step .error).map fun loop => s.setCamera k { camera with loop }
  | .client c =>
    if s.clients.lookup c = none then
      some (s.setClient c ⟨s.admitted.length, .subscribe s.tx, false⟩)
    else none
  | .opened c ok =>
    (s.clients.lookup c).bind fun client =>
      if client.opened ∨ client.forwarder.ended then none
      else if ok then some (s.setClient c { client with opened := true })
      else some (s.setClient c
        { client with forwarder := { client.forwarder with ended := true } })
  | .receive c => s.onForwarder c (Forwarder.receive s.tx)
  | .sendOk c => s.onForwarder c Forwarder.sendOk
  | .sendFails c written => s.onForwarder c (Forwarder.sendFails · written)
  | .subscribe i =>
    if s.listeners.lookup i = none then
      some (s.setListener i ⟨s.admitted.length, .new s.tx, false⟩)
    else none
  | .listen i =>
    (s.listeners.lookup i).bind fun listener =>
      if listener.dropped then none
      else (listener.rx.recv s.tx).map fun r => s.setListener i { listener with rx := r.2 }
  | .unsubscribe i =>
    (s.listeners.lookup i).bind fun listener =>
      if listener.dropped then none else some (s.setListener i { listener with dropped := true })

/-! ## The invariant -/

/-- What was admitted of a camera is part of what its handler has read, and its limiter counts
the rest. -/
structure CameraOk (admitted : List (Nat × Frame)) (k : Nat) (camera : RouterCamera) : Prop where
  feed : camera.feed.Ok
  part : framesOf k admitted ++ camera.call.waiting.toList <+ camera.feed.read
  dropped : UInt64.ofNat camera.feed.read.length =
    UInt64.ofNat (framesOf k admitted ++ camera.call.waiting.toList).length +
      camera.loop.limiter.framesDropped

/-- Past the channel it does not matter where the handler stands. -/
theorem CameraOk.of_waiting {admitted : List (Nat × Frame)} {k : Nat} {camera : RouterCamera}
    {call : BroadcastCall} (h : CameraOk admitted k camera)
    (hwaiting : call.waiting = camera.call.waiting) :
    CameraOk admitted k { camera with call } where
  feed := h.feed
  part := by
    show framesOf k admitted ++ call.waiting.toList <+ camera.feed.read
    rw [hwaiting]
    exact h.part
  dropped := by
    show _ = UInt64.ofNat (framesOf k admitted ++ call.waiting.toList).length + _
    rw [hwaiting]
    exact h.dropped

/-- Handlers with a frame that is counted as received and has not come to the channel. -/
def waiting (s : FrameRouter) : Nat :=
  HashMap.countWhere (fun camera => camera.call.waiting.isSome) s.cameras

/-- Handlers with a frame that the channel has taken and that is not counted as broadcast. -/
def uncounted (s : FrameRouter) : Nat :=
  HashMap.countWhere (fun camera => camera.call.isTaken) s.cameras

structure Inv (s : FrameRouter) : Prop where
  cameras : ∀ k camera, s.cameras.lookup k = some camera → CameraOk s.admitted k camera
  known : ∀ m ∈ s.admitted, (s.cameras.lookup m.1).isSome
  relayable : ∀ m ∈ s.admitted, m.2.Relayable
  sent : s.tx.sent <+ s.admitted
  clients : ∀ c client, s.clients.lookup c = some client → client.forwarder.Ok s.tx ∧
    client.forwarder.rx.Sees s.tx s.admitted client.since client.forwarder.ended
  listeners : ∀ i listener, s.listeners.lookup i = some listener →
    listener.rx.Sees s.tx s.admitted listener.since listener.dropped
  countReceived : s.framesReceived = .ofNat (s.admitted.length + s.waiting)
  countBroadcast : s.framesBroadcast + .ofNat s.uncounted = .ofNat s.tx.sent.length

variable {s t : FrameRouter} {since : Nat} {rx : Subscription (Nat × Frame)} {ended : Bool}

/-- The router as it starts. -/
def start (bufferCapacity : Nat) (rateLimitConfig : RateLimitConfig) : FrameRouter where
  tx := .channel bufferCapacity
  rateLimitConfig

theorem inv_start (bufferCapacity : Nat) (rateLimitConfig : RateLimitConfig) :
    (start bufferCapacity rateLimitConfig).Inv where
  cameras _ _ h := absurd ((AList.lookup_empty _).symm.trans h) (by simp)
  known := nofun
  relayable := nofun
  sent := List.Sublist.refl _
  clients _ _ h := absurd ((AList.lookup_empty _).symm.trans h) (by simp)
  listeners _ _ h := absurd ((AList.lookup_empty _).symm.trans h) (by simp)
  countReceived := rfl
  countBroadcast := rfl

/-! ## What the limiter counts -/

theorem checkFrame_framesDropped (limiter : ConnectionRateLimiter) (nowMs : UInt64)
    (channel : Channel) (payloadLen : UInt64) :
    (limiter.checkFrame nowMs channel payloadLen).2.framesDropped =
      if (limiter.checkFrame nowMs channel payloadLen).1 = .allowed then limiter.framesDropped
      else limiter.framesDropped + 1 := by
  unfold ConnectionRateLimiter.checkFrame
  dsimp only
  split
  · rfl
  · split <;> rfl

theorem frameSent_framesDropped (limiter : ConnectionRateLimiter) (payloadLen : UInt64) :
    (limiter.frameSent payloadLen).framesDropped = limiter.framesDropped := by
  unfold ConnectionRateLimiter.frameSent
  split <;> rfl

theorem shouldLogDrop_framesDropped (limiter : ConnectionRateLimiter) (nowMs : UInt64) :
    (limiter.shouldLogDrop nowMs).2.framesDropped = limiter.framesDropped := by
  unfold ConnectionRateLimiter.shouldLogDrop
  dsimp only
  split <;> rfl

theorem tickAbuseCheck_framesDropped (limiter : ConnectionRateLimiter) (nowMs : UInt64) :
    (limiter.tickAbuseCheck nowMs).2.framesDropped = limiter.framesDropped := by
  unfold ConnectionRateLimiter.tickAbuseCheck
  dsimp only
  split <;> rfl

/-- A frame is allowed, or counted as dropped. -/
theorem framesDropped_of_frame {loop loop' : CameraLoop} {frame : Frame} {checkMs logMs : UInt64}
    (hstep : loop.step (.frame frame checkMs logMs) = some loop') :
    loop'.limiter.framesDropped =
      if allows loop frame checkMs then loop.limiter.framesDropped
      else loop.limiter.framesDropped + 1 := by
  cases CameraLoop.move_of_step hstep with
  | frame _ _ _ _ hlimiter _ =>
    have hcheck := checkFrame_framesDropped loop.limiter checkMs frame.channel
      (.ofNat frame.payload.length)
    rw [hlimiter, allows, CameraLoop.afterFrame]
    rcases hresult : loop.limiter.checkFrame checkMs frame.channel
      (.ofNat frame.payload.length) with ⟨result, limiter⟩
    rw [hresult] at hcheck
    cases result with
    | allowed => exact (frameSent_framesDropped _ _).trans hcheck
    | dropped => exact (shouldLogDrop_framesDropped _ _).trans hcheck

/-- Other steps of a camera's loop drop nothing. -/
theorem framesDropped_of_tick {loop loop' : CameraLoop} {nowMs : UInt64}
    (hstep : loop.step (.tick nowMs) = some loop') :
    loop'.limiter.framesDropped = loop.limiter.framesDropped := by
  cases CameraLoop.move_of_step hstep with
  | tick _ =>
    have htick := tickAbuseCheck_framesDropped loop.limiter nowMs
    split <;> exact htick

theorem framesDropped_of_closed {loop loop' : CameraLoop} (hstep : loop.step .closed = some loop') :
    loop'.limiter.framesDropped = loop.limiter.framesDropped := by
  cases CameraLoop.move_of_step hstep with
  | closed => rfl

theorem framesDropped_of_error {loop loop' : CameraLoop} (hstep : loop.step .error = some loop') :
    loop'.limiter.framesDropped = loop.limiter.framesDropped := by
  cases CameraLoop.move_of_step hstep with
  | error => rfl

/-! ## Every event keeps the invariant -/

variable {k : Nat} {camera : RouterCamera} {frame : Frame}

/-- While nobody is subscribed, every receiver there was has ended. -/
theorem ended_of_receivers (hnone : s.receivers = 0) {c : Nat} {client : RouterClient}
    (hc : s.clients.lookup c = some client) : client.forwarder.ended = true := by
  have hended := HashMap.eq_false_of_countWhere_eq_zero (Nat.add_eq_zero_iff.mp hnone).1 hc
  rwa [Bool.not_eq_false'] at hended

theorem dropped_of_receivers (hnone : s.receivers = 0) {i : Nat} {listener : Listener}
    (hi : s.listeners.lookup i = some listener) : listener.dropped = true := by
  have hdropped := HashMap.eq_false_of_countWhere_eq_zero (Nat.add_eq_zero_iff.mp hnone).2 hi
  rwa [Bool.not_eq_false'] at hdropped

theorem waiting_setCamera (hk : s.cameras.lookup k = some camera) (camera' : RouterCamera) :
    (s.setCamera k camera').waiting + (if camera.call.waiting.isSome then 1 else 0) =
      s.waiting + if camera'.call.waiting.isSome then 1 else 0 := by
  have hcount := HashMap.countWhere_insert
    (fun camera : RouterCamera => camera.call.waiting.isSome) s.cameras k camera'
  rwa [HashMap.countAt_of_lookup hk] at hcount

theorem uncounted_setCamera (hk : s.cameras.lookup k = some camera) (camera' : RouterCamera) :
    (s.setCamera k camera').uncounted + (if camera.call.isTaken then 1 else 0) =
      s.uncounted + if camera'.call.isTaken then 1 else 0 := by
  have hcount := HashMap.countWhere_insert
    (fun camera : RouterCamera => camera.call.isTaken) s.cameras k camera'
  rwa [HashMap.countAt_of_lookup hk] at hcount

/-- A step of a camera's handler that does not come to the channel. -/
theorem inv_setCamera (h : s.Inv) (hcamera : CameraOk s.admitted k camera)
    {framesReceived framesBroadcast : UInt64}
    (hreceived : framesReceived = .ofNat (s.admitted.length + (s.setCamera k camera).waiting))
    (hbroadcast : framesBroadcast + .ofNat (s.setCamera k camera).uncounted =
      .ofNat s.tx.sent.length) :
    ({ s with framesReceived, framesBroadcast }.setCamera k camera).Inv where
  cameras := HashMap.forall_lookup_insert hcamera fun k' camera' _ hk => h.cameras k' camera' hk
  known m hm := HashMap.isSome_lookup_insert.mpr (.inr (h.known m hm))
  relayable := h.relayable
  sent := h.sent
  clients := h.clients
  listeners := h.listeners
  countReceived := hreceived
  countBroadcast := hbroadcast

/-- A step that leaves the handler where it stands in `broadcast_frame`. -/
theorem inv_sameCall {camera' : RouterCamera} (h : s.Inv) (hk : s.cameras.lookup k = some camera)
    (hcamera : CameraOk s.admitted k camera') (hcall : camera'.call = camera.call) :
    (s.setCamera k camera').Inv := by
  have hwaiting := waiting_setCamera hk camera'
  have huncounted := uncounted_setCamera hk camera'
  rw [hcall, Nat.add_right_cancel_iff] at hwaiting huncounted
  refine inv_setCamera h hcamera ?_ ?_
  · rw [hwaiting]
    exact h.countReceived
  · rw [huncounted]
    exact h.countBroadcast

/-- A camera's first stream. -/
theorem inv_camera (h : s.Inv) (hnew : s.cameras.lookup k = none) (stream : Bytes) :
    (s.setCamera k ⟨.new stream, .start s.rateLimitConfig, .idle⟩).Inv := by
  have hnone : framesOf k s.admitted = [] := framesOf_of_lookup_none h.known hnew
  have hcount := fun p : RouterCamera → Bool => HashMap.countWhere_insert p s.cameras k
    ⟨.new stream, .start s.rateLimitConfig, .idle⟩
  simp only [HashMap.countAt_of_lookup_none hnew, Nat.add_zero] at hcount
  refine inv_setCamera h { feed := Feed.ok_new stream, part := ?_, dropped := ?_ } ?_ ?_
  · rw [hnone]
    exact List.nil_sublist _
  · rw [hnone]
    rfl
  · rw [waiting, setCamera, hcount]
    exact h.countReceived
  · rw [uncounted, setCamera, hcount]
    exact h.countBroadcast

/-- A frame is dropped, or counted as received. -/
theorem inv_frame (h : s.Inv) (hk : s.cameras.lookup k = some camera) (hidle : camera.call = .idle)
    {feed : Feed} (hrecv : camera.feed.recv = some (frame, feed)) {loop : CameraLoop}
    {checkMs logMs : UInt64} (hloop : camera.loop.step (.frame frame checkMs logMs) = some loop) :
    (if allows camera.loop frame checkMs then s.receiveFrame k frame feed loop
      else s.setCamera k ⟨feed, loop, .idle⟩).Inv := by
  obtain ⟨hfeed, hpart, hdropped⟩ := h.cameras k camera hk
  rw [hidle] at hpart hdropped
  obtain ⟨hfeed, -, hread, -⟩ := hfeed.recv hrecv
  have hcount := framesDropped_of_frame hloop
  have hlength : UInt64.ofNat feed.read.length = UInt64.ofNat camera.feed.read.length + 1 := by
    rw [hread, List.length_append, List.length_singleton, UInt64.ofNat_add]
    rfl
  by_cases hallows : allows camera.loop frame checkMs = true
  · rw [if_pos hallows] at hcount ⊢
    have hwaiting : (s.setCamera k ⟨feed, loop, .received frame⟩).waiting = s.waiting + 1 := by
      have hset := waiting_setCamera hk ⟨feed, loop, .received frame⟩
      rw [hidle] at hset
      exact hset
    have huncounted : (s.setCamera k ⟨feed, loop, .received frame⟩).uncounted = s.uncounted := by
      have hset := uncounted_setCamera hk ⟨feed, loop, .received frame⟩
      rw [hidle] at hset
      exact hset
    refine inv_setCamera h { feed := hfeed, part := ?_, dropped := ?_ } ?_ ?_
    · rw [hread]
      exact ((List.sublist_append_left _ _).trans hpart).append (List.Sublist.refl _)
    · rw [hlength, hdropped]
      simp only [BroadcastCall.waiting, Option.toList_none, Option.toList_some, List.append_nil,
        List.length_append, List.length_singleton, UInt64.ofNat_add, hcount]
      grind
    · rw [h.countReceived, hwaiting, ← Nat.add_assoc, UInt64.ofNat_add (_ + _)]
      rfl
    · rw [huncounted]
      exact h.countBroadcast
  · rw [if_neg hallows] at hcount ⊢
    refine inv_sameCall h hk { feed := hfeed, part := ?_, dropped := ?_ } hidle.symm
    · rw [hread]
      exact hpart.trans (List.sublist_append_left _ _)
    · rw [hlength, hdropped, hcount, UInt64.add_assoc]

theorem CameraOk.relayable {admitted : List (Nat × Frame)} (h : CameraOk admitted k camera)
    (hcall : camera.call = .received frame) : frame.Relayable := by
  have hpart := h.part
  rw [hcall] at hpart
  exact h.feed.relayable frame
    (hpart.subset (List.mem_append_right _ (List.mem_singleton_self _)))

/-- The frame that the handler has in hand is admitted. -/
theorem CameraOk.broadcast {admitted : List (Nat × Frame)} (h : CameraOk admitted k camera)
    (hcall : camera.call = .received frame) {call : BroadcastCall} (hnone : call.waiting = none) :
    CameraOk (admitted ++ [(k, frame)]) k { camera with call } := by
  obtain ⟨hfeed, hpart, hdropped⟩ := h
  rw [hcall] at hpart hdropped
  have hframes := framesOf_concat k k frame admitted
  rw [if_pos rfl] at hframes
  refine { feed := hfeed, part := ?_, dropped := ?_ }
  · rw [hnone, hframes, Option.toList_none, List.append_nil]
    exact hpart
  · rw [hnone, hframes, Option.toList_none, List.append_nil]
    exact hdropped

/-- A frame of another connection is admitted. -/
theorem CameraOk.broadcast_other {admitted : List (Nat × Frame)} {k' : Nat}
    (h : CameraOk admitted k' camera) (hne : k' ≠ k) (frame : Frame) :
    CameraOk (admitted ++ [(k, frame)]) k' camera := by
  have hsame := framesOf_concat k k' frame admitted
  rw [if_neg (Ne.symm hne), List.append_nil] at hsame
  exact ⟨h.feed, hsame ▸ h.part, hsame ▸ h.dropped⟩

/-- The handler's frame waits no longer, and is uncounted if the channel took it. -/
theorem counts_broadcast (hk : s.cameras.lookup k = some camera)
    (hcall : camera.call = .received frame) {call : BroadcastCall} (hnone : call.waiting = none) :
    (s.setCamera k { camera with call }).waiting + 1 = s.waiting ∧
      (s.setCamera k { camera with call }).uncounted =
        s.uncounted + if call.isTaken then 1 else 0 := by
  have hwaiting := waiting_setCamera hk { camera with call }
  have huncounted := uncounted_setCamera hk { camera with call }
  rw [hcall] at hwaiting huncounted
  rw [hnone] at hwaiting
  exact ⟨hwaiting, huncounted⟩

/-- A frame comes to the channel. -/
theorem inv_broadcastFrame (h : s.Inv) (hk : s.cameras.lookup k = some camera)
    (hcall : camera.call = .received frame) : (s.broadcastFrame k camera frame).Inv := by
  have hold := h.cameras k camera hk
  have hnone : (if s.receivers = 0 then BroadcastCall.idle else .taken).waiting = none := by
    split <;> rfl
  obtain ⟨hwaiting, huncounted⟩ := counts_broadcast hk hcall hnone
  exact
    { cameras := HashMap.forall_lookup_insert (hold.broadcast hcall hnone) fun k' camera' hne hk' =>
        (h.cameras k' camera' hk').broadcast_other hne frame
      known := by
        refine List.forall_mem_append.mpr ⟨fun m hm => ?_, List.forall_mem_singleton.mpr ?_⟩
        · exact HashMap.isSome_lookup_insert.mpr (.inr (h.known m hm))
        · exact HashMap.isSome_lookup_insert.mpr (.inl rfl)
      relayable := List.forall_mem_append.mpr
        ⟨h.relayable, List.forall_mem_singleton.mpr (hold.relayable hcall)⟩
      sent := Broadcast.offer_sublist h.sent _ _
      clients := fun c client hc =>
        ⟨(h.clients c client hc).1.offer _ _,
          (h.clients c client hc).2.offer _ fun hzero => ended_of_receivers hzero hc⟩
      listeners := fun i listener hi =>
        (h.listeners i listener hi).offer _ fun hzero => dropped_of_receivers hzero hi
      countReceived := by
        show s.framesReceived = .ofNat ((s.admitted ++ [(k, frame)]).length +
          (s.setCamera k { camera with call := _ }).waiting)
        rw [h.countReceived, ← hwaiting, List.length_append, List.length_singleton,
          Nat.add_right_comm]
        rfl
      countBroadcast := by
        show s.framesBroadcast + .ofNat (s.setCamera k { camera with call := _ }).uncounted =
          .ofNat (s.tx.offer s.receivers (k, frame)).sent.length
        rw [huncounted, Broadcast.offer]
        split
        · exact h.countBroadcast
        · rw [Broadcast.send, List.length_append, List.length_singleton, UInt64.ofNat_add,
            UInt64.ofNat_add, ← UInt64.add_assoc, h.countBroadcast]
          rfl }

/-- A frame is counted as broadcast. -/
theorem inv_count (h : s.Inv) (hk : s.cameras.lookup k = some camera)
    (hcall : camera.call = .taken) :
    ({ s with framesBroadcast := s.framesBroadcast + 1 }.setCamera k
      { camera with call := .idle }).Inv := by
  have hcamera : CameraOk s.admitted k { camera with call := .idle } :=
    (h.cameras k camera hk).of_waiting (hcall ▸ rfl)
  have hwaiting : (s.setCamera k { camera with call := .idle }).waiting = s.waiting := by
    have hset := waiting_setCamera hk { camera with call := .idle }
    rw [hcall] at hset
    exact hset
  have huncounted : (s.setCamera k { camera with call := .idle }).uncounted + 1 =
      s.uncounted := by
    have hset := uncounted_setCamera hk { camera with call := .idle }
    rw [hcall] at hset
    exact hset
  refine inv_setCamera h hcamera ?_ ?_
  · rw [hwaiting]
    exact h.countReceived
  · rw [← h.countBroadcast, ← huncounted, UInt64.ofNat_add, UInt64.add_assoc,
      UInt64.add_comm (.ofNat _)]
    rfl

/-- A step of a camera's loop that drops nothing. -/
theorem inv_loop (h : s.Inv) (hk : s.cameras.lookup k = some camera) {loop : CameraLoop}
    (hloop : loop.limiter.framesDropped = camera.loop.limiter.framesDropped) :
    (s.setCamera k { camera with loop }).Inv := by
  obtain ⟨hfeed, hpart, hdropped⟩ := h.cameras k camera hk
  refine inv_sameCall h hk { feed := hfeed, part := hpart, dropped := ?_ } rfl
  rw [hdropped]
  show _ = _ + loop.limiter.framesDropped
  rw [hloop]

theorem inv_setClient (h : s.Inv) {c : Nat} {client : RouterClient}
    (hforwarder : client.forwarder.Ok s.tx)
    (hsees : client.forwarder.rx.Sees s.tx s.admitted client.since client.forwarder.ended) :
    (s.setClient c client).Inv where
  cameras := h.cameras
  known := h.known
  relayable := h.relayable
  sent := h.sent
  clients := HashMap.forall_lookup_insert ⟨hforwarder, hsees⟩
    fun c' client' _ hc => h.clients c' client' hc
  listeners := h.listeners
  countReceived := h.countReceived
  countBroadcast := h.countBroadcast

theorem inv_setListener (h : s.Inv) {i : Nat} {listener : Listener}
    (hsees : listener.rx.Sees s.tx s.admitted listener.since listener.dropped) :
    (s.setListener i listener).Inv where
  cameras := h.cameras
  known := h.known
  relayable := h.relayable
  sent := h.sent
  clients := h.clients
  listeners := HashMap.forall_lookup_insert hsees
    fun i' listener' _ hi => h.listeners i' listener' hi
  countReceived := h.countReceived
  countBroadcast := h.countBroadcast

/-- A step that a client's forwarder takes keeps the invariant, if it keeps the forwarder in
order, starts where it started, and is not taken once it has ended. -/
theorem inv_onForwarder (h : s.Inv) {c : Nat} {act : Forwarder → Option Forwarder}
    (hstep : s.onForwarder c act = some t)
    (hact : ∀ f f', f.Ok s.tx → act f = some f' →
      f'.Ok s.tx ∧ f.ended = false ∧ f'.rx.start = f.rx.start) : t.Inv := by
  rw [onForwarder] at hstep
  obtain ⟨client, hc, hstep⟩ := Option.bind_eq_some_iff.mp hstep
  split at hstep
  · obtain ⟨f', hf', rfl⟩ := Option.map_eq_some_iff.mp hstep
    obtain ⟨hforwarder, hsees⟩ := h.clients c client hc
    obtain ⟨hok, hlive, hstart⟩ := hact _ f' hforwarder hf'
    rw [hlive] at hsees
    exact inv_setClient h hok (hsees.of_live hok.rx hstart)
  · cases hstep

theorem of_onIdle {act : RouterCamera → Option FrameRouter} (hstep : s.onIdle k act = some t) :
    ∃ camera, s.cameras.lookup k = some camera ∧ camera.call = .idle ∧ act camera = some t := by
  obtain ⟨camera, hk, hstep⟩ := Option.bind_eq_some_iff.mp hstep
  split at hstep
  · next hidle => exact ⟨camera, hk, hidle, hstep⟩
  · cases hstep

/-- Every event keeps the invariant. -/
theorem inv_step {event : RouterEvent} (h : s.Inv) (hstep : s.step event = some t) : t.Inv := by
  cases event with
  | camera k stream =>
    simp only [step] at hstep
    split at hstep
    · next hnew => exact Option.some.inj hstep ▸ inv_camera h hnew stream
    · cases hstep
  | frame k checkMs logMs =>
    obtain ⟨camera, hk, hidle, hstep⟩ := of_onIdle hstep
    obtain ⟨⟨frame, feed⟩, hrecv, hstep⟩ := Option.bind_eq_some_iff.mp hstep
    obtain ⟨loop, hloop, rfl⟩ := Option.map_eq_some_iff.mp hstep
    exact inv_frame h hk hidle hrecv hloop
  | broadcast k =>
    obtain ⟨camera, hk, hstep⟩ := Option.bind_eq_some_iff.mp hstep
    split at hstep
    · next frame hcall => exact Option.some.inj hstep ▸ inv_broadcastFrame h hk hcall
    · cases hstep
  | count k =>
    obtain ⟨camera, hk, hstep⟩ := Option.bind_eq_some_iff.mp hstep
    split at hstep
    · next hcall => exact Option.some.inj hstep ▸ inv_count h hk hcall
    · cases hstep
  | abuseCheck k nowMs =>
    obtain ⟨camera, hk, -, hstep⟩ := of_onIdle hstep
    obtain ⟨loop, hloop, rfl⟩ := Option.map_eq_some_iff.mp hstep
    exact inv_loop h hk (framesDropped_of_tick hloop)
  | finished k =>
    obtain ⟨camera, hk, -, hstep⟩ := of_onIdle hstep
    split at hstep
    · cases hstep
    · obtain ⟨loop, hloop, rfl⟩ := Option.map_eq_some_iff.mp hstep
      exact inv_loop h hk (framesDropped_of_closed hloop)
    · obtain ⟨loop, hloop, rfl⟩ := Option.map_eq_some_iff.mp hstep
      exact inv_loop h hk (framesDropped_of_error hloop)
  | client c =>
    simp only [step] at hstep
    split at hstep
    · exact Option.some.inj hstep ▸
        inv_setClient h (Forwarder.ok_subscribe s.tx) (Subscription.sees_new s.tx s.admitted)
    · cases hstep
  | opened c ok =>
    obtain ⟨client, hc, hstep⟩ := Option.bind_eq_some_iff.mp hstep
    obtain ⟨hforwarder, hsees⟩ := h.clients c client hc
    split at hstep
    · cases hstep
    · next hwaiting =>
      rw [not_or, Bool.not_eq_true, Bool.not_eq_true] at hwaiting
      split at hstep
      · exact Option.some.inj hstep ▸ inv_setClient h hforwarder hsees
      · rw [hwaiting.2] at hsees
        exact Option.some.inj hstep ▸
          inv_setClient h hforwarder.end (hsees.of_live hforwarder.rx rfl)
  | receive c =>
    refine inv_onForwarder h hstep fun f f' hok hf => ?_
    obtain ⟨hok', -, hstart⟩ := hok.receive hf
    exact ⟨hok', Forwarder.live_of_receive hf, hstart⟩
  | sendOk c =>
    refine inv_onForwarder h hstep fun f f' hok hf => ?_
    obtain ⟨hok', -, hrx⟩ := hok.sendOk hf
    exact ⟨hok', Forwarder.live_of_sendOk hf, congrArg Subscription.start hrx⟩
  | sendFails c written =>
    have hstep : s.onForwarder c (Forwarder.sendFails · written) = some t := hstep
    refine inv_onForwarder h hstep fun f f' hok hf => ?_
    obtain ⟨hok', hlive, -, hrx⟩ := hok.sendFails hf
    exact ⟨hok', hlive, congrArg Subscription.start hrx⟩
  | subscribe i =>
    simp only [step] at hstep
    split at hstep
    · exact Option.some.inj hstep ▸ inv_setListener h (Subscription.sees_new s.tx s.admitted)
    · cases hstep
  | listen i =>
    obtain ⟨listener, hi, hstep⟩ := Option.bind_eq_some_iff.mp hstep
    have hsees := h.listeners i listener hi
    split at hstep
    · cases hstep
    · next hlive =>
      rw [Bool.not_eq_true] at hlive
      rw [hlive] at hsees
      obtain ⟨⟨received, rx⟩, hrecv, rfl⟩ := Option.map_eq_some_iff.mp hstep
      obtain ⟨hok, hstart⟩ := hsees.ok.recv hrecv
      exact inv_setListener h (hsees.of_live hok hstart)
  | unsubscribe i =>
    obtain ⟨listener, hi, hstep⟩ := Option.bind_eq_some_iff.mp hstep
    have hsees := h.listeners i listener hi
    split at hstep
    · cases hstep
    · next hlive =>
      rw [Bool.not_eq_true] at hlive
      rw [hlive] at hsees
      exact Option.some.inj hstep ▸ inv_setListener h (hsees.of_live hsees.ok rfl)

theorem always_inv (bufferCapacity : Nat) (rateLimitConfig : RateLimitConfig)
    (events : List RouterEvent) :
    Always step Inv (start bufferCapacity rateLimitConfig) events :=
  always_of_step (inv_start bufferCapacity rateLimitConfig) (fun _ _ _ h hstep => inv_step h hstep)
    events

/-! ## What arrives -/

/-- Frames that were admitted since a subscription, in order; of each camera frames of its stream,
in order; and all of them if none was `missed`. -/
structure Distributed (s : FrameRouter) (since missed : Nat) (got : List (Nat × Frame)) : Prop where
  admitted : got <+ s.admitted.drop since
  all : missed = 0 → got <+: s.admitted.drop since
  cameras : ∀ k camera, s.cameras.lookup k = some camera →
    framesOf k got <+ (FrameReceiver.receiveAll camera.feed.stream).1

theorem distributed_of_isPrefix (h : s.Inv) (hsees : rx.Sees s.tx s.admitted since ended)
    {got : List (Nat × Frame)} (hgot : got <+: rx.got) : s.Distributed since rx.missed got where
  admitted := hgot.sublist.trans hsees.got_sublist
  all hmissed := hgot.trans (hsees.got_prefix hmissed)
  cameras k camera hk := by
    have hcamera := h.cameras k camera hk
    have hadmitted : got <+ s.admitted :=
      (hgot.sublist.trans hsees.got_sublist).trans (List.drop_sublist _ _)
    have hpart := (List.sublist_append_left _ _).trans hcamera.part
    exact ((framesOf_sublist hadmitted k).trans hpart).trans hcamera.feed.read_prefix.sublist

theorem Inv.delivers (h : s.Inv) {c : Nat} {client : RouterClient}
    (hc : s.clients.lookup c = some client) (cut : Nat) :
    ∃ got, FrameReceiver.receiveAll (client.forwarder.stream.take cut) =
        (got.map Prod.snd, .ok ()) ∧
      s.Distributed client.since client.forwarder.rx.missed got := by
  obtain ⟨hforwarder, hsees⟩ := h.clients c client hc
  obtain ⟨got, hreceived, hgot⟩ :=
    hforwarder.arrives (fun m hm => h.relayable m (h.sent.subset hm)) cut
  exact ⟨got, hreceived, distributed_of_isPrefix h hsees hgot⟩

/-- **The router delivers.** In every run, what a client receives, wherever its stream is cut. -/
theorem router_delivers (bufferCapacity : Nat) (rateLimitConfig : RateLimitConfig)
    (events : List RouterEvent) :
    Always step
      (fun s => ∀ c client cut, s.clients.lookup c = some client →
        ∃ got, FrameReceiver.receiveAll (client.forwarder.stream.take cut) =
            (got.map Prod.snd, .ok ()) ∧
          s.Distributed client.since client.forwarder.rx.missed got)
      (start bufferCapacity rateLimitConfig) events :=
  (always_inv bufferCapacity rateLimitConfig events).mono fun _ h _ _ cut hc => h.delivers hc cut

/-- **Other subscribers.** In every run, what they have received and what they were told they
missed. -/
theorem listener_receives (bufferCapacity : Nat) (rateLimitConfig : RateLimitConfig)
    (events : List RouterEvent) :
    Always step
      (fun s => ∀ i listener, s.listeners.lookup i = some listener →
        s.Distributed listener.since listener.rx.missed listener.rx.got ∧
          (s.admitted.drop listener.since).length ≥
            listener.rx.got.length + listener.rx.missed)
      (start bufferCapacity rateLimitConfig) events := by
  refine (always_inv bufferCapacity rateLimitConfig events).mono fun s h i listener hi => ?_
  have hsees := h.listeners i listener hi
  refine ⟨distributed_of_isPrefix h hsees (List.prefix_refl _), ?_⟩
  rw [hsees.ok.count, ← Subscription.length_passed hsees.ok]
  exact hsees.passed.length_le

/-- A receiver that is subscribed, with what there was when it subscribed: what came to the channel
since was taken, so that both counters have grown by the same amount, but for the frames between
two steps of `broadcast_frame`. -/
structure Grown (s : FrameRouter) (since start : Nat) : Prop where
  taken : s.tx.sent.drop start = s.admitted.drop since
  counters : s.framesBroadcast + .ofNat s.uncounted - .ofNat start =
    s.framesReceived - .ofNat s.waiting - .ofNat since

theorem Inv.grown (h : s.Inv) (hsees : rx.Sees s.tx s.admitted since false) :
    s.Grown since rx.start where
  taken := hsees.live rfl
  counters := by
    have hstart := hsees.ok.start_le.trans hsees.ok.next_le
    have hlength := hsees.length_eq
    have hsum : s.tx.sent.length + since = s.admitted.length + rx.start := by
      have := hsees.since_le
      omega
    have hofNat := congrArg UInt64.ofNat hsum
    rw [UInt64.ofNat_add, UInt64.ofNat_add] at hofNat
    rw [h.countBroadcast, h.countReceived, UInt64.ofNat_add]
    grind

/-- What the counters say, modulo 2^64. -/
structure Counts (s : FrameRouter) : Prop where
  cameras : ∀ k camera, s.cameras.lookup k = some camera →
    framesOf k s.admitted ++ camera.call.waiting.toList <+ camera.feed.read ∧
      UInt64.ofNat camera.feed.read.length =
        UInt64.ofNat (framesOf k s.admitted ++ camera.call.waiting.toList).length +
          camera.loop.limiter.framesDropped
  received : s.framesReceived = .ofNat (s.admitted.length + s.waiting)
  broadcast : s.framesBroadcast + .ofNat s.uncounted = .ofNat s.tx.sent.length ∧
    s.tx.sent <+ s.admitted
  clients : ∀ c client, s.clients.lookup c = some client → client.forwarder.ended = false →
    s.Grown client.since client.forwarder.rx.start
  listeners : ∀ i listener, s.listeners.lookup i = some listener → listener.dropped = false →
    s.Grown listener.since listener.rx.start

/-- **The router counts.** In every run. -/
theorem router_counts (bufferCapacity : Nat) (rateLimitConfig : RateLimitConfig)
    (events : List RouterEvent) :
    Always step Counts (start bufferCapacity rateLimitConfig) events :=
  (always_inv bufferCapacity rateLimitConfig events).mono fun _ h =>
    { cameras := fun k camera hk => ⟨(h.cameras k camera hk).part, (h.cameras k camera hk).dropped⟩
      received := h.countReceived
      broadcast := ⟨h.countBroadcast, h.sent⟩
      clients := fun c client hc hlive => h.grown (hlive ▸ (h.clients c client hc).2)
      listeners := fun i listener hi hlive => h.grown (hlive ▸ h.listeners i listener hi) }

end FrameRouter

end Kodama
