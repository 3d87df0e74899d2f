import Kodama.Lib.HashMap
import Kodama.Lib.Machine
import Kodama.Transport.Forwarder

/-!
# Relay mode (apps/kodama-firmware/src/relay.rs)

The relay forwards the frames of all cameras to all clients, and to an upstream server if one
is configured. Cameras, clients and the upstream connection are tasks of their own, which meet
in one broadcast channel; any of them may take the next step, also between the count of a frame
and its send. A frame that is sent while nobody is subscribed is gone.

- `relay_delivers`: what a client or the upstream server receives are frames of the cameras'
  streams, those of one camera in the order of its stream, each at most once, and nothing is
  left out from the subscription on as long as the forwarder has not lagged.
- `relay_counts`: the statistics count the cameras that are being read, the clients that are
  being served and the frames that were read from the cameras.

A camera's stream is what the transport delivers of it. The relay has no limit on rates and
keeps no frame. The upstream connection subscribes before it is established. `forwarded` records
the frames in the order in which they came to the channel.
-/

namespace Kodama

open Lib Lib.Machine
open scoped List

/-- Where frames go. -/
inductive Outlet where
  | upstream
  | client (c : Nat)
deriving DecidableEq

/-- A camera's stream, the frame that is counted and not sent yet, and whether the handler has
left its loop. -/
structure RelayCamera where
  feed : Feed
  hand : Option Frame := none
  done : Bool := false

/-- Where the task of an outlet stands. `since` is the number of frames that had been forwarded
when it subscribed. -/
inductive RelayOutlet where
  /-- A client's stream is being opened. -/
  | opening
  /-- The upstream connection is being established. -/
  | connecting (since : Nat) (f : Forwarder)
  | forwarding (since : Nat) (f : Forwarder)
  | failed

namespace RelayOutlet

def forwarder : RelayOutlet → Option Forwarder
  | connecting _ f | forwarding _ f => some f
  | opening | failed => none

def since : RelayOutlet → Nat
  | connecting since _ | forwarding since _ => since
  | opening | failed => 0

/-- The task still runs. -/
def running : RelayOutlet → Bool
  | opening | connecting _ _ => true
  | forwarding _ f => !f.ended
  | failed => false

/-- The task's receiver is subscribed. -/
def subscribed : RelayOutlet → Bool
  | connecting _ f | forwarding _ f => !f.ended
  | opening | failed => false

theorem subscribed_eq {x : RelayOutlet} {f : Forwarder} (h : x.forwarder = some f) :
    x.subscribed = !f.ended := by
  cases x with
  | connecting since f' | forwarding since f' =>
    obtain rfl := Option.some.inj h
    rfl
  | opening | failed => cases h

end RelayOutlet

structure RelayStats where
  cameras : UInt64 := 0
  clients : UInt64 := 0
  framesForwarded : UInt64 := 0

structure Relay where
  tx : Broadcast (Nat × Frame)
  cameras : HashMap Nat RelayCamera := ∅
  outlets : HashMap Outlet RelayOutlet := ∅
  stats : RelayStats := {}
  forwarded : List (Nat × Frame) := []

/-- What can happen. -/
inductive RelayEvent where
  /-- A connection that opens a frame stream. -/
  | camera (k : Nat) (stream : Bytes)
  /-- A camera's handler receives a frame and counts it. -/
  | frame (k : Nat)
  /-- The frame is sent on the channel. -/
  | send (k : Nat)
  /-- A camera's stream is finished, or fails. -/
  | finished (k : Nat)
  /-- A connection that opens no stream within the timeout. -/
  | client (c : Nat)
  | opened (outlet : Outlet) (ok : Bool)
  | receive (outlet : Outlet)
  | sendOk (outlet : Outlet)
  | sendFails (outlet : Outlet) (written : Nat)

namespace Relay

/-- The relay as it starts. -/
def start (bufferCapacity : Nat) (upstream : Bool) : Relay :=
  let tx : Broadcast (Nat × Frame) := .channel bufferCapacity
  if upstream then
    { tx, outlets := (∅ : HashMap Outlet RelayOutlet).insert .upstream
        (.connecting 0 (.subscribe tx)) }
  else { tx }

/-- Receivers of the channel. -/
def receivers (s : Relay) : Nat := HashMap.countWhere RelayOutlet.subscribed s.outlets

def setCamera (s : Relay) (k : Nat) (camera : RelayCamera) : Relay :=
  { s with cameras := s.cameras.insert k camera }

def setOutlet (s : Relay) (outlet : Outlet) (value : RelayOutlet) : Relay :=
  { s with outlets := s.outlets.insert outlet value }

/-- The task of an outlet is over. -/
def close (s : Relay) (outlet : Outlet) (value : RelayOutlet) : Relay :=
  match outlet with
  | .upstream => s.setOutlet outlet value
  | .client _ =>
    { s with stats := { s.stats with clients := s.stats.clients - 1 } }.setOutlet outlet value

/-- A frame comes to the channel, which does not take it without a receiver. -/
def forward (s : Relay) (k : Nat) (camera : RelayCamera) (frame : Frame) : Relay :=
  { s with
    tx := s.tx.offer s.receivers (k, frame)
    forwarded := s.forwarded ++ [(k, frame)] }.setCamera k { camera with hand := none }

/-- A step of an outlet's task that its forwarder takes. -/
def onForwarder (s : Relay) (outlet : Outlet) (act : Forwarder → Option Forwarder) :
    Option Relay :=
  match s.outlets.lookup outlet with
  | some (.forwarding since f) =>
    (act f).map fun f => s.setOutlet outlet (.forwarding since f)
  | _ => none

/-- One event. -/
def step (s : Relay) : RelayEvent → Option Relay
  | .camera k stream =>
    if s.cameras.lookup k = none then
      some ({ s with stats := { s.stats with cameras := s.stats.cameras + 1 } }.setCamera k
        { feed := .new stream })
    else none
  | .frame k =>
    (s.cameras.lookup k).bind fun camera =>
      if camera.done ∨ camera.hand.isSome then none
      else camera.feed.recv.map fun (frame, feed) =>
        { s with
          stats := { s.stats with
            framesForwarded := s.stats.framesForwarded + 1 } }.setCamera k
              { feed, hand := some frame }
  | .send k =>
    (s.cameras.lookup k).bind fun camera =>
      camera.hand.map fun frame => s.forward k camera frame
  | .finished k =>
    (s.cameras.lookup k).bind fun camera =>
      if camera.done ∨ camera.hand.isSome ∨ camera.feed.recv.isSome then none
      else some ({ s with stats := { s.stats with cameras := s.stats.cameras - 1 } }.setCamera k
        { camera with done := true })
  | .client c =>
    if s.outlets.lookup (.client c) = none then
      some ({ s with stats := { s.stats with clients := s.stats.clients + 1 } }.setOutlet
        (.client c) .opening)
    else none
  | .opened outlet ok =>
    match s.outlets.lookup outlet with
    | some .opening =>
      some (if ok then
          s.setOutlet outlet (.forwarding s.forwarded.length (.subscribe s.tx))
        else s.close outlet .failed)
    | some (.connecting since f) =>
      some (if ok then s.setOutlet outlet (.forwarding since f) else s.close outlet .failed)
    | _ => none
  | .receive outlet => s.onForwarder outlet (Forwarder.receive s.tx)
  | .sendOk outlet => s.onForwarder outlet Forwarder.sendOk
  | .sendFails outlet written =>
    match s.outlets.lookup outlet with
    | some (.forwarding since f) =>
      (f.sendFails written).map fun f => s.close outlet (.forwarding since f)
    | _ => none

/-! ## The invariant -/

/-- What was forwarded of a camera is what its handler has read, but for the frame in its hand. -/
structure CameraOk (forwarded : List (Nat × Frame)) (k : Nat) (camera : RelayCamera) : Prop where
  feed : camera.feed.Ok
  read : camera.feed.read = framesOf k forwarded ++ camera.hand.toList

/-- An outlet's forwarder is as forwarders are and sees what is forwarded, and has not ended before
its first send. -/
structure OutletOk (tx : Broadcast (Nat × Frame)) (forwarded : List (Nat × Frame))
    (x : RelayOutlet) : Prop where
  forwarder : ∀ f, x.forwarder = some f → f.Ok tx ∧ f.rx.Sees tx forwarded x.since f.ended
  connecting : ∀ since f, x = .connecting since f → f.ended = false

/-- What an outlet adds to the number of clients. -/
def served : Outlet → RelayOutlet → Nat
  | .upstream, _ => 0
  | .client _, x => if x.running then 1 else 0

/-- Handlers of cameras with a frame that is counted and not sent yet. -/
def inHand (s : Relay) : Nat := HashMap.countWhere (fun camera => camera.hand.isSome) s.cameras

structure Inv (s : Relay) : Prop where
  cameras : ∀ k camera, s.cameras.lookup k = some camera → CameraOk s.forwarded k camera
  known : ∀ m ∈ s.forwarded, (s.cameras.lookup m.1).isSome
  relayable : ∀ m ∈ s.forwarded, m.2.Relayable
  sent : s.tx.sent <+ s.forwarded
  outlets : ∀ outlet x, s.outlets.lookup outlet = some x → OutletOk s.tx s.forwarded x
  countCameras :
    s.stats.cameras = .ofNat (HashMap.countWhere (fun camera => !camera.done) s.cameras)
  countClients : s.stats.clients = .ofNat (HashMap.sumOver served s.outlets)
  countFrames : s.stats.framesForwarded = .ofNat (s.forwarded.length + s.inHand)

variable {s t : Relay} {k : Nat} {outlet : Outlet} {x : RelayOutlet} {f : Forwarder} {since : Nat}

theorem OutletOk.of_forwarder {tx : Broadcast (Nat × Frame)} {forwarded : List (Nat × Frame)}
    (hok : f.Ok tx) (hsees : f.rx.Sees tx forwarded since f.ended) :
    OutletOk tx forwarded (.forwarding since f) where
  forwarder := by
    rintro _ ⟨⟩
    exact ⟨hok, hsees⟩
  connecting := nofun

theorem OutletOk.of_none {tx : Broadcast (Nat × Frame)} {forwarded : List (Nat × Frame)}
    (h : x.forwarder = none) : OutletOk tx forwarded x where
  forwarder f hf := absurd (h.symm.trans hf) (by simp)
  connecting := by
    rintro since f rfl
    cases h

theorem inv_start (bufferCapacity : Nat) (upstream : Bool) :
    (start bufferCapacity upstream).Inv := by
  cases upstream with
  | false =>
    exact
      { cameras := fun _ _ h => absurd ((AList.lookup_empty _).symm.trans h) (by simp)
        known := nofun
        relayable := nofun
        sent := List.Sublist.refl _
        outlets := fun _ _ h => absurd ((AList.lookup_empty _).symm.trans h) (by simp)
        countCameras := rfl
        countClients := rfl
        countFrames := rfl }
  | true =>
    refine
      { cameras := fun _ _ h => absurd ((AList.lookup_empty _).symm.trans h) (by simp)
        known := nofun
        relayable := nofun
        sent := List.Sublist.refl _
        outlets := HashMap.forall_lookup_insert ?_
          fun _ _ _ h => absurd ((AList.lookup_empty _).symm.trans h) (by simp)
        countCameras := rfl
        countClients := rfl
        countFrames := rfl }
    refine ⟨?_, ?_⟩
    · rintro _ ⟨⟩
      exact ⟨Forwarder.ok_subscribe _, Subscription.sees_new _ _⟩
    · rintro _ _ ⟨⟩
      rfl

/-! ### Cameras -/

/-- A step of a camera's handler that does not come to the channel. -/
theorem inv_setCamera (h : s.Inv) {camera : RelayCamera} (hcamera : CameraOk s.forwarded k camera)
    {cameras framesForwarded : UInt64}
    (hcameras : cameras =
      .ofNat (HashMap.countWhere (fun camera => !camera.done) (s.setCamera k camera).cameras))
    (hframes : framesForwarded = .ofNat (s.forwarded.length + (s.setCamera k camera).inHand)) :
    ({ s with stats := { s.stats with cameras, framesForwarded } }.setCamera k camera).Inv where
  cameras := HashMap.forall_lookup_insert hcamera fun k' camera' _ hk => h.cameras k' camera' hk
  known m hm := HashMap.isSome_lookup_insert.mpr (.inr (h.known m hm))
  relayable := h.relayable
  sent := h.sent
  outlets := h.outlets
  countCameras := hcameras
  countClients := h.countClients
  countFrames := hframes

theorem inv_camera (h : s.Inv) (hnew : s.cameras.lookup k = none) (stream : Bytes) :
    ({ s with stats := { s.stats with cameras := s.stats.cameras + 1 } }.setCamera k
      { feed := .new stream }).Inv := by
  have hnone : framesOf k s.forwarded = [] := framesOf_of_lookup_none h.known hnew
  have hcount := fun p : RelayCamera → Bool => HashMap.countWhere_insert p s.cameras k
    { feed := .new stream }
  simp only [HashMap.countAt_of_lookup_none hnew, Nat.add_zero] at hcount
  refine inv_setCamera h { feed := Feed.ok_new stream, read := ?_ } ?_ ?_
  · rw [hnone]
    rfl
  · rw [setCamera, hcount, UInt64.ofNat_add, h.countCameras]
    rfl
  · rw [inHand, setCamera, hcount]
    exact h.countFrames

/-- A frame is received and counted. -/
theorem inv_frame (h : s.Inv) {camera : RelayCamera} (hk : s.cameras.lookup k = some camera)
    (hdone : camera.done = false) (hhand : camera.hand = none) {frame : Frame} {feed : Feed}
    (hrecv : camera.feed.recv = some (frame, feed)) :
    ({ s with
      stats := { s.stats with framesForwarded := s.stats.framesForwarded + 1 } }.setCamera k
        { feed, hand := some frame }).Inv := by
  have hold := h.cameras k camera hk
  obtain ⟨hfeed, -, hread, -⟩ := hold.feed.recv hrecv
  have hcount := fun p : RelayCamera → Bool => HashMap.countWhere_insert p s.cameras k
    { feed, hand := some frame }
  simp only [HashMap.countAt_of_lookup hk] at hcount
  refine inv_setCamera h { feed := hfeed, read := ?_ } ?_ ?_
  · rw [hread, hold.read, hhand, Option.toList_none, List.append_nil]
    rfl
  · have hsame := hcount fun camera => !camera.done
    rw [hdone] at hsame
    rw [setCamera, Nat.add_right_cancel hsame]
    exact h.countCameras
  · have hone := hcount fun camera => camera.hand.isSome
    rw [hhand] at hone
    have hone : (s.setCamera k { feed, hand := some frame }).inHand = s.inHand + 1 := hone
    rw [hone, h.countFrames, ← Nat.add_assoc, UInt64.ofNat_add (_ + _)]
    rfl

theorem inv_finished (h : s.Inv) {camera : RelayCamera} (hk : s.cameras.lookup k = some camera)
    (hdone : camera.done = false) :
    ({ s with stats := { s.stats with cameras := s.stats.cameras - 1 } }.setCamera k
      { camera with done := true }).Inv := by
  have hold := h.cameras k camera hk
  have hcount := fun p : RelayCamera → Bool => HashMap.countWhere_insert p s.cameras k
    { camera with done := true }
  simp only [HashMap.countAt_of_lookup hk] at hcount
  have hok : CameraOk s.forwarded k { camera with done := true } := ⟨hold.feed, hold.read⟩
  refine inv_setCamera h hok ?_ ?_
  · have hone := hcount fun camera => !camera.done
    rw [hdone] at hone
    have hone : HashMap.countWhere (fun camera => !camera.done)
        (s.setCamera k { camera with done := true }).cameras + 1 =
          HashMap.countWhere (fun camera => !camera.done) s.cameras := hone
    rw [h.countCameras, ← hone, UInt64.ofNat_add]
    exact UInt64.add_sub_cancel _ _
  · rw [inHand, setCamera, Nat.add_right_cancel (hcount fun camera => camera.hand.isSome)]
    exact h.countFrames

/-- While nobody is subscribed, every forwarder there was has ended. -/
theorem ended_of_receivers (hnone : s.receivers = 0) (hx : s.outlets.lookup outlet = some x)
    (hf : x.forwarder = some f) : f.ended = true := by
  have hended := HashMap.eq_false_of_countWhere_eq_zero hnone hx
  rwa [RelayOutlet.subscribed_eq hf, Bool.not_eq_false'] at hended

/-- A frame comes to the channel. -/
theorem inv_forward (h : s.Inv) {camera : RelayCamera} (hk : s.cameras.lookup k = some camera)
    {frame : Frame} (hhand : camera.hand = some frame) : (s.forward k camera frame).Inv := by
  have hold := h.cameras k camera hk
  have hread := hold.read
  rw [hhand] at hread
  have hrelayable : frame.Relayable :=
    hold.feed.relayable frame (hread ▸ List.mem_append_right _ (List.mem_singleton_self _))
  have hcount := fun p : RelayCamera → Bool => HashMap.countWhere_insert p s.cameras k
    { camera with hand := none }
  simp only [HashMap.countAt_of_lookup hk] at hcount
  exact
    { cameras := by
        refine HashMap.forall_lookup_insert ⟨hold.feed, ?_⟩ fun k' camera' hne hk' => ?_
        · show camera.feed.read = framesOf k (s.forwarded ++ [(k, frame)]) ++ []
          rw [hread, framesOf_concat, if_pos rfl, List.append_nil]
          rfl
        · have hother := h.cameras k' camera' hk'
          refine ⟨hother.feed, ?_⟩
          show _ = framesOf k' (s.forwarded ++ [(k, frame)]) ++ _
          rw [hother.read, framesOf_concat, if_neg (Ne.symm hne), List.append_nil]
      known := by
        refine List.forall_mem_append.mpr ⟨fun m hm => ?_, List.forall_mem_singleton.mpr ?_⟩
        · exact HashMap.isSome_lookup_insert.mpr (.inr (h.known m hm))
        · exact HashMap.isSome_lookup_insert.mpr (.inl rfl)
      relayable :=
        List.forall_mem_append.mpr ⟨h.relayable, List.forall_mem_singleton.mpr hrelayable⟩
      sent := Broadcast.offer_sublist h.sent _ _
      outlets := fun outlet x hx =>
        { forwarder := fun f hf =>
            ⟨((h.outlets outlet x hx).forwarder f hf).1.offer _ _,
              ((h.outlets outlet x hx).forwarder f hf).2.offer _
                fun hzero => ended_of_receivers hzero hx hf⟩
          connecting := (h.outlets outlet x hx).connecting }
      countCameras := by
        show s.stats.cameras = .ofNat (HashMap.countWhere _ (s.cameras.insert k _))
        rw [Nat.add_right_cancel (hcount fun camera => !camera.done)]
        exact h.countCameras
      countClients := h.countClients
      countFrames := by
        have hone := hcount fun camera => camera.hand.isSome
        rw [hhand] at hone
        have hone : (s.setCamera k { camera with hand := none }).inHand + 1 = s.inHand := hone
        show s.stats.framesForwarded = .ofNat ((s.forwarded ++ [(k, frame)]).length +
          (s.setCamera k { camera with hand := none }).inHand)
        rw [h.countFrames, ← hone, List.length_append, List.length_singleton, Nat.add_right_comm]
        rfl }

/-! ### Outlets -/

/-- A new state of an outlet, with the number of clients that goes with it. -/
theorem inv_setOutlet (h : s.Inv) (hx : OutletOk s.tx s.forwarded x) {clients : UInt64}
    (hclients : clients + .ofNat (HashMap.sumAt served s.outlets outlet) =
      s.stats.clients + .ofNat (served outlet x)) :
    ({ s with stats := { s.stats with clients } }.setOutlet outlet x).Inv where
  cameras := h.cameras
  known := h.known
  relayable := h.relayable
  sent := h.sent
  outlets := HashMap.forall_lookup_insert hx fun o x _ ho => h.outlets o x ho
  countCameras := h.countCameras
  countClients := by
    have hsum := congrArg UInt64.ofNat (HashMap.sumOver_insert served s.outlets outlet x)
    show clients = .ofNat (HashMap.sumOver served (s.outlets.insert outlet x))
    rw [UInt64.ofNat_add, UInt64.ofNat_add] at hsum
    rw [h.countClients] at hclients
    grind
  countFrames := h.countFrames

/-- A task that goes on. -/
theorem inv_continue (h : s.Inv) {before : RelayOutlet}
    (hbefore : s.outlets.lookup outlet = some before) (hx : OutletOk s.tx s.forwarded x)
    (hrunning : x.running = before.running) : (s.setOutlet outlet x).Inv := by
  refine inv_setOutlet h hx ?_
  rw [HashMap.sumAt_of_lookup hbefore]
  cases outlet with
  | upstream => rfl
  | client c => rw [served, served, hrunning]

/-- A task that is over. -/
theorem inv_close (h : s.Inv) {before : RelayOutlet}
    (hbefore : s.outlets.lookup outlet = some before) (hx : OutletOk s.tx s.forwarded x)
    (hrunning : before.running = true) (hover : x.running = false) : (s.close outlet x).Inv := by
  have hsum := HashMap.sumAt_of_lookup (g := served) hbefore
  cases outlet with
  | upstream => exact inv_setOutlet h hx (by rw [hsum]; rfl)
  | client c =>
    refine inv_setOutlet h hx ?_
    rw [hsum, served, served, hrunning, hover]
    exact (UInt64.sub_add_cancel _ _).trans (UInt64.add_zero _).symm

theorem inv_client (h : s.Inv) {c : Nat} (hnew : s.outlets.lookup (.client c) = none) :
    ({ s with stats := { s.stats with clients := s.stats.clients + 1 } }.setOutlet (.client c)
      .opening).Inv := by
  refine inv_setOutlet h (.of_none rfl) ?_
  rw [HashMap.sumAt_of_lookup_none hnew]
  exact UInt64.add_zero _

/-- A stream is opened, or not. -/
theorem inv_opened (h : s.Inv) {ok : Bool} (hstep : s.step (.opened outlet ok) = some t) :
    t.Inv := by
  simp only [step] at hstep
  split at hstep
  · next hopening =>
    obtain rfl := Option.some.inj hstep
    cases ok with
    | true =>
      exact inv_continue h hopening
        (.of_forwarder (Forwarder.ok_subscribe _) (Subscription.sees_new _ _)) rfl
    | false => exact inv_close h hopening (.of_none rfl) rfl rfl
  · next since f hconnecting =>
    obtain rfl := Option.some.inj hstep
    have hold := h.outlets outlet _ hconnecting
    cases ok with
    | true =>
      obtain ⟨hok, hsees⟩ := hold.forwarder f rfl
      refine inv_continue h hconnecting (.of_forwarder hok hsees) ?_
      show (!f.ended) = true
      rw [hold.connecting since f rfl]
      rfl
    | false => exact inv_close h hconnecting (.of_none rfl) rfl rfl
  · cases hstep

/-- A step that an outlet's forwarder takes keeps the invariant, if it keeps the forwarder in
order, and it goes on. -/
theorem inv_onForwarder (h : s.Inv) {act : Forwarder → Option Forwarder}
    (hstep : s.onForwarder outlet act = some t)
    (hact : ∀ f f', f.Ok s.tx → act f = some f' →
      f'.Ok s.tx ∧ f.ended = false ∧ f'.ended = f.ended ∧ f'.rx.start = f.rx.start) : t.Inv := by
  rw [onForwarder] at hstep
  split at hstep
  · next since f hforwarding =>
    obtain ⟨f', hf', rfl⟩ := Option.map_eq_some_iff.mp hstep
    obtain ⟨hok, hsees⟩ := (h.outlets outlet _ hforwarding).forwarder f rfl
    obtain ⟨hok', hlive, hended, hstart⟩ := hact f f' hok hf'
    rw [hlive] at hsees
    exact inv_continue h hforwarding (.of_forwarder hok' (hsees.of_live hok'.rx hstart))
      (congrArg (! ·) hended)
  · cases hstep

/-- Every event keeps the invariant. -/
theorem inv_step {event : RelayEvent} (h : s.Inv) (hstep : s.step event = some t) : t.Inv := by
  cases event with
  | camera k stream =>
    simp only [step] at hstep
    split at hstep
    · next hnew =>
      obtain rfl := Option.some.inj hstep
      exact inv_camera h hnew stream
    · cases hstep
  | frame k =>
    obtain ⟨camera, hk, hstep⟩ := Option.bind_eq_some_iff.mp hstep
    split at hstep
    · cases hstep
    · next hidle =>
      obtain ⟨⟨frame, feed⟩, hrecv, rfl⟩ := Option.map_eq_some_iff.mp hstep
      rw [not_or, Bool.not_eq_true, Bool.not_eq_true, Option.isSome_eq_false_iff,
        Option.isNone_iff_eq_none] at hidle
      exact inv_frame h hk hidle.1 hidle.2 hrecv
  | send k =>
    obtain ⟨camera, hk, hstep⟩ := Option.bind_eq_some_iff.mp hstep
    obtain ⟨frame, hhand, rfl⟩ := Option.map_eq_some_iff.mp hstep
    exact inv_forward h hk hhand
  | finished k =>
    obtain ⟨camera, hk, hstep⟩ := Option.bind_eq_some_iff.mp hstep
    split at hstep
    · cases hstep
    · next hover =>
      obtain rfl := Option.some.inj hstep
      rw [not_or, Bool.not_eq_true] at hover
      exact inv_finished h hk hover.1
  | client c =>
    simp only [step] at hstep
    split at hstep
    · next hnew =>
      obtain rfl := Option.some.inj hstep
      exact inv_client h hnew
    · cases hstep
  | opened outlet ok => exact inv_opened h hstep
  | receive outlet =>
    refine inv_onForwarder h hstep fun f f' hok hf => ?_
    obtain ⟨hok', hended, hstart⟩ := hok.receive hf
    exact ⟨hok', Forwarder.live_of_receive hf, hended, hstart⟩
  | sendOk outlet =>
    refine inv_onForwarder h hstep fun f f' hok hf => ?_
    obtain ⟨hok', hended, hrx⟩ := hok.sendOk hf
    exact ⟨hok', Forwarder.live_of_sendOk hf, hended, congrArg Subscription.start hrx⟩
  | sendFails outlet written =>
    simp only [step] at hstep
    split at hstep
    · next since f hforwarding =>
      obtain ⟨f', hsend, rfl⟩ := Option.map_eq_some_iff.mp hstep
      obtain ⟨hold, hsees⟩ := (h.outlets outlet _ hforwarding).forwarder f rfl
      obtain ⟨hok, hlive, hended, hrx⟩ := hold.sendFails hsend
      rw [hlive] at hsees
      refine inv_close h hforwarding
        (.of_forwarder hok (hsees.of_live hok.rx (congrArg Subscription.start hrx))) ?_ ?_
      · rw [RelayOutlet.running, hlive]
        rfl
      · rw [RelayOutlet.running, hended]
        rfl
    · cases hstep

theorem always_inv (bufferCapacity : Nat) (upstream : Bool) (events : List RelayEvent) :
    Always step Inv (start bufferCapacity upstream) events :=
  always_of_step (inv_start bufferCapacity upstream) (fun _ _ _ h hstep => inv_step h hstep) events

/-! ## What arrives -/

/-- What arrives at an outlet whose stream is cut: frames that were forwarded since it subscribed,
in order, without a gap if it has not lagged; and of each camera frames of its stream, in order. -/
def Delivers (s : Relay) (since : Nat) (f : Forwarder) (cut : Nat) : Prop :=
  ∃ got : List (Nat × Frame),
    FrameReceiver.receiveAll (f.stream.take cut) = (got.map Prod.snd, .ok ()) ∧
    got <+ s.forwarded.drop since ∧
    (f.rx.missed = 0 → got <+: s.forwarded.drop since) ∧
    ∀ k camera, s.cameras.lookup k = some camera →
      framesOf k got <+ (FrameReceiver.receiveAll camera.feed.stream).1

theorem Inv.delivers (h : s.Inv) (hx : s.outlets.lookup outlet = some x)
    (hf : x.forwarder = some f) (cut : Nat) : s.Delivers x.since f cut := by
  obtain ⟨hok, hsees⟩ := (h.outlets outlet x hx).forwarder f hf
  obtain ⟨got, hreceived, hgot, hall⟩ :=
    hok.delivered hsees (fun m hm => h.relayable m (h.sent.subset hm)) cut
  refine ⟨got, hreceived, hgot, hall, fun k camera hk => ?_⟩
  have hcamera := h.cameras k camera hk
  have hsub : framesOf k got <+ camera.feed.read := by
    rw [hcamera.read]
    exact (framesOf_sublist (hgot.trans (List.drop_sublist _ _)) k).trans
      (List.sublist_append_left _ _)
  exact hsub.trans hcamera.feed.read_prefix.sublist

/-- **The relay delivers.** In every run, for every client and the upstream server, wherever its
stream is cut. -/
theorem relay_delivers (bufferCapacity : Nat) (upstream : Bool) (events : List RelayEvent) :
    Always step
      (fun s => ∀ outlet x f cut, s.outlets.lookup outlet = some x → x.forwarder = some f →
        s.Delivers x.since f cut) (start bufferCapacity upstream) events :=
  (always_inv bufferCapacity upstream events).mono fun _ h _ _ _ cut hx hf => h.delivers hx hf cut

/-- What the statistics say, modulo 2^64: `frames_forwarded` counts the frames that came to the
channel and those that handlers have in hand, which are the frames read from the cameras. The
channel takes them as long as anyone is subscribed. -/
structure Counts (s : Relay) : Prop where
  cameras : s.stats.cameras = .ofNat (HashMap.countWhere (fun camera => !camera.done) s.cameras)
  clients : s.stats.clients = .ofNat (HashMap.sumOver served s.outlets)
  framesForwarded : s.stats.framesForwarded = .ofNat (s.forwarded.length + s.inHand)
  read : ∀ k camera, s.cameras.lookup k = some camera →
    camera.feed.read = framesOf k s.forwarded ++ camera.hand.toList
  taken : s.tx.sent <+ s.forwarded
  subscribed : ∀ outlet x f, s.outlets.lookup outlet = some x → x.forwarder = some f →
    f.ended = false → s.tx.sent.drop f.rx.start = s.forwarded.drop x.since

/-- **The relay counts.** In every run. -/
theorem relay_counts (bufferCapacity : Nat) (upstream : Bool) (events : List RelayEvent) :
    Always step Counts (start bufferCapacity upstream) events :=
  (always_inv bufferCapacity upstream events).mono fun _ h =>
    { cameras := h.countCameras
      clients := h.countClients
      framesForwarded := h.countFrames
      read := fun k camera hk => (h.cameras k camera hk).read
      taken := h.sent
      subscribed := fun outlet x f hx hf hlive =>
        ((h.outlets outlet x hx).forwarder f hf).2.live hlive }

end Relay

end Kodama
