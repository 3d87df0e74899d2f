import Kodama.Firmware.Camera
import Kodama.Firmware.Relay
import Kodama.Server.FrameRouter

/-!
# From a camera to the clients of a server

A camera's run, a server's run and what joins them: the stream that the server reads on a
connection is the stream of one of the camera's sessions, cut somewhere. The relay is one more
hop: its upstream stream, cut somewhere, is what the server reads on one connection.

- `client_receives_captured`: what a client receives on the connections of a camera are messages
  that the camera captured, in the order of their capture in each session, each message at most
  once over all sessions, with the frame it was captured as.
- `client_receives_relayed`: the same through a relay.

Sessions overlap at the server: an old connection may still be read when the next one is
there, so that nothing is said of the order of two sessions' frames.
-/

namespace Kodama

open Lib Lib.Machine
open scoped List

/-- The messages of a camera that are among some frames, by session: in the order of their
capture, and each at most once. -/
structure Carried (source : SourceId) (cam : Camera) (conn : Nat → Nat)
    (frames : List (Nat × Frame)) (messages : Nat → List (CaptureMessage × Nat)) : Prop where
  frames : ∀ i < cam.sessions.length,
    framesOf (conn i) frames = (messages i).map (Session.frameOf source)
  captured : ((List.range cam.sessions.length).flatMap messages).map Prod.fst <+ cam.captured

/-- The streams that are read on the connections of a camera are those of its sessions, each cut
somewhere. -/
def Joined (cam : Camera) (conn : Nat → Nat) (stream : Nat → Option Bytes) : Prop :=
  ∀ i session, cam.sessions[i]? = some session → ∀ bytes, stream (conn i) = some bytes →
    ∃ cut, bytes = session.stream.take cut

/-- A range of indices is as good as the list. -/
theorem flatMap_range_getElem? {α β : Type} (f : α → List β) (l : List α) :
    ((List.range l.length).flatMap fun i => (l[i]?.map f).getD []) = l.flatMap f := by
  induction l using List.reverseRecOn with
  | nil => rfl
  | append_singleton l a ih =>
    rw [List.length_append, List.length_singleton, List.range_succ, List.flatMap_append,
      List.flatMap_append, List.flatMap_singleton, List.flatMap_singleton, ← ih,
      List.getElem?_concat_length]
    refine congrArg (· ++ _) (List.flatMap_congr fun i hi => ?_)
    rw [List.getElem?_append_left (List.mem_range.mp hi)]

variable {source : SourceId} {cam : Camera} {conn : Nat → Nat} {stream : Nat → Option Bytes}
  {frames : List (Nat × Frame)}

/-- Frames that are part of what was received on the connections of a camera. -/
theorem carried_of_streams (h : cam.Inv source)
    (hfit : ∀ m ∈ cam.captured, frameHeaderSize + m.payload.length ≤ maxFramePayloadSize)
    (hjoined : Joined cam conn stream)
    (hframes : ∀ k, framesOf k frames ≠ [] → ∃ bytes, stream k = some bytes ∧
      framesOf k frames <+ (FrameReceiver.receiveAll bytes).1) :
    ∃ messages, Carried source cam conn frames messages := by
  -- session by session: what was received of it was taken in it
  have hsession : ∀ i, ∃ es : List (CaptureMessage × Nat),
      (i < cam.sessions.length → framesOf (conn i) frames = es.map (Session.frameOf source)) ∧
        es <+ (cam.sessions[i]?.map Session.taken).getD [] := by
    intro i
    by_cases hi : i < cam.sessions.length
    · by_cases hnone : framesOf (conn i) frames = []
      · exact ⟨[], fun _ => hnone, List.nil_sublist _⟩
      · have hget := List.getElem?_eq_getElem hi
        have hmem := List.getElem_mem hi
        obtain ⟨bytes, hbytes, hsub⟩ := hframes (conn i) hnone
        obtain ⟨cut, rfl⟩ := hjoined i _ hget bytes hbytes
        have hfits : ∀ e ∈ cam.sessions[i].taken, Session.Receivable e := by
          intro e he
          refine hfit e.1 (h.taken_captured.subset (List.mem_map_of_mem ?_))
          rw [h.taken]
          exact List.mem_flatMap.mpr ⟨_, hmem, he⟩
        obtain ⟨got, hgot, hreceived⟩ := (h.sessions _ hmem).received hfits cut
        rw [hreceived] at hsub
        obtain ⟨es, hes, heq⟩ := List.sublist_map_iff.mp hsub
        refine ⟨es, fun _ => heq, ?_⟩
        rw [hget]
        exact (hes.trans hgot.sublist).trans (List.sublist_append_left _ _)
    · exact ⟨[], fun hlt => absurd hlt hi, List.nil_sublist _⟩
  choose messages hmessages using hsession
  refine ⟨messages, fun i hi => (hmessages i).1 hi, ?_⟩
  have htaken : (List.range cam.sessions.length).flatMap messages <+ cam.takenMessages := by
    rw [h.taken, ← flatMap_range_getElem? Session.taken]
    exact List.Sublist.flatMap_right _ fun i _ => (hmessages i).2
  exact (htaken.map Prod.fst).trans h.taken_captured

/-- The streams a server reads. -/
def FrameRouter.streamOf (s : FrameRouter) (k : Nat) : Option Bytes :=
  (s.cameras.lookup k).map fun camera => camera.feed.stream

/-- The streams a relay reads. -/
def Relay.streamOf (r : Relay) (k : Nat) : Option Bytes :=
  (r.cameras.lookup k).map fun camera => camera.feed.stream

/-- A frame among some is of a connection that has some. -/
theorem exists_mem_of_framesOf {k : Nat} (h : framesOf k frames ≠ []) : ∃ m ∈ frames, m.1 = k := by
  obtain ⟨frame, hframe⟩ := List.exists_mem_of_ne_nil _ h
  obtain ⟨m, hm, -⟩ := List.mem_map.mp hframe
  obtain ⟨hmem, hk⟩ := List.mem_filter.mp hm
  exact ⟨m, hmem, of_decide_eq_true hk⟩

/-- **From a camera to a client.** Whatever the camera, the server and the transport do, if each
captured message fits a frame that can be read: what the client receives, wherever its stream is
cut, was admitted since it subscribed, and on the connections of the camera it is what the camera
captured. -/
theorem client_receives_captured {cameraEvents : List CameraEvent}
    {routerEvents : List RouterEvent} {bufferCapacity : Nat} {rateLimitConfig : RateLimitConfig}
    {s : FrameRouter} {c : Nat} {client : RouterClient}
    (hcam : run (Camera.step source) {} cameraEvents = some cam)
    (hfit : ∀ m ∈ cam.captured, frameHeaderSize + m.payload.length ≤ maxFramePayloadSize)
    (hs : run FrameRouter.step (.start bufferCapacity rateLimitConfig) routerEvents = some s)
    (hjoined : Joined cam conn s.streamOf) (hc : s.clients.lookup c = some client) (cut : Nat) :
    ∃ got messages, FrameReceiver.receiveAll (client.forwarder.stream.take cut) =
        (got.map Prod.snd, .ok ()) ∧
      got <+ s.admitted.drop client.since ∧ Carried source cam conn got messages := by
  have hinv := (FrameRouter.always_inv bufferCapacity rateLimitConfig routerEvents).final hs
  obtain ⟨got, hreceived, hgot⟩ := hinv.delivers hc cut
  have hcarried : ∃ messages, Carried source cam conn got messages := by
    refine carried_of_streams ((Camera.always_inv source cameraEvents).final hcam) hfit hjoined
      fun k hk => ?_
    obtain ⟨m, hm, rfl⟩ := exists_mem_of_framesOf hk
    obtain ⟨camera, hcamera⟩ :=
      Option.isSome_iff_exists.mp (hinv.known m (List.mem_of_mem_drop (hgot.admitted.subset hm)))
    refine ⟨camera.feed.stream, ?_, hgot.cameras m.1 camera hcamera⟩
    rw [FrameRouter.streamOf, hcamera]
    rfl
  obtain ⟨messages, hmessages⟩ := hcarried
  exact ⟨got, messages, hreceived, hgot.admitted, hmessages⟩

def cameraSource : SourceId := ⟨[5, 7, 7, 2, 1, 5, 6, 6], rfl⟩

/-- A camera with two sessions, of which the first is lost in the middle of its third frame. -/
def interruptedCamera : List CameraEvent :=
  [.turn true, .connect true, .capture (.telemetry [9]), .elapse 3, .take, .sendOk,
    .capture (.audio [1, 2]), .take, .sendOk, .capture (.audio [3]), .take, .sendFails 10,
    .elapse 1_000_000, .pauseOver, .turn true, .connect true, .capture (.telemetry [7]), .take,
    .sendOk]

def streamCarrying (messages : List (CaptureMessage × Nat)) : Bytes :=
  (messages.map (Session.frameOf cameraSource)).flatMap encodeFrame

/-- What comes of the first session's stream, and of the second's. -/
def firstStream : Bytes := streamCarrying [(.telemetry [9], 3), (.audio [1, 2], 3)]

def secondStream : Bytes := streamCarrying [(.telemetry [7], 1_000_003)]

theorem interruptedCamera_sent : ∃ cam,
    run (Camera.step cameraSource) {} interruptedCamera = some cam ∧
    cam.captured = [.telemetry [9], .audio [1, 2], .audio [3], .telemetry [7]] ∧
    cam.sessions.map Session.stream =
      [firstStream ++ (streamCarrying [(.audio [3], 3)]).take 10, secondStream] := by
  have hcamera : (run (Camera.step cameraSource) {} interruptedCamera).map
      (fun cam => (cam.captured, cam.sessions.map Session.stream)) =
        some ([.telemetry [9], .audio [1, 2], .audio [3], .telemetry [7]],
          [firstStream ++ (streamCarrying [(.audio [3], 3)]).take 10, secondStream]) := by
    decide +kernel
  obtain ⟨cam, hcam, hcamera⟩ := Option.map_eq_some_iff.mp hcamera
  obtain ⟨hcaptured, hsessions⟩ := Prod.mk.inj hcamera
  exact ⟨cam, hcam, hcaptured, hsessions⟩

/-- What is joined when each connection brings the beginning of its session's stream. -/
theorem joined_of_prefixes {streams : List Bytes}
    (hsessions : cam.sessions.map Session.stream = streams)
    (hread : ∀ (i : Nat) sent bytes, streams[i]? = some sent → stream i = some bytes →
      bytes <+: sent) : Joined cam id stream := by
  intro i session hget bytes hbytes
  have hsent : streams[i]? = some session.stream := by
    rw [← hsessions, List.getElem?_map, hget]
    rfl
  exact ⟨bytes.length, List.prefix_iff_eq_take.mp (hread i _ _ hsent hbytes)⟩

theorem interruptedCamera_joined {lost : Bytes}
    (hsessions : cam.sessions.map Session.stream = [firstStream ++ lost, secondStream])
    (hfirst : stream 0 = some firstStream) (hsecond : stream 1 = some secondStream) :
    Joined cam id stream := by
  refine joined_of_prefixes hsessions fun i sent bytes hsent hbytes => ?_
  rcases i with _ | _ | i
  · obtain rfl := Option.some.inj (hfirst.symm.trans hbytes)
    exact Option.some.inj hsent ▸ List.prefix_append _ _
  · obtain rfl := Option.some.inj (hsecond.symm.trans hbytes)
    exact Option.some.inj hsent ▸ List.prefix_refl _
  · cases hsent

/-- A server that reads both streams at a time, with a client. -/
def bothStreams : List RouterEvent :=
  [.client 0, .opened 0 true, .camera 0 firstStream, .camera 1 secondStream, .frame 0 1000 1000,
    .frame 1 1000 1000, .broadcast 1, .broadcast 0, .count 0, .frame 0 1001 1001, .count 1,
    .broadcast 0, .receive 0, .sendOk 0, .receive 0, .sendOk 0, .receive 0, .sendOk 0, .count 0]

/-- The client receives three frames, those of the first session around that of the second. -/
theorem bothStreams_received : ∃ cam s client,
    run (Camera.step cameraSource) {} interruptedCamera = some cam ∧
      run FrameRouter.step (.start 8 .default) bothStreams = some s ∧
      s.clients.lookup 0 = some client ∧
      ∃ got messages, FrameReceiver.receiveAll (client.forwarder.stream.take 1000) =
          (got.map Prod.snd, .ok ()) ∧ got.length = 3 ∧
        got <+ s.admitted.drop client.since ∧ Carried cameraSource cam id got messages := by
  have hrouter : (run FrameRouter.step (.start 8 .default) bothStreams).map
      (fun s => (s.streamOf 0, s.streamOf 1, (s.clients.lookup 0).map fun client =>
        (FrameReceiver.receiveAll (client.forwarder.stream.take 1000)).1.length)) =
          some (some firstStream, some secondStream, some 3) := by
    decide +kernel
  obtain ⟨cam, hcam, hcaptured, hsessions⟩ := interruptedCamera_sent
  obtain ⟨s, hs, hrouter⟩ := Option.map_eq_some_iff.mp hrouter
  obtain ⟨hfirst, hrouter⟩ := Prod.mk.inj hrouter
  obtain ⟨hsecond, hclient⟩ := Prod.mk.inj hrouter
  obtain ⟨client, hclient, hthree⟩ := Option.map_eq_some_iff.mp hclient
  obtain ⟨got, messages, hreceived, hadmitted, hcarried⟩ :=
    client_receives_captured hcam (by rw [hcaptured]; decide) hs
      (interruptedCamera_joined hsessions hfirst hsecond) hclient 1000
  rw [hreceived, List.length_map] at hthree
  exact ⟨cam, s, client, hcam, hs, hclient, got, messages, hreceived, hthree, hadmitted, hcarried⟩

/-- **Through a relay.** The server reads the relay's upstream stream, cut somewhere, on the
connection `up`, and the relay reads the streams of the camera, whose messages fit frames that can
be read: what the client receives on that connection are frames that came to the relay's channel
since its upstream subscription, and those of the camera's connections are what the camera
captured. -/
theorem client_receives_relayed {cameraEvents : List CameraEvent} {relayEvents : List RelayEvent}
    {routerEvents : List RouterEvent} {relayCapacity bufferCapacity : Nat}
    {rateLimitConfig : RateLimitConfig} {r : Relay} {x : RelayOutlet} {f : Forwarder}
    {s : FrameRouter} {up upCut c : Nat} {client : RouterClient}
    (hcam : run (Camera.step source) {} cameraEvents = some cam)
    (hfit : ∀ m ∈ cam.captured, frameHeaderSize + m.payload.length ≤ maxFramePayloadSize)
    (hr : run Relay.step (.start relayCapacity true) relayEvents = some r)
    (hjoined : Joined cam conn r.streamOf) (hx : r.outlets.lookup .upstream = some x)
    (hf : x.forwarder = some f)
    (hs : run FrameRouter.step (.start bufferCapacity rateLimitConfig) routerEvents = some s)
    (hup : ∀ bytes, s.streamOf up = some bytes → bytes = f.stream.take upCut)
    (hc : s.clients.lookup c = some client) (cut : Nat) :
    ∃ got relayed messages, FrameReceiver.receiveAll (client.forwarder.stream.take cut) =
        (got.map Prod.snd, .ok ()) ∧
      framesOf up got = relayed.map Prod.snd ∧ relayed <+ r.forwarded.drop x.since ∧
      Carried source cam conn relayed messages := by
  have hrouter := (FrameRouter.always_inv bufferCapacity rateLimitConfig routerEvents).final hs
  have hrelay := (Relay.always_inv relayCapacity true relayEvents).final hr
  obtain ⟨got, hreceived, hgot⟩ := hrouter.delivers hc cut
  obtain ⟨sent, hsent, hsentsub, -, hsentof⟩ := hrelay.delivers hx hf upCut
  -- what the client has of the connection is part of what arrived at the server
  have hrelayed : ∃ relayed, framesOf up got = relayed.map Prod.snd ∧ relayed <+ sent := by
    by_cases hnone : framesOf up got = []
    · exact ⟨[], hnone, List.nil_sublist _⟩
    · obtain ⟨m, hm, rfl⟩ := exists_mem_of_framesOf hnone
      obtain ⟨camera, hcamera⟩ := Option.isSome_iff_exists.mp
        (hrouter.known m (List.mem_of_mem_drop (hgot.admitted.subset hm)))
      have hstream : s.streamOf m.1 = some camera.feed.stream := by
        rw [FrameRouter.streamOf, hcamera]
        rfl
      have hsub := hgot.cameras m.1 camera hcamera
      rw [hup _ hstream, hsent] at hsub
      obtain ⟨relayed, hrelayed, heq⟩ := List.sublist_map_iff.mp hsub
      exact ⟨relayed, heq, hrelayed⟩
  obtain ⟨relayed, heq, hsub⟩ := hrelayed
  have hcarried : ∃ messages, Carried source cam conn relayed messages := by
    refine carried_of_streams ((Camera.always_inv source cameraEvents).final hcam) hfit hjoined
      fun k hk => ?_
    obtain ⟨m, hm, rfl⟩ := exists_mem_of_framesOf hk
    obtain ⟨camera, hcamera⟩ := Option.isSome_iff_exists.mp
      (hrelay.known m (List.mem_of_mem_drop (hsentsub.subset (hsub.subset hm))))
    refine ⟨camera.feed.stream, ?_, (framesOf_sublist hsub m.1).trans (hsentof m.1 camera hcamera)⟩
    rw [Relay.streamOf, hcamera]
    rfl
  obtain ⟨messages, hmessages⟩ := hcarried
  exact ⟨got, relayed, messages, hreceived, heq, hsub.trans hsentsub, hmessages⟩

/-- A relay that reads both streams and sends them on. -/
def bothRelayed : List RelayEvent :=
  [.opened .upstream true, .camera 0 firstStream, .frame 0, .camera 1 secondStream, .frame 1,
    .send 0, .send 1, .frame 0, .receive .upstream, .sendOk .upstream, .send 0, .receive .upstream,
    .sendOk .upstream, .receive .upstream, .sendOk .upstream]

/-- What it sends upstream. -/
def relayedStream : Bytes :=
  streamCarrying [(.telemetry [9], 3), (.telemetry [7], 1_000_003), (.audio [1, 2], 3)]

/-- The server that reads it. -/
def relayedRead : List RouterEvent :=
  [.client 0, .opened 0 true, .camera 7 relayedStream, .frame 7 1000 1000, .broadcast 7,
    .receive 0, .count 7, .sendOk 0, .frame 7 1001 1001, .broadcast 7, .receive 0, .sendOk 0,
    .count 7, .frame 7 1002 1002, .broadcast 7, .receive 0, .sendOk 0, .count 7]

theorem bothRelayed_received : ∃ cam r x s client,
    run (Camera.step cameraSource) {} interruptedCamera = some cam ∧
      run Relay.step (.start 8 true) bothRelayed = some r ∧
      r.outlets.lookup .upstream = some x ∧
      run FrameRouter.step (.start 8 .default) relayedRead = some s ∧
      s.clients.lookup 0 = some client ∧
      ∃ got relayed messages, FrameReceiver.receiveAll (client.forwarder.stream.take 1000) =
          (got.map Prod.snd, .ok ()) ∧ got.length = 3 ∧
        framesOf 7 got = relayed.map Prod.snd ∧ relayed <+ r.forwarded.drop x.since ∧
        Carried cameraSource cam id relayed messages := by
  have hrelay : (run Relay.step (.start 8 true) bothRelayed).map (fun r => (r.streamOf 0,
      r.streamOf 1,
      (r.outlets.lookup .upstream).bind fun x => x.forwarder.map Forwarder.stream)) =
        some (some firstStream, some secondStream, some relayedStream) := by
    decide +kernel
  have hrouter : (run FrameRouter.step (.start 8 .default) relayedRead).map
      (fun s => (s.streamOf 7, (s.clients.lookup 0).map fun client =>
        (FrameReceiver.receiveAll (client.forwarder.stream.take 1000)).1.length)) =
          some (some relayedStream, some 3) := by
    decide +kernel
  obtain ⟨cam, hcam, hcaptured, hsessions⟩ := interruptedCamera_sent
  obtain ⟨r, hr, hrelay⟩ := Option.map_eq_some_iff.mp hrelay
  obtain ⟨hfirst, hrelay⟩ := Prod.mk.inj hrelay
  obtain ⟨hsecond, hout⟩ := Prod.mk.inj hrelay
  obtain ⟨x, hx, hout⟩ := Option.bind_eq_some_iff.mp hout
  obtain ⟨f, hf, hsent⟩ := Option.map_eq_some_iff.mp hout
  obtain ⟨s, hs, hrouter⟩ := Option.map_eq_some_iff.mp hrouter
  obtain ⟨hstream, hclient⟩ := Prod.mk.inj hrouter
  obtain ⟨client, hclient, hthree⟩ := Option.map_eq_some_iff.mp hclient
  have hup : ∀ bytes, s.streamOf 7 = some bytes → bytes = f.stream.take f.stream.length := by
    intro bytes hbytes
    rw [List.take_length, hsent]
    exact Option.some.inj (hbytes.symm.trans hstream)
  obtain ⟨got, relayed, messages, hreceived, hrelayed⟩ :=
    client_receives_relayed hcam (by rw [hcaptured]; decide) hr
      (interruptedCamera_joined hsessions hfirst hsecond) hx hf hs hup hclient 1000
  rw [hreceived, List.length_map] at hthree
  exact ⟨cam, r, x, s, client, hcam, hr, hx, hs, hclient, got, relayed, messages, hreceived,
    hthree, hrelayed⟩

end Kodama
