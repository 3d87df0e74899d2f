import Kodama.Lib.HashMap
import Kodama.Lib.Subscription
import Kodama.Transport.FrameStream

/-!
# From streams to a broadcast channel, and from there to streams

The two loops that relay.rs and server/router.rs have in common. A `Feed` is a frame stream
that is read frame by frame. A `Forwarder` receives from a broadcast channel and sends each
frame over its own stream, until a send fails; it goes on after a lag.

On the channel each frame carries the number of the connection it came from, which the source
does not keep. What a forwarder's peer receives is part of what was offered to the channel since
the forwarder subscribed, in order, and all of it from there on as long as the forwarder has
missed nothing (`Forwarder.Ok.delivered`).
-/

namespace Kodama

open Lib
open scoped List

/-- A frame that the transport takes and gives back as it is. -/
structure Frame.Relayable (frame : Frame) : Prop where
  fits : frame.Fits
  canonical : frame.channel.Canonical

/-- What was read can be sent on. -/
theorem relayable_of_readFrame {reader rest : Bytes} {frame : Frame}
    (h : readFrame reader = .ok (frame, rest)) : frame.Relayable where
  fits := payload_le_of_readFrame h
  canonical := by
    obtain ⟨body, -, -, -, hframe⟩ := readFrame_eq_ok.mp h
    rw [frameFromBytes] at hframe
    split at hframe
    · cases hframe
    · rw [← Except.ok.inj hframe]
      exact Channel.ofU8_canonical _

/-- The frames of one connection. -/
def framesOf (k : Nat) (frames : List (Nat × Frame)) : List Frame :=
  (frames.filter (·.1 = k)).map Prod.snd

theorem framesOf_concat (k k' : Nat) (frame : Frame) (frames : List (Nat × Frame)) :
    framesOf k' (frames ++ [(k, frame)]) =
      framesOf k' frames ++ if k = k' then [frame] else [] := by
  rw [framesOf, framesOf, List.filter_append, List.map_append]
  by_cases hk : k = k' <;> simp [hk]

/-- There are no frames of a connection whose number is not in use. -/
theorem framesOf_of_lookup_none {ν : Type} {connections : HashMap Nat ν} {k : Nat}
    {frames : List (Nat × Frame)} (hknown : ∀ m ∈ frames, (connections.lookup m.1).isSome)
    (hnone : connections.lookup k = none) : framesOf k frames = [] := by
  rw [framesOf, List.map_eq_nil_iff]
  refine List.filter_eq_nil_iff.mpr fun m hm hk => ?_
  have hsome := hknown m hm
  rw [of_decide_eq_true hk, hnone] at hsome
  cases hsome

theorem framesOf_sublist {frames frames' : List (Nat × Frame)} (h : frames <+ frames') (k : Nat) :
    framesOf k frames <+ framesOf k frames' :=
  (h.filter _).map _

/-! ## Reading -/

/-- A frame stream with what is still to be read of it, and the frames read. -/
structure Feed where
  stream : Bytes
  reader : Bytes
  read : List Frame := []

namespace Feed

def new (stream : Bytes) : Feed := ⟨stream, stream, []⟩

/-- `FrameReceiver::recv`, if it returns a frame. -/
def recv (feed : Feed) : Option (Frame × Feed) :=
  match FrameReceiver.recv feed.reader with
  | .ok (some (frame, reader)) => some (frame, { feed with reader, read := feed.read ++ [frame] })
  | _ => none

/-- What was read and what is still to be read is what the stream holds. -/
structure Ok (feed : Feed) : Prop where
  all : (FrameReceiver.receiveAll feed.stream).1 =
    feed.read ++ (FrameReceiver.receiveAll feed.reader).1
  relayable : ∀ frame ∈ feed.read, frame.Relayable

variable {feed feed' : Feed} {frame : Frame}

theorem ok_new (stream : Bytes) : (new stream).Ok where
  all := rfl
  relayable := nofun

theorem recv_eq_some (h : feed.recv = some (frame, feed')) :
    ∃ reader, readFrame feed.reader = .ok (frame, reader) ∧
      feed' = { feed with reader, read := feed.read ++ [frame] } := by
  rw [recv] at h
  split at h
  · next hrecv =>
    obtain ⟨rfl, rfl⟩ := Prod.mk.inj (Option.some.inj h)
    exact ⟨_, FrameReceiver.recv_eq_some.mp hrecv, rfl⟩
  · cases h

theorem Ok.recv (h : feed.Ok) (hrecv : feed.recv = some (frame, feed')) :
    feed'.Ok ∧ frame.Relayable ∧ feed'.read = feed.read ++ [frame] ∧
      feed'.stream = feed.stream := by
  obtain ⟨reader, hread, rfl⟩ := recv_eq_some hrecv
  have hrelayable := relayable_of_readFrame hread
  refine ⟨{ all := ?_, relayable := ?_ }, hrelayable, rfl, rfl⟩
  · rw [h.all, FrameReceiver.receiveAll_frame hread, List.append_assoc]
    rfl
  · intro other hother
    rcases List.mem_append.mp hother with hother | hother
    · exact h.relayable other hother
    · exact List.mem_singleton.mp hother ▸ hrelayable

/-- What was read is the beginning of what the stream holds. -/
theorem Ok.read_prefix (h : feed.Ok) : feed.read <+: (FrameReceiver.receiveAll feed.stream).1 :=
  h.all ▸ List.prefix_append _ _

end Feed

/-! ## Sending on -/

/-- A receiver of a broadcast channel and the stream it sends to. The frame in its hand is being
sent, or is the one whose send failed. -/
structure Forwarder where
  rx : Subscription (Nat × Frame)
  hand : Option (Nat × Frame) := none
  ended : Bool := false
  stream : Bytes := []
  sent : List (Nat × Frame) := []

namespace Forwarder

def subscribe (tx : Broadcast (Nat × Frame)) : Forwarder where
  rx := .new tx

/-- `rx.recv`: a frame is to be sent, a lag is only logged. -/
def receive (tx : Broadcast (Nat × Frame)) (f : Forwarder) : Option Forwarder :=
  if f.ended ∨ f.hand.isSome then none
  else
    match f.rx.recv tx with
    | some (.message m, rx) => some { f with rx, hand := some m }
    | some (.lagged _, rx) => some { f with rx }
    | none => none

/-- `sender.send` succeeds. -/
def sendOk (f : Forwarder) : Option Forwarder :=
  if f.ended then none
  else
    match f.hand with
    | some m =>
      match writeFrame f.stream m.2 with
      | .ok stream => some { f with stream, hand := none, sent := f.sent ++ [m] }
      | .error _ => none
    | none => none

/-- `sender.send` fails, with part of the frame in the stream. -/
def sendFails (f : Forwarder) (written : Nat) : Option Forwarder :=
  if f.ended then none
  else
    match f.hand with
    | some m =>
      if written < (encodeFrame m.2).length then
        some { f with ended := true, stream := f.stream ++ (encodeFrame m.2).take written }
      else none
    | none => none

/-- The frames a forwarder has received from the channel have been sent, but for the one in its
hand; of that its stream has less than the whole, and nothing before the send has failed. -/
structure Ok (tx : Broadcast (Nat × Frame)) (f : Forwarder) : Prop where
  rx : f.rx.Ok tx
  got : f.rx.got = f.sent ++ f.hand.toList
  stream : ∃ n, f.stream = (f.sent.map Prod.snd).flatMap encodeFrame ++
      (f.hand.toList.flatMap fun m => encodeFrame m.2).take n ∧
    (∀ m, f.hand = some m → n < (encodeFrame m.2).length) ∧ (f.ended = false → n = 0)

variable {tx : Broadcast (Nat × Frame)} {f f' : Forwarder}

theorem ok_subscribe (tx : Broadcast (Nat × Frame)) : (subscribe tx).Ok tx where
  rx := Subscription.ok_new tx
  got := rfl
  stream := ⟨0, rfl, nofun, fun _ => rfl⟩

theorem Ok.send (h : f.Ok tx) (m : Nat × Frame) : f.Ok (tx.send m) where
  rx := h.rx.send m
  got := h.got
  stream := h.stream

theorem Ok.offer (h : f.Ok tx) (receivers : Nat) (m : Nat × Frame) :
    f.Ok (tx.offer receivers m) := by
  rw [Broadcast.offer]
  split
  · exact h
  · exact h.send m

/-- While its sends succeed, the stream of a forwarder holds what it has sent. -/
theorem Ok.stream_eq (h : f.Ok tx) (hended : f.ended = false) :
    f.stream = (f.sent.map Prod.snd).flatMap encodeFrame := by
  obtain ⟨n, hstream, -, hzero⟩ := h.stream
  rw [hzero hended, List.take_zero, List.append_nil] at hstream
  exact hstream

theorem encodeFrame_pos (frame : Frame) : 0 < (encodeFrame frame).length := by
  rw [encodeFrame, List.length_append, toBe_length]
  omega

/-- A forwarder that has ended does nothing. -/
theorem live_of_receive (h : f.receive tx = some f') : f.ended = false := by
  rw [Forwarder.receive] at h
  split at h
  · cases h
  · next hidle => simpa using (not_or.mp hidle).1

theorem live_of_sendOk (h : f.sendOk = some f') : f.ended = false := by
  rw [Forwarder.sendOk] at h
  split at h
  · cases h
  · next hended => simpa using hended

theorem Ok.receive (h : f.Ok tx) (hreceive : f.receive tx = some f') :
    f'.Ok tx ∧ f'.ended = f.ended ∧ f'.rx.start = f.rx.start := by
  rw [Forwarder.receive] at hreceive
  split at hreceive
  · cases hreceive
  · next hidle =>
    rw [not_or, Bool.not_eq_true, Bool.not_eq_true, Option.isSome_eq_false_iff,
      Option.isNone_iff_eq_none] at hidle
    obtain ⟨hended, hhand⟩ := hidle
    have hgot := h.got
    rw [hhand, Option.toList_none, List.append_nil] at hgot
    have hstream := h.stream_eq hended
    split at hreceive
    · next m rx hrecv =>
      obtain rfl := Option.some.inj hreceive
      obtain ⟨next, -, rfl⟩ := Subscription.recv_eq_message hrecv
      refine ⟨{ rx := h.rx.recv_message hrecv, got := ?_, stream := ⟨0, ?_, ?_, fun _ => rfl⟩ },
        rfl, rfl⟩
      · rw [hgot]
        rfl
      · rw [List.take_zero, List.append_nil]
        exact hstream
      · rintro _ ⟨⟩
        exact encodeFrame_pos _
    · next n rx hrecv =>
      obtain rfl := Option.some.inj hreceive
      obtain ⟨next, -, rfl⟩ := Subscription.recv_eq_lagged hrecv
      exact ⟨{ rx := h.rx.recv_lagged hrecv, got := h.got, stream := h.stream }, rfl, rfl⟩
    · cases hreceive

/-- A forwarder that ends before it sends anything. -/
theorem Ok.end (h : f.Ok tx) : ({ f with ended := true } : Forwarder).Ok tx where
  rx := h.rx
  got := h.got
  stream := by
    obtain ⟨n, hstream, hlast, -⟩ := h.stream
    exact ⟨n, hstream, hlast, nofun⟩

theorem Ok.sendOk (h : f.Ok tx) (hsend : f.sendOk = some f') :
    f'.Ok tx ∧ f'.ended = f.ended ∧ f'.rx = f.rx := by
  rw [Forwarder.sendOk] at hsend
  split at hsend
  · cases hsend
  · next hended =>
    rw [Bool.not_eq_true] at hended
    split at hsend
    · next m hhand =>
      split at hsend
      · next stream hwrite =>
        obtain rfl := Option.some.inj hsend
        obtain ⟨-, rfl⟩ := writeFrame_eq_ok.mp hwrite
        refine ⟨{ rx := h.rx, got := ?_, stream := ⟨0, ?_, nofun, fun _ => rfl⟩ }, rfl, rfl⟩
        · have hgot := h.got
          rw [hhand] at hgot
          rw [hgot]
          exact (List.append_nil _).symm
        · rw [List.take_zero, List.append_nil, h.stream_eq hended, List.map_append,
            List.flatMap_append]
          simp
      · cases hsend
    · cases hsend

theorem Ok.sendFails {written : Nat} (h : f.Ok tx) (hsend : f.sendFails written = some f') :
    f'.Ok tx ∧ f.ended = false ∧ f'.ended = true ∧ f'.rx = f.rx := by
  rw [Forwarder.sendFails] at hsend
  split at hsend
  · cases hsend
  · next hended =>
    rw [Bool.not_eq_true] at hended
    split at hsend
    · next m hhand =>
      split at hsend
      · next hwritten =>
        obtain rfl := Option.some.inj hsend
        refine ⟨{ rx := h.rx, got := h.got, stream := ⟨written, ?_, ?_, nofun⟩ }, hended, rfl, rfl⟩
        · rw [h.stream_eq hended, hhand, Option.toList_some, List.flatMap_singleton]
        · intro m' hm'
          obtain rfl := Option.some.inj (hhand.symm.trans hm')
          exact hwritten
      · cases hsend
    · cases hsend

/-- What arrives of a forwarder's stream, wherever it is cut, is the beginning of what the
forwarder has got. -/
theorem Ok.arrives (h : f.Ok tx) (hrelay : ∀ m ∈ tx.sent, m.2.Relayable) (cut : Nat) :
    ∃ got, FrameReceiver.receiveAll (f.stream.take cut) = (got.map Prod.snd, .ok ()) ∧
      got <+: f.rx.got := by
  obtain ⟨n, hstream, hlast, -⟩ := h.stream
  have hmem : ∀ m ∈ f.sent ++ f.hand.toList, m.2.Relayable := fun m hm =>
    hrelay m (List.mem_of_mem_drop (h.rx.got_sublist.subset (h.got ▸ hm)))
  have hfits : ∀ frame ∈ f.sent.map Prod.snd ++ (f.hand.map Prod.snd).toList, frame.Fits := by
    rw [Option.toList_map, ← List.map_append]
    intro frame hframe
    obtain ⟨m, hm, rfl⟩ := List.mem_map.mp hframe
    exact (hmem m hm).fits
  obtain ⟨frames, hframes, hreceived⟩ := receiveAll_brokenOff hfits (n := n) (by
    intro frame hframe
    obtain ⟨m, hm, rfl⟩ := Option.map_eq_some_iff.mp hframe
    exact hlast m hm) cut
  obtain ⟨got, hgot, rfl⟩ := List.prefix_map_iff.mp hframes
  have hreread : (got.map Prod.snd).map Frame.reread = got.map Prod.snd := by
    rw [List.map_map]
    refine List.map_congr_left fun m hm => Frame.reread_eq_iff.mpr ?_
    exact (hmem m (List.mem_append_left _ (hgot.subset hm))).canonical
  refine ⟨got, ?_, h.got ▸ hgot.trans (List.prefix_append _ _)⟩
  rw [hstream, ← hreread, ← hreceived, Option.toList_map]
  simp only [List.flatMap_map]

/-- **What a forwarder's peer receives**, wherever the stream is cut: frames that were offered to
the channel since the forwarder subscribed, in order, each at most once; and without a gap as long
as the forwarder has not lagged. -/
theorem Ok.delivered {offered : List (Nat × Frame)} {since : Nat} (h : f.Ok tx)
    (hsees : f.rx.Sees tx offered since f.ended) (hrelay : ∀ m ∈ tx.sent, m.2.Relayable)
    (cut : Nat) : ∃ got, FrameReceiver.receiveAll (f.stream.take cut) = (got.map Prod.snd, .ok ()) ∧
      got <+ offered.drop since ∧ (f.rx.missed = 0 → got <+: offered.drop since) := by
  obtain ⟨got, hreceived, hgot⟩ := h.arrives hrelay cut
  exact ⟨got, hreceived, hgot.sublist.trans hsees.got_sublist,
    fun hmissed => hgot.trans (hsees.got_prefix hmissed)⟩

end Forwarder

end Kodama
