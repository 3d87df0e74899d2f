import Kodama.Transport.Hop
import Mathlib.Data.List.Infix

/-!
# Receiving frames to the end of a stream (crates/kodama/src/transport/connection.rs)

`FrameReceiver::recv` tells the end of a stream from an error by the text of the error. The
text is `early eof` wherever the stream ends, so a stream that is cut off inside a frame ends
for the receiver as a stream does that is closed between two (`receiveAll_take`).
-/

namespace Kodama

open Lib

/-- `str::contains`. -/
def textContains (text pattern : String) : Bool := pattern.toList <:+: text.toList

namespace FrameReceiver

/-- The next frame and the unread rest; `none` if the stream is finished. -/
def recv (reader : Bytes) : Result (Option (Frame × Bytes)) :=
  match readFrame reader with
  | .ok r => .ok (some r)
  | .error e =>
    -- check if this is a clean stream close
    if textContains e "end of stream" || textContains e "eof" then .ok none else .error e

theorem recv_eq_some {reader rest : Bytes} {frame : Frame} :
    recv reader = .ok (some (frame, rest)) ↔ readFrame reader = .ok (frame, rest) := by
  unfold recv
  split
  · next r h => simp [h]
  · next e h =>
    rw [h]
    split <;> simp

theorem readFrame_length_lt {reader rest : Bytes} {frame : Frame}
    (h : readFrame reader = .ok (frame, rest)) : rest.length < reader.length := by
  rw [readFrame_exact h, List.length_append, encodeFrame, List.length_append, toBe_length]
  omega

/-- Successive `recv` calls: the frames, and then `ok` for `Ok(None)` or the error. -/
def receiveAll (reader : Bytes) : List Frame × Result Unit :=
  match h : recv reader with
  | .ok (some (frame, rest)) =>
    have := readFrame_length_lt (recv_eq_some.mp h)
    let (frames, last) := receiveAll rest
    (frame :: frames, last)
  | .ok none => ([], .ok ())
  | .error e => ([], .error e)
termination_by reader.length

theorem receiveAll_frame {reader rest : Bytes} {frame : Frame}
    (h : readFrame reader = .ok (frame, rest)) :
    receiveAll reader = (frame :: (receiveAll rest).1, (receiveAll rest).2) := by
  rw [receiveAll]
  split
  · next frame' rest' hrecv =>
    obtain ⟨rfl, rfl⟩ := Prod.mk.inj (Except.ok.inj ((recv_eq_some.mp hrecv).symm.trans h))
    rfl
  · next hrecv =>
    rw [recv_eq_some.mpr h] at hrecv
    cases hrecv
  · next e hrecv =>
    rw [recv_eq_some.mpr h] at hrecv
    cases hrecv

/-- Where the bytes end early, the stream is taken to be finished. -/
theorem receiveAll_eof {reader : Bytes} (h : readFrame reader = .error "early eof") :
    receiveAll reader = ([], .ok ()) := by
  have hrecv : recv reader = .ok none := by
    have heof : textContains "early eof" "eof" = true := by decide +kernel
    unfold recv
    simp only [h, heof, Bool.or_true, if_true]
  rw [receiveAll]
  split
  · next frame rest hsome =>
    rw [hrecv] at hsome
    cases hsome
  · rfl
  · next e herr =>
    rw [hrecv] at herr
    cases herr

end FrameReceiver

open FrameReceiver

/-! ## A stream that is cut -/

/-- A frame as it is read: its channel has been through its wire byte. -/
def Frame.reread (frame : Frame) : Frame :=
  { frame with channel := Channel.ofU8 frame.channel.asU8 }

theorem Frame.reread_eq_iff {frame : Frame} : frame.reread = frame ↔ frame.channel.Canonical := by
  rw [← Channel.ofU8_asU8_iff]
  constructor
  · exact fun h => congrArg Frame.channel h
  · intro h
    rw [reread, h]

/-- A frame small enough for `read_frame`. -/
def Frame.Fits (frame : Frame) : Prop :=
  frameHeaderSize + frame.payload.length ≤ maxFramePayloadSize

instance {frame : Frame} : Decidable frame.Fits :=
  inferInstanceAs (Decidable (frameHeaderSize + frame.payload.length ≤ maxFramePayloadSize))

variable {frame : Frame} {frames : List Frame} {cut : Nat}

theorem readFrame_whole (hfit : frame.Fits) (rest : Bytes) :
    readFrame (encodeFrame frame ++ rest) = .ok (frame.reread, rest) := by
  have hmin : frameHeaderSize ≤ (frameToBytes frame).length := by
    rw [frameToBytes_length]
    exact Nat.le_add_right _ _
  have hmax : (frameToBytes frame).length ≤ maxFramePayloadSize := by
    rw [frameToBytes_length]
    exact hfit
  refine readFrame_eq_ok.mpr ⟨frameToBytes frame, ?_, hmin, hmax, frameFromBytes_frameToBytes frame⟩
  rw [encodeFrame, List.append_assoc]

theorem readExact_short {n : Nat} {s : Bytes} (h : s.length < n) :
    readExact n s = .error "early eof" := by
  rw [readExact, takeExact, if_neg (Nat.not_le.mpr h)]

/-- In the length or in the body, the end of the stream gives the same error. -/
theorem readFrame_cut (hfit : frame.Fits) (hcut : cut < (encodeFrame frame).length) :
    readFrame ((encodeFrame frame).take cut) = .error "early eof" := by
  unfold encodeFrame at hcut ⊢
  rw [List.length_append, toBe_length] at hcut
  by_cases hprefix : cut < 4
  · rw [readFrame, readExact_short]
    · rfl
    · rw [List.length_take]
      omega
  · have htake : (toBe 4 (frameToBytes frame).length ++ frameToBytes frame).take cut =
        toBe 4 (frameToBytes frame).length ++ (frameToBytes frame).take (cut - 4) := by
      rw [List.take_append, toBe_length, List.take_of_length_le]
      rw [toBe_length]
      omega
    have hlen : ofBe (toBe 4 (frameToBytes frame).length) = (frameToBytes frame).length :=
      ofBe_prefix (Nat.le_of_add_left_le hfit)
    have hmax : ¬ (frameToBytes frame).length > maxFramePayloadSize := by
      rw [frameToBytes_length]
      exact Nat.not_lt.mpr hfit
    have hmin : ¬ (frameToBytes frame).length < frameHeaderSize := by
      rw [frameToBytes_length]
      omega
    have hshort : ((frameToBytes frame).take (cut - 4)).length < (frameToBytes frame).length := by
      rw [List.length_take]
      omega
    rw [htake, readFrame, readExact_append _ (toBe_length _ _)]
    simp only [bind, Except.bind, hlen, if_neg hmax, if_neg hmin, readExact_short hshort]

/-- The frames wholly before a cut. -/
def framesBefore : List Frame → Nat → List Frame
  | [], _ => []
  | frame :: frames, cut =>
    if (encodeFrame frame).length ≤ cut then
      frame :: framesBefore frames (cut - (encodeFrame frame).length)
    else []

/-- **What a receiver gets of a cut stream**: the frames wholly before the cut, and then in
every case the end of the stream. -/
theorem receiveAll_take (hfit : ∀ frame ∈ frames, frame.Fits) (cut : Nat) :
    receiveAll ((frames.flatMap encodeFrame).take cut) =
      ((framesBefore frames cut).map Frame.reread, .ok ()) := by
  have hempty : receiveAll [] = ([], .ok ()) := receiveAll_eof rfl
  induction frames generalizing cut with
  | nil =>
    rw [List.flatMap_nil, List.take_nil]
    exact hempty
  | cons frame frames ih =>
    obtain ⟨hframe, hfit⟩ := List.forall_mem_cons.mp hfit
    rw [List.flatMap_cons, framesBefore]
    split
    · next hle =>
      rw [List.take_append, List.take_of_length_le hle, receiveAll_frame (readFrame_whole hframe _),
        ih hfit]
      rfl
    · next hlt =>
      have hlt := Nat.lt_of_not_le hlt
      rw [List.take_append_of_le_length (Nat.le_of_lt hlt)]
      exact receiveAll_eof (readFrame_cut hframe hlt)

/-! ## A stream that breaks off in its last frame -/

/-- What is wholly before a cut comes first. -/
theorem framesBefore_prefix (frames : List Frame) (cut : Nat) :
    framesBefore frames cut <+: frames := by
  induction frames generalizing cut with
  | nil => exact List.prefix_refl _
  | cons frame frames ih =>
    rw [framesBefore]
    split
    · exact List.cons_prefix_cons.mpr ⟨rfl, ih _⟩
    · exact List.nil_prefix

/-- A last frame that is not whole is not before the cut. -/
theorem framesBefore_append_lt {last : Frame}
    (hcut : cut < (frames.flatMap encodeFrame).length + (encodeFrame last).length) :
    framesBefore (frames ++ [last]) cut <+: frames := by
  induction frames generalizing cut with
  | nil =>
    rw [List.flatMap_nil, List.length_nil, Nat.zero_add] at hcut
    rw [List.nil_append, framesBefore, if_neg (Nat.not_le.mpr hcut)]
  | cons frame frames ih =>
    rw [List.flatMap_cons, List.length_append] at hcut
    rw [List.cons_append, framesBefore]
    split
    · exact List.cons_prefix_cons.mpr ⟨rfl, ih (by omega)⟩
    · exact List.nil_prefix

/-- **What a receiver gets of a stream that broke off**: wherever it is cut, the first of the
frames that were sent whole, and then the end of the stream. -/
theorem receiveAll_brokenOff {last : Option Frame} {n : Nat}
    (hfit : ∀ frame ∈ frames ++ last.toList, frame.Fits)
    (hlast : ∀ frame, last = some frame → n < (encodeFrame frame).length) (cut : Nat) :
    ∃ got, got <+: frames ∧
      receiveAll ((frames.flatMap encodeFrame ++ (last.toList.flatMap encodeFrame).take n).take
        cut) = (got.map Frame.reread, .ok ()) := by
  -- the stream is that of all frames, cut in the last one
  have hall : (frames.flatMap encodeFrame ++ (last.toList.flatMap encodeFrame).take n).take cut =
      ((frames ++ last.toList).flatMap encodeFrame).take
        (min cut ((frames.flatMap encodeFrame).length + n)) := by
    rw [List.flatMap_append, ← List.take_take, List.take_length_add_append]
  rw [hall, receiveAll_take hfit]
  refine ⟨_, ?_, rfl⟩
  cases last with
  | none =>
    rw [Option.toList_none, List.append_nil]
    exact framesBefore_prefix _ _
  | some frame =>
    refine framesBefore_append_lt (Nat.lt_of_le_of_lt (Nat.min_le_right _ _) ?_)
    exact Nat.add_lt_add_left (hlast frame rfl) _

/-- A cut between two frames, or at an end. -/
def AtBoundary (frames : List Frame) (cut : Nat) : Prop :=
  ∃ before after, frames = before ++ after ∧ cut = (before.flatMap encodeFrame).length

/-- Of the stream up to the cut, the receiver gets the frames wholly before it, and is told that
the stream is finished if and only if no frame is cut. -/
def TellsTruncation (frames : List Frame) (stream : Bytes) (cut : Nat) : Prop :=
  (receiveAll (stream.take cut)).1 = framesBefore frames cut ∧
    ((receiveAll (stream.take cut)).2 = .ok () ↔ AtBoundary frames cut)

/-- **A receiver tells truncation from a clean close** only where there is none: exactly at the
boundaries of frames (of which those received must have a channel that survives its byte). -/
theorem tellsTruncation_iff {stream : Bytes} (hwrite : writeFrames [] frames = .ok stream)
    (hfit : ∀ frame ∈ frames, frame.Fits) (cut : Nat) : TellsTruncation frames stream cut ↔
      AtBoundary frames cut ∧ ∀ frame ∈ framesBefore frames cut, frame.channel.Canonical := by
  obtain ⟨-, rfl⟩ := writeFrames_eq_ok.mp hwrite
  rw [TellsTruncation, List.nil_append, receiveAll_take hfit]
  have hmap : (framesBefore frames cut).map Frame.reread = framesBefore frames cut ↔
      ∀ frame ∈ framesBefore frames cut, frame.channel.Canonical := by
    have hself := List.map_inj_left (f := Frame.reread) (g := id) (l := framesBefore frames cut)
    rw [List.map_id] at hself
    rw [hself]
    exact forall₂_congr fun frame _ => Frame.reread_eq_iff
  rw [hmap]
  exact ⟨fun h => ⟨h.2.mp rfl, h.1⟩, fun h => ⟨h.2, fun _ => h.1, fun _ => rfl⟩⟩

/-- A stream of two frames. -/
def exampleFrames : List Frame :=
  [.audio ⟨[1, 7, 3, 2, 0, 5, 0, 8], rfl⟩ [1, 2], .audio ⟨[1, 7, 3, 2, 0, 5, 0, 8], rfl⟩ [3]]

/-- Cut behind the first frame, it is a stream that was closed there. -/
theorem tellsTruncation_between : TellsTruncation exampleFrames
    (exampleFrames.flatMap encodeFrame) 24 :=
  (tellsTruncation_iff (writeFrames_eq_ok.mpr ⟨by decide, rfl⟩) (by decide) 24).mpr
    ⟨⟨_, _, (List.take_append_drop 1 exampleFrames).symm, by decide⟩, by decide⟩

/-- Cut inside the first frame, it is finished as well, without a frame and without an error. -/
theorem truncation_untold : ¬ ∀ (frames : List Frame) (stream : Bytes) (cut : Nat),
    writeFrames [] frames = .ok stream → (∀ frame ∈ frames, frame.Fits) →
      (∀ frame ∈ frames, frame.channel.Canonical) → TellsTruncation frames stream cut := by
  intro h
  have htold := (h exampleFrames _ 10 (writeFrames_eq_ok.mpr ⟨by decide, rfl⟩) (by decide)
    (by decide)).2.mp
  rw [List.nil_append, receiveAll_take (by decide)] at htold
  obtain ⟨before, after, hsplit, hcut⟩ := htold rfl
  cases before with
  | nil => cases hcut
  | cons frame before =>
    obtain ⟨rfl, -⟩ := List.cons.inj hsplit
    rw [List.flatMap_cons, List.length_append] at hcut
    have hlen : (encodeFrame (.audio ⟨[1, 7, 3, 2, 0, 5, 0, 8], rfl⟩ [1, 2])).length = 24 := by
      decide
    omega

end Kodama
