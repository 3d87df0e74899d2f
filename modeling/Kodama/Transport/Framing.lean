import Kodama.Core.Frame

/-!
# Wire format for frames (transport/mux/frame.rs)

A frame travels as a big-endian `u32` length followed by its 18-byte header and its
payload. The two sides bound different quantities by the same constant: `writeFrame`
bounds the payload, `readFrame` the length prefix, which also counts the header. A payload
in the last 18 bytes below the limit is therefore written and never read back.

- `frameFromBytes_frameToBytes`: the header codec loses nothing on canonical channels.
- `readFrame_encodeFrame`, `readFrame_encodeFrame_tooLarge`: what one read does on the
  output of one write, on either side of the reader's limit.
- `readFrames_writeFrames_iff`: a written stream reads back as the same list, every byte
  consumed, exactly when every payload leaves room for the header.
-/

namespace Kodama

open Lib

/-! ## The codec of one frame -/

/-- Serialize a frame to bytes (header + payload). -/
def frameToBytes (frame : Frame) : Bytes :=
  frame.source.bytes ++
    frame.channel.asU8 :: frame.flags.bits :: (toBe 8 frame.timestampUs.toNat ++ frame.payload)

/-- Deserialize a frame from bytes. -/
def frameFromBytes (buf : Bytes) : Result Frame :=
  if h : buf.length < frameHeaderSize then
    .error s!"Buffer too small for frame header: {buf.length} < {frameHeaderSize}"
  else .ok
    { source := ⟨buf.take 8, by
        have : ¬ buf.length < 18 := h
        rw [List.length_take]
        omega⟩
      channel := Channel.ofU8 (buf.getD 8 0)
      flags := ⟨buf.getD 9 0⟩
      timestampUs := UInt64.ofNat (ofBe ((buf.drop 10).take 8))
      payload := buf.drop frameHeaderSize }

theorem frameToBytes_length (frame : Frame) :
    (frameToBytes frame).length = frameHeaderSize + frame.payload.length := by
  rw [frameToBytes, List.length_append, frame.source.length_eq, List.length_cons,
    List.length_cons, List.length_append, toBe_length, frameHeaderSize]
  omega

/-- The header codec loses nothing but a non-canonical channel. -/
theorem frameFromBytes_frameToBytes (frame : Frame) :
    frameFromBytes (frameToBytes frame) =
      .ok { frame with channel := Channel.ofU8 frame.channel.asU8 } := by
  have hlen : ¬ (frameToBytes frame).length < frameHeaderSize := by
    rw [frameToBytes_length]
    omega
  obtain ⟨⟨src, hsrc⟩, channel, ⟨bits⟩, ts, payload⟩ := frame
  -- the fields behind the source id start at byte 8
  have hdrop : ∀ n, (frameToBytes ⟨⟨src, hsrc⟩, channel, ⟨bits⟩, ts, payload⟩).drop (8 + n)
      = (channel.asU8 :: bits :: (toBe 8 ts.toNat ++ payload)).drop n := by
    intro n
    rw [frameToBytes, ← List.drop_drop, List.drop_left' hsrc]
  have h8 := congrArg (·.head?) (hdrop 0)
  have h9 := congrArg (·.head?) (hdrop 1)
  simp only [List.head?_drop, List.drop_zero, List.head?_cons, Nat.add_zero,
    List.drop_succ_cons] at h8 h9
  rw [frameFromBytes, dif_neg hlen]
  have htime : ((frameToBytes ⟨⟨src, hsrc⟩, channel, ⟨bits⟩, ts, payload⟩).drop 10).take 8
      = toBe 8 ts.toNat := by
    rw [hdrop 2]
    show (toBe 8 ts.toNat ++ payload).take 8 = _
    exact List.take_left' (toBe_length _ _)
  have hpay : (frameToBytes ⟨⟨src, hsrc⟩, channel, ⟨bits⟩, ts, payload⟩).drop frameHeaderSize
      = payload := by
    show List.drop (8 + 10) _ = _
    rw [hdrop 10]
    show (toBe 8 ts.toNat ++ payload).drop 8 = _
    exact List.drop_left' (toBe_length _ _)
  have hsource : (frameToBytes ⟨⟨src, hsrc⟩, channel, ⟨bits⟩, ts, payload⟩).take 8 = src :=
    List.take_left' hsrc
  simp only [hsource, htime, hpay, ofNat_ofBe_toBe, List.getD_eq_getElem?_getD, h8, h9,
    Option.getD_some]

theorem frameFromBytes_frameToBytes_canonical {frame : Frame} (h : frame.channel.Canonical) :
    frameFromBytes (frameToBytes frame) = .ok frame := by
  rw [frameFromBytes_frameToBytes, Channel.ofU8_asU8_iff.mpr h]

/-! ## Framing -/

/-- `AsyncReadExt::read_exact` on the bytes a stream still delivers. -/
def readExact (n : Nat) (reader : Bytes) : Result (Bytes × Bytes) :=
  match takeExact n reader with
  | some r => .ok r
  | none => .error "early eof"

theorem readExact_append {n : Nat} {xs : Bytes} (rest : Bytes) (h : xs.length = n) :
    readExact n (xs ++ rest) = .ok (xs, rest) := by
  rw [readExact, takeExact_append rest h]

/-- Write a frame to a writer (prepends the length prefix). -/
def writeFrame (writer : Bytes) (frame : Frame) : Result Bytes :=
  if frame.payload.length > maxFramePayloadSize then
    .error s!"Frame payload too large: {frame.payload.length} > {maxFramePayloadSize}"
  else
    let bytes := frameToBytes frame
    .ok (writer ++ toBe 4 bytes.length ++ bytes)

/-- Read a frame from a reader (expects the length prefix); also the unread rest. -/
def readFrame (reader : Bytes) : Result (Frame × Bytes) := do
  let (lenBytes, reader) ← readExact 4 reader
  let len := ofBe lenBytes
  if len > maxFramePayloadSize then
    throw s!"Frame length exceeds maximum: {len} > {maxFramePayloadSize}"
  if len < frameHeaderSize then
    throw s!"Frame length too small for header: {len} < {frameHeaderSize}"
  let (buf, reader) ← readExact len reader
  let frame ← frameFromBytes buf
  return (frame, reader)

/-- Successive `write_frame` calls on one writer. -/
def writeFrames (writer : Bytes) (frames : List Frame) : Result Bytes :=
  frames.foldlM writeFrame writer

/-- `n` successive `read_frame` calls on one reader; also the unread rest. -/
def readFrames (n : Nat) (reader : Bytes) : Result (List Frame × Bytes) :=
  decodeMany readFrame n reader

/-- What `write_frame` puts on the wire for a frame it accepts. -/
def encodeFrame (frame : Frame) : Bytes :=
  toBe 4 (frameToBytes frame).length ++ frameToBytes frame

theorem writeFrame_eq_ok {writer out : Bytes} {frame : Frame} :
    writeFrame writer frame = .ok out ↔
      frame.payload.length ≤ maxFramePayloadSize ∧ out = writer ++ encodeFrame frame := by
  rw [writeFrame, encodeFrame]
  split
  · next h =>
    constructor
    · intro hc
      cases hc
    · intro hc
      exact absurd hc.1 (Nat.not_le.mpr h)
  · next h =>
    rw [Except.ok.injEq, List.append_assoc]
    exact ⟨fun hout => ⟨Nat.not_lt.mp h, hout.symm⟩, fun hout => hout.2.symm⟩

/-- A writer accepts a list of frames exactly when no payload exceeds the limit. -/
theorem writeFrames_eq_ok {frames : List Frame} {writer out : Bytes} :
    writeFrames writer frames = .ok out ↔
      (∀ f ∈ frames, f.payload.length ≤ maxFramePayloadSize) ∧
        out = writer ++ frames.flatMap encodeFrame := by
  induction frames generalizing writer with
  | nil =>
    show Except.ok writer = Except.ok out ↔ _
    simp [eq_comm]
  | cons f frames ih =>
    have hcons : writeFrames writer (f :: frames) =
        (writeFrame writer f).bind fun w => writeFrames w frames := by
      rw [writeFrames, List.foldlM_cons]
      rfl
    rw [hcons, List.forall_mem_cons, List.flatMap_cons]
    cases hf : writeFrame writer f with
    | error e =>
      -- the writer only rejects a payload over the limit
      have hlarge : ¬ f.payload.length ≤ maxFramePayloadSize := by
        intro hle
        have hok : writeFrame writer f = .ok (writer ++ encodeFrame f) :=
          writeFrame_eq_ok.mpr ⟨hle, rfl⟩
        rw [hf] at hok
        cases hok
      constructor
      · intro hc
        cases hc
      · intro hc
        exact absurd hc.1.1 hlarge
    | ok w =>
      obtain ⟨hle, rfl⟩ := writeFrame_eq_ok.mp hf
      show writeFrames _ frames = .ok out ↔ _
      rw [ih, List.append_assoc]
      exact ⟨fun h => ⟨⟨hle, h.1⟩, h.2⟩, fun h => ⟨h.1.2, h.2⟩⟩

/-- The length prefix of a frame the writer accepted reads back as its length. -/
theorem ofBe_prefix {frame : Frame} (h : frame.payload.length ≤ maxFramePayloadSize) :
    ofBe (toBe 4 (frameToBytes frame).length) = (frameToBytes frame).length := by
  apply ofBe_toBe_of_lt
  rw [frameToBytes_length]
  calc frameHeaderSize + frame.payload.length
      ≤ frameHeaderSize + maxFramePayloadSize := Nat.add_le_add_left h _
    _ < 256 ^ 4 := by decide

/-- One read undoes one write when the header fits under the reader's limit too. -/
theorem readFrame_encodeFrame {frame : Frame} (hcan : frame.channel.Canonical)
    (h : frameHeaderSize + frame.payload.length ≤ maxFramePayloadSize) (rest : Bytes) :
    readFrame (encodeFrame frame ++ rest) = .ok (frame, rest) := by
  have hlen : ofBe (toBe 4 (frameToBytes frame).length) = (frameToBytes frame).length :=
    ofBe_prefix (by omega)
  have hmax : ¬ (frameToBytes frame).length > maxFramePayloadSize := by
    rw [frameToBytes_length]
    omega
  have hmin : ¬ (frameToBytes frame).length < frameHeaderSize := by
    rw [frameToBytes_length]
    omega
  rw [encodeFrame, List.append_assoc, readFrame, readExact_append _ (toBe_length _ _)]
  simp only [bind, Except.bind, hlen, if_neg hmax, if_neg hmin, readExact_append _ rfl,
    frameFromBytes_frameToBytes_canonical hcan, pure, Except.pure]

/-- A payload within 18 bytes of the limit is written, and the reader then refuses it. -/
theorem readFrame_encodeFrame_tooLarge {frame : Frame}
    (hw : frame.payload.length ≤ maxFramePayloadSize)
    (h : maxFramePayloadSize < frameHeaderSize + frame.payload.length) (rest : Bytes) :
    readFrame (encodeFrame frame ++ rest) =
      .error s!"Frame length exceeds maximum: {frameHeaderSize + frame.payload.length} > {maxFramePayloadSize}" := by
  have hlen := ofBe_prefix hw
  rw [encodeFrame, List.append_assoc, readFrame, readExact_append _ (toBe_length _ _)]
  rw [frameToBytes_length] at hlen
  simp only [bind, Except.bind, frameToBytes_length, hlen, if_pos h, throw, throwThe,
    MonadExceptOf.throw]

/-! ## Streams -/

/-- A stream of accepted frames reads back as the same list with no byte left, exactly
when every payload leaves room for the header under the limit. -/
theorem readFrames_writeFrames_iff (frames : List Frame) {stream : Bytes}
    (hcan : ∀ f ∈ frames, f.channel.Canonical) (hw : writeFrames [] frames = .ok stream) :
    readFrames frames.length stream = .ok (frames, []) ↔
      ∀ f ∈ frames, f.payload.length ≤ maxFramePayloadSize - frameHeaderSize := by
  obtain ⟨hacc, rfl⟩ := writeFrames_eq_ok.mp hw
  rw [List.nil_append, readFrames]
  constructor
  · clear hw
    induction frames with
    | nil =>
      intro _ f hf
      cases hf
    | cons f frames ih =>
      intro hread
      rw [List.flatMap_cons, List.length_cons] at hread
      obtain ⟨a, mid, as, hone, hrest, heq⟩ := decodeMany_succ_eq_ok.mp hread
      obtain ⟨rfl, rfl⟩ := List.cons.inj heq
      have hf := hacc f List.mem_cons_self
      -- the reader refuses a frame that does not fit with its header
      have hfit : frameHeaderSize + f.payload.length ≤ maxFramePayloadSize := by
        by_contra hlarge
        rw [readFrame_encodeFrame_tooLarge hf (Nat.not_le.mp hlarge)] at hone
        cases hone
      rw [readFrame_encodeFrame (hcan f List.mem_cons_self) hfit] at hone
      obtain ⟨-, rfl⟩ := Prod.mk.inj (Except.ok.inj hone)
      refine List.forall_mem_cons.mpr ⟨Nat.le_sub_of_add_le' hfit, ?_⟩
      exact ih (fun g hg => hcan g (List.mem_cons_of_mem _ hg))
        (fun g hg => hacc g (List.mem_cons_of_mem _ hg)) hrest
  · intro hfit
    have hone : ∀ f ∈ frames, ∀ rest, readFrame (encodeFrame f ++ rest) = .ok (f, rest) := by
      intro f hf rest
      have hle : f.payload.length ≤ maxFramePayloadSize - frameHeaderSize := hfit f hf
      have hconst : frameHeaderSize ≤ maxFramePayloadSize := by decide
      exact readFrame_encodeFrame (hcan f hf) (by omega) rest
    have := decodeMany_flatMap frames hone []
    rwa [List.append_nil] at this

/-- The stream law at two frames of different channels. -/
theorem readFrames_writeFrames_twoChannels :
    readFrames 2 (encodeFrame (Frame.telemetry ⟨[1, 2, 3, 4, 5, 6, 7, 8], rfl⟩ [7]) ++
        encodeFrame (Frame.video ⟨[1, 2, 3, 4, 5, 6, 7, 8], rfl⟩ [0, 0, 1, 0x65] true)) =
      .ok ([Frame.telemetry ⟨[1, 2, 3, 4, 5, 6, 7, 8], rfl⟩ [7],
        Frame.video ⟨[1, 2, 3, 4, 5, 6, 7, 8], rfl⟩ [0, 0, 1, 0x65] true], []) :=
  (readFrames_writeFrames_iff [Frame.telemetry ⟨[1, 2, 3, 4, 5, 6, 7, 8], rfl⟩ [7],
    Frame.video ⟨[1, 2, 3, 4, 5, 6, 7, 8], rfl⟩ [0, 0, 1, 0x65] true] (by decide)
    (by decide)).mpr (by decide)

/-- A frame with a payload of exactly the maximum size: the writer takes it, the reader
errors on what the writer wrote. -/
theorem readFrames_fullPayload {frame : Frame}
    (hlen : frame.payload.length = maxFramePayloadSize) :
    writeFrames [] [frame] = .ok (encodeFrame frame) ∧
      readFrames 1 (encodeFrame frame) =
        .error s!"Frame length exceeds maximum: {frameHeaderSize + maxFramePayloadSize} > {maxFramePayloadSize}" := by
  constructor
  · refine writeFrames_eq_ok.mpr ⟨fun f hf => ?_, ?_⟩
    · rw [List.mem_singleton.mp hf]
      exact Nat.le_of_eq hlen
    · rw [List.nil_append, List.flatMap_singleton]
  · have hlarge : maxFramePayloadSize < frameHeaderSize + frame.payload.length := by
      rw [hlen]
      decide
    have herr := readFrame_encodeFrame_tooLarge (Nat.le_of_eq hlen) hlarge []
    rw [List.append_nil, hlen] at herr
    simp only [readFrames, decodeMany, herr]

/-- The largest payload `write_frame` accepts, of zeros. -/
def maxPayload : Bytes := List.replicate maxFramePayloadSize 0

/-- The stream of one video frame with the largest accepted payload: its channel is
canonical and the writer accepts it, but it does not read back. -/
theorem readFrames_maxPayload :
    let frame := Frame.video ⟨[1, 2, 3, 4, 5, 6, 7, 8], rfl⟩ maxPayload true
    frame.channel.Canonical ∧
      writeFrames [] [frame] = .ok (encodeFrame frame) ∧
      readFrames 1 (encodeFrame frame) ≠ .ok ([frame], []) := by
  intro frame
  have hlen : frame.payload.length = maxFramePayloadSize :=
    List.length_replicate (n := maxFramePayloadSize) (a := (0 : UInt8))
  obtain ⟨hw, hr⟩ := readFrames_fullPayload hlen
  refine ⟨True.intro, hw, ?_⟩
  rw [hr]
  intro hc
  cases hc

end Kodama
