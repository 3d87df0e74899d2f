import Kodama.Capture.H264

/-!
# Video capture (crates/kodama/src/capture/video.rs, apps/kodama-firmware/src/camera.rs)

The reader of the capture process passes on the encoder's stream in the chunks it happens to
read, and the camera makes one video frame of each. Whether a frame is a keyframe is decided
from its chunk alone, by `containsKeyframe`.

A chunk with the header byte of an IDR unit is recognised when it has the start code in front
of it as well (`isKeyframe_of_idr`); where a chunk boundary separates the two, it is not
(`isKeyframe_split`).
-/

namespace Kodama

open Lib

/-- One round of the reading loop: what `read` returns, and whether the receiver is still
there when the chunk is sent. -/
structure ReadRound where
  read : Result Bytes
  received : Bool

/-- The chunks `read_video_stream` sends, until the stream ends, a read fails or the receiver
is gone. -/
def readVideoStream : List ReadRound → List Bytes
  | [] => []
  | round :: rounds =>
    match round.read with
    | .error _ => []
    | .ok bytes =>
      if bytes = [] then []
      else if round.received then bytes :: readVideoStream rounds
      else []

/-- The frame `run_async` makes of a video message. -/
def videoMessage (source : SourceId) (timestampUs : UInt64) (payload : Bytes) : Frame :=
  (Frame.video source payload (containsKeyframe payload)).withTimestamp timestampUs

/-- Byte `j` of a chunk is the header of an IDR unit, with its start code in the bytes of the
stream before it. -/
def IdrHeader (before chunk : Bytes) (j : Nat) : Prop :=
  [0, 0, 1] <:+ before ++ chunk.take j ∧
    ∃ header, chunk[j]? = some header ∧ NalUnitType.ofU8 header = .sliceIdr

@[simp] theorem videoMessage_isKeyframe (source : SourceId) (timestampUs : UInt64)
    (payload : Bytes) :
    (videoMessage source timestampUs payload).flags.isKeyframe = containsKeyframe payload := by
  show (if containsKeyframe payload then FrameFlags.keyframe else .default).isKeyframe = _
  cases containsKeyframe payload <;> decide

/-- Where a suffix of the first `j` bytes begins. -/
theorem prefix_drop_of_suffix_take {code chunk : Bytes} {j : Nat} (hj : j ≤ chunk.length)
    (h : code <:+ chunk.take j) : ∃ i, i + code.length = j ∧ code <+: chunk.drop i := by
  obtain ⟨before, hbefore⟩ := h
  have hlen := congrArg List.length hbefore
  rw [List.length_append, List.length_take, Nat.min_eq_left hj] at hlen
  refine ⟨before.length, hlen, chunk.drop j, ?_⟩
  conv => rhs; rw [← List.take_append_drop j chunk, ← hbefore, List.append_assoc]
  rw [List.drop_left]

/-- **A chunk with an IDR header and its start code becomes a keyframe.** If the header is the
last byte of the chunk, the start code has to be one of four bytes. -/
theorem isKeyframe_of_idr (rounds : List ReadRound) (source : SourceId) (timestampUs : UInt64) :
    ∀ chunk ∈ readVideoStream rounds, ∀ j, IdrHeader [] chunk j →
      (j + 1 < chunk.length ∨ [0, 0, 0, 1] <:+ chunk.take j) →
      (videoMessage source timestampUs chunk).flags.isKeyframe = true := by
  rintro chunk - j ⟨hshort, header, hheader, htype⟩ hcode
  have hj : j < chunk.length := (List.getElem?_eq_some_iff.mp hheader).1
  rw [videoMessage_isKeyframe]
  rcases hcode with hlen | hlong
  · obtain ⟨i, rfl, hpref⟩ := prefix_drop_of_suffix_take (Nat.le_of_lt hj) hshort
    exact containsKeyframe_of_short hpref hheader htype hlen
  · obtain ⟨i, rfl, hpref⟩ := prefix_drop_of_suffix_take (Nat.le_of_lt hj) hlong
    exact containsKeyframe_of_long hpref hheader htype

/-- A camera to run examples with. -/
def exampleSource : SourceId := ⟨[0, 1, 1, 2, 3, 5, 8, 13], rfl⟩

theorem isKeyframe_of_idr_chunk :
    (videoMessage exampleSource 0 [0, 0, 1, 0x65, 0x88]).flags.isKeyframe = true :=
  isKeyframe_of_idr [⟨.ok [0, 0, 1, 0x65, 0x88], true⟩] exampleSource 0 _ List.mem_cons_self 3
    ⟨by decide, 0x65, by decide, by decide⟩ (by decide)

/-- A boundary within the start code hides the keyframe: neither chunk has all of it. -/
theorem isKeyframe_split :
    ¬ ∀ (rounds : List ReadRound) (source : SourceId) (timestampUs : UInt64)
      (before : List Bytes) (chunk : Bytes) (after : List Bytes),
      readVideoStream rounds = before ++ chunk :: after → ∀ j, IdrHeader before.flatten chunk j →
        (videoMessage source timestampUs chunk).flags.isKeyframe = true := by
  intro h
  have hsplit := h [⟨.ok [0, 0], true⟩, ⟨.ok [1, 0x65, 0x88, 0x84, 0x21], true⟩] exampleSource 0
    [[0, 0]] [1, 0x65, 0x88, 0x84, 0x21] [] rfl 1 ⟨by decide, 0x65, by decide, by decide⟩
  rw [videoMessage_isKeyframe] at hsplit
  cases hsplit

end Kodama
