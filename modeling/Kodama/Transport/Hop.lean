import Kodama.Transport.Framing

/-!
# What a relay does to a stream (crates/kodama/src/transport/mux/frame.rs)

A relay reads frames and writes them again. `readFrame` accepts exactly the encodings of
frames whose header fits its limit too (`readFrame_exact`, `readFrame_isOk_iff`), so what a
relay writes is byte for byte what it has read, and the next one reads the same
(`hop_transparent`).
-/

namespace Kodama

open Lib

/-- The header codec loses no byte, not even that of an unknown channel. -/
theorem frameToBytes_of_frameFromBytes {buf : Bytes} {frame : Frame}
    (h : frameFromBytes buf = .ok frame) : frameToBytes frame = buf := by
  rw [frameFromBytes] at h
  split at h
  · cases h
  · next hlen =>
    obtain rfl := Except.ok.inj h
    have hlen : 18 ≤ buf.length := Nat.le_of_not_lt hlen
    have height : ((buf.drop 10).take 8).length = 8 := by
      rw [List.length_take, List.length_drop]
      omega
    have htime : toBe 8 (UInt64.ofNat (ofBe ((buf.drop 10).take 8))).toNat =
        (buf.drop 10).take 8 := by
      have hlt : ofBe ((buf.drop 10).take 8) < 2 ^ 64 := ofBe_lt height
      rw [UInt64.toNat_ofNat', Nat.mod_eq_of_lt hlt, toBe_ofBe height]
    -- the five fields, one behind the other
    have hsplit : buf = buf.take 8 ++ buf.getD 8 0 :: buf.getD 9 0 ::
        ((buf.drop 10).take 8 ++ buf.drop 18) := by
      have h18 : (buf.drop 10).take 8 ++ buf.drop 18 = buf.drop 10 := by
        rw [show 18 = 10 + 8 from rfl, ← List.drop_drop, List.take_append_drop]
      have h9 : buf.getD 9 0 :: buf.drop 10 = buf.drop 9 := by
        rw [List.drop_eq_getElem_cons (i := 9) (by omega)]
        simp [List.getD_eq_getElem?_getD, List.getElem?_eq_getElem (show 9 < buf.length by omega)]
      have h8 : buf.getD 8 0 :: buf.drop 9 = buf.drop 8 := by
        rw [List.drop_eq_getElem_cons (i := 8) (by omega)]
        simp [List.getD_eq_getElem?_getD, List.getElem?_eq_getElem (show 8 < buf.length by omega)]
      rw [h18, h9, h8, List.take_append_drop]
    simp only [frameToBytes, Channel.asU8_ofU8, htime]
    exact hsplit.symm

theorem readExact_eq_ok {n : Nat} {s xs rest : Bytes} :
    readExact n s = .ok (xs, rest) ↔ s = xs ++ rest ∧ xs.length = n := by
  rw [← takeExact_eq_some, readExact]
  cases takeExact n s with
  | none => simp
  | some r => simp

theorem ofBe_toBe_length {n : Nat} (hmax : n ≤ maxFramePayloadSize) : ofBe (toBe 4 n) = n :=
  ofBe_toBe_of_lt (Nat.lt_of_le_of_lt hmax (by decide))

/-- `readFrame` accepts a length within its limits with that many bytes behind it. -/
theorem readFrame_eq_ok {s rest : Bytes} {frame : Frame} : readFrame s = .ok (frame, rest) ↔
    ∃ body, s = toBe 4 body.length ++ (body ++ rest) ∧ frameHeaderSize ≤ body.length ∧
      body.length ≤ maxFramePayloadSize ∧ frameFromBytes body = .ok frame := by
  constructor
  · intro h
    unfold readFrame at h
    obtain ⟨⟨lenBytes, reader⟩, hlen, hafter⟩ := Result.bind_eq_ok.mp h
    clear h
    obtain ⟨rfl, hwidth⟩ := readExact_eq_ok.mp hlen
    dsimp only at hafter
    split at hafter
    · cases hafter
    · next hmax =>
      split at hafter
      · cases hafter
      · next hmin =>
        obtain ⟨⟨body, rest'⟩, hbody, hdecode⟩ := Result.bind_eq_ok.mp hafter
        obtain ⟨rfl, hlength⟩ := readExact_eq_ok.mp hbody
        obtain ⟨frame', hframe, hok⟩ := Result.bind_eq_ok.mp hdecode
        obtain ⟨rfl, rfl⟩ := Prod.mk.inj (Except.ok.inj hok)
        refine ⟨body, ?_, by omega, by omega, hframe⟩
        rw [hlength, toBe_ofBe hwidth]
  · rintro ⟨body, rfl, hmin, hmax, hframe⟩
    have hlen := ofBe_toBe_length hmax
    rw [readFrame, readExact_append _ (toBe_length _ _)]
    simp only [bind, Except.bind, hlen, if_neg (Nat.not_lt.mpr hmax), if_neg (Nat.not_lt.mpr hmin),
      readExact_append _ rfl, hframe, pure, Except.pure]

/-- What `readFrame` accepts is the encoding of the frame it returns. -/
theorem readFrame_exact {s rest : Bytes} {frame : Frame} (h : readFrame s = .ok (frame, rest)) :
    s = encodeFrame frame ++ rest := by
  obtain ⟨body, rfl, -, -, hframe⟩ := readFrame_eq_ok.mp h
  rw [encodeFrame, frameToBytes_of_frameFromBytes hframe, List.append_assoc]

/-- A frame that was read is small enough to be written, and to be read again. -/
theorem payload_le_of_readFrame {s rest : Bytes} {frame : Frame}
    (h : readFrame s = .ok (frame, rest)) :
    frameHeaderSize + frame.payload.length ≤ maxFramePayloadSize := by
  obtain ⟨body, -, -, hmax, hframe⟩ := readFrame_eq_ok.mp h
  rw [← frameToBytes_length, frameToBytes_of_frameFromBytes hframe]
  exact hmax

/-- A length within the limits, with at least that many bytes behind it. -/
def StartsWithFrame (s : Bytes) : Prop :=
  4 ≤ s.length ∧ frameHeaderSize ≤ ofBe (s.take 4) ∧ ofBe (s.take 4) ≤ maxFramePayloadSize ∧
    4 + ofBe (s.take 4) ≤ s.length

theorem readFrame_isOk_iff (s : Bytes) :
    (∃ frame rest, readFrame s = .ok (frame, rest)) ↔ StartsWithFrame s := by
  constructor
  · rintro ⟨frame, rest, h⟩
    obtain ⟨body, rfl, hmin, hmax, -⟩ := readFrame_eq_ok.mp h
    have hlen := ofBe_toBe_length hmax
    rw [StartsWithFrame, List.take_left' (toBe_length _ _), hlen, List.length_append,
      List.length_append, toBe_length]
    exact ⟨by omega, hmin, hmax, by omega⟩
  · rintro ⟨hwidth, hmin, hmax, hlength⟩
    have hbody : ((s.drop 4).take (ofBe (s.take 4))).length = ofBe (s.take 4) := by
      rw [List.length_take, List.length_drop]
      omega
    obtain ⟨frame, hframe⟩ : ∃ frame, frameFromBytes ((s.drop 4).take (ofBe (s.take 4))) =
        .ok frame := by
      rw [frameFromBytes, dif_neg (by omega)]
      exact ⟨_, rfl⟩
    refine ⟨frame, (s.drop 4).drop (ofBe (s.take 4)), readFrame_eq_ok.mpr ?_⟩
    refine ⟨_, ?_, hbody.symm ▸ hmin, hbody.symm ▸ hmax, hframe⟩
    rw [hbody, toBe_ofBe (List.length_take_of_le hwidth), List.take_append_drop,
      List.take_append_drop]

/-- A read consumes the length and as many bytes as it says. -/
theorem readFrame_consumes {s rest : Bytes} {frame : Frame}
    (h : readFrame s = .ok (frame, rest)) : rest = s.drop (4 + ofBe (s.take 4)) := by
  obtain ⟨body, rfl, -, hmax, -⟩ := readFrame_eq_ok.mp h
  have hlen := ofBe_toBe_length hmax
  rw [List.take_left' (toBe_length _ _), hlen, ← List.drop_drop, List.drop_left' (toBe_length _ _),
    List.drop_left' rfl]

/-! ## Relays -/

/-- One relay: `n` frames are read and written again. -/
def relay (n : Nat) (s : Bytes) : Result Bytes := do
  let (frames, _) ← readFrames n s
  writeFrames [] frames

/-- A chain of relays. -/
def relays : Nat → Nat → Bytes → Result Bytes
  | 0, _, s => .ok s
  | hops + 1, n, s => do
    let out ← relay n s
    relays hops n out

/-- What `n` reads consume is what writing the frames puts on the wire. -/
theorem writeFrames_of_readFrames {n : Nat} {s rest : Bytes} {frames : List Frame}
    (h : readFrames n s = .ok (frames, rest)) :
    s = frames.flatMap encodeFrame ++ rest ∧ frames.length = n ∧
      writeFrames [] frames = .ok (frames.flatMap encodeFrame) := by
  obtain ⟨hsplit, hlength⟩ := decodeMany_exact (fun _ _ _ => readFrame_exact) h
  refine ⟨hsplit, hlength, writeFrames_eq_ok.mpr ⟨?_, rfl⟩⟩
  clear hsplit hlength
  induction n generalizing s frames with
  | zero =>
    obtain ⟨rfl, -⟩ := Prod.mk.inj (Except.ok.inj h)
    exact fun _ hf => by cases hf
  | succ n ih =>
    obtain ⟨frame, mid, frames, hone, hrest, rfl⟩ := decodeMany_succ_eq_ok.mp h
    have hfit := payload_le_of_readFrame hone
    exact List.forall_mem_cons.mpr ⟨by omega, ih hrest⟩

/-- Frames that were read can be read from their encodings alone. -/
theorem readFrames_again {n : Nat} {s rest : Bytes} {frames : List Frame}
    (h : readFrames n s = .ok (frames, rest)) :
    readFrames n (frames.flatMap encodeFrame) = .ok (frames, []) := by
  induction n generalizing s frames with
  | zero =>
    obtain ⟨rfl, -⟩ := Prod.mk.inj (Except.ok.inj h)
    rfl
  | succ n ih =>
    obtain ⟨frame, mid, frames, hone, hrest, rfl⟩ := decodeMany_succ_eq_ok.mp h
    obtain ⟨body, -, hmin, hmax, hframe⟩ := readFrame_eq_ok.mp hone
    refine decodeMany_succ_ok ?_ (ih hrest)
    refine readFrame_eq_ok.mpr ⟨body, ?_, hmin, hmax, hframe⟩
    rw [List.flatMap_cons, encodeFrame, frameToBytes_of_frameFromBytes hframe, List.append_assoc]

theorem relays_of_readFrames {n : Nat} {s rest : Bytes} {frames : List Frame}
    (h : readFrames n s = .ok (frames, rest)) (hops : Nat) :
    relays hops n (frames.flatMap encodeFrame) = .ok (frames.flatMap encodeFrame) := by
  induction hops with
  | zero => rfl
  | succ hops ih =>
    have hone : relay n (frames.flatMap encodeFrame) = .ok (frames.flatMap encodeFrame) := by
      rw [relay, readFrames_again h]
      exact (writeFrames_of_readFrames h).2.2
    rw [relays, hone]
    exact ih

/-- **A hop is byte-transparent.** A read succeeds exactly on what starts with a frame and
consumes it; the frames read are accepted by the writer and give the bytes they were read from;
and so any number of relays passes these bytes, and the frames, on as they are. -/
theorem hop_transparent (s : Bytes) :
    ((∃ frame rest, readFrame s = .ok (frame, rest)) ↔ StartsWithFrame s) ∧
    (∀ frame rest, readFrame s = .ok (frame, rest) → rest = s.drop (4 + ofBe (s.take 4))) ∧
    ∀ n frames rest, readFrames n s = .ok (frames, rest) → ∃ consumed, s = consumed ++ rest ∧
      writeFrames [] frames = .ok consumed ∧ ∀ hops, relays hops n consumed = .ok consumed ∧
        readFrames n consumed = .ok (frames, []) := by
  refine ⟨readFrame_isOk_iff s, fun frame rest => readFrame_consumes, fun n frames rest h => ?_⟩
  obtain ⟨hsplit, -, hwrite⟩ := writeFrames_of_readFrames h
  refine ⟨frames.flatMap encodeFrame, hsplit, hwrite, fun hops => ?_⟩
  exact ⟨relays_of_readFrames h hops, readFrames_again h⟩

/-- A frame of a channel this version does not know. -/
def exampleUnknown : Frame := ⟨⟨[0, 5, 7, 7, 2, 1, 5, 6], rfl⟩, .unknown 9, ⟨0x81⟩, 3, [1, 2]⟩

/-- It is passed on as it is; the two bytes behind it are not read. -/
theorem hop_transparent_unknown : ∃ consumed,
    encodeFrame exampleUnknown ++ [0, 0] = consumed ++ [0, 0] ∧
      writeFrames [] [exampleUnknown] = .ok consumed ∧
      ∀ hops, relays hops 1 consumed = .ok consumed ∧
        readFrames 1 consumed = .ok ([exampleUnknown], []) :=
  (hop_transparent _).2.2 1 _ _ (by decide)

end Kodama
