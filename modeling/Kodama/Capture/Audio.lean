import Kodama.Core.Frame
import Kodama.Lib.Bytes
import Kodama.Lib.Machine
import Kodama.Lib.Mpsc
import Kodama.Lib.Pieces

/-!
# Audio capture (crates/kodama/src/capture/audio.rs)

The device hands its samples to a callback in buffers of any size. The capture thread takes the
buffers one by one, mixes each down to one channel, resamples it, and cuts what comes of them into
packets of a fixed number of samples, which it sends through a bounded channel; it waits while the
channel is full, and stops once the receiver is dropped.

- `packets_account`: in every run the packets that have been received, that wait in the channel and
  in the thread, and the samples that are left over are, in order, exactly what came of the
  buffers; a packet has its fixed length. Once the receiver is dropped, what it had received are
  the first packets.
- `packets_of_samples`: where nothing is resampled and the device keeps the samples of a moment in
  one buffer, the packets do not depend on how the device cuts its samples into buffers.

The arithmetic on samples and positions is a parameter, the order in which the code applies it is
not.
-/

namespace Kodama

open Lib Lib.Machine

/-- Audio capture configuration. -/
structure AudioCaptureConfig where
  sampleRate : UInt32 := 48000
  bufferDurationMs : UInt32 := 20

namespace AudioCaptureConfig

/-- The buffer size in samples. -/
def bufferSizeSamples (config : AudioCaptureConfig) : Nat :=
  (config.sampleRate * config.bufferDurationMs / 1000).toNat

end AudioCaptureConfig

/-- The arithmetic of the capture. -/
structure AudioArith (F : Type) where
  /-- the sum of some samples, divided by the number of channels -/
  average : List F → UInt16 → F
  /-- the number of samples after resampling so many, from one rate to another -/
  outputLen : Nat → UInt32 → UInt32 → Nat
  /-- where in the source a sample of the output lies: a position, and how far behind it -/
  position : Nat → UInt32 → UInt32 → Nat × F
  /-- between two samples, so far from the first -/
  interpolate : F → F → F → F
  /-- clamped to -1.0 .. 1.0, times 32767.0, as a 16-bit integer -/
  toI16 : F → UInt16

/-- The device's format and the format of the packets. -/
structure AudioFormat where
  sourceRate : UInt32
  channels : UInt16
  targetRate : UInt32
  targetSamples : Nat

variable {F : Type}

/-- Convert interleaved multi-channel samples to mono by averaging channels. -/
def stereoToMono (arith : AudioArith F) (samples : List F) (channels : UInt16) : List F :=
  if channels = 1 then samples
  else (chunks channels.toNat samples).map fun chunk => arith.average chunk channels

/-- The position after `idx0`, or the last one. -/
theorem idx1_lt {len idx0 : Nat} (h : idx0 < len) : min (idx0 + 1) (len - 1) < len := by
  omega

/-- Linear interpolation resampler. -/
def resample (arith : AudioArith F) (samples : List F) (sourceRate targetRate : UInt32) : List F :=
  if sourceRate = targetRate then samples
  else
    (List.range (arith.outputLen samples.length sourceRate targetRate)).filterMap fun i =>
      let (idx0, frac) := arith.position i sourceRate targetRate
      if h : idx0 < samples.length then
        let idx1 : Fin samples.length := ⟨min (idx0 + 1) (samples.length - 1), idx1_lt h⟩
        some (arith.interpolate samples[idx0] samples[idx1] frac)
      else none

/-- Convert samples to S16_LE PCM bytes. -/
def f32ToS16le (arith : AudioArith F) (samples : List F) : Bytes :=
  samples.flatMap fun s => toLe 2 (arith.toI16 s).toNat

/-- What a buffer of the device comes to. -/
def convert (arith : AudioArith F) (format : AudioFormat) (rawSamples : List F) : List F :=
  resample arith (stereoToMono arith rawSamples format.channels) format.sourceRate
    format.targetRate

/-- The capture thread (`run_audio_capture`), with the callback that feeds it and the receiver of
its packets. `given` are the buffers the callback has sent to it, `taken` those it has taken, and
`emitted` the packets it has cut off. -/
structure AudioThread (F : Type) where
  /-- what the callback has sent -/
  std : List (List F) := []
  /-- the device's stream has stopped -/
  stopped : Bool := false
  accumulator : List F := []
  packetCount : UInt64 := 0
  /-- the packet that waits for room in the channel -/
  sending : Option Bytes := none
  tx : Mpsc Bytes := { capacity := 32 }
  /-- the thread is over -/
  left : Bool := false
  received : List Bytes := []
  given : List (List F) := []
  taken : List (List F) := []
  emitted : List Bytes := []

inductive AudioEvent (F : Type) where
  /-- The device hands over a buffer. -/
  | callback (data : List F)
  | stop
  /-- The thread takes the next buffer, or finds that there will be none. -/
  | recv
  /-- It cuts a packet off. -/
  | emit
  /-- The packet goes into the channel, or there is no receiver. -/
  | send
  | receive
  /-- The receiver is dropped. -/
  | drop

namespace AudioThread

/-- The next buffer is converted and appended. -/
def takeBuffer (arith : AudioArith F) (format : AudioFormat) (t : AudioThread F)
    (rawSamples : List F) (rest : List (List F)) : AudioThread F :=
  { t with
    std := rest
    accumulator := t.accumulator ++ convert arith format rawSamples
    taken := t.taken ++ [rawSamples] }

/-- A complete buffer is drained from the accumulator. -/
def emitPacket (arith : AudioArith F) (n : Nat) (t : AudioThread F) : AudioThread F :=
  let pcm := f32ToS16le arith (t.accumulator.take n)
  { t with
    accumulator := t.accumulator.drop n
    packetCount := t.packetCount + 1
    sending := some pcm
    emitted := t.emitted ++ [pcm] }

/-- One event. What the callback sends to a thread that is over is dropped. -/
def step (arith : AudioArith F) (format : AudioFormat) (t : AudioThread F) :
    AudioEvent F → Option (AudioThread F)
  | .callback data =>
    if t.stopped then none
    else if t.left then some t
    else some { t with std := t.std ++ [data], given := t.given ++ [data] }
  | .stop => some { t with stopped := true }
  | .recv =>
    if t.left || t.sending.isSome || decide (format.targetSamples ≤ t.accumulator.length) then none
    else
      match t.std with
      | rawSamples :: rest => some (t.takeBuffer arith format rawSamples rest)
      | [] => if t.stopped then some { t with left := true } else none
  | .emit =>
    if t.left || t.sending.isSome || decide (t.accumulator.length < format.targetSamples) then none
    else some (t.emitPacket arith format.targetSamples)
  | .send =>
    t.sending.bind fun pcm =>
      match t.tx.trySend pcm with
      | .ok tx => some { t with tx, sending := none }
      | .error .full => none
      | .error .closed => some { t with sending := none, left := true }
  | .receive => t.tx.recv.map fun (pcm, tx) => { t with tx, received := t.received ++ [pcm] }
  | .drop => some { t with tx := { t.tx.close with queue := [] } }

/-! ## What the packets are -/

/-- The samples that came of the buffers taken. -/
def samples (arith : AudioArith F) (format : AudioFormat) (t : AudioThread F) : List F :=
  t.taken.flatMap (convert arith format)

/-- The packets of some samples. -/
def packetsOf (arith : AudioArith F) (n : Nat) (samples : List F) : List Bytes :=
  (cut n samples).1.map (f32ToS16le arith)

/-- Where everything is: the device's buffers are taken in order; what was cut off and what the
accumulator holds are the packets of the samples, with the same rest; and the packets cut off have
been received, wait in the channel or wait for room in it, as long as there is a receiver. -/
structure Accounts (arith : AudioArith F) (format : AudioFormat) (t : AudioThread F) : Prop where
  given : t.given = t.taken ++ t.std
  emitted : t.emitted ++ packetsOf arith format.targetSamples t.accumulator =
    packetsOf arith format.targetSamples (t.samples arith format)
  rest : (cut format.targetSamples t.accumulator).2 =
    (cut format.targetSamples (t.samples arith format)).2
  live : t.tx.closed = false → t.received ++ t.tx.queue ++ t.sending.toList = t.emitted
  received : t.received ++ t.tx.queue <+: t.emitted
  lengths : ∀ pcm ∈ t.emitted, pcm.length = 2 * format.targetSamples
  packetCount : t.packetCount = .ofNat t.emitted.length

variable {arith : AudioArith F} {format : AudioFormat} {t u : AudioThread F} {event : AudioEvent F}

theorem f32ToS16le_length (arith : AudioArith F) (samples : List F) :
    (f32ToS16le arith samples).length = 2 * samples.length := by
  induction samples with
  | nil => rfl
  | cons s samples ih =>
    have hcons : f32ToS16le arith (s :: samples) =
        toLe 2 (arith.toI16 s).toNat ++ f32ToS16le arith samples := List.flatMap_cons
    rw [hcons, List.length_append, toLe_length, ih, List.length_cons]
    omega

/-- A buffer is taken while the accumulator holds no complete packet. -/
theorem accounts_takeBuffer (h : t.Accounts arith format)
    (hshort : t.accumulator.length < format.targetSamples) {rawSamples : List F}
    {rest : List (List F)} (hstd : t.std = rawSamples :: rest) :
    (t.takeBuffer arith format rawSamples rest).Accounts arith format := by
  have hcut := cut_of_lt hshort
  have hemitted := h.emitted
  have hrest := h.rest
  rw [packetsOf, hcut, List.map_nil, List.append_nil] at hemitted
  rw [hcut] at hrest
  have hsamples : (t.takeBuffer arith format rawSamples rest).samples arith format =
      t.samples arith format ++ convert arith format rawSamples := by
    rw [samples, takeBuffer, List.flatMap_append, List.flatMap_singleton, samples]
  -- what is left over of the samples is in the accumulator
  have hnext := incremental_cut format.targetSamples (t.samples arith format)
    (convert arith format rawSamples)
  rw [← hrest] at hnext
  exact
    { given := by
        rw [takeBuffer, h.given, hstd, List.append_assoc]
        rfl
      emitted := by
        rw [hsamples, packetsOf, packetsOf, hnext, List.map_append]
        exact congrArg (· ++ _) hemitted
      rest := by
        rw [hsamples, hnext]
        rfl
      live := h.live
      received := h.received
      lengths := h.lengths
      packetCount := h.packetCount }

theorem accounts_emitPacket (hn : 0 < format.targetSamples) (h : t.Accounts arith format)
    (hsending : t.sending = none) (hlong : format.targetSamples ≤ t.accumulator.length) :
    (t.emitPacket arith format.targetSamples).Accounts arith format := by
  have hcut := cut_of_le hn hlong
  have hemitted := h.emitted
  have hrest := h.rest
  rw [packetsOf, hcut] at hemitted
  rw [hcut] at hrest
  have hlength : (f32ToS16le arith (t.accumulator.take format.targetSamples)).length =
      2 * format.targetSamples := by
    rw [f32ToS16le_length, List.length_take_of_le hlong]
  exact
    { given := h.given
      emitted := by
        rw [emitPacket, List.append_assoc]
        exact hemitted
      rest := hrest
      live := by
        intro hopen
        have hlive := h.live hopen
        rw [hsending, Option.toList_none, List.append_nil] at hlive
        show t.received ++ t.tx.queue ++ [_] = t.emitted ++ [_]
        rw [hlive]
      received := h.received.trans (List.prefix_append _ _)
      lengths := List.forall_mem_append.mpr
        ⟨h.lengths, List.forall_mem_singleton.mpr hlength⟩
      packetCount := by
        show t.packetCount + 1 = .ofNat (t.emitted ++ [_]).length
        rw [h.packetCount, List.length_append, UInt64.ofNat_add]
        rfl }

theorem accounts_step (hn : 0 < format.targetSamples) (h : t.Accounts arith format)
    (hstep : t.step arith format event = some u) : u.Accounts arith format := by
  cases event with
  | callback data =>
    simp only [step] at hstep
    split at hstep
    · cases hstep
    · split at hstep
      · exact Option.some.inj hstep ▸ h
      · obtain rfl := Option.some.inj hstep
        refine { h with given := ?_ }
        show t.given ++ [data] = t.taken ++ (t.std ++ [data])
        rw [h.given, List.append_assoc]
  | stop =>
    obtain rfl := Option.some.inj hstep
    exact { h with }
  | recv =>
    simp only [step] at hstep
    split at hstep
    · cases hstep
    · next hidle =>
      simp only [Bool.or_eq_true, decide_eq_true_eq, not_or, Nat.not_le] at hidle
      split at hstep
      · next rawSamples rest hstd =>
        obtain rfl := Option.some.inj hstep
        exact accounts_takeBuffer h hidle.2 hstd
      · split at hstep
        · obtain rfl := Option.some.inj hstep
          exact { h with }
        · cases hstep
  | emit =>
    simp only [step] at hstep
    split at hstep
    · cases hstep
    · next hidle =>
      simp only [Bool.or_eq_true, decide_eq_true_eq, not_or, Nat.not_lt] at hidle
      obtain rfl := Option.some.inj hstep
      have hsending : t.sending = none := Option.not_isSome_iff_eq_none.mp hidle.1.2
      exact accounts_emitPacket hn h hsending hidle.2
  | send =>
    obtain ⟨pcm, hsending, hstep⟩ := Option.bind_eq_some_iff.mp hstep
    cases hsend : t.tx.trySend pcm with
    | ok tx =>
      rw [hsend] at hstep
      obtain rfl := Option.some.inj hstep
      obtain ⟨hopen, -, rfl⟩ := Mpsc.trySend_eq_ok hsend
      have hlive : t.received ++ (t.tx.queue ++ [pcm]) = t.emitted := by
        have := h.live hopen
        rwa [hsending, Option.toList_some, List.append_assoc] at this
      refine { h with live := fun _ => ?_, received := ?_ }
      · exact (List.append_nil _).trans hlive
      · exact hlive ▸ List.prefix_refl _
    | error e =>
      rw [hsend] at hstep
      cases e with
      | full => cases hstep
      | closed =>
        obtain rfl := Option.some.inj hstep
        have hclosed := Mpsc.trySend_eq_closed.mp hsend
        refine { h with live := fun hopen => ?_ }
        rw [show t.tx.closed = false from hopen] at hclosed
        cases hclosed
  | receive =>
    obtain ⟨⟨pcm, tx⟩, hrecv, rfl⟩ := Option.map_eq_some_iff.mp hstep
    obtain ⟨hqueue, hclosed⟩ := Mpsc.recv_eq_some hrecv
    have hmoved : t.received ++ [pcm] ++ tx.queue = t.received ++ t.tx.queue := by
      rw [hqueue, List.append_assoc]
      rfl
    refine { h with live := fun hopen => ?_, received := ?_ }
    · show t.received ++ [pcm] ++ tx.queue ++ t.sending.toList = t.emitted
      rw [hmoved]
      exact h.live (hclosed ▸ hopen)
    · show t.received ++ [pcm] ++ tx.queue <+: t.emitted
      exact hmoved ▸ h.received
  | drop =>
    obtain rfl := Option.some.inj hstep
    refine { h with live := nofun, received := ?_ }
    show t.received ++ [] <+: t.emitted
    rw [List.append_nil]
    exact (List.prefix_append _ _).trans h.received

theorem accounts_start : ({} : AudioThread F).Accounts arith format where
  given := rfl
  emitted := rfl
  rest := rfl
  live _ := rfl
  received := List.prefix_refl _
  lengths := nofun
  packetCount := rfl

/-- **The packets are what the device heard.** In every run, whatever the device's buffers, the
channel and the receiver do. -/
theorem packets_account (arith : AudioArith F) (format : AudioFormat)
    (hn : 0 < format.targetSamples) (events : List (AudioEvent F)) :
    Always (step arith format) (Accounts arith format) {} events :=
  always_of_step accounts_start (fun _ _ _ h hstep => accounts_step hn h hstep) events

/-- Whole numbers as samples. -/
def wholeArith : AudioArith Int where
  average samples channels := samples.sum / channels.toNat
  outputLen len sourceRate targetRate :=
    (len * targetRate.toNat + sourceRate.toNat - 1) / sourceRate.toNat
  position i sourceRate targetRate :=
    (i * sourceRate.toNat / targetRate.toNat, (i * sourceRate.toNat % targetRate.toNat : Nat))
  interpolate a _ _ := a
  toI16 s := .ofInt s

/-- Packets of two samples. -/
def twoSamples : AudioFormat where
  sourceRate := 2000
  channels := 1
  targetRate := 1000
  targetSamples :=
    AudioCaptureConfig.bufferSizeSamples { sampleRate := 1000, bufferDurationMs := 2 }

/-- Buffers of three and of four samples, of which every other one stays. -/
def unevenBuffers : List (AudioEvent Int) :=
  [.callback [1, 2, 3], .recv, .callback [4, 5, 6, 7], .emit, .send, .recv, .emit, .receive, .send,
    .receive, .stop, .recv]

/-- The packets of uneven buffers. -/
theorem unevenBuffers_account : ∃ t, run (step wholeArith twoSamples) {} unevenBuffers = some t ∧
    t.received = [[1, 0, 3, 0], [4, 0, 6, 0]] ∧ t.Accounts wholeArith twoSamples := by
  have hrun : (run (step wholeArith twoSamples) {} unevenBuffers).map AudioThread.received =
      some [[1, 0, 3, 0], [4, 0, 6, 0]] := by decide
  obtain ⟨t, ht, hreceived⟩ := Option.map_eq_some_iff.mp hrun
  exact ⟨t, ht, hreceived,
    (packets_account wholeArith twoSamples (by decide) unevenBuffers).final ht⟩

/-! ## The device's buffers -/

/-- Where the samples of a moment are in one buffer, the buffers can be mixed down one by one. -/
theorem stereoToMono_append (arith : AudioArith F) {channels : UInt16} {xs : List F}
    (h : channels.toNat ∣ xs.length) (ys : List F) :
    stereoToMono arith (xs ++ ys) channels =
      stereoToMono arith xs channels ++ stereoToMono arith ys channels := by
  unfold stereoToMono
  by_cases hone : channels = 1
  · rw [if_pos hone, if_pos hone, if_pos hone]
  · rw [if_neg hone, if_neg hone, if_neg hone]
    by_cases hzero : channels.toNat = 0
    · have hnil : xs = [] := by
        rw [hzero, Nat.zero_dvd] at h
        exact List.eq_nil_of_length_eq_zero h
      have hnone : chunks channels.toNat ([] : List F) = [] := by simp [chunks]
      rw [hnil, hnone]
      rfl
    · rw [chunks_append (Nat.pos_of_ne_zero hzero) h, List.map_append]

theorem flatMap_convert (arith : AudioArith F) (hrate : format.sourceRate = format.targetRate)
    {buffers : List (List F)} (h : ∀ b ∈ buffers, format.channels.toNat ∣ b.length) :
    buffers.flatMap (convert arith format) =
      stereoToMono arith buffers.flatten format.channels := by
  induction buffers with
  | nil =>
    have hnone : stereoToMono arith ([] : List F) format.channels = [] := by
      simp [stereoToMono, chunks]
    exact hnone.symm
  | cons b buffers ih =>
    obtain ⟨hb, hbuffers⟩ := List.forall_mem_cons.mp h
    rw [List.flatMap_cons, ih hbuffers, List.flatten_cons, stereoToMono_append arith hb]
    rw [convert, resample, if_pos hrate]

/-- **The device's buffers do not show.** Where nothing is resampled, and the buffers hold whole
moments, the packets and what is left over are those of all samples together. -/
theorem packets_of_samples (arith : AudioArith F) (format : AudioFormat)
    (hn : 0 < format.targetSamples) (hrate : format.sourceRate = format.targetRate)
    (events : List (AudioEvent F)) :
    Always (step arith format)
      (fun t => (∀ b ∈ t.given, format.channels.toNat ∣ b.length) →
        let mono := stereoToMono arith t.taken.flatten format.channels
        t.emitted ++ packetsOf arith format.targetSamples t.accumulator =
            packetsOf arith format.targetSamples mono ∧
          (cut format.targetSamples t.accumulator).2 = (cut format.targetSamples mono).2)
      {} events := by
  have haccounts : Always (step arith format) (Accounts arith format) {} events :=
    always_of_step accounts_start (fun _ _ _ h hstep => accounts_step hn h hstep) events
  refine haccounts.mono fun t h haligned => ?_
  have htaken : ∀ b ∈ t.taken, format.channels.toNat ∣ b.length :=
    fun b hb => haligned b (h.given ▸ List.mem_append_left _ hb)
  have hsamples : t.samples arith format = stereoToMono arith t.taken.flatten format.channels :=
    flatMap_convert arith hrate htaken
  exact ⟨hsamples ▸ h.emitted, hsamples ▸ h.rest⟩

/-- Two channels, of which nothing is resampled. -/
def stereo : AudioFormat := { twoSamples with sourceRate := 1000, channels := 2 }

/-- Two moments in one buffer, then one. -/
def stereoBuffers : List (AudioEvent Int) :=
  [.callback [1, 3, 5, 7], .callback [2, 4], .recv, .emit, .send, .recv, .receive]

/-- The packet of stereo buffers, and the sample that is left over. -/
theorem stereoBuffers_packets : ∃ t,
    run (step wholeArith stereo) {} stereoBuffers = some t ∧
      t.emitted ++ packetsOf wholeArith stereo.targetSamples t.accumulator = [[2, 0, 6, 0]] ∧
      (cut stereo.targetSamples t.accumulator).2 = [3] := by
  have hrun : (run (step wholeArith stereo) {} stereoBuffers).map (fun t => (t.given, t.taken)) =
      some ([[1, 3, 5, 7], [2, 4]], [[1, 3, 5, 7], [2, 4]]) := by decide +kernel
  have hmono : cut stereo.targetSamples
      (stereoToMono wholeArith [[1, 3, 5, 7], [2, 4]].flatten stereo.channels) =
        ([[2, 6]], [3]) := by decide +kernel
  obtain ⟨t, ht, hrun⟩ := Option.map_eq_some_iff.mp hrun
  obtain ⟨hgiven, htaken⟩ := Prod.mk.inj hrun
  obtain ⟨hemitted, hrest⟩ :=
    (packets_of_samples wholeArith stereo (by decide) rfl stereoBuffers).final ht
      (by rw [hgiven]; decide)
  rw [htaken, show packetsOf wholeArith stereo.targetSamples (stereoToMono wholeArith
    [[1, 3, 5, 7], [2, 4]].flatten stereo.channels) = [[2, 6]].map (f32ToS16le wholeArith) from
      congrArg (fun r => r.1.map (f32ToS16le wholeArith)) hmono] at hemitted
  rw [htaken, hmono] at hrest
  exact ⟨t, ht, hemitted, hrest⟩

end AudioThread

end Kodama
