import Kodama.Storage.Local
import Mathlib.Data.List.Induction

/-!
# Writes that fail (crates/kodama/src/storage/local.rs)

A `store_frame` that fails in the middle of its record leaves what was written of it, and
leaves the segment open: the next call writes behind it. The counters are those of the calls
that succeeded, but nothing marks where a record begins, so what follows a partial record is
read from the wrong place. A segment gives back the frames stored into it if nothing is left
before any of them, and less than a length prefix behind them; and if it does, less than that
is left in all (`returnsStored`).
-/

namespace Kodama

open Lib

/-- A call of `store_frame`: it succeeds, or it fails when a part of the record is written. Of
what is in the buffer then, `flushed` bytes have reached the file. -/
inductive StoreCall where
  | stored (frame : Frame)
  | failed (frame : Frame) (written flushed : Nat)
    (hwritten : written < (encodeRecord frame).length)

namespace StoreCall

def frame : StoreCall → Frame
  | stored frame => frame
  | failed frame .. => frame

/-- What a failed call leaves. -/
def left : StoreCall → Bytes
  | stored _ => []
  | failed frame written .. => (encodeRecord frame).take written

/-- What a call writes. -/
def bytes : StoreCall → Bytes
  | stored frame => encodeRecord frame
  | failed frame written .. => (encodeRecord frame).take written

end StoreCall

/-- The frames whose call succeeded. -/
def storedFrames (calls : List StoreCall) : List Frame :=
  calls.filterMap fun
    | .stored frame => some frame
    | .failed .. => none

namespace LocalStorage

/-- `store_frame` with a write that fails, once the writer has been looked up. -/
def failRecord (st : LocalStorage) (writer : SegmentWriter) (frame : Frame)
    (written flushed : Nat) : LocalStorage :=
  let r := writer.file.writePart st.fs ((encodeRecord frame).take written) flushed
  { st with fs := r.1, writers := st.writers.insert frame.source { writer with file := r.2 } }

/-- The storage after a `store_frame` whose write fails. -/
def storeFrameFailing (st : LocalStorage) (frame : Frame) (written flushed : Nat) :
    Result LocalStorage := do
  let st ← st.getOrCreateWriter frame.source frame.timestampUs
  match st.writers.lookup frame.source with
  | none => throw "Writer not found after creation"
  | some writer => return st.failRecord writer frame written flushed

/-- The storage after a call. -/
def call (st : LocalStorage) : StoreCall → Result LocalStorage
  | .stored frame => st.storeFrame frame
  | .failed frame written flushed _ => st.storeFrameFailing frame written flushed

/-- After some calls and the end of the segment, all of a source's frames are those whose call
succeeded. -/
def ReturnsStored (st : LocalStorage) (source : SourceId) (calls : List StoreCall) : Prop :=
  ∃ st', calls.foldlM call st = .ok st' ∧
    (st'.closeSegment source).getFrames source 0 0xFFFFFFFFFFFFFFFF =
      .ok ((storedFrames calls).insertionSort fun f g => f.timestampUs ≤ g.timestampUs)

/-- Calls for one source and one window; the frames that are stored can be read back. -/
structure OneSegment (st : LocalStorage) (source : SourceId) (start : UInt64)
    (calls : List StoreCall) : Prop where
  source : ∀ c ∈ calls, c.frame.source = source
  start : ∀ c ∈ calls, st.segmentStart c.frame.timestampUs = start
  recordable : ∀ f ∈ storedFrames calls, Recordable f

end LocalStorage

/-- Nothing is left before a frame that is stored, and less than a length prefix in all. -/
structure LeavesLittle (calls : List StoreCall) : Prop where
  before : ∀ before frame after, calls = before ++ .stored frame :: after →
    before.flatMap StoreCall.left = []
  total : (calls.flatMap StoreCall.left).length < 4

/-! ## What is written, and what is read of it -/

section Bytes

variable {calls : List StoreCall} {file rest : Bytes} {frames : List Frame}

theorem length_bytes (calls : List StoreCall) :
    (calls.flatMap StoreCall.bytes).length =
      ((storedFrames calls).flatMap encodeRecord).length +
        (calls.flatMap StoreCall.left).length := by
  induction calls with
  | nil => rfl
  | cons c calls ih =>
    rw [List.flatMap_cons, List.flatMap_cons, List.length_append, List.length_append, ih]
    cases c with
    | stored frame =>
      have hstored : storedFrames (.stored frame :: calls) = frame :: storedFrames calls := rfl
      simp only [hstored, StoreCall.bytes, StoreCall.left, List.flatMap_cons, List.length_append,
        List.length_nil]
      omega
    | failed frame written flushed hwritten =>
      have hstored : storedFrames (.failed frame written flushed hwritten :: calls) =
          storedFrames calls := rfl
      simp only [hstored, StoreCall.bytes, StoreCall.left]
      omega

/-- The records of the stored frames, and what is left behind them. -/
theorem bytes_eq (hbefore : ∀ before frame after, calls = before ++ .stored frame :: after →
      before.flatMap StoreCall.left = []) :
    calls.flatMap StoreCall.bytes =
      (storedFrames calls).flatMap encodeRecord ++ calls.flatMap StoreCall.left := by
  induction calls with
  | nil => rfl
  | cons c calls ih =>
    have htail : ∀ before frame after, calls = before ++ .stored frame :: after →
        before.flatMap StoreCall.left = [] := by
      rintro before frame after rfl
      exact (List.append_eq_nil_iff.mp (hbefore (c :: before) frame after rfl)).2
    rw [List.flatMap_cons, List.flatMap_cons, ih htail]
    cases c with
    | stored frame =>
      show encodeRecord frame ++ _ = encodeRecord frame ++ _ ++ _
      rw [List.append_assoc]
      rfl
    | failed frame written flushed hwritten =>
      show (encodeRecord frame).take written ++ _ = (storedFrames calls).flatMap encodeRecord ++ _
      cases hstored : (storedFrames calls) with
      | nil => rfl
      | cons f frames =>
        -- a frame that is stored later: nothing has been left
        have hmem : StoreCall.stored f ∈ calls := by
          have hf : f ∈ storedFrames calls := by rw [hstored]; exact List.mem_cons_self
          obtain ⟨call, hcall, heq⟩ := List.mem_filterMap.mp hf
          cases call with
          | stored frame => rwa [← Option.some.inj heq]
          | failed => cases heq
        obtain ⟨before, after, rfl⟩ := List.append_of_mem hmem
        have hnil := hbefore (_ :: before) f after rfl
        rw [List.flatMap_cons, List.append_eq_nil_iff] at hnil
        show (encodeRecord frame).take written ++ _ = _ ++ ((encodeRecord frame).take written ++ _)
        rw [show (encodeRecord frame).take written = [] from hnil.1]
        rfl

/-- Whole records, and less than a length prefix. -/
theorem readRecords_append (hframes : ∀ f ∈ frames, Recordable f) (hrest : rest.length < 4) :
    readRecords (frames.flatMap encodeRecord ++ rest) = .ok frames := by
  obtain ⟨m, -, hloop⟩ := readRecordsLoop_append hframes rest _ (Nat.le_refl _)
  have hend : readRecordsLoop m rest = .ok [] := by
    cases m with
    | zero => rfl
    | succ m => rw [readRecordsLoop, takeExact, if_neg (by omega)]
  rw [readRecords, hloop, hend]
  exact congrArg Except.ok (List.append_nil frames)

theorem frameToBytes_length_of_frameFromBytes {buf : Bytes} {frame : Frame}
    (h : frameFromBytes buf = .ok frame) : (frameToBytes frame).length = buf.length := by
  rw [frameToBytes_length]
  rw [frameFromBytes] at h
  split at h
  · cases h
  · obtain rfl := Except.ok.inj h
    simp only [List.length_drop]
    omega

/-- A file that reads as some frames is as long as their records, up to a length prefix. -/
theorem readRecordsLoop_length : ∀ {n : Nat} {file : Bytes} {frames : List Frame},
    file.length ≤ n → readRecordsLoop n file = .ok frames →
      file.length < (frames.flatMap encodeRecord).length + 4
  | 0, file, frames, hn, _ => by omega
  | n + 1, file, frames, hn, h => by
    rw [readRecordsLoop] at h
    split at h
    · next hnone =>
      rw [takeExact] at hnone
      split at hnone
      · cases hnone
      · omega
    · next lenBytes rest hsome =>
      obtain ⟨rfl, hlen⟩ := takeExact_eq_some.mp hsome
      simp only [readExactFile] at h
      split at h
      · next r hr =>
        obtain ⟨rfl, hbody⟩ := takeExact_eq_some.mp hr
        simp only [bind, Except.bind, pure, Except.pure] at h
        split at h
        · cases h
        · next frame hframe =>
          split at h
          · cases h
          · next read hread =>
            obtain rfl := Except.ok.inj h
            rw [List.length_append, List.length_append] at hn ⊢
            have ih := readRecordsLoop_length (by omega) hread
            have := frameToBytes_length_of_frameFromBytes hframe
            rw [List.flatMap_cons, List.length_append, encodeRecord_length]
            omega
      · cases h

end Bytes

/-! ## What the calls do to the segment -/

namespace LocalStorage

variable {st st₀ : LocalStorage} {source : SourceId} {start : UInt64} {content : Bytes}
  {writer : SegmentWriter}

/-- The only segment of the source is open, and has been given this content. -/
structure Segment (st₀ st : LocalStorage) (source : SourceId) (start : UInt64) (content : Bytes)
    (writer : SegmentWriter) : Prop where
  config : st.config = st₀.config
  indexed : st.segmentsOf source = []
  writers : st.writers.lookup source = some writer
  start : st₀.segmentStart writer.startTimeUs = start
  named : st.fs.names.lookup writer.path = some writer.inode
  holds : writer.file.Holds st.fs (List.replicate 20 0 ++ content)

/-- A new segment of a source that has none. -/
theorem createSegment_segment (hindex : st.segmentsOf source = []) (timestampUs : UInt64) :
    ∃ writer, Segment st (st.createSegment source timestampUs) source
      (st.segmentStart timestampUs) [] writer := by
  obtain ⟨writer, hwriters, hpath, hstart, hinode, hholds, hsame⟩ :=
    createSegment_spec st source timestampUs
  refine ⟨writer, rfl, hindex, ?_, ?_, ?_, ?_⟩
  · rw [hwriters, AList.lookup_insert]
  · rw [hstart]
  · rw [hsame.names, hpath, hinode, FileSystem.lookup_create, if_pos rfl]
    rfl
  · rwa [List.append_nil]

/-- A write to the open segment, whole or not. -/
theorem Segment.write (h : Segment st₀ st source start content writer)
    {fs : FileSystem PathBuf} {writer' : SegmentWriter} {bytes : Bytes}
    (hpath : writer'.path = writer.path) (hstart : writer'.startTimeUs = writer.startTimeUs)
    (hinode : writer'.inode = writer.inode) (hsame : st.fs.SameBut fs writer.inode)
    (hholds : writer'.file.Holds fs (List.replicate 20 0 ++ content ++ bytes)) :
    Segment st₀ { st with fs, writers := st.writers.insert source writer' } source start
      (content ++ bytes) writer' where
  config := h.config
  indexed := h.indexed
  writers := AList.lookup_insert _
  start := by rw [hstart, h.start]
  named := by
    show fs.names.lookup writer'.path = some writer'.inode
    rw [hsame.names, hpath, hinode, h.named]
  holds := by rwa [← List.append_assoc]

theorem Segment.appendRecord {frame : Frame}
    (h : Segment st₀ st frame.source start content writer) :
    ∃ writer', Segment st₀ (st.appendRecord writer frame) frame.source start
      (content ++ encodeRecord frame) writer' := by
  obtain ⟨hsame, hinode⟩ := writeRecord_sameBut writer st.fs frame
  exact ⟨_, h.write rfl rfl hinode hsame (writeRecord_holds h.holds frame)⟩

theorem Segment.failRecord {frame : Frame} (h : Segment st₀ st frame.source start content writer)
    (written flushed : Nat) :
    ∃ writer', Segment st₀ (st.failRecord writer frame written flushed) frame.source start
      (content ++ (encodeRecord frame).take written) writer' :=
  ⟨_, h.write rfl rfl rfl (FileSystem.write_sameBut _ _ _)
    (BufWriter.writePart_holds h.holds ((encodeRecord frame).take written) flushed)⟩

/-- A source without segments, and a configuration that has windows. -/
structure Unused (st : LocalStorage) (source : SourceId) : Prop where
  duration : st.config.segmentDurationUs ≠ 0
  writers : st.writers.lookup source = none
  indexed : st.segmentsOf source = []

/-- The storage after some calls: before the first there is no segment. -/
inductive After (st₀ : LocalStorage) (source : SourceId) (start : UInt64) (content : Bytes) :
    LocalStorage → Prop
  | unused (hnil : content = []) : After st₀ source start content st₀
  | opened (st : LocalStorage) (writer : SegmentWriter)
    (h : Segment st₀ st source start content writer) : After st₀ source start content st

/-- Every call finds a segment to write to. -/
theorem After.getOrCreateWriter (h : After st₀ source start content st)
    (hunused : st₀.Unused source) {timestampUs : UInt64}
    (hstart : st₀.segmentStart timestampUs = start) :
    ∃ st₁ writer, st.getOrCreateWriter source timestampUs = .ok st₁ ∧
      Segment st₀ st₁ source start content writer := by
  cases h with
  | unused hnil =>
    obtain ⟨writer, hsegment⟩ := createSegment_segment hunused.indexed timestampUs
    rw [hstart] at hsegment
    refine ⟨_, writer, ?_, hnil ▸ hsegment⟩
    rw [LocalStorage.getOrCreateWriter, if_neg hunused.duration, hunused.writers]
  | opened _ writer hsegment =>
    have hwindow : st.segmentStart writer.startTimeUs = st.segmentStart timestampUs := by
      show st.config.segmentDurationUs |> fun d => _ / d * d = _ / d * d
      rw [hsegment.config]
      exact hsegment.start.trans hstart.symm
    refine ⟨st, writer, ?_, hsegment⟩
    rw [LocalStorage.getOrCreateWriter, hsegment.config, if_neg hunused.duration,
      hsegment.writers]
    exact if_pos hwindow

theorem After.call (h : After st₀ source start content st) (hunused : st₀.Unused source)
    {c : StoreCall} (hsource : c.frame.source = source)
    (hstart : st₀.segmentStart c.frame.timestampUs = start) :
    ∃ st', st.call c = .ok st' ∧ After st₀ source start (content ++ c.bytes) st' := by
  obtain ⟨st₁, writer, hget, hsegment⟩ := h.getOrCreateWriter hunused hstart
  subst hsource
  cases c with
  | stored frame =>
    have hget : st.getOrCreateWriter frame.source frame.timestampUs = .ok st₁ := hget
    obtain ⟨writer', hwritten⟩ := hsegment.appendRecord
    refine ⟨_, ?_, .opened _ writer' hwritten⟩
    rw [LocalStorage.call, storeFrame, bind_ok hget]
    simp only [show st₁.writers.lookup frame.source = some writer from hsegment.writers]
    rfl
  | failed frame written flushed hwritten =>
    have hget : st.getOrCreateWriter frame.source frame.timestampUs = .ok st₁ := hget
    obtain ⟨writer', hleft⟩ := hsegment.failRecord written flushed
    refine ⟨_, ?_, .opened _ writer' hleft⟩
    rw [LocalStorage.call, storeFrameFailing, bind_ok hget]
    simp only [show st₁.writers.lookup frame.source = some writer from hsegment.writers]
    rfl

/-- All calls return, and the segment has been given what they wrote, in their order. -/
theorem after_calls (hunused : st₀.Unused source) {calls : List StoreCall}
    (hcalls : st₀.OneSegment source start calls) :
    ∃ st', calls.foldlM LocalStorage.call st₀ = .ok st' ∧
      After st₀ source start (calls.flatMap StoreCall.bytes) st' := by
  induction calls using List.reverseRecOn with
  | nil => exact ⟨st₀, rfl, .unused rfl⟩
  | append_singleton calls c ih =>
    have hmem : ∀ c' ∈ calls, c' ∈ calls ++ [c] := fun _ hc' => List.mem_append_left _ hc'
    have hstored : ∀ f ∈ storedFrames calls, f ∈ storedFrames (calls ++ [c]) := by
      intro f hf
      rw [storedFrames, List.filterMap_append]
      exact List.mem_append_left _ hf
    obtain ⟨st, hst, hafter⟩ := ih ⟨fun c' hc' => hcalls.source c' (hmem c' hc'),
      fun c' hc' => hcalls.start c' (hmem c' hc'),
      fun f hf => hcalls.recordable f (hstored f hf)⟩
    have hlast : c ∈ calls ++ [c] := List.mem_append_right _ List.mem_cons_self
    obtain ⟨st', hcall, hafter'⟩ := hafter.call hunused (hcalls.source c hlast)
      (hcalls.start c hlast)
    refine ⟨st', ?_, ?_⟩
    · rw [List.foldlM_append, bind_ok hst, List.foldlM_cons, bind_ok hcall]
      rfl
    · rwa [List.flatMap_append, List.flatMap_singleton]

/-! ## What is read in the end -/

/-- The frames of a source with one segment. -/
theorem getFrames_of_one {seg : SegmentIndex} (h : st.segmentsOf source = [seg]) (a b : UInt64) :
    st.getFrames source a b = (readSegment st.fs seg a b).map fun frames =>
      frames.insertionSort fun f g => f.timestampUs ≤ g.timestampUs := by
  rw [segmentsOf] at h
  rw [getFrames]
  cases hlook : st.index.segments.lookup source with
  | none =>
    rw [hlook] at h
    cases h
  | some segments =>
    rw [hlook] at h
    obtain rfl : segments = [seg] := h
    simp only [List.mapM_cons, List.mapM_nil]
    cases readSegment st.fs seg a b with
    | error e => rfl
    | ok frames =>
      show Except.ok (List.insertionSort _ (frames ++ [])) = _
      rw [List.append_nil]
      rfl

/-- All frames of the source are what its content reads as. -/
theorem After.getFrames (h : After st₀ source start content st) (hunused : st₀.Unused source) :
    (st.closeSegment source).getFrames source 0 0xFFFFFFFFFFFFFFFF =
      (readRecords content).map fun frames =>
        frames.insertionSort fun f g => f.timestampUs ≤ g.timestampUs := by
  cases h with
  | unused hnil =>
    rw [closeSegment_of_none hunused.writers, hnil]
    have hindexed := hunused.indexed
    rw [segmentsOf] at hindexed
    rw [LocalStorage.getFrames]
    cases hlook : st.index.segments.lookup source with
    | none => rfl
    | some segments =>
      rw [hlook] at hindexed
      obtain rfl : segments = [] := hindexed
      rfl
  | opened _ writer hsegment =>
    have hone : (st.closeSegment source).segmentsOf source = [writer.segIndex] := by
      rw [segmentsOf_closeSegment hsegment.writers, if_pos rfl, hsegment.indexed]
      rfl
    have hread : (st.closeSegment source).fs.read writer.segIndex.path =
        some (segmentHeader writer ++ content) := by
      show ((st.closeSegment source).fs.names.lookup writer.path).map _ = _
      rw [closeSegment_names, hsegment.named, Option.map_some,
        closeSegment_data hsegment.writers hsegment.holds]
    have hrange : ¬ (writer.segIndex.endTimeUs < 0 ∨
        writer.segIndex.startTimeUs > 0xFFFFFFFFFFFFFFFF) := by
      rintro (h | h)
      · exact UInt64.not_lt_zero h
      · exact absurd (UInt64.lt_iff_toNat_lt.mp h) (Nat.not_lt.mpr (Nat.le_of_lt_succ
          (UInt64.toNat_lt _)))
    have hall : ∀ frames : List Frame, frames.filter (fun frame =>
        frame.timestampUs ≥ 0 && frame.timestampUs ≤ 0xFFFFFFFFFFFFFFFF) = frames := by
      intro frames
      refine List.filter_eq_self.mpr fun f _ => ?_
      have : f.timestampUs ≤ 0xFFFFFFFFFFFFFFFF :=
        UInt64.le_iff_toNat_le.mpr (Nat.le_of_lt_succ (UInt64.toNat_lt _))
      simp [this]
    rw [getFrames_of_one hone, readSegment, if_neg hrange, hread]
    simp only [hall, ← segmentHeader_length writer, List.drop_left]
    cases readRecords content <;> rfl

theorem returnsStored_iff (hunused : st₀.Unused source) {calls : List StoreCall}
    (hcalls : st₀.OneSegment source start calls) :
    st₀.ReturnsStored source calls ↔
      ∃ frames, readRecords (calls.flatMap StoreCall.bytes) = .ok frames ∧
        frames.insertionSort (fun f g => f.timestampUs ≤ g.timestampUs) =
          (storedFrames calls).insertionSort fun f g => f.timestampUs ≤ g.timestampUs := by
  obtain ⟨st', hst', hafter⟩ := after_calls hunused hcalls
  have hget := hafter.getFrames hunused
  constructor
  · rintro ⟨st'', hst'', hreturns⟩
    obtain rfl := Except.ok.inj (hst'.symm.trans hst'')
    rw [hget] at hreturns
    cases hread : readRecords (calls.flatMap StoreCall.bytes) with
    | error e =>
      rw [hread] at hreturns
      cases hreturns
    | ok frames =>
      rw [hread] at hreturns
      exact ⟨frames, rfl, Except.ok.inj hreturns⟩
  · rintro ⟨frames, hread, hsort⟩
    refine ⟨st', hst', ?_⟩
    rw [hget, hread, ← hsort]
    rfl

/-- If all stored frames come back, less than a length prefix was left in all. -/
theorem left_of_returnsStored (hunused : st₀.Unused source) {calls : List StoreCall}
    (hcalls : st₀.OneSegment source start calls) (h : st₀.ReturnsStored source calls) :
    (calls.flatMap StoreCall.left).length < 4 := by
  obtain ⟨frames, hread, hsort⟩ := (returnsStored_iff hunused hcalls).mp h
  have hlen := readRecordsLoop_length (Nat.le_refl _) hread
  have hperm : frames.Perm (storedFrames calls) :=
    (List.perm_insertionSort _ frames).symm.trans
      ((List.Perm.of_eq hsort).trans (List.perm_insertionSort _ _))
  have hsum := (hperm.flatMap_right encodeRecord).length_eq
  rw [length_bytes] at hlen
  omega

/-- **When failed writes do no harm.** If nothing is left before a frame that is stored, and
less than a length prefix behind the last one, the segment gives back exactly the frames whose
call succeeded; and it gives them back only if less than a length prefix is left in all. -/
theorem returnsStored (hunused : st₀.Unused source) {calls : List StoreCall}
    (hcalls : st₀.OneSegment source start calls) :
    (LeavesLittle calls → st₀.ReturnsStored source calls) ∧
      (st₀.ReturnsStored source calls → (calls.flatMap StoreCall.left).length < 4) := by
  refine ⟨fun h => (returnsStored_iff hunused hcalls).mpr ⟨storedFrames calls, ?_, rfl⟩,
    left_of_returnsStored hunused hcalls⟩
  rw [bytes_eq h.before]
  exact readRecords_append hcalls.recordable h.total

/-- A frame whose bytes do not fit into the buffer of a writer. -/
def exampleLarge : Frame := ⟨⟨[6, 6, 2, 6, 0, 7, 0, 1], rfl⟩, .video, ⟨0⟩, 0, List.replicate 9000 0⟩

def exampleSmall : Frame := { exampleLarge with payload := [] }

theorem exampleLarge_length : (frameToBytes exampleLarge).length = 9018 := by
  rw [frameToBytes_length, show exampleLarge.payload = List.replicate 9000 0 from rfl,
    List.length_replicate]
  rfl

theorem unused_onEmptyRoot (source : SourceId) : (onEmptyRoot ⟨10⟩).Unused source :=
  ⟨by decide, rfl, rfl⟩

/-- Two frames are stored, and a write fails within the length prefix. -/
def failsLast : List StoreCall :=
  [.stored exampleSmall, .stored exampleSmall, .failed exampleLarge 3 0 (by
    rw [encodeRecord_length, exampleLarge_length]
    decide)]

theorem failsLast_leavesLittle : LeavesLittle failsLast where
  before before frame after heq := by
    -- the failed call comes after every call that stores a frame
    rw [failsLast] at heq
    rcases before with _ | ⟨_, _ | ⟨_, _ | ⟨_, before⟩⟩⟩
    · rfl
    · obtain ⟨rfl, -⟩ := List.cons.inj heq
      rfl
    · cases (List.cons.inj (List.cons.inj (List.cons.inj heq).2).2).1
    · cases (List.append_eq_nil_iff.mp
        (List.cons.inj (List.cons.inj (List.cons.inj heq).2).2).2.symm).2
  total := by
    show ((encodeRecord exampleLarge).take 3).length < 4
    rw [List.length_take]
    omega

theorem returnsStored_last : (onEmptyRoot ⟨10⟩).ReturnsStored exampleSmall.source failsLast := by
  have hcalls : (onEmptyRoot ⟨10⟩).OneSegment exampleSmall.source 0 failsLast :=
    ⟨by decide, by decide, by decide⟩
  exact (returnsStored (unused_onEmptyRoot _) hcalls).1 failsLast_leavesLittle

/-- The length prefix is in the buffer when the flush for the frame's bytes fails. -/
def exampleFailed : StoreCall := .failed exampleLarge 4 0 (by
  rw [encodeRecord_length, exampleLarge_length]
  decide)

/-- Then the frame that is stored next does not come back. -/
theorem stored_frame_lost : ¬ ∀ (st : LocalStorage) (source : SourceId) (start : UInt64)
    (calls : List StoreCall), st.Unused source → st.OneSegment source start calls →
      st.ReturnsStored source calls := by
  intro h
  have hcalls : (onEmptyRoot ⟨10⟩).OneSegment exampleLarge.source 0
      [exampleFailed, .stored exampleSmall] := by
    refine ⟨?_, ?_, by decide⟩ <;> rintro c (_ | ⟨_, _ | ⟨_, ⟨⟩⟩⟩)
    · rfl
    · rfl
    · decide
    · decide
  have hleft := left_of_returnsStored (unused_onEmptyRoot _) hcalls
    (h _ _ _ _ (unused_onEmptyRoot _) hcalls)
  have hpref : (exampleFailed.left).length = 4 := by
    show ((encodeRecord exampleLarge).take 4).length = 4
    rw [List.length_take, encodeRecord_length, exampleLarge_length]
    rfl
  rw [List.flatMap_cons, List.length_append, hpref] at hleft
  omega

end LocalStorage

end Kodama
