import Kodama.Lib.FileSystem
import Kodama.Transport.Framing
import Mathlib.Data.List.Sort

/-!
# Local storage (crates/kodama/src/storage/local.rs)

Frames of one source go to segment files, one per window of the configured duration. A
segment file is a 20-byte header (start, end, frame count) and then length-prefixed frames.
The open segment of a source is a buffered writer; finalizing it writes the header and puts
an entry into the index, from which `getFrames` picks the files to read and `cleanup` the
files to delete.

This module embeds the operations as they are, on a file system whose calls succeed (a
deletion may fail): a file is opened with `truncate`, an entry's end time is the timestamp
written last, its start time the timestamp written first. Paths are relative to the storage
root. The lemmas say what each operation does to the file system, index and writers, and
that reading a sequence of records gives the frames they were written from.
-/

namespace Kodama

open Lib

structure LocalStorageConfig where
  segmentDurationUs : UInt64

/-- Index entry for a segment file. -/
structure SegmentIndex where
  path : PathBuf
  startTimeUs : UInt64
  endTimeUs : UInt64
  frameCount : UInt32
  sizeBytes : UInt64
deriving DecidableEq

/-- In-memory index for fast lookups. -/
structure StorageIndex where
  segments : HashMap SourceId (List SegmentIndex)
  totalBytes : UInt64

/-- Writer for a single segment file. -/
structure SegmentWriter where
  file : BufWriter
  path : PathBuf
  startTimeUs : UInt64
  endTimeUs : UInt64
  frameCount : UInt32
  bytesWritten : UInt64
deriving DecidableEq

/-- The inode of the segment's file. -/
abbrev SegmentWriter.inode (writer : SegmentWriter) : Nat := writer.file.file.inode

/-- The index entry of the segment once it is finalized. -/
def SegmentWriter.segIndex (writer : SegmentWriter) : SegmentIndex where
  path := writer.path
  startTimeUs := writer.startTimeUs
  endTimeUs := writer.endTimeUs
  frameCount := writer.frameCount
  sizeBytes := writer.bytesWritten

structure LocalStorage where
  config : LocalStorageConfig
  fs : FileSystem PathBuf
  index : StorageIndex
  writers : HashMap SourceId SegmentWriter

/-- A length-prefixed frame, as `store_frame` writes it. -/
def encodeRecord (frame : Frame) : Bytes :=
  toLe 4 (UInt32.ofNat (frameToBytes frame).length).toNat ++ frameToBytes frame

/-- `Read::read_exact`. -/
def readExactFile (n : Nat) (file : Bytes) : Result (Bytes × Bytes) :=
  match takeExact n file with
  | some r => .ok r
  | none => .error "failed to fill whole buffer"

/-- The record loop of `get_frames`: it ends where no length prefix can be read any more.
Every round takes at least the prefix, so the length of the file is fuel enough. -/
def readRecordsLoop : Nat → Bytes → Result (List Frame)
  | 0, _ => .ok []
  | n + 1, file =>
    match takeExact 4 file with
    | none => .ok []
    | some (lenBytes, file) => do
      let (frameBytes, file) ← readExactFile (ofLe lenBytes) file
      let frame ← frameFromBytes frameBytes
      let frames ← readRecordsLoop n file
      return frame :: frames

def readRecords (file : Bytes) : Result (List Frame) := readRecordsLoop file.length file

namespace LocalStorage

/-- `LocalStorage::new` on an empty root directory. -/
def onEmptyRoot (config : LocalStorageConfig) : LocalStorage :=
  ⟨config, .empty, ⟨∅, 0⟩, ∅⟩

/-- The window a timestamp falls into, by its first timestamp. -/
def segmentStart (st : LocalStorage) (timestampUs : UInt64) : UInt64 :=
  timestampUs / st.config.segmentDurationUs * st.config.segmentDurationUs

/-- The segment path for a source and timestamp. -/
def segmentPath (st : LocalStorage) (source : SourceId) (timestampUs : UInt64) : PathBuf :=
  ⟨source.display, s!"{st.segmentStart timestampUs}.segment"⟩

/-- Open the segment file, emptying it if it exists, and write the placeholder header. -/
def createSegment (st : LocalStorage) (source : SourceId) (timestampUs : UInt64) : LocalStorage :=
  let opened := st.fs.create (st.segmentPath source timestampUs)
  let written := BufWriter.writeAll ⟨opened.2, []⟩ opened.1 (List.replicate 20 0)
  { st with
    fs := written.1
    writers := st.writers.insert source
      { file := written.2
        path := st.segmentPath source timestampUs
        startTimeUs := timestampUs
        endTimeUs := timestampUs
        frameCount := 0
        bytesWritten := 20 } }

/-- Seek to the start of the file and write the final values over the placeholder header. -/
def writeHeader (writer : SegmentWriter) (fs : FileSystem PathBuf) (file : Handle) :
    FileSystem PathBuf :=
  let first := fs.write { file with pos := 0 } (toLe 8 writer.startTimeUs.toNat)
  let second := first.1.write first.2 (toLe 8 writer.endTimeUs.toNat)
  let third := second.1.write second.2 (toLe 4 writer.frameCount.toNat)
  third.1

/-- Flush the writer, update the header, and add the index entry. -/
def finalizeSegment (st : LocalStorage) (source : SourceId) (writer : SegmentWriter) :
    LocalStorage :=
  let flushed := writer.file.flush st.fs
  { st with
    fs := writeHeader writer flushed.1 flushed.2.file
    index :=
      { segments := st.index.segments.insert source
          ((st.index.segments.lookup source).getD [] ++ [writer.segIndex])
        totalBytes := st.index.totalBytes + writer.segIndex.sizeBytes } }

/-- `writers.remove(&source)` followed by `finalize_segment`. -/
def closeSegment (st : LocalStorage) (source : SourceId) : LocalStorage :=
  match st.writers.lookup source with
  | some writer =>
    { st with writers := st.writers.erase source }.finalizeSegment source writer
  | none => st

/-- Make the source's open segment the one of the timestamp's window. -/
def getOrCreateWriter (st : LocalStorage) (source : SourceId) (timestampUs : UInt64) :
    Result LocalStorage :=
  if st.config.segmentDurationUs = 0 then .error "attempt to divide by zero"
  else
    match st.writers.lookup source with
    | some writer =>
      if st.segmentStart writer.startTimeUs = st.segmentStart timestampUs then .ok st
      else .ok ((st.closeSegment source).createSegment source timestampUs)
    | none => .ok (st.createSegment source timestampUs)

/-- Append one record to an open segment. -/
def writeRecord (writer : SegmentWriter) (fs : FileSystem PathBuf) (frame : Frame) :
    FileSystem PathBuf × SegmentWriter :=
  let frameBytes := frameToBytes frame
  let prefixed := writer.file.writeAll fs (toLe 4 (UInt32.ofNat frameBytes.length).toNat)
  let written := prefixed.2.writeAll prefixed.1 frameBytes
  (written.1,
    { writer with
      file := written.2
      endTimeUs := frame.timestampUs
      frameCount := writer.frameCount + 1
      bytesWritten := writer.bytesWritten + (4 + UInt64.ofNat frameBytes.length) })

/-- `store_frame` once the writer has been looked up. -/
def appendRecord (st : LocalStorage) (writer : SegmentWriter) (frame : Frame) : LocalStorage :=
  let written := writeRecord writer st.fs frame
  { st with fs := written.1, writers := st.writers.insert frame.source written.2 }

/-- Store a frame. -/
def storeFrame (st : LocalStorage) (frame : Frame) : Result LocalStorage := do
  let st ← st.getOrCreateWriter frame.source frame.timestampUs
  match st.writers.lookup frame.source with
  | none => throw "Writer not found after creation"
  | some writer => return st.appendRecord writer frame

/-- Finalize every open segment. -/
def flush (st : LocalStorage) : LocalStorage :=
  st.writers.keys.foldl closeSegment st

/-- The frames of one indexed segment that lie in a range. -/
def readSegment (fs : FileSystem PathBuf) (seg : SegmentIndex) (startTimeUs endTimeUs : UInt64) :
    Result (List Frame) :=
  if seg.endTimeUs < startTimeUs ∨ seg.startTimeUs > endTimeUs then .ok []
  else
    match fs.read seg.path with
    | none => .error "No such file or directory (os error 2)"
    | some file => do
      let frames ← readRecords (file.drop 20)
      return frames.filter fun frame =>
        frame.timestampUs ≥ startTimeUs && frame.timestampUs ≤ endTimeUs

/-- Retrieve the frames of a source within a time range, sorted by timestamp. -/
def getFrames (st : LocalStorage) (source : SourceId) (startTimeUs endTimeUs : UInt64) :
    Result (List Frame) :=
  match st.index.segments.lookup source with
  | none => .ok []
  | some segments => do
    let frames ← segments.mapM fun seg => readSegment st.fs seg startTimeUs endTimeUs
    return frames.flatten.insertionSort fun f g => f.timestampUs ≤ g.timestampUs

/-- One pass over the segments of a source: delete the files of those that ended before the
cutoff, and collect the positions whose deletion worked. -/
def deleteSegments (unlinkFails : Nat → Bool) (beforeTimestampUs : UInt64) :
    List (SegmentIndex × Nat) → FileSystem PathBuf × UInt64 →
    (FileSystem PathBuf × UInt64) × List Nat
  | [], acc => (acc, [])
  | (seg, i) :: segments, (fs, deletedBytes) =>
    if seg.endTimeUs < beforeTimestampUs then
      match if unlinkFails i then none else fs.remove seg.path with
      | none => deleteSegments unlinkFails beforeTimestampUs segments (fs, deletedBytes)
      | some fs =>
        let r := deleteSegments unlinkFails beforeTimestampUs segments
          (fs, deletedBytes + seg.sizeBytes)
        (r.1, i :: r.2)
    else deleteSegments unlinkFails beforeTimestampUs segments (fs, deletedBytes)

/-- Remove the collected positions from a source's segments, last first. -/
def removePositions (segments : List SegmentIndex) (toRemove : List Nat) : List SegmentIndex :=
  toRemove.reverse.foldl (fun segments i => segments.eraseIdx i) segments

/-- `cleanup` for one source. -/
def cleanupSource (unlinkFails : SourceId → Nat → Bool) (beforeTimestampUs : UInt64)
    (acc : (FileSystem PathBuf × UInt64) × HashMap SourceId (List SegmentIndex))
    (entry : SourceId × List SegmentIndex) :
    (FileSystem PathBuf × UInt64) × HashMap SourceId (List SegmentIndex) :=
  let r := deleteSegments (unlinkFails entry.1) beforeTimestampUs entry.2.zipIdx acc.1
  (r.1, acc.2.insert entry.1 (removePositions entry.2 r.2))

/-- Delete the segments that ended before a timestamp; also the bytes freed.
`unlinkFails source i` says that deleting the file of the `i`-th segment fails. -/
def cleanup (st : LocalStorage) (beforeTimestampUs : UInt64)
    (unlinkFails : SourceId → Nat → Bool) : LocalStorage × UInt64 :=
  let r := (st.index.segments.entries.map fun e => (e.1, e.2)).foldl
    (cleanupSource unlinkFails beforeTimestampUs) ((st.fs, 0), st.index.segments)
  let totalBytes := if r.1.2 ≤ st.index.totalBytes then st.index.totalBytes - r.1.2 else 0
  ({ st with fs := r.1.1, index := ⟨r.2, totalBytes⟩ }, r.1.2)

/-- The bytes of all indexed segments. -/
def usageBytes (st : LocalStorage) : UInt64 := st.index.totalBytes

end LocalStorage

/-! ## Records -/

/-- A frame whose record reads back as itself: its channel is one the decoder produces, and
its length fits the prefix. -/
def Recordable (frame : Frame) : Prop :=
  frame.channel.Canonical ∧ (frameToBytes frame).length < 2 ^ 32

instance (frame : Frame) : Decidable (Recordable frame) :=
  inferInstanceAs (Decidable (frame.channel.Canonical ∧ (frameToBytes frame).length < 2 ^ 32))

theorem encodeRecord_length (frame : Frame) :
    (encodeRecord frame).length = 4 + (frameToBytes frame).length := by
  rw [encodeRecord, List.length_append, toLe_length]

theorem ofLe_recordPrefix {frame : Frame} (h : Recordable frame) :
    ofLe (toLe 4 (UInt32.ofNat (frameToBytes frame).length).toNat) =
      (frameToBytes frame).length := by
  have hlt : (frameToBytes frame).length < 256 ^ 4 := h.2
  rw [UInt32.toNat_ofNat_of_lt' h.2, ofLe_toLe_of_lt hlt]

/-- The record loop reads whole records one by one, with any fuel that covers the bytes. -/
theorem readRecordsLoop_append {frames : List Frame} (h : ∀ f ∈ frames, Recordable f)
    (rest : Bytes) : ∀ n, (frames.flatMap encodeRecord ++ rest).length ≤ n →
      ∃ m, rest.length ≤ m ∧ readRecordsLoop n (frames.flatMap encodeRecord ++ rest) =
        (readRecordsLoop m rest).map fun read => frames ++ read := by
  induction frames with
  | nil =>
    intro n hn
    refine ⟨n, hn, ?_⟩
    show readRecordsLoop n rest = _
    cases readRecordsLoop n rest <;> rfl
  | cons f frames ih =>
    intro n hn
    rw [List.flatMap_cons, List.append_assoc, List.length_append, encodeRecord_length] at hn
    obtain ⟨n, rfl⟩ : ∃ m, n = m + 1 := ⟨n - 1, by omega⟩
    have hf := h f List.mem_cons_self
    obtain ⟨m, hm, hloop⟩ := ih (fun g hg => h g (List.mem_cons_of_mem _ hg)) n (by omega)
    refine ⟨m, hm, ?_⟩
    rw [List.flatMap_cons, List.append_assoc, encodeRecord, List.append_assoc, readRecordsLoop,
      takeExact_append _ (toLe_length _ _)]
    simp only [bind, Except.bind, readExactFile, ofLe_recordPrefix hf, takeExact_append _ rfl,
      frameFromBytes_frameToBytes_canonical hf.1, hloop, pure, Except.pure]
    cases readRecordsLoop m rest <;> rfl

/-- The record loop undoes the writes. -/
theorem readRecords_flatMap {frames : List Frame} (h : ∀ f ∈ frames, Recordable f) :
    readRecords (frames.flatMap encodeRecord) = .ok frames := by
  obtain ⟨m, -, hloop⟩ := readRecordsLoop_append h [] _ (Nat.le_refl _)
  rw [List.append_nil] at hloop
  rw [readRecords, hloop]
  cases m <;> exact congrArg Except.ok (List.append_nil frames)

/-! ## Segment files -/

/-- The header of a finalized segment. -/
def segmentHeader (writer : SegmentWriter) : Bytes :=
  toLe 8 writer.startTimeUs.toNat ++ toLe 8 writer.endTimeUs.toNat ++
    toLe 4 writer.frameCount.toNat

theorem segmentHeader_length (writer : SegmentWriter) : (segmentHeader writer).length = 20 := by
  rw [segmentHeader, List.length_append, List.length_append, toLe_length, toLe_length,
    toLe_length]

/-- The name of a segment file: decimal digits and the extension. -/
theorem segmentFile_toList (n : UInt64) :
    (s!"{n}.segment").toList = Nat.toDigits 10 n.toNat ++ ".segment".toList := by
  show (toString n ++ ".segment").toList = _
  rw [String.toList_append]
  congr 1
  show (toString n.toNat).toList = _
  simp [Nat.repr, toString]

/-- The number in a segment file's name can be read off it. -/
theorem segmentFile_inj {a b : UInt64} (h : s!"{a}.segment" = s!"{b}.segment") : a = b := by
  have hlist := congrArg String.toList h
  rw [segmentFile_toList, segmentFile_toList] at hlist
  have hnumber := congrArg (fun digits => Nat.ofDigitChars 10 digits 0)
    (List.append_cancel_right hlist)
  simp only [Nat.ofDigitChars_ten_toDigits] at hnumber
  exact UInt64.toNat_inj.mp hnumber

namespace LocalStorage

variable {st : LocalStorage} {fs : FileSystem PathBuf} {source : SourceId}
  {writer : SegmentWriter} {content body : Bytes}

/-- Segments of different windows have different files. -/
theorem segmentStart_eq_of_segmentPath_eq {a b : UInt64}
    (h : st.segmentPath source a = st.segmentPath source b) :
    st.segmentStart a = st.segmentStart b :=
  segmentFile_inj (congrArg PathBuf.file h)

/-- Writing a record changes the file of the open segment only. -/
theorem writeRecord_sameBut (writer : SegmentWriter) (fs : FileSystem PathBuf) (frame : Frame) :
    fs.SameBut (writeRecord writer fs frame).1 writer.inode ∧
      (writeRecord writer fs frame).2.inode = writer.inode :=
  writer.file.writeAll_twice_sameBut fs _ _

/-- Writing a record appends it to what the open segment has been given. -/
theorem writeRecord_holds (h : writer.file.Holds fs content) (frame : Frame) :
    (writeRecord writer fs frame).2.file.Holds (writeRecord writer fs frame).1
      (content ++ encodeRecord frame) :=
  BufWriter.writeAll_twice_holds h _ _

/-- Appending keeps the source's writer on its file. -/
theorem lookup_appendRecord (st : LocalStorage) (writer : SegmentWriter) (frame : Frame) :
    ∃ writer', (st.appendRecord writer frame).writers = st.writers.insert frame.source writer' ∧
      writer'.inode = writer.inode ∧ writer'.path = writer.path ∧
      writer'.startTimeUs = writer.startTimeUs :=
  ⟨_, rfl, (writeRecord_sameBut writer st.fs frame).2, rfl, rfl⟩

/-- The file a new segment is opened on. -/
def createdInode (st : LocalStorage) (source : SourceId) (timestampUs : UInt64) : Nat :=
  (st.fs.create (st.segmentPath source timestampUs)).2.inode

/-- Opening a segment leaves a writer that holds the placeholder header. -/
theorem createSegment_spec (st : LocalStorage) (source : SourceId) (timestampUs : UInt64) :
    ∃ writer, (st.createSegment source timestampUs).writers =
        st.writers.insert source writer ∧
      writer.path = st.segmentPath source timestampUs ∧
      writer.startTimeUs = timestampUs ∧
      writer.inode = st.createdInode source timestampUs ∧
      writer.file.Holds (st.createSegment source timestampUs).fs (List.replicate 20 0) ∧
      (st.fs.create (st.segmentPath source timestampUs)).1.SameBut
        (st.createSegment source timestampUs).fs (st.createdInode source timestampUs) := by
  have hempty : (⟨(st.fs.create (st.segmentPath source timestampUs)).2, []⟩ : BufWriter).Holds
      (st.fs.create (st.segmentPath source timestampUs)).1 [] := by
    constructor
    · rw [FileSystem.create_data]
      exact FileSystem.create_pos _ _
    · rw [FileSystem.create_data]
      rfl
  have hheader := BufWriter.writeAll_holds hempty (List.replicate 20 0)
  obtain ⟨hsame, hinode⟩ := BufWriter.writeAll_sameBut
    ⟨(st.fs.create (st.segmentPath source timestampUs)).2, []⟩
    (st.fs.create (st.segmentPath source timestampUs)).1 (List.replicate 20 0)
  exact ⟨_, rfl, rfl, rfl, hinode, hheader, hsame⟩

theorem createSegment_inode {timestampUs : UInt64}
    (h : (st.createSegment source timestampUs).writers.lookup source = some writer) :
    writer.inode = st.createdInode source timestampUs := by
  obtain ⟨writer', hwriters, -, -, hinode, -, -⟩ := createSegment_spec st source timestampUs
  rw [hwriters, AList.lookup_insert] at h
  rw [← Option.some.inj h, hinode]

/-- Updating the header changes the segment's file only. -/
theorem writeHeader_sameBut (writer : SegmentWriter) (fs : FileSystem PathBuf) (file : Handle) :
    fs.SameBut (writeHeader writer fs file) file.inode := by
  let first := fs.write { file with pos := 0 } (toLe 8 writer.startTimeUs.toNat)
  let second := first.1.write first.2 (toLe 8 writer.endTimeUs.toNat)
  have hfirst : fs.SameBut first.1 file.inode := FileSystem.write_sameBut _ _ _
  have hsecond : first.1.SameBut second.1 file.inode := FileSystem.write_sameBut _ _ _
  exact (hfirst.trans hsecond).trans (FileSystem.write_sameBut second.1 second.2 _)

/-- Updating the header replaces the first 20 bytes of a file. -/
theorem writeHeader_data (writer : SegmentWriter) (file : Handle) {placeholder : Bytes}
    (hlen : placeholder.length = 20) (h : fs.data file.inode = placeholder ++ body) :
    (writeHeader writer fs file).data file.inode = segmentHeader writer ++ body := by
  -- the placeholder falls into the places of the three fields
  obtain ⟨a, b, c, rfl, ha, hb, hc⟩ : ∃ a b c : Bytes, placeholder = a ++ b ++ c ∧
      a.length = 8 ∧ b.length = 8 ∧ c.length = 4 := by
    refine ⟨placeholder.take 8, (placeholder.drop 8).take 8, (placeholder.drop 8).drop 8,
      ?_, ?_, ?_, ?_⟩
    · rw [List.append_assoc, List.take_append_drop, List.take_append_drop]
    · rw [List.length_take, hlen]
      rfl
    · rw [List.length_take, List.length_drop, hlen]
      rfl
    · rw [List.length_drop, List.length_drop, hlen]
  let first := fs.write { file with pos := 0 } (toLe 8 writer.startTimeUs.toNat)
  let second := first.1.write first.2 (toLe 8 writer.endTimeUs.toNat)
  have hstart : (toLe 8 writer.startTimeUs.toNat).length = a.length := by rw [toLe_length, ha]
  have hend : (toLe 8 writer.endTimeUs.toNat).length = b.length := by rw [toLe_length, hb]
  have hcount : (toLe 4 writer.frameCount.toNat).length = c.length := by rw [toLe_length, hc]
  have hfirst : first.1.data file.inode =
      toLe 8 writer.startTimeUs.toNat ++ (b ++ (c ++ body)) := by
    refine (FileSystem.write_data fs _ _).trans ?_
    have hover := FileSystem.overwrite_inside [] (b ++ (c ++ body)) hstart
    rw [List.nil_append, List.nil_append] at hover
    rw [h, List.append_assoc, List.append_assoc]
    exact hover
  have hsecond : second.1.data file.inode =
      toLe 8 writer.startTimeUs.toNat ++ toLe 8 writer.endTimeUs.toNat ++ (c ++ body) := by
    refine (FileSystem.write_data first.1 _ _).trans ?_
    have hpos : first.2.pos = (toLe 8 writer.startTimeUs.toNat).length := Nat.zero_add _
    have hover :=
      FileSystem.overwrite_inside (toLe 8 writer.startTimeUs.toNat) (c ++ body) hend
    rw [List.append_assoc] at hover
    rw [hpos, show first.1.data first.2.inode = _ from hfirst]
    exact hover
  refine (FileSystem.write_data second.1 _ _).trans ?_
  -- the third field goes behind the first two
  have hpos : second.2.pos =
      (toLe 8 writer.startTimeUs.toNat ++ toLe 8 writer.endTimeUs.toNat).length := by
    rw [List.length_append]
    exact congrArg (· + (toLe 8 writer.endTimeUs.toNat).length) (Nat.zero_add _)
  have hover := FileSystem.overwrite_inside
    (toLe 8 writer.startTimeUs.toNat ++ toLe 8 writer.endTimeUs.toNat) body hcount
  rw [List.append_assoc] at hover
  rw [hpos, show second.1.data second.2.inode = _ from hsecond]
  exact hover

/-- Finalizing a segment changes its own file only. -/
theorem finalizeSegment_sameBut (st : LocalStorage) (source : SourceId) (writer : SegmentWriter) :
    st.fs.SameBut (st.finalizeSegment source writer).fs writer.inode := by
  have hflush := BufWriter.flush_sameBut writer.file st.fs
  exact hflush.trans (writeHeader_sameBut writer _ (writer.file.flush st.fs).2.file)

/-- A finalized segment is its header and what the writer has been given after the
placeholder. -/
theorem finalizeSegment_data (source : SourceId)
    (h : writer.file.Holds st.fs (List.replicate 20 0 ++ body)) :
    (st.finalizeSegment source writer).fs.data writer.inode =
      segmentHeader writer ++ body := by
  have hlen : (List.replicate 20 0 : Bytes).length = 20 := List.length_replicate
  exact writeHeader_data writer (writer.file.flush st.fs).2.file hlen (BufWriter.flush_data h)

/-! ## What each operation does to the state -/

/-- The indexed segments of a source. -/
def segmentsOf (st : LocalStorage) (source : SourceId) : List SegmentIndex :=
  (st.index.segments.lookup source).getD []

/-- The open segment that takes a frame of this timestamp, if there is one. -/
def currentWriter (st : LocalStorage) (source : SourceId) (timestampUs : UInt64) :
    Option SegmentWriter :=
  (st.writers.lookup source).filter fun writer =>
    st.segmentStart writer.startTimeUs = st.segmentStart timestampUs

theorem currentWriter_eq_some {timestampUs : UInt64} :
    st.currentWriter source timestampUs = some writer ↔
      st.writers.lookup source = some writer ∧
        st.segmentStart writer.startTimeUs = st.segmentStart timestampUs := by
  rw [currentWriter, Option.filter_eq_some_iff, decide_eq_true_eq]

theorem closeSegment_of_none (h : st.writers.lookup source = none) :
    st.closeSegment source = st := by
  rw [closeSegment, h]

theorem closeSegment_of_some (h : st.writers.lookup source = some writer) :
    st.closeSegment source =
      { st with writers := st.writers.erase source }.finalizeSegment source writer := by
  rw [closeSegment, h]

@[simp] theorem closeSegment_config (st : LocalStorage) (source : SourceId) :
    (st.closeSegment source).config = st.config := by
  rw [closeSegment]
  split <;> rfl

/-- Closing a segment forgets the writer of that source and no other. -/
theorem lookup_closeSegment (st : LocalStorage) (source k : SourceId) :
    (st.closeSegment source).writers.lookup k =
      if k = source then none else st.writers.lookup k := by
  cases h : st.writers.lookup source with
  | none =>
    rw [closeSegment_of_none h]
    split
    · next hk => rw [hk, h]
    · rfl
  | some writer =>
    rw [closeSegment_of_some h]
    exact HashMap.lookup_erase_ite _ _ _

theorem segmentsOf_finalizeSegment (st : LocalStorage) (source : SourceId)
    (writer : SegmentWriter) (k : SourceId) :
    (st.finalizeSegment source writer).segmentsOf k =
      if k = source then st.segmentsOf source ++ [writer.segIndex] else st.segmentsOf k := by
  show ((st.index.segments.insert source _).lookup k).getD [] = _
  rw [HashMap.lookup_insert_ite]
  split <;> rfl

/-- Closing a segment indexes it. -/
theorem segmentsOf_closeSegment (h : st.writers.lookup source = some writer) (k : SourceId) :
    (st.closeSegment source).segmentsOf k =
      if k = source then st.segmentsOf source ++ [writer.segIndex] else st.segmentsOf k := by
  rw [closeSegment_of_some h, segmentsOf_finalizeSegment]
  rfl

/-- Closing a segment changes no file but its own. -/
theorem closeSegment_sameBut (h : st.writers.lookup source = some writer) :
    st.fs.SameBut (st.closeSegment source).fs writer.inode := by
  rw [closeSegment_of_some h]
  exact finalizeSegment_sameBut { st with writers := st.writers.erase source } source writer

theorem closeSegment_data (h : st.writers.lookup source = some writer)
    (hholds : writer.file.Holds st.fs (List.replicate 20 0 ++ body)) :
    (st.closeSegment source).fs.data writer.inode = segmentHeader writer ++ body := by
  rw [closeSegment_of_some h]
  exact finalizeSegment_data source hholds

/-- No name changes when a segment is closed. -/
theorem closeSegment_names (st : LocalStorage) (source : SourceId) :
    (st.closeSegment source).fs.names = st.fs.names := by
  cases h : st.writers.lookup source with
  | none => rw [closeSegment_of_none h]
  | some writer => exact (closeSegment_sameBut h).names

/-- A frame is appended to the open segment of its window, or to a new one opened after the
open segment of another window, if any, has been closed. -/
theorem storeFrame_cases {frame : Frame} {st' : LocalStorage}
    (h : st.storeFrame frame = .ok st') :
    (∃ writer, st.currentWriter frame.source frame.timestampUs = some writer ∧
      st' = st.appendRecord writer frame) ∨
    (st.currentWriter frame.source frame.timestampUs = none ∧ ∃ opened writer,
      opened = (st.closeSegment frame.source).createSegment frame.source frame.timestampUs ∧
      opened.writers.lookup frame.source = some writer ∧
      st' = opened.appendRecord writer frame) := by
  have happend : ∀ (opened : LocalStorage) writer,
      opened.writers.lookup frame.source = some writer →
      (match opened.writers.lookup frame.source with
        | none => throw "Writer not found after creation"
        | some writer => return opened.appendRecord writer frame : Result LocalStorage) =
        .ok st' → st' = opened.appendRecord writer frame := by
    intro opened writer hlook heq
    rw [hlook] at heq
    exact (Except.ok.inj heq).symm
  have hcreated : ∀ st₁ : LocalStorage, ∃ writer,
      (st₁.createSegment frame.source frame.timestampUs).writers.lookup frame.source =
        some writer := fun st₁ => ⟨_, AList.lookup_insert _⟩
  unfold storeFrame getOrCreateWriter at h
  split at h
  · cases h
  · cases hlook : st.writers.lookup frame.source with
    | none =>
      -- without an open segment there is nothing to close
      rw [hlook] at h
      obtain ⟨writer, hwriter⟩ := hcreated st
      refine .inr ⟨by rw [currentWriter, hlook]; rfl, _, writer, ?_, hwriter,
        happend _ _ hwriter h⟩
      rw [closeSegment_of_none hlook]
    | some writer =>
      rw [hlook] at h
      by_cases hwindow :
          st.segmentStart writer.startTimeUs = st.segmentStart frame.timestampUs
      · simp only [if_pos hwindow] at h
        exact .inl ⟨writer, currentWriter_eq_some.mpr ⟨hlook, hwindow⟩,
          happend _ _ hlook h⟩
      · simp only [if_neg hwindow] at h
        obtain ⟨opened, hopened⟩ := hcreated (st.closeSegment frame.source)
        refine .inr ⟨?_, _, opened, rfl, hopened, happend _ _ hopened h⟩
        rw [currentWriter, hlook, Option.filter_some, if_neg (by simpa using hwindow)]

/-! ## Reading segments -/

theorem bind_ok {α β : Type} {x : Result α} {a : α} (h : x = .ok a) (f : α → Result β) :
    (x >>= f) = f a := by
  rw [h]
  rfl

theorem mapM_ok {α β : Type} {f : α → Result β} {g : α → β} {as : List α}
    (h : ∀ a ∈ as, f a = .ok (g a)) : as.mapM f = .ok (as.map g) := by
  induction as with
  | nil => rfl
  | cons a as ih =>
    rw [List.mapM_cons, bind_ok (h a List.mem_cons_self),
      bind_ok (ih fun b hb => h b (List.mem_cons_of_mem _ hb))]
    rfl

/-- An entry is skipped if its times exclude the range; else its file gives the frames in it
that are in the range. -/
theorem readSegment_of_read {seg : SegmentIndex} {header : Bytes} {frames : List Frame}
    (hread : fs.read seg.path = some (header ++ frames.flatMap encodeRecord))
    (hheader : header.length = 20) (hframes : ∀ f ∈ frames, Recordable f) (a b : UInt64) :
    readSegment fs seg a b =
      .ok (if seg.endTimeUs < a ∨ seg.startTimeUs > b then []
        else frames.filter fun f => f.timestampUs ≥ a && f.timestampUs ≤ b) := by
  rw [readSegment]
  split
  · rfl
  · rw [hread]
    have hrecords : readRecords ((header ++ frames.flatMap encodeRecord).drop 20) = .ok frames := by
      rw [← hheader, List.drop_left, readRecords_flatMap hframes]
    exact bind_ok hrecords _

/-- A segment file read from the index gives the frames in the range, provided the entry's
times bound the timestamps in the file. -/
theorem readSegment_eq {seg : SegmentIndex} {header : Bytes} {frames : List Frame}
    (hread : fs.read seg.path = some (header ++ frames.flatMap encodeRecord))
    (hheader : header.length = 20) (hframes : ∀ f ∈ frames, Recordable f)
    (hbounds : ∀ f ∈ frames, seg.startTimeUs ≤ f.timestampUs ∧ f.timestampUs ≤ seg.endTimeUs)
    (a b : UInt64) :
    readSegment fs seg a b =
      .ok (frames.filter fun f => f.timestampUs ≥ a && f.timestampUs ≤ b) := by
  rw [readSegment_of_read hread hheader hframes]
  split
  · next hskip =>
    rw [List.filter_eq_nil_iff.mpr]
    intro f hf
    obtain ⟨hlo, hhi⟩ := hbounds f hf
    rw [UInt64.le_iff_toNat_le] at hlo hhi
    simp only [ge_iff_le, Bool.and_eq_true, decide_eq_true_eq, UInt64.le_iff_toNat_le, gt_iff_lt,
      UInt64.lt_iff_toNat_lt] at hskip ⊢
    omega
  · rfl

/-- If every segment reads as `g` says, the frames of the source are these, sorted. -/
theorem getFrames_eq {a b : UInt64} {g : SegmentIndex → List Frame}
    (h : ∀ seg ∈ st.segmentsOf source, readSegment st.fs seg a b = .ok (g seg)) :
    st.getFrames source a b = .ok (((st.segmentsOf source).flatMap g).insertionSort
      fun f f' => f.timestampUs ≤ f'.timestampUs) := by
  rw [getFrames]
  rw [segmentsOf] at h ⊢
  cases hlook : st.index.segments.lookup source with
  | none => rfl
  | some segments =>
    rw [hlook] at h
    exact bind_ok (mapM_ok h) _

/-! ## What a cleanup deletes -/

/-- An indexed segment a cleanup at the cutoff deletes: it ended before, and the deletion of
its file, at position `i` of its source, works. -/
def Deletes (unlinkFails : Nat → Bool) (cutoff : UInt64) (seg : SegmentIndex) (i : Nat) : Prop :=
  seg.endTimeUs < cutoff ∧ unlinkFails i = false

/-- A path that a pass over some segments takes away. -/
def DeletesPath (unlinkFails : Nat → Bool) (cutoff : UInt64) (segments : List (SegmentIndex × Nat))
    (p : PathBuf) : Prop :=
  ∃ seg i, (seg, i) ∈ segments ∧ Deletes unlinkFails cutoff seg i ∧ seg.path = p

theorem deletesPath_cons {unlinkFails : Nat → Bool} {cutoff : UInt64} {seg : SegmentIndex} {i : Nat}
    {segments : List (SegmentIndex × Nat)} {p : PathBuf} :
    DeletesPath unlinkFails cutoff ((seg, i) :: segments) p ↔
      (Deletes unlinkFails cutoff seg i ∧ seg.path = p) ∨
        DeletesPath unlinkFails cutoff segments p := by
  constructor
  · rintro ⟨seg', i', hmem, hdeletes⟩
    rcases List.mem_cons.mp hmem with heq | hmem
    · obtain ⟨rfl, rfl⟩ := Prod.mk.inj heq
      exact .inl hdeletes
    · exact .inr ⟨seg', i', hmem, hdeletes⟩
  · rintro (hdeletes | ⟨seg', i', hmem, hdeletes⟩)
    · exact ⟨seg, i, List.mem_cons_self, hdeletes⟩
    · exact ⟨seg', i', List.mem_cons_of_mem _ hmem, hdeletes⟩

/-- Deleting segments takes away the paths of those deleted, and no content. -/
theorem deleteSegments_without (unlinkFails : Nat → Bool) (cutoff : UInt64)
    (segments : List (SegmentIndex × Nat)) (fs : FileSystem PathBuf) (deleted : UInt64) :
    fs.Without (deleteSegments unlinkFails cutoff segments (fs, deleted)).1.1
      (DeletesPath unlinkFails cutoff segments) := by
  induction segments generalizing fs deleted with
  | nil => exact (FileSystem.Without.refl fs).congr fun p _ _ => by simp [DeletesPath]
  | cons head segments ih =>
    obtain ⟨seg, i⟩ := head
    -- an entry whose path stays, or was not there, adds nothing
    have hkeeps : ∀ {fs'}, fs.Without fs' (DeletesPath unlinkFails cutoff segments) →
        (Deletes unlinkFails cutoff seg i → fs.names.lookup seg.path = none) →
        fs.Without fs' (DeletesPath unlinkFails cutoff ((seg, i) :: segments)) := by
      intro fs' hwithout hhead
      refine hwithout.congr fun p inode hp => ?_
      rw [deletesPath_cons, or_iff_right]
      rintro ⟨hdeletes, rfl⟩
      cases hp.symm.trans (hhead hdeletes)
    unfold deleteSegments
    by_cases hend : seg.endTimeUs < cutoff
    · rw [if_pos hend]
      by_cases hfails : unlinkFails i
      · rw [if_pos hfails]
        refine hkeeps (ih fs deleted) fun hdeletes => ?_
        rw [hdeletes.2] at hfails
        cases hfails
      · rw [if_neg hfails]
        split
        · next hremove =>
          refine hkeeps (ih fs deleted) fun _ => ?_
          rw [FileSystem.remove] at hremove
          split at hremove
          · assumption
          · cases hremove
        · next fs₁ hremove =>
          have hdeletes : Deletes unlinkFails cutoff seg i := ⟨hend, Bool.eq_false_iff.mpr hfails⟩
          refine ((FileSystem.remove_without hremove).trans (ih fs₁ _)).congr fun p _ _ => ?_
          rw [deletesPath_cons, and_iff_right hdeletes, eq_comm]
    · rw [if_neg hend]
      exact hkeeps (ih fs deleted) fun hdeletes => absurd hdeletes.1 hend

theorem foldl_cleanupSource_without (unlinkFails : SourceId → Nat → Bool) (cutoff : UInt64)
    (sources : List (SourceId × List SegmentIndex))
    (acc : (FileSystem PathBuf × UInt64) × HashMap SourceId (List SegmentIndex)) :
    acc.1.1.Without (sources.foldl (cleanupSource unlinkFails cutoff) acc).1.1 fun p =>
      ∃ e ∈ sources, DeletesPath (unlinkFails e.1) cutoff e.2.zipIdx p := by
  induction sources generalizing acc with
  | nil => exact (FileSystem.Without.refl _).congr fun p _ _ => by simp
  | cons entry sources ih =>
    have hhead : acc.1.1.Without (cleanupSource unlinkFails cutoff acc entry).1.1 _ :=
      deleteSegments_without (unlinkFails entry.1) cutoff entry.2.zipIdx acc.1.1 acc.1.2
    refine (hhead.trans (ih (cleanupSource unlinkFails cutoff acc entry))).congr fun p _ _ => ?_
    rw [List.exists_mem_cons_iff]

/-- A cleanup takes away exactly the paths of the segments it deletes. -/
theorem cleanup_spec (st : LocalStorage) (cutoff : UInt64) (unlinkFails : SourceId → Nat → Bool) :
    (st.cleanup cutoff unlinkFails).1.fs.inodes = st.fs.inodes ∧
      (st.cleanup cutoff unlinkFails).1.fs.next = st.fs.next ∧
      ∀ p inode, (st.cleanup cutoff unlinkFails).1.fs.names.lookup p = some inode ↔
        st.fs.names.lookup p = some inode ∧
          ∀ source seg i, (seg, i) ∈ (st.segmentsOf source).zipIdx →
            Deletes (unlinkFails source) cutoff seg i → seg.path ≠ p := by
  obtain ⟨hinodes, hnext, hlook⟩ := foldl_cleanupSource_without unlinkFails cutoff
    (st.index.segments.entries.map fun e => (e.1, e.2)) ((st.fs, 0), st.index.segments)
  refine ⟨hinodes, hnext, fun p inode => (hlook p inode).trans (and_congr_right fun _ => ?_)⟩
  constructor
  · intro h source seg i hmem hdeletes hpath
    cases hsegs : st.index.segments.lookup source with
    | none =>
      rw [segmentsOf, hsegs] at hmem
      cases hmem
    | some segments =>
      rw [segmentsOf, hsegs] at hmem
      exact h ⟨(source, segments), HashMap.mem_map_entries_iff.mpr hsegs, seg, i, hmem, hdeletes,
        hpath⟩
  · rintro h ⟨⟨source, segments⟩, hentry, seg, i, hmem, hdeletes, hpath⟩
    refine h source seg i ?_ hdeletes hpath
    rw [segmentsOf, HashMap.mem_map_entries_iff.mp hentry]
    exact hmem

end LocalStorage

end Kodama
