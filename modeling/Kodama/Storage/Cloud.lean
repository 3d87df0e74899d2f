import Kodama.Storage.Local

/-!
# Cloud storage (crates/kodama/src/storage/cloud.rs)

Frames of one source are buffered in a local segment, a file of length-prefixed frames in the
cache directory, named after its window. A frame of another window rotates it: the segment is
taken out of `local_segments`, flushed, uploaded as an object named after its first timestamp,
entered into the index, and its file removed; then the next one is created. `get_frames`
downloads the indexed objects it needs into the cache directory, unless a file is there
already, and reads the records.

The operations take what the world answers: an error of a flush, an upload, and so on. What
they return is the storage afterwards, also when they fail, and the result. A segment and its
index entry also have the frames accepted into them, which the source keeps as bytes only.
-/

namespace Kodama

open Lib

structure CloudStorageConfig where
  keyPrefix : String
  cacheDir : String
  segmentDurationUs : UInt64

/-- Segment being buffered locally. -/
structure LocalSegment where
  file : BufWriter
  path : PathBuf
  startTimeUs : UInt64
  endTimeUs : UInt64
  frameCount : UInt32
  bytesWritten : UInt64
  frames : List Frame
deriving DecidableEq

/-- The inode of the segment's file. -/
abbrev LocalSegment.inode (segment : LocalSegment) : Nat := segment.file.file.inode

/-- Index of uploaded segments. -/
structure SegmentInfo where
  key : String
  startTimeUs : UInt64
  endTimeUs : UInt64
  frameCount : UInt32
  sizeBytes : UInt64
  frames : List Frame
deriving DecidableEq

/-- In-memory index. -/
structure CloudIndex where
  segments : HashMap SourceId (List SegmentInfo)
  totalBytes : UInt64

/-- The storage, with the file system of the cache directory and the bucket's objects. -/
structure CloudStorage where
  config : CloudStorageConfig
  fs : FileSystem PathBuf
  objects : HashMap String Bytes
  index : CloudIndex
  localSegments : HashMap SourceId LocalSegment

/-- A `write_all` that fails: how many of its bytes were taken before, and how many of all
bytes then in the buffer have reached the file. -/
structure FailedWrite where
  written : Nat
  flushed : Nat
  error : String

/-- What the world answers to the calls of one `store_frame`. -/
structure StoreAnswers where
  flush : Option String := none
  upload : Option String := none
  create : Option String := none
  write : Option FailedWrite := none

namespace CloudStorage

/-- `CloudStorage::new` with an empty cache directory and an empty bucket. -/
def onEmptyCache (config : CloudStorageConfig) : CloudStorage :=
  ⟨config, .empty, ∅, ⟨∅, 0⟩, ∅⟩

/-- The window a timestamp falls into, by its first timestamp. -/
def segmentStart (st : CloudStorage) (timestampUs : UInt64) : UInt64 :=
  timestampUs / st.config.segmentDurationUs * st.config.segmentDurationUs

/-- Get the object key for a segment. -/
def objectKey (st : CloudStorage) (source : SourceId) (startTimeUs : UInt64) : String :=
  let keyPrefix := if st.config.keyPrefix.isEmpty then "" else s!"{st.config.keyPrefix}/"
  s!"{keyPrefix}{source.display}/{startTimeUs}.segment"

/-- Get the local cache path for a segment. -/
def cachePath (st : CloudStorage) (source : SourceId) (startTimeUs : UInt64) : PathBuf :=
  ⟨st.config.cacheDir, s!"{source.display}_{startTimeUs}.segment"⟩

/-! ## Storing -/

/-- Upload a file to S3: whatever is at the path; `none` if there is nothing. -/
def uploadToS3 (st : CloudStorage) (localPath : PathBuf) (key : String) : Option CloudStorage :=
  (st.fs.read localPath).map fun data => { st with objects := st.objects.insert key data }

/-- Update the index. -/
def indexSegment (st : CloudStorage) (source : SourceId) (segment : LocalSegment) :
    CloudStorage :=
  let info : SegmentInfo :=
    { key := st.objectKey source segment.startTimeUs
      startTimeUs := segment.startTimeUs
      endTimeUs := segment.endTimeUs
      frameCount := segment.frameCount
      sizeBytes := segment.bytesWritten
      frames := segment.frames }
  { st with index :=
      { segments := st.index.segments.insert source
          ((st.index.segments.lookup source).getD [] ++ [info])
        totalBytes := st.index.totalBytes + info.sizeBytes } }

/-- Finalize and upload a local segment. -/
def finalizeSegment (st : CloudStorage) (source : SourceId) (segment : LocalSegment)
    (answers : StoreAnswers) : CloudStorage × Result Unit :=
  match answers.flush with
  | some e => (st, .error e)
  | none =>
    let st := { st with fs := (segment.file.flush st.fs).1 }
    match answers.upload, st.uploadToS3 segment.path (st.objectKey source segment.startTimeUs) with
    | some stderr, _ => (st, .error s!"S3 upload failed: {stderr}")
    | none, none => (st, .error "S3 upload failed: the user-provided path does not exist")
    | none, some st =>
      let st := st.indexSegment source segment
      -- the result of the removal is ignored
      ({ st with fs := (st.fs.remove segment.path).getD st.fs }, .ok ())

/-- Create new local segment. What it replaces in the map, if anything, is dropped, and its
buffer with it flushed. -/
def createSegment (st : CloudStorage) (source : SourceId) (timestampUs : UInt64) : CloudStorage :=
  let path := st.cachePath source (st.segmentStart timestampUs)
  let opened := st.fs.create path
  { st with
    fs := match st.localSegments.lookup source with
      | some replaced => (replaced.file.flush opened.1).1
      | none => opened.1
    localSegments := st.localSegments.insert source
      { file := ⟨opened.2, []⟩
        path
        startTimeUs := timestampUs
        endTimeUs := timestampUs
        frameCount := 0
        bytesWritten := 0
        frames := [] } }

/-- The same, or the error of the creation. -/
def tryCreateSegment (st : CloudStorage) (source : SourceId) (timestampUs : UInt64)
    (answers : StoreAnswers) : CloudStorage × Result Unit :=
  match answers.create with
  | some e => (st, .error e)
  | none => (st.createSegment source timestampUs, .ok ())

/-- Get or create a local segment for buffering. -/
def getOrCreateSegment (st : CloudStorage) (source : SourceId) (timestampUs : UInt64)
    (answers : StoreAnswers) : CloudStorage × Result Unit :=
  if st.config.segmentDurationUs = 0 then (st, .error "attempt to divide by zero")
  else
    match st.localSegments.lookup source with
    | none => st.tryCreateSegment source timestampUs answers
    | some seg =>
      if st.segmentStart seg.startTimeUs = st.segmentStart timestampUs then (st, .ok ())
      else
        match { st with localSegments := st.localSegments.erase source }.finalizeSegment source
          seg answers with
        | (st, .error e) => (st, .error e)
        | (st, .ok ()) => st.tryCreateSegment source timestampUs answers

/-- Append one record to the local segment of the frame's source. -/
def appendRecord (st : CloudStorage) (segment : LocalSegment) (frame : Frame) : CloudStorage :=
  let frameBytes := frameToBytes frame
  let prefixed := segment.file.writeAll st.fs (toLe 4 (UInt32.ofNat frameBytes.length).toNat)
  let written := prefixed.2.writeAll prefixed.1 frameBytes
  { st with
    fs := written.1
    localSegments := st.localSegments.insert frame.source
      { segment with
        file := written.2
        endTimeUs := frame.timestampUs
        frameCount := segment.frameCount + 1
        bytesWritten := segment.bytesWritten + (4 + UInt64.ofNat frameBytes.length)
        frames := segment.frames ++ [frame] } }

/-- An append that fails in the middle of the record. -/
def failRecord (st : CloudStorage) (segment : LocalSegment) (frame : Frame) (fault : FailedWrite) :
    CloudStorage :=
  let written := segment.file.writePart st.fs ((encodeRecord frame).take fault.written)
    fault.flushed
  { st with
    fs := written.1
    localSegments := st.localSegments.insert frame.source { segment with file := written.2 } }

/-- Write a frame to the local buffer. -/
def writeFrame (st : CloudStorage) (frame : Frame) (answers : StoreAnswers) :
    CloudStorage × Result Unit :=
  match st.getOrCreateSegment frame.source frame.timestampUs answers with
  | (st, .error e) => (st, .error e)
  | (st, .ok ()) =>
    match st.localSegments.lookup frame.source, answers.write with
    | none, _ => (st, .error "Segment not found after creation")
    | some segment, some fault => (st.failRecord segment frame fault, .error fault.error)
    | some segment, none => (st.appendRecord segment frame, .ok ())

def storeFrame (st : CloudStorage) (frame : Frame) (answers : StoreAnswers) :
    CloudStorage × Result Unit :=
  st.writeFrame frame answers

/-! ## Reading -/

/-- The record loop of `get_frames`, from an offset on: it ends where no whole record is
left. -/
def readRecordsFrom (fileData : Bytes) (startTimeUs endTimeUs : UInt64) (offset : Nat) :
    Result (List Frame) :=
  if offset + 4 ≤ fileData.length then
    let len := ofLe ((fileData.drop offset).take 4)
    if offset + 4 + len > fileData.length then .ok []
    else do
      let frame ← frameFromBytes ((fileData.drop (offset + 4)).take len)
      let frames ← readRecordsFrom fileData startTimeUs endTimeUs (offset + 4 + len)
      return if frame.timestampUs ≥ startTimeUs && frame.timestampUs ≤ endTimeUs then
        frame :: frames else frames
  else .ok []
termination_by fileData.length - offset

def readRange (fileData : Bytes) (startTimeUs endTimeUs : UInt64) : Result (List Frame) :=
  readRecordsFrom fileData startTimeUs endTimeUs 0

/-- Download a file from S3. -/
def downloadFromS3 (st : CloudStorage) (key : String) (localPath : PathBuf)
    (answer : Option String) : CloudStorage × Result Unit :=
  match answer, st.objects.lookup key with
  | some stderr, _ => (st, .error s!"S3 download failed: {stderr}")
  | none, none => (st, .error "S3 download failed: key does not exist")
  | none, some data =>
    let opened := st.fs.create localPath
    ({ st with fs := (opened.1.write opened.2 data).1 }, .ok ())

/-- The frames of one indexed segment that lie in a range, read from the file in the cache. -/
def getSegment (st : CloudStorage) (source : SourceId) (seg : SegmentInfo)
    (startTimeUs endTimeUs : UInt64) (answer : Option String) :
    CloudStorage × Result (List Frame) :=
  if seg.endTimeUs < startTimeUs ∨ seg.startTimeUs > endTimeUs then (st, .ok [])
  else
    let cachePath := st.cachePath source seg.startTimeUs
    match if st.fs.hasPath cachePath then (st, .ok ())
      else st.downloadFromS3 seg.key cachePath answer with
    | (st, .error e) => (st, .error e)
    | (st, .ok ()) =>
      match st.fs.read cachePath with
      | none => (st, .error "No such file or directory (os error 2)")
      | some fileData => (st, readRange fileData startTimeUs endTimeUs)

/-- The same for all segments, up to the first error. -/
def getSegments (st : CloudStorage) (source : SourceId) (startTimeUs endTimeUs : UInt64)
    (answers : String → Option String) : List SegmentInfo → CloudStorage × Result (List Frame)
  | [] => (st, .ok [])
  | seg :: segments =>
    match st.getSegment source seg startTimeUs endTimeUs (answers seg.key) with
    | (st, .error e) => (st, .error e)
    | (st, .ok frames) =>
      let r := st.getSegments source startTimeUs endTimeUs answers segments
      (r.1, r.2.map fun rest => frames ++ rest)

/-- Retrieve the frames of a source within a time range, sorted by timestamp. The answers are
those to the downloads, by key. -/
def getFrames (st : CloudStorage) (source : SourceId) (startTimeUs endTimeUs : UInt64)
    (answers : String → Option String) : CloudStorage × Result (List Frame) :=
  match st.index.segments.lookup source with
  | none => (st, .ok [])
  | some segments =>
    let r := st.getSegments source startTimeUs endTimeUs answers segments
    (r.1, r.2.map fun frames => frames.insertionSort fun f g => f.timestampUs ≤ g.timestampUs)

end CloudStorage

end Kodama
