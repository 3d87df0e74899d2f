import Kodama.Storage.Accounting

/-!
# Headers of finalized segments (storage/local.rs)

Finalizing a segment writes its times and its number of frames over the placeholder header,
and puts the same values, with the bytes its writer has counted, into the index. The scan of
`LocalStorage::new` builds its entries from the directory's name, the header and the length of
the file.

`header_reproduces_entry`: the two agree. A segment is opened by a frame after any run, and
until it is finalized other frames are stored, of its source and of others, and files are
deleted; as long as its own file is not one of them, the scan finds the file under the
segment's source and no other, with the entry in the index.

The invariant of the open segment is `Gathers`: its file is there under its name, and what the
writer would put into the index describes the frames the segment has been given.
-/

namespace Kodama

open Lib

/-- The length of a segment file with these frames: the header and the records. -/
def segmentSize (frames : List Frame) : Nat :=
  20 + (frames.map fun frame => 4 + (frameToBytes frame).length).sum

/-- An index entry with the times, the number and the bytes of some frames. -/
structure SegmentIndex.Describes (entry : SegmentIndex) (frames : List Frame) : Prop where
  first : ∀ frame ∈ frames.head?, entry.startTimeUs = frame.timestampUs
  last : ∀ frame ∈ frames.getLast?, entry.endTimeUs = frame.timestampUs
  count : entry.frameCount = UInt32.ofNat frames.length
  size : entry.sizeBytes = UInt64.ofNat (segmentSize frames)

/-- The entries of an index for a source. -/
def StorageIndex.segmentsOf (index : StorageIndex) (source : SourceId) : List SegmentIndex :=
  (index.segments.lookup source).getD []

/-- An index has the file of an entry once, under the source, and with that entry. -/
def StorageIndex.HasOnly (index : StorageIndex) (source : SourceId) (entry : SegmentIndex) :
    Prop :=
  ∀ k, (index.segmentsOf k).filter (fun seg => seg.path = entry.path) =
    if k = source then [entry] else []

theorem segmentSize_snoc (frames : List Frame) (frame : Frame) :
    segmentSize (frames ++ [frame]) =
      segmentSize frames + (4 + (frameToBytes frame).length) := by
  rw [segmentSize, segmentSize, List.map_append, List.sum_append, List.map_singleton,
    List.sum_singleton, Nat.add_assoc]

/-- What the records of some frames take up. -/
theorem length_records (frames : List Frame) :
    20 + (Recording.records id frames).length = segmentSize frames := by
  rw [segmentSize, Recording.records, List.length_flatMap]
  congr 2
  exact List.map_congr_left fun frame _ => encodeRecord_length frame

/-! ## What the scan reads -/

/-- The scan of a file reads the header back. -/
theorem readSegmentIndex_segmentHeader {fs : FileSystem PathBuf} {writer : SegmentWriter}
    {body : Bytes} (hread : fs.read writer.path = some (segmentHeader writer ++ body))
    (hsize : writer.bytesWritten = UInt64.ofNat (20 + body.length)) :
    readSegmentIndex fs writer.path = some writer.segIndex := by
  have hstart : (toLe 8 writer.startTimeUs.toNat).length = 8 := toLe_length _ _
  have hend : (toLe 8 writer.endTimeUs.toNat).length = 8 := toLe_length _ _
  have hcount : writer.frameCount.toNat < 256 ^ 4 := writer.frameCount.toNat_lt
  -- the three fields of the header, each at its place
  have hfirst : (segmentHeader writer).take 8 = toLe 8 writer.startTimeUs.toNat := by
    rw [segmentHeader, List.append_assoc, List.take_left' hstart]
  have hsecond : ((segmentHeader writer).drop 8).take 8 = toLe 8 writer.endTimeUs.toNat := by
    rw [segmentHeader, List.append_assoc, List.drop_left' hstart, List.take_left' hend]
  have hthird : (segmentHeader writer).drop 16 = toLe 4 writer.frameCount.toNat := by
    rw [segmentHeader, List.drop_left']
    rw [List.length_append, hstart, hend]
  rw [readSegmentIndex_of_read hread (segmentHeader_length writer), hfirst, hsecond, hthird,
    ofNat_ofLe_toLe, ofNat_ofLe_toLe, ofLe_toLe_of_lt hcount, UInt32.ofNat_toNat,
    List.length_append, segmentHeader_length, ← hsize]
  rfl

section Scan

variable {fs : FileSystem PathBuf} {listing : List PathBuf} {entry : SegmentIndex}
  {source : SourceId}

/-- A scan reads one entry of a file. -/
theorem filter_scanDir (hlisting : listing.Nodup) (hmem : entry.path ∈ listing)
    (hfile : isSegmentFile entry.path.file = true)
    (hread : readSegmentIndex fs entry.path = some entry) :
    (LocalStorage.scanDir fs listing entry.path.dir).filter (fun seg => seg.path = entry.path) =
      [entry] := by
  -- what is read of a file is at the path of that file
  have hpath : ∀ p, (readSegmentIndex fs p).filter (fun seg => seg.path = entry.path) =
      if decide (p = entry.path) = true then readSegmentIndex fs p else none := by
    intro p
    cases hseg : readSegmentIndex fs p with
    | none => split <;> rfl
    | some seg => rw [Option.filter_some, (LocalStorage.of_readSegmentIndex hseg).1]
  have hone : (listing.filter fun p => p.dir = entry.path.dir && isSegmentFile p.file).filter
      (fun p => p = entry.path) = [entry.path] := by
    have hself : ∀ p ∈ listing, (decide (p = entry.path) &&
        (decide (p.dir = entry.path.dir) && isSegmentFile p.file)) = decide (p = entry.path) := by
      intro p _
      by_cases hp : p = entry.path
      · rw [hp, hfile, decide_eq_true rfl, decide_eq_true rfl]
        rfl
      · rw [decide_eq_false hp, Bool.false_and]
    rw [List.filter_filter, List.filter_congr hself, List.filter_eq,
      List.count_eq_one_of_mem hlisting hmem]
    rfl
  rw [LocalStorage.scanDir, List.filter_filterMap, List.filterMap_congr fun p _ => hpath p,
    ← List.filterMap_filter, hone, List.filterMap_cons_some hread]
  rfl

/-- The scan indexes a file under the source its directory is named after, with what it reads
of it, and nowhere else. -/
theorem hasOnly_rebuildIndex
    (hdirs : ∀ p ∈ listing, ∃ source : SourceId, p.dir = source.display)
    (hlisting : listing.Nodup) (hmem : entry.path ∈ listing)
    (hdir : entry.path.dir = source.display) (hfile : isSegmentFile entry.path.file = true)
    (hread : readSegmentIndex fs entry.path = some entry) :
    (LocalStorage.rebuildIndex fs listing).HasOnly source entry := by
  have hnamed : ∀ dir ∈ (listing.map PathBuf.dir).dedup, ∃ source : SourceId,
      dir = source.display := by
    intro dir hdir
    obtain ⟨p, hp, rfl⟩ := List.mem_map.mp (List.mem_dedup.mp hdir)
    exact hdirs p hp
  intro k
  rw [StorageIndex.segmentsOf, LocalStorage.rebuildIndex,
    LocalStorage.lookup_foldl_indexDir k _ hnamed]
  by_cases hk : k = source
  · subst hk
    have hscanned : k.display ∈ (listing.map PathBuf.dir).dedup :=
      List.mem_dedup.mpr (List.mem_map.mpr ⟨_, hmem, hdir⟩)
    rw [if_pos hscanned, if_pos rfl, Option.getD_some, ← hdir]
    refine List.Perm.eq_singleton ?_
    rw [← filter_scanDir hlisting hmem hfile hread]
    exact (List.perm_insertionSort _ _).filter _
  · rw [if_neg hk]
    refine List.filter_eq_nil_iff.mpr fun seg hseg => ?_
    split at hseg
    · -- the files of another source are in another directory
      obtain ⟨p, hp, hread'⟩ := List.mem_filterMap.mp
        ((List.perm_insertionSort _ _).mem_iff.mp hseg)
      have hpdir : p.dir = k.display :=
        of_decide_eq_true (Bool.and_eq_true_iff.mp (List.mem_filter.mp hp).2).1
      rw [(LocalStorage.of_readSegmentIndex hread').1, decide_eq_true_eq]
      rintro rfl
      exact hk (SourceId.display_injective (hpdir.symm.trans hdir))
    · cases hseg

end Scan

namespace Recording

variable {r r' : Recording Frame} {source k : SourceId} {writer : SegmentWriter}
  {frames : List Frame} {f : Frame}

/-! ## The open segment -/

/-- The source's open segment has its file under its name and has been given these frames,
which the entry it would get describes. -/
structure Gathers (r : Recording Frame) (source : SourceId) (writer : SegmentWriter)
    (frames : List Frame) : Prop where
  lookup : r.storage.writers.lookup source = some writer
  named : r.storage.fs.names.lookup writer.path = some writer.inode
  held : r.held writer.inode = frames
  describes : writer.segIndex.Describes frames

/-- A step that leaves the source's open segment open and its file where it is: a frame of the
source is in the segment's window, and a cleanup deletes other files. -/
def KeepsSegment (source : SourceId) (r : Recording Frame) : Upkeep → Prop
  | .act (.store f) => f.source = source →
    (r.storage.currentWriter source f.timestampUs).isSome = true
  | .cleanup cutoff unlinkFails => ∀ writer ∈ r.storage.writers.lookup source,
    (r.cleanup cutoff unlinkFails).storage.fs.hasPath writer.path = true
  | .act .flush => False
  | .act (.reopen _ _) => False

instance (source : SourceId) (r : Recording Frame) :
    ∀ event, Decidable (KeepsSegment source r event)
  | .act (.store _) => inferInstanceAs (Decidable (_ = _ → _ = _))
  | .cleanup _ _ => inferInstanceAs (Decidable (∀ _ ∈ _, _ = _))
  | .act .flush => isFalse id
  | .act (.reopen _ _) => isFalse id

/-- The frame of a source that a step stores. -/
def stores (source : SourceId) : Upkeep → Option Frame
  | .act (.store f) => if f.source = source then some f else none
  | _ => none

/-- What a writer says of its frames after one more. -/
theorem describes_writeRecord (h : writer.segIndex.Describes frames)
    (hfirst : frames = [] → writer.startTimeUs = f.timestampUs) (fs : FileSystem PathBuf) :
    (LocalStorage.writeRecord writer fs f).2.segIndex.Describes (frames ++ [f]) where
  first := by
    cases frames with
    | nil =>
      intro g hg
      exact Option.some.inj hg ▸ hfirst rfl
    | cons g frames => exact h.first
  last := by
    intro g hg
    rw [List.getLast?_concat] at hg
    exact Option.some.inj hg ▸ rfl
  count := by
    show writer.frameCount + 1 = _
    rw [List.length_append, UInt32.ofNat_add, show writer.frameCount = _ from h.count]
    rfl
  size := by
    show writer.bytesWritten + (4 + UInt64.ofNat (frameToBytes f).length) = _
    rw [segmentSize_snoc, UInt64.ofNat_add, show writer.bytesWritten = _ from h.size,
      UInt64.ofNat_add 4]
    rfl

/-- Closing the segment of another source. -/
theorem Gathers.close (h : Gathers r source writer frames) (hk : source ≠ k) :
    Gathers (r.close k) source writer frames where
  lookup := lookup_close.mpr ⟨hk, h.lookup⟩
  named := by rw [close_names]; exact h.named
  held := h.held
  describes := h.describes

/-- Opening a segment of another source. -/
theorem Gathers.create (h : Gathers r source writer frames) (hfaithful : Faithful id r)
    (hk : source ≠ k) (timestampUs : UInt64) :
    Gathers (r.create k timestampUs) source writer frames := by
  obtain ⟨created, hinode, hpath, -, hwriters, hnames, -, hkeep, -⟩ := r.create_spec k timestampUs
  have hother : writer.inode ≠ created.inode :=
    hinode ▸ (hfaithful.createdInode_ne h.lookup hk).symm
  have hdir : writer.path ≠ created.path := by
    intro heq
    refine hk (SourceId.display_injective ?_)
    rw [← (hfaithful.writer source writer h.lookup).path_dir, heq, hpath]
    rfl
  refine ⟨?_, ?_, ?_, h.describes⟩
  · rw [hwriters, AList.lookup_insert_ne hk]
    exact h.lookup
  · rw [hnames, if_neg hdir]
    exact h.named
  · rw [(hkeep _ hother).2]
    exact h.held

/-- Appending to the segment of another source. -/
theorem Gathers.append_other (h : Gathers r source writer frames) (hfaithful : Faithful id r)
    (hk : source ≠ f.source) {other : SegmentWriter}
    (hlook : r.storage.writers.lookup f.source = some other) :
    Gathers (r.append id other f) source writer frames := by
  obtain ⟨other', -, -, -, hwriters, hsame, hkeep, -⟩ := append_spec id r other f
  have hinode : writer.inode ≠ other.inode :=
    fun heq => hk (hfaithful.distinct _ _ _ _ h.lookup hlook heq)
  refine ⟨?_, ?_, ?_, h.describes⟩
  · rw [hwriters]
    exact (AList.lookup_insert_ne hk).trans h.lookup
  · rw [hsame.names]
    exact h.named
  · rw [hkeep _ hinode]
    exact h.held

/-- Opening the segment. -/
theorem gathers_create (r : Recording Frame) (source : SourceId) (timestampUs : UInt64) :
    ∃ created, created.startTimeUs = timestampUs ∧
      Gathers (r.create source timestampUs) source created [] := by
  obtain ⟨created, -, -, hstart, hwriters, hnames, -, -, hempty, -⟩ :=
    r.create_spec source timestampUs
  have hlook : (r.create source timestampUs).storage.writers.lookup source = some created := by
    rw [hwriters, AList.lookup_insert]
  have hnamed : (r.create source timestampUs).storage.fs.names.lookup created.path =
      some created.inode := by
    rw [hnames, if_pos rfl]
  have hfresh : created.frameCount = 0 ∧ created.bytesWritten = 20 := by
    have hinsert : (r.create source timestampUs).storage.writers =
        r.storage.writers.insert source _ := rfl
    rw [hinsert, AList.lookup_insert] at hlook
    exact Option.some.inj hlook ▸ ⟨rfl, rfl⟩
  exact ⟨created, hstart, hlook, hnamed, hempty, nofun, nofun, hfresh.1, hfresh.2⟩

/-- Appending to the segment itself. -/
theorem Gathers.append (h : Gathers r f.source writer frames)
    (hfirst : frames = [] → writer.startTimeUs = f.timestampUs) :
    ∃ writer', Gathers (r.append id writer f) f.source writer' (frames ++ [f]) := by
  obtain ⟨-, -, -, -, -, hsame, -, hheld, -⟩ := append_spec id r writer f
  have hinode := (LocalStorage.writeRecord_sameBut writer r.storage.fs f).2
  refine ⟨(LocalStorage.writeRecord writer r.storage.fs f).2, AList.lookup_insert _, ?_, ?_,
    describes_writeRecord h.describes hfirst _⟩
  · rw [hsame.names, hinode]
    exact h.named
  · rw [hinode, hheld, h.held]

/-- The first frame of a segment opens it. -/
theorem gathers_of_opens (hnone : r.storage.currentWriter f.source f.timestampUs = none)
    (hstore : r.store id f = some r') : ∃ writer, Gathers r' f.source writer [f] := by
  rcases store_cases hstore with ⟨writer, hcurrent, -⟩ | ⟨-, _, writer, rfl, hwriter, rfl⟩
  · cases hnone.symm.trans hcurrent
  · obtain ⟨created, hstart, hcreated⟩ :=
      gathers_create (r.close f.source) f.source f.timestampUs
    obtain rfl := Option.some.inj (hcreated.lookup.symm.trans hwriter)
    exact hcreated.append fun _ => hstart

/-! ## Until it is finalized -/

/-- No step takes a file away from what it holds, or to another directory. -/
theorem faithful_upkeep {event : Upkeep} (h : Faithful id r ∧ Shaped id r)
    (hr : upkeep r event = some r') : Faithful id r' ∧ Shaped id r' := by
  obtain ⟨hfaithful, hshaped⟩ := h
  cases event with
  | cleanup cutoff unlinkFails =>
    obtain rfl := Option.some.inj hr
    obtain ⟨-, -, hnames⟩ := r.storage.cleanup_spec cutoff unlinkFails
    exact ⟨hfaithful.cleanup cutoff unlinkFails,
      hshaped.mono (fun p i hp => ((hnames p i).mp hp).1) rfl⟩
  | act action =>
    cases action with
    | store f => exact ⟨hfaithful.store hr, hshaped.store hfaithful hr⟩
    | flush =>
      obtain rfl := Option.some.inj hr
      exact ⟨hfaithful.flush, hshaped.flush⟩
    | reopen config listing =>
      obtain ⟨-, hr⟩ := Option.ite_none_right_eq_some.mp hr
      obtain rfl := Option.some.inj hr
      exact ⟨hfaithful.reopen, hshaped.reopen hfaithful⟩

/-- A frame of the source goes to its open segment, one of another source to another. -/
theorem Gathers.store (h : Gathers r source writer frames) (hne : frames ≠ [])
    (hfaithful : Faithful id r)
    (hkeeps : f.source = source → (r.storage.currentWriter source f.timestampUs).isSome = true)
    (hstore : r.store id f = some r') :
    ∃ writer', Gathers r' source writer'
      (frames ++ (stores source (.act (.store f))).toList) := by
  rw [stores]
  by_cases hsource : f.source = source
  · subst hsource
    rw [if_pos rfl]
    rcases store_cases hstore with ⟨_, hcurrent, rfl⟩ | ⟨hnone, -⟩
    · have hlook := (LocalStorage.currentWriter_eq_some.mp hcurrent).1
      obtain rfl := Option.some.inj (h.lookup.symm.trans hlook)
      exact h.append fun hnil => absurd hnil hne
    · rw [show r.storage.currentWriter f.source f.timestampUs = none from hnone] at hkeeps
      cases hkeeps rfl
  · have hk : source ≠ f.source := Ne.symm hsource
    rw [if_neg hsource, Option.toList_none, List.append_nil]
    rcases store_cases hstore with ⟨_, hcurrent, rfl⟩ | ⟨-, _, _, rfl, hwriter, rfl⟩
    · have hlook := (LocalStorage.currentWriter_eq_some.mp hcurrent).1
      exact ⟨writer, h.append_other hfaithful hk hlook⟩
    · have hclosed := hfaithful.close f.source
      have hnone : (r.close f.source).storage.writers.lookup f.source = none := by
        rw [lookup_close_ite, if_pos rfl]
      have hcreated := (h.close hk).create hclosed hk f.timestampUs
      exact ⟨writer, hcreated.append_other (hclosed.create hnone _) hk hwriter⟩

/-- A step that keeps the segment gives it the frame it stores, if that is one of the source. -/
theorem Gathers.step {event : Upkeep} (h : Gathers r source writer frames)
    (hne : frames ≠ []) (hfaithful : Faithful id r) (hkeeps : KeepsSegment source r event)
    (hr : upkeep r event = some r') :
    ∃ writer', Gathers r' source writer' (frames ++ (stores source event).toList) := by
  cases event with
  | cleanup cutoff unlinkFails =>
    obtain rfl := Option.some.inj hr
    obtain ⟨-, -, hnames⟩ := r.storage.cleanup_spec cutoff unlinkFails
    obtain ⟨i, hi⟩ := Option.isSome_iff_exists.mp (hkeeps writer h.lookup)
    obtain rfl := Option.some.inj (h.named.symm.trans ((hnames _ _).mp hi).1)
    refine ⟨writer, h.lookup, hi, ?_, ?_⟩
    · exact h.held.trans (List.append_nil _).symm
    · exact (List.append_nil frames).symm ▸ h.describes
  | act action =>
    cases action with
    | store f => exact h.store hne hfaithful hkeeps hr
    | flush => cases hkeeps
    | reopen config listing => cases hkeeps

/-- The same for a run: the segment ends up with the frames of its source, in their order. -/
theorem Gathers.run {events : List Upkeep} (h : Gathers r source writer frames)
    (hne : frames ≠ []) (hfaithful : Faithful id r ∧ Shaped id r)
    (hkeeps : Machine.EachStep upkeep (fun r event _ => KeepsSegment source r event) r events)
    (hrun : Machine.run upkeep r events = some r') :
    (Faithful id r' ∧ Shaped id r') ∧
      ∃ writer', Gathers r' source writer' (frames ++ events.filterMap (stores source)) := by
  induction events generalizing r writer frames with
  | nil =>
    obtain rfl := Option.some.inj hrun
    exact ⟨hfaithful, writer, by rwa [List.filterMap_nil, List.append_nil]⟩
  | cons event events ih =>
    rw [Machine.run_cons] at hrun
    obtain ⟨u, hu, hrun⟩ := Option.bind_eq_some_iff.mp hrun
    obtain ⟨hfirst, hrest⟩ := Machine.eachStep_cons.mp hkeeps u hu
    obtain ⟨writer', h'⟩ := h.step hne hfaithful.1 hfirst hu
    have hne' : frames ++ (stores source event).toList ≠ [] :=
      fun hnil => hne (List.append_eq_nil_iff.mp hnil).1
    obtain ⟨hfaithful', hends⟩ := ih h' hne' (faithful_upkeep hfaithful hu) hrest hrun
    refine ⟨hfaithful', ?_⟩
    rw [List.append_assoc] at hends
    rw [List.filterMap_cons]
    cases hstores : stores source event with
    | none => rwa [hstores] at hends
    | some g => rwa [hstores] at hends

/-! ## What finalizing it leaves -/

/-- A scan of a file system in which the finalized segment is as it was left. -/
theorem Gathers.hasOnly (h : Gathers r source writer frames) (hfaithful : Faithful id r)
    (hshaped : Shaped id r) {fs : FileSystem PathBuf} {listing : List PathBuf}
    (hnames : fs.names = r.storage.fs.names)
    (hdata : fs.data writer.inode = (r.close source).storage.fs.data writer.inode)
    (hlisting : listing.Perm r.storage.fs.names.keys) :
    (LocalStorage.rebuildIndex fs listing).HasOnly source writer.segIndex := by
  have hfile : fs.data writer.inode = segmentHeader writer ++ records id frames := by
    rw [hdata, (close_retires h.lookup).file hfaithful, ← h.held]
    rfl
  have hread : fs.read writer.path = some (segmentHeader writer ++ records id frames) := by
    rw [FileSystem.read, hnames, h.named, Option.map_some, hfile]
  have hsize : writer.bytesWritten = UInt64.ofNat (20 + (records id frames).length) := by
    rw [length_records]
    exact h.describes.size
  have hsegment : isSegmentFile writer.path.file = true := by
    obtain ⟨owner, n, hpath, -⟩ := hshaped _ _ h.named
    rw [hpath]
    exact isSegmentFile_segment n
  refine hasOnly_rebuildIndex (fun p hp => ?_)
    (hlisting.nodup_iff.mpr (AList.keys_nodup _)) ?_
    (hfaithful.writer source writer h.lookup).path_dir hsegment
    (readSegmentIndex_segmentHeader hread hsize)
  · obtain ⟨i, hi⟩ := HashMap.mem_keys_iff.mp (hlisting.mem_iff.mp hp)
    obtain ⟨owner, n, rfl, -⟩ := hshaped p i hi
    exact ⟨owner, rfl⟩
  · exact hlisting.mem_iff.mpr (HashMap.mem_keys_iff.mpr ⟨_, h.named⟩)

/-- **What the scan finds of a finalized segment.** After any run, a frame opens a segment of
its source, and the steps that follow keep it. The entry that finalizing it puts into the
index describes the frames stored in it; and a scan of the directory, at once or by a storage
opened on it later, finds the file under the segment's source alone, with that entry. -/
theorem header_reproduces_entry {config : LocalStorageConfig} {before between : List Upkeep}
    {r₀ r : Recording Frame} {f : Frame} {listing : List PathBuf}
    (hbefore : Machine.run upkeep (onEmptyRoot config) before = some r₀)
    (hopens : r₀.storage.currentWriter f.source f.timestampUs = none)
    (hbetween : Machine.run upkeep r₀ (.act (.store f) :: between) = some r)
    (hkeeps : ∀ r₁, upkeep r₀ (.act (.store f)) = some r₁ →
      Machine.EachStep upkeep (fun r event _ => KeepsSegment f.source r event) r₁ between)
    (hcount : (f :: between.filterMap (stores f.source)).length < 2 ^ 32)
    (hlisting : listing.Perm (r.close f.source).storage.fs.names.keys) :
    let frames := f :: between.filterMap (stores f.source)
    let closed := r.close f.source
    ∃ entry : SegmentIndex,
      closed.storage.segmentsOf f.source = r.storage.segmentsOf f.source ++ [entry] ∧
      entry.startTimeUs = f.timestampUs ∧
      some entry.endTimeUs = frames.getLast?.map Frame.timestampUs ∧
      entry.frameCount.toNat = frames.length ∧
      entry.sizeBytes = UInt64.ofNat (segmentSize frames) ∧
      parseSourceIdFromDir entry.path.dir = some f.source ∧
      (LocalStorage.rebuildIndex closed.storage.fs listing).HasOnly f.source entry ∧
      ∀ config, (closed.reopen config listing).storage.index.HasOnly f.source entry := by
  intro frames closed
  have hreached := (Machine.always_of_step
    (I := fun r : Recording Frame => Faithful id r ∧ Shaped id r)
    ⟨.onEmptyRoot config, .onEmptyRoot config⟩
    (fun _ _ _ h hr => faithful_upkeep h hr) before).final hbefore
  rw [Machine.run_cons] at hbetween
  obtain ⟨r₁, hr₁, hbetween⟩ := Option.bind_eq_some_iff.mp hbetween
  obtain ⟨_, hopened⟩ := gathers_of_opens hopens hr₁
  obtain ⟨⟨hfaithful, hshaped⟩, writer, hends⟩ := hopened.run (List.cons_ne_nil _ _)
    (faithful_upkeep hreached hr₁) (hkeeps r₁ hr₁) hbetween
  have hretires := close_retires hends.lookup
  rw [close_names] at hlisting
  refine ⟨writer.segIndex, ?_, ?_, ?_, ?_, ?_, ?_, ?_, ?_⟩
  · rw [segmentsOf_close hends.lookup, if_pos rfl]
  · exact hends.describes.first f rfl
  · obtain ⟨last, hlast⟩ := Option.isSome_iff_exists.mp
      (List.getLast?_isSome.mpr (List.cons_ne_nil f (between.filterMap (stores f.source))))
    rw [hlast, Option.map_some, hends.describes.last last hlast]
  · rw [show writer.segIndex.frameCount = _ from hends.describes.count]
    exact UInt32.toNat_ofNat_of_lt' hcount
  · exact hends.describes.size
  · rw [show writer.segIndex.path.dir = f.source.display from
      (hfaithful.writer _ _ hends.lookup).path_dir]
    exact parseSourceIdFromDir_display f.source
  · exact hends.hasOnly hfaithful hshaped hretires.same.names rfl hlisting
  · intro config
    obtain ⟨-, -, hnames, hdata, -⟩ := drop_spec (hfaithful.close f.source)
    exact hends.hasOnly hfaithful hshaped (hnames.trans hretires.same.names)
      (hdata _ (hretires.closed_self hfaithful)) hlisting

/-- Two frames, and a cleanup between them that has nothing to delete. -/
theorem header_reproduces_entry_two :
    ∃ r, Machine.run upkeep (onEmptyRoot oneSecond) [.act (.store (cameraFrame 5)),
        .cleanup 3 fun _ _ => false, .act (.store (cameraFrame 7))] = some r ∧
      ∃ entry,
        (r.close camera).storage.segmentsOf camera = r.storage.segmentsOf camera ++ [entry] ∧
        entry.startTimeUs = 5 ∧ entry.frameCount.toNat = 2 ∧
        (LocalStorage.rebuildIndex (r.close camera).storage.fs
          (r.close camera).storage.fs.names.keys).HasOnly camera entry := by
  have hrun : (Machine.run upkeep (onEmptyRoot oneSecond) [.act (.store (cameraFrame 5)),
      .cleanup 3 fun _ _ => false, .act (.store (cameraFrame 7))]).isSome = true := by
    decide +kernel
  have hkeeps : (upkeep (onEmptyRoot oneSecond) (.act (.store (cameraFrame 5)))).all (fun r₁ =>
      decide (Machine.EachStep upkeep (fun r event _ => KeepsSegment camera r event) r₁
        [.cleanup 3 fun _ _ => false, .act (.store (cameraFrame 7))])) = true := by
    decide +kernel
  obtain ⟨r, hr⟩ := Option.isSome_iff_exists.mp hrun
  obtain ⟨entry, hentry, hstart, -, hcount, -, -, hscan, -⟩ := header_reproduces_entry
    (Machine.run_nil (onEmptyRoot oneSecond)) (by decide +kernel) hr (fun r₁ hr₁ => by
      rw [hr₁] at hkeeps
      exact of_decide_eq_true hkeeps) (by decide +kernel) (.refl _)
  exact ⟨r, hr, entry, hentry, hstart, hcount, hscan⟩

end Recording

end Kodama
