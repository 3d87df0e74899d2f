import Kodama.Storage.CloudCalls
import Kodama.Storage.CloudUpkeep
import Kodama.Storage.Truncation

/-!
# Playing back from the cloud (crates/kodama/src/storage/cloud.rs, `get_frames`)

`get_frames` reads the files of the cache directory: those it downloads, those an earlier call
has downloaded, and, where a segment starts with its window, the file of a local segment.

Whatever fails, and whatever the cache directory and the bucket still have from before a restart:
what is there under a name of a source is a part of the records of frames of this source that
were accepted (`Genuine`), unless a write for it was torn. Reading it never fails, and returns
such frames (`cloud_playback_genuine`).
-/

namespace Kodama

open Lib Lib.Machine
open scoped List

/-! ## What is under a source's names -/

/-- Bytes that are a part of the records of accepted frames of a source. -/
def PartOf (accepted : List Frame) (source : SourceId) (data : Bytes) : Prop :=
  ∃ frames : List Frame, (∀ f ∈ frames, f ∈ accepted ∧ f.source = source) ∧
    data <+: frames.flatMap encodeRecord

theorem PartOf.nil (accepted : List Frame) (source : SourceId) : PartOf accepted source [] :=
  ⟨[], fun _ h => absurd h List.not_mem_nil, List.prefix_refl _⟩

theorem PartOf.mono {accepted accepted' : List Frame} {source : SourceId} {data : Bytes}
    (h : PartOf accepted source data) (hsub : accepted ⊆ accepted') :
    PartOf accepted' source data := by
  obtain ⟨frames, hframes, hdata⟩ := h
  exact ⟨frames, fun f hf => ⟨hsub (hframes f hf).1, (hframes f hf).2⟩, hdata⟩

namespace CloudStorage

variable {st : CloudStorage} {accepted accepted' : List Frame} {torn torn' : List SourceId}
  {source k : SourceId} {seg : LocalSegment} {fs' : FileSystem PathBuf} {p : PathBuf} {i : Nat}

/-- A local segment has a file under a name of its source, and its frames were accepted. -/
structure Buffers (st : CloudStorage) (accepted : List Frame) (torn : List SourceId)
    (source : SourceId) (seg : LocalSegment) : Prop where
  path : ∃ n, seg.path = st.cachePath source n
  named : st.fs.names.lookup seg.path = some seg.inode
  frames : ∀ f ∈ seg.frames, f ∈ accepted ∧ f.source = source
  holds : source ∉ torn → seg.file.Holds st.fs seg.records

/-- What can be found of a source, unless a write for it was torn, is a part of what was accepted
of it. -/
structure GenuineAt (st : CloudStorage) (accepted : List Frame) (torn : List SourceId)
    (source : SourceId) : Prop where
  files : ∀ n i, st.fs.names.lookup (st.cachePath source n) = some i → source ∉ torn →
    PartOf accepted source (st.fs.data i)
  objects : ∀ n data, st.objects.lookup (st.objectKey source n) = some data → source ∉ torn →
    PartOf accepted source data
  buffers : ∀ seg, st.localSegments.lookup source = some seg → st.Buffers accepted torn source seg
  keys : ∀ info ∈ st.segmentsOf source, info.key = st.objectKey source info.startTimeUs

def Genuine (st : CloudStorage) (accepted : List Frame) (torn : List SourceId) : Prop :=
  ∀ source, st.GenuineAt accepted torn source

theorem Genuine.onEmptyCache (config : CloudStorageConfig) :
    Genuine (onEmptyCache config) [] [] := fun _ =>
  { files := fun _ _ h => by cases h
    objects := fun _ _ h => by cases h
    buffers := fun _ h => by cases h
    keys := fun _ h => by cases h }

/-- A segment is not concerned by what happens to other files. -/
theorem Buffers.of_same (h : st.Buffers accepted torn k seg) (hsub : accepted ⊆ accepted')
    (htorn : torn ⊆ torn') {st' : CloudStorage} (hconfig : st'.config = st.config)
    (hnamed : st'.fs.names.lookup seg.path = st.fs.names.lookup seg.path)
    (hdata : st'.fs.data seg.inode = st.fs.data seg.inode) :
    st'.Buffers accepted' torn' k seg where
  path := by
    obtain ⟨n, hn⟩ := h.path
    exact ⟨n, by rw [hn, cachePath, cachePath, hconfig]⟩
  named := hnamed.trans h.named
  frames f hf := ⟨hsub (h.frames f hf).1, (h.frames f hf).2⟩
  holds hk := (h.holds fun hmem => hk (htorn hmem)).of_data hdata

/-- Only the files matter. -/
theorem Buffers.congr (h : st.Buffers accepted torn k seg) {st' : CloudStorage}
    (hconfig : st'.config = st.config) (hfs : st'.fs = st.fs) : st'.Buffers accepted torn k seg :=
  h.of_same (List.Subset.refl _) (List.Subset.refl _) hconfig (by rw [hfs]) (by rw [hfs])

/-- What is done for other sources does not matter. -/
theorem GenuineAt.of_same (h : st.GenuineAt accepted torn k) {st' : CloudStorage}
    (hsame : SameFor st st' k) (hsub : accepted ⊆ accepted') (htorn : torn ⊆ torn') :
    st'.GenuineAt accepted' torn' k where
  files n i hi hk := by
    rw [cachePath_congr hsame.config, hsame.names] at hi
    rw [hsame.data n i hi]
    exact (h.files n i hi fun hmem => hk (htorn hmem)).mono hsub
  objects n data hlook hk := by
    rw [objectKey_congr hsame.config, hsame.objects] at hlook
    exact (h.objects n data hlook fun hmem => hk (htorn hmem)).mono hsub
  buffers seg hlook := by
    have hbuffers := h.buffers seg (hsame.segment.symm.trans hlook)
    obtain ⟨n, hn⟩ := hbuffers.path
    have hnamed := hbuffers.named
    rw [hn] at hnamed
    exact
      { path := ⟨n, by rw [hn, cachePath_congr hsame.config]⟩
        named := by rw [hn, hsame.names, hnamed]
        frames := fun f hf => ⟨hsub (hbuffers.frames f hf).1, (hbuffers.frames f hf).2⟩
        holds := fun hk => (hbuffers.holds fun hmem => hk (htorn hmem)).of_data
          (hsame.data n _ hnamed) }
  keys := by
    rw [hsame.indexed, objectKey_congr hsame.config]
    exact h.keys

theorem Genuine.torn_mono (h : Genuine st accepted torn) (htorn : torn ⊆ torn') :
    Genuine st accepted torn' :=
  fun k => (h k).of_same (.refl st k) (List.Subset.refl _) htorn

/-- What is done for one source. -/
theorem Genuine.of_same (h : Genuine st accepted torn) {st' : CloudStorage}
    (hothers : ∀ k, k ≠ source → SameFor st st' k) (hsub : accepted ⊆ accepted')
    (htorn : torn ⊆ torn') (hown : st'.GenuineAt accepted' torn' source) :
    Genuine st' accepted' torn' := by
  intro k
  by_cases hk : k = source
  · rw [hk]
    exact hown
  · exact (h k).of_same (hothers k hk) hsub htorn

/-- A change of one file of a source, and of its segment. -/
theorem Genuine.change (h : Genuine st accepted torn) {n : UInt64}
    {segments : HashMap SourceId LocalSegment}
    (hnamed : st.fs.names.lookup (st.cachePath source n) = some i) (hsame : st.fs.SameBut fs' i)
    (hsub : accepted ⊆ accepted') (htorn : torn ⊆ torn')
    (hdata : source ∉ torn' → PartOf accepted' source (fs'.data i))
    (hothers : ∀ k, k ≠ source → segments.lookup k = st.localSegments.lookup k)
    (hown : ∀ seg, segments.lookup source = some seg →
      Buffers { st with fs := fs', localSegments := segments } accepted' torn' source seg) :
    Genuine { st with fs := fs', localSegments := segments } accepted' torn' := by
  refine h.of_same (fun k hk => sameFor_change hk hnamed hsame hothers) hsub htorn ?_
  refine
    { files := ?_
      objects := fun m data hlook hsource =>
        ((h source).objects m data hlook fun hmem => hsource (htorn hmem)).mono hsub
      buffers := hown
      keys := (h source).keys }
  intro m j hj hsource
  have hj : fs'.names.lookup (st.cachePath source m) = some j := hj
  rw [hsame.names] at hj
  show PartOf accepted' source (fs'.data j)
  by_cases hi : j = i
  · rw [hi]
    exact hdata hsource
  · rw [hsame.data hi]
    exact ((h source).files m j hj fun hmem => hsource (htorn hmem)).mono hsub

/-- A file is created, or emptied, under a name that no segment's file has. -/
theorem Genuine.create (h : Genuine st accepted torn) {n : UInt64}
    (hfree : ∀ seg, st.localSegments.lookup source = some seg →
      seg.path ≠ st.cachePath source n) :
    Genuine { st with fs := (st.fs.create (st.cachePath source n)).1 } accepted torn := by
  have hnames := st.fs.lookup_create (st.cachePath source n)
  refine h.of_same (fun k hk => sameFor_create hk n) (List.Subset.refl _) (List.Subset.refl _) ?_
  refine
    { files := ?_
      objects := (h source).objects
      buffers := ?_
      keys := (h source).keys }
  · intro m j hj hsource
    have hj : (st.fs.create (st.cachePath source n)).1.names.lookup (st.cachePath source m) =
      some j := hj
    rw [hnames] at hj
    split at hj
    · obtain rfl := Option.some.inj hj
      show PartOf accepted source ((st.fs.create _).1.data _)
      rw [FileSystem.create_data]
      exact .nil accepted source
    · next hq =>
      show PartOf accepted source ((st.fs.create _).1.data j)
      rw [FileSystem.create_data_other hq hj]
      exact (h source).files m j hj hsource
  · intro seg hlook
    have hbuffers := (h source).buffers seg hlook
    exact hbuffers.of_same (List.Subset.refl _) (List.Subset.refl _) rfl
      ((hnames _).trans (if_neg (hfree seg hlook)))
      (FileSystem.create_data_other (hfree seg hlook) hbuffers.named)

/-! ## The operations -/

/-- A segment is dropped, with a part of its buffer written out. -/
theorem Genuine.drop (h : Genuine st accepted torn)
    (hlook : st.localSegments.lookup source = some seg) (drained : Nat) :
    Genuine { st with
      fs := (seg.file.writePart st.fs [] drained).1
      localSegments := st.localSegments.erase source } accepted torn := by
  have hbuffers := (h source).buffers seg hlook
  obtain ⟨n, hn⟩ := hbuffers.path
  refine h.change (hn ▸ hbuffers.named) (st.fs.write_sameBut _ _) (List.Subset.refl _)
    (List.Subset.refl _) ?_ ?_ ?_
  · intro hsource
    have hholds := BufWriter.writePart_holds (hbuffers.holds hsource) [] drained
    rw [List.append_nil] at hholds
    exact ⟨seg.frames, hbuffers.frames, _, hholds.data⟩
  · exact fun k hk => AList.lookup_erase_ne hk
  · intro seg' hlook'
    rw [AList.lookup_erase] at hlook'
    cases hlook'

/-- A segment is taken out of the map and flushed. -/
theorem Genuine.flushOut (h : Genuine st accepted torn)
    (hlook : st.localSegments.lookup source = some seg) :
    Genuine { st with
      fs := (seg.file.flush st.fs).1
      localSegments := st.localSegments.erase source } accepted torn := by
  have hbuffers := (h source).buffers seg hlook
  obtain ⟨n, hn⟩ := hbuffers.path
  refine h.change (hn ▸ hbuffers.named) (seg.file.flush_sameBut st.fs) (List.Subset.refl _)
    (List.Subset.refl _) ?_ ?_ ?_
  · exact fun hsource => ⟨seg.frames, hbuffers.frames,
      (BufWriter.flush_data (hbuffers.holds hsource)).symm ▸ List.prefix_refl _⟩
  · exact fun k hk => AList.lookup_erase_ne hk
  · intro seg' hlook'
    rw [AList.lookup_erase] at hlook'
    cases hlook'

/-- The file at a path of a source is uploaded under a key of this source. -/
theorem Genuine.upload {st' : CloudStorage} (h : Genuine st accepted torn) {m n : UInt64}
    (hupload : st.uploadToS3 (st.cachePath source m) (st.objectKey source n) = some st') :
    Genuine st' accepted torn := by
  obtain ⟨data, hread, rfl⟩ := Option.map_eq_some_iff.mp hupload
  obtain ⟨i, hi, rfl⟩ := Option.map_eq_some_iff.mp hread
  refine h.of_same (fun k hk => sameFor_putObject hk n _) (List.Subset.refl _)
    (List.Subset.refl _) ?_
  refine
    { files := (h source).files
      objects := ?_
      buffers := fun seg hlook => ((h source).buffers seg hlook).congr rfl rfl
      keys := (h source).keys }
  intro j data hlook hsource
  have hlook : (st.objects.insert (st.objectKey source n) (st.fs.data i)).lookup
      (st.objectKey source j) = some data := hlook
  rcases HashMap.lookup_insert_eq_some.mp hlook with ⟨-, rfl⟩ | ⟨-, hold⟩
  · exact (h source).files m i hi hsource
  · exact (h source).objects j data hold hsource

theorem Genuine.indexSegment (h : Genuine st accepted torn) (source : SourceId)
    (seg : LocalSegment) : Genuine (st.indexSegment source seg) accepted torn := by
  refine h.of_same (fun k hk => sameFor_indexSegment hk seg) (List.Subset.refl _)
    (List.Subset.refl _) ?_
  refine
    { files := (h source).files
      objects := (h source).objects
      buffers := fun seg hlook => ((h source).buffers seg hlook).congr rfl rfl
      keys := ?_ }
  obtain ⟨new, hsegments, hkey, -⟩ := st.segmentsOf_indexSegment source source seg
  rw [hsegments, if_pos rfl]
  intro info hinfo
  rcases List.mem_append.mp hinfo with hinfo | hinfo
  · exact (h source).keys info hinfo
  · rw [List.mem_singleton.mp hinfo]
    exact hkey

/-- The file of a source that has no segment is removed. -/
theorem Genuine.remove (h : Genuine st accepted torn) {n : UInt64}
    (hnone : st.localSegments.lookup source = none)
    (hremove : st.fs.remove (st.cachePath source n) = some fs') :
    Genuine { st with fs := fs' } accepted torn := by
  refine h.of_same (fun k hk => sameFor_remove hk hremove) (List.Subset.refl _)
    (List.Subset.refl _) ?_
  refine
    { files := ?_
      objects := (h source).objects
      buffers := fun seg hlook => by cases hlook.symm.trans hnone
      keys := (h source).keys }
  intro m i hi hsource
  have hi : fs'.names.lookup (st.cachePath source m) = some i := hi
  have hdata : fs'.data i = st.fs.data i :=
    congrArg Inode.data (congrFun (FileSystem.remove_inodes hremove).1 i)
  rw [FileSystem.lookup_remove hremove] at hi
  show PartOf accepted source (fs'.data i)
  rw [hdata]
  split at hi
  · cases hi
  · exact (h source).files m i hi hsource

/-- Finalizing the segment that has been taken out of the map. Where its flush fails it is left as
it is. -/
theorem Genuine.finalizeSegment (h : Genuine st accepted torn)
    (hlook : st.localSegments.lookup source = some seg) {answers : StoreAnswers}
    {r : CloudStorage × Result Unit} (hr : CloudStorage.finalizeSegment
      { st with localSegments := st.localSegments.erase source } source seg answers = r) :
    (answers.flush.isSome ∧ r.1 = { st with localSegments := st.localSegments.erase source } ∧
        r.2 ≠ .ok ()) ∨
      answers.flush = none ∧ Genuine r.1 accepted torn ∧
        r.1.localSegments = st.localSegments.erase source := by
  subst hr
  rw [CloudStorage.finalizeSegment]
  cases hflush : answers.flush with
  | some e => exact .inl ⟨rfl, rfl, fun heq => by cases heq⟩
  | none =>
    have hflushed := h.flushOut hlook
    obtain ⟨n, hn⟩ := ((h source).buffers seg hlook).path
    refine .inr ⟨rfl, ?_⟩
    simp only []
    split
    · exact ⟨hflushed, rfl⟩
    · exact ⟨hflushed, rfl⟩
    · next st' _ hupload =>
      have huploaded : Genuine st' accepted torn := by
        rw [hn] at hupload
        exact hflushed.upload hupload
      have hsegments : st'.localSegments = st.localSegments.erase source := by
        obtain ⟨data, -, rfl⟩ := Option.map_eq_some_iff.mp hupload
        rfl
      have hindexed := huploaded.indexSegment source seg
      refine ⟨?_, hsegments⟩
      cases hremove : (st'.indexSegment source seg).fs.remove seg.path with
      | none => exact hindexed
      | some fs' =>
        have hpath : seg.path = (st'.indexSegment source seg).cachePath source n := by
          obtain ⟨data, -, rfl⟩ := Option.map_eq_some_iff.mp hupload
          exact hn
        rw [hpath] at hremove
        refine hindexed.remove ?_ hremove
        show st'.localSegments.lookup source = none
        rw [hsegments, AList.lookup_erase]

/-- A new segment, for a source that has none. -/
theorem Genuine.createSegment (h : Genuine st accepted torn)
    (hnone : st.localSegments.lookup source = none) (timestampUs : UInt64) :
    Genuine (st.createSegment source timestampUs) accepted torn := by
  have hcreated : Genuine { st with
      fs := (st.fs.create (st.cachePath source (st.segmentStart timestampUs))).1 } accepted torn :=
    h.create fun seg hlook => by cases hlook.symm.trans hnone
  have hnamed : (st.fs.create (st.cachePath source (st.segmentStart timestampUs))).1.names.lookup
      (st.cachePath source (st.segmentStart timestampUs)) = some _ :=
    (st.fs.lookup_create _ _).trans (if_pos rfl)
  have hempty := st.fs.create_data (st.cachePath source (st.segmentStart timestampUs))
  rw [CloudStorage.createSegment]
  simp only [hnone]
  refine hcreated.change hnamed (.refl _ _) (List.Subset.refl _)
    (List.Subset.refl _) ?_ ?_ ?_
  · intro _
    rw [hempty]
    exact .nil accepted source
  · exact fun k hk => AList.lookup_insert_ne hk
  · intro seg hseg
    rw [AList.lookup_insert] at hseg
    obtain rfl := Option.some.inj hseg
    exact
      { path := ⟨_, rfl⟩
        named := hnamed
        frames := fun f hf => absurd hf List.not_mem_nil
        holds := fun _ => ⟨(FileSystem.create_pos _ _).trans (congrArg List.length hempty).symm,
          congrArg (· ++ []) hempty⟩ }

theorem Genuine.tryCreateSegment (h : Genuine st accepted torn)
    (hnone : st.localSegments.lookup source = none) (timestampUs : UInt64)
    (answers : StoreAnswers) :
    Genuine (st.tryCreateSegment source timestampUs answers).1 accepted torn := by
  rw [CloudStorage.tryCreateSegment]
  split
  · exact h
  · exact h.createSegment hnone timestampUs

theorem Genuine.getOrCreateSegment (h : Genuine st accepted torn) {timestampUs : UInt64}
    {answers : StoreAnswers} {r : CloudStorage × Result Unit}
    (hr : st.getOrCreateSegment source timestampUs answers = r) :
    (answers.flush.isSome ∧ r.2 ≠ .ok () ∧ (∃ seg, st.localSegments.lookup source = some seg) ∧
        r.1 = { st with localSegments := st.localSegments.erase source }) ∨
      Genuine r.1 accepted torn ∧ (answers.flush.isSome →
        r.1.localSegments.lookup source = none → st.localSegments.lookup source = none) := by
  subst hr
  rw [CloudStorage.getOrCreateSegment]
  split
  · exact .inr ⟨h, fun _ hnone => hnone⟩
  · split
    · next hnone => exact .inr ⟨h.tryCreateSegment hnone timestampUs answers, fun _ _ => hnone⟩
    · next seg hlook =>
      split
      · exact .inr ⟨h, fun _ hnone => hnone⟩
      · split
        · next st' e heq =>
          rcases h.finalizeSegment hlook heq with ⟨hflush, hst, hne⟩ | ⟨hflush, hgenuine, -⟩
          · exact .inl ⟨hflush, hne, ⟨seg, hlook⟩, hst⟩
          · exact .inr ⟨hgenuine, fun hsome => by simp [hflush] at hsome⟩
        · next st' heq =>
          rcases h.finalizeSegment hlook heq with ⟨-, -, hne⟩ | ⟨hflush, hgenuine, hsegments⟩
          · exact absurd rfl hne
          · refine .inr ⟨hgenuine.tryCreateSegment ?_ timestampUs answers,
              fun hsome => by simp [hflush] at hsome⟩
            rw [hsegments, AList.lookup_erase]

/-- A record is appended, and its frame accepted. -/
theorem Genuine.appendRecord (h : Genuine st accepted torn) {frame : Frame}
    (hlook : st.localSegments.lookup frame.source = some seg) :
    Genuine (st.appendRecord seg frame) (accepted ++ [frame]) torn := by
  have hbuffers := (h frame.source).buffers seg hlook
  obtain ⟨n, hn⟩ := hbuffers.path
  obtain ⟨hsame, hinode⟩ := seg.file.writeAll_twice_sameBut st.fs
    (toLe 4 (UInt32.ofNat (frameToBytes frame).length).toNat) (frameToBytes frame)
  have hframes : ∀ f ∈ seg.frames ++ [frame],
      f ∈ accepted ++ [frame] ∧ f.source = frame.source := by
    intro f hf
    rcases List.mem_append.mp hf with hf | hf
    · exact (hbuffers.frames f hf).imp_left (List.mem_append_left _)
    · rw [List.mem_singleton.mp hf]
      exact ⟨List.mem_append_right _ List.mem_cons_self, rfl⟩
  have hholds : frame.source ∉ torn → _ := fun hsource =>
    BufWriter.writeAll_twice_holds (hbuffers.holds hsource)
      (toLe 4 (UInt32.ofNat (frameToBytes frame).length).toNat) (frameToBytes frame)
  have hrecords : seg.records ++ encodeRecord frame =
      (seg.frames ++ [frame]).flatMap encodeRecord := by
    rw [LocalSegment.records, List.flatMap_append, List.flatMap_singleton]
  rw [CloudStorage.appendRecord]
  refine h.change (hn ▸ hbuffers.named) hsame (List.subset_append_left _ _) (List.Subset.refl _)
    ?_ ?_ ?_
  · intro hsource
    refine ⟨_, hframes, _, (congrArg (· ++ _) ?_).trans ((hholds hsource).data.trans hrecords)⟩
    rw [hinode]
  · exact fun k hk => AList.lookup_insert_ne hk
  · intro seg' hseg'
    rw [AList.lookup_insert] at hseg'
    obtain rfl := Option.some.inj hseg'
    exact
      { path := ⟨n, hn⟩
        named := by
          show _ = some (_ : BufWriter).file.inode
          rw [hinode, hsame.names]
          exact hbuffers.named
        frames := hframes
        holds := fun hsource => by
          have := hholds hsource
          rw [show seg.records ++ (toLe 4 (UInt32.ofNat (frameToBytes frame).length).toNat ++
            frameToBytes frame) = _ from hrecords] at this
          exact this }

/-- A write that fails tears the segment of its source only. -/
theorem Genuine.failRecord (h : Genuine st accepted torn) {frame : Frame}
    (hlook : st.localSegments.lookup frame.source = some seg) (fault : FailedWrite) :
    Genuine (st.failRecord seg frame fault) accepted (frame.source :: torn) := by
  have hbuffers := (h frame.source).buffers seg hlook
  obtain ⟨n, hn⟩ := hbuffers.path
  have hsame := st.fs.write_sameBut seg.file.file
    ((seg.file.buf ++ (encodeRecord frame).take fault.written).take fault.flushed)
  rw [CloudStorage.failRecord]
  refine h.change (hn ▸ hbuffers.named) hsame (List.Subset.refl _) (List.subset_cons_self _ _)
    ?_ ?_ ?_
  · exact fun hsource => absurd List.mem_cons_self hsource
  · exact fun k hk => AList.lookup_insert_ne hk
  · intro seg' hseg'
    rw [AList.lookup_insert] at hseg'
    obtain rfl := Option.some.inj hseg'
    exact
      { path := ⟨n, hn⟩
        named := (congrArg (AList.lookup seg.path) hsame.names).trans hbuffers.named
        frames := hbuffers.frames
        holds := fun hsource => absurd List.mem_cons_self hsource }

/-- `store_frame`, but for what becomes of the buffer of a segment whose flush has failed. -/
theorem Genuine.storeFrame (h : Genuine st accepted torn) {frame : Frame} {answers : StoreAnswers}
    {r : CloudStorage × Result Unit} (hr : st.storeFrame frame answers = r) :
    (answers.flush.isSome ∧ r.2 ≠ .ok () ∧
        (∃ seg, st.localSegments.lookup frame.source = some seg) ∧
        r.1 = { st with localSegments := st.localSegments.erase frame.source }) ∨
      Genuine r.1 (if r.2 = .ok () then accepted ++ [frame] else accepted)
          (if answers.write.isSome then frame.source :: torn else torn) ∧
        (answers.flush.isSome → r.1.localSegments.lookup frame.source = none →
          st.localSegments.lookup frame.source = none) := by
  subst hr
  rw [CloudStorage.storeFrame, writeFrame]
  cases hcreated : st.getOrCreateSegment frame.source frame.timestampUs answers with
  | mk st' result =>
    rcases h.getOrCreateSegment hcreated with ⟨hflush, hne, hsome, hst⟩ | ⟨hgenuine, hmap⟩
    · cases result with
      | error e => exact .inl ⟨hflush, hne, hsome, hst⟩
      | ok => exact absurd rfl hne
    · refine .inr ?_
      have hweaken : Genuine st' accepted
          (if answers.write.isSome then frame.source :: torn else torn) := by
        refine hgenuine.torn_mono ?_
        split
        · exact List.subset_cons_self _ _
        · exact List.Subset.refl _
      cases result with
      | error e => exact ⟨hweaken, hmap⟩
      | ok =>
        rcases (st'.localSegments.lookup frame.source).eq_none_or_eq_some with
          hlook | ⟨seg, hlook⟩
        · simp only [hlook]
          exact ⟨hweaken, fun hflush _ => hmap hflush hlook⟩
        · -- whether the write fails or not, the source has a segment
          have hinserted : ∀ seg', (st'.localSegments.insert frame.source seg').lookup
              frame.source ≠ none := fun seg' => by simp
          rcases answers.write.eq_none_or_eq_some with hwrite | ⟨fault, hwrite⟩
          · simp only [hlook, hwrite]
            exact ⟨hgenuine.appendRecord hlook, fun _ hnone => absurd hnone (hinserted _)⟩
          · simp only [hlook, hwrite]
            exact ⟨hgenuine.failRecord hlook fault, fun _ hnone => absurd hnone (hinserted _)⟩

/-- **`store_frame`** keeps what there is genuine. -/
theorem Genuine.storeOrDrop (h : Genuine st accepted torn) (frame : Frame) (answers : StoreAnswers)
    (drained : Nat) :
    Genuine (st.storeOrDrop frame answers drained).1
      (if (st.storeOrDrop frame answers drained).2 = .ok () then accepted ++ [frame] else accepted)
      (if answers.write.isSome then frame.source :: torn else torn) := by
  rw [CloudStorage.storeOrDrop]
  rcases h.storeFrame (r := st.storeFrame frame answers) rfl with
    ⟨hflush, hne, ⟨seg, hlook⟩, hst⟩ | ⟨hgenuine, hmap⟩
  · obtain ⟨e, hflush⟩ := Option.isSome_iff_exists.mp hflush
    simp only [hflush, hlook, hst, AList.lookup_erase, if_neg hne]
    refine (h.drop hlook drained).torn_mono ?_
    split
    · exact List.subset_cons_self _ _
    · exact List.Subset.refl _
  · split
    · next hflush hlook hnone =>
      have hnone := hmap (Option.isSome_iff_exists.mpr ⟨_, hflush⟩) hnone
      cases hlook.symm.trans hnone
    · exact hgenuine

/-! ## Reading -/

/-- What reading may give: frames of the source that were accepted and are in the range, or the
failure of a download. -/
def Reads (accepted : List Frame) (source : SourceId) (startTimeUs endTimeUs : UInt64) :
    Result (List Frame) → Prop
  | .ok frames => ∀ f ∈ frames, f ∈ accepted ∧ f.source = source ∧
    startTimeUs ≤ f.timestampUs ∧ f.timestampUs ≤ endTimeUs
  | .error e => ∃ stderr : String, e = s!"S3 download failed: {stderr}"

/-- A part of the records of accepted frames can be read, wherever it is cut. -/
theorem reads_of_partOf {fileData : Bytes} (h : PartOf accepted source fileData)
    (hrecordable : ∀ f ∈ accepted, Recordable f) (a b : UInt64) :
    Reads accepted source a b (readRange fileData a b) := by
  obtain ⟨frames, hframes, hdata⟩ := h
  obtain ⟨tail, htail, hcut⟩ := exists_cutRecord hdata
  have hcomplete := completeFrames_subset frames fileData.length
  have hread : readRange fileData a b = _ :=
    readRecordsFrom_append (fun f hf => hrecordable f (hframes f (hcomplete hf)).1)
      (fun f hf => hrecordable f (hframes f hf).1) (List.drop_zero.trans htail) hcut
  rw [hread]
  intro f hf
  obtain ⟨hf, hrange⟩ := List.mem_filter.mp hf
  rw [Bool.and_eq_true, decide_eq_true_eq, decide_eq_true_eq] at hrange
  exact ⟨(hframes f (hcomplete hf)).1, (hframes f (hcomplete hf)).2, hrange⟩

/-- A download puts a part of the records of a source under a name of this source. -/
theorem Genuine.download (h : Genuine st accepted torn) {m n : UInt64} {answer : Option String}
    {r : CloudStorage × Result Unit} (hnone : st.fs.names.lookup (st.cachePath source m) = none)
    (hr : st.downloadFromS3 (st.objectKey source n) (st.cachePath source m) answer = r) :
    Genuine r.1 accepted torn ∧ r.1.config = st.config ∧
      ((∃ stderr : String, r.2 = .error s!"S3 download failed: {stderr}") ∨
        r.2 = .ok () ∧ ∃ i, r.1.fs.names.lookup (st.cachePath source m) = some i) := by
  subst hr
  unfold downloadFromS3
  split
  · next stderr => exact ⟨h, rfl, .inl ⟨stderr, rfl⟩⟩
  · exact ⟨h, rfl, .inl ⟨"key does not exist", rfl⟩⟩
  · next data hdata =>
    have hcreated : Genuine { st with fs := (st.fs.create (st.cachePath source m)).1 } accepted
        torn := h.create fun seg hlook heq => by
      have hnamed := ((h source).buffers seg hlook).named
      rw [heq] at hnamed
      cases hnone.symm.trans hnamed
    have hnamed : (st.fs.create (st.cachePath source m)).1.names.lookup (st.cachePath source m) =
        some _ := (st.fs.lookup_create _ _).trans (if_pos rfl)
    have hsame := (st.fs.create (st.cachePath source m)).1.write_sameBut
      (st.fs.create (st.cachePath source m)).2 data
    refine ⟨?_, rfl, .inr ⟨rfl, _, (congrArg (AList.lookup _) hsame.names).trans hnamed⟩⟩
    refine hcreated.change hnamed hsame (List.Subset.refl _) (List.Subset.refl _) ?_
      (fun _ _ => rfl) ?_
    · intro hsource
      rw [FileSystem.write_data, FileSystem.create_data, FileSystem.create_pos]
      have hwritten : FileSystem.overwrite [] 0 data = data := by
        rw [← List.length_nil, FileSystem.overwrite_end, List.nil_append]
      rw [hwritten]
      exact (h source).objects n data hdata hsource
    · intro seg hlook
      have hbuffers := (hcreated source).buffers seg hlook
      refine hbuffers.of_same (List.Subset.refl _) (List.Subset.refl _) rfl
        (congrArg (AList.lookup _) hsame.names) (hsame.data ?_)
      -- the segment of the source has a file of its own
      intro heq
      have hpath := hbuffers.named
      rw [heq] at hpath
      have hpath := (st.fs.create (st.cachePath source m)).1.names_inj _ _ _ hpath hnamed
      have hold := ((h source).buffers seg hlook).named
      rw [hpath] at hold
      cases hnone.symm.trans hold

/-- Reading one indexed segment. -/
theorem Genuine.getSegment (h : Genuine st accepted torn) {info : SegmentInfo}
    (hkey : info.key = st.objectKey source info.startTimeUs) {a b : UInt64}
    {answer : Option String} {r : CloudStorage × Result (List Frame)}
    (hr : st.getSegment source info a b answer = r) :
    Genuine r.1 accepted torn ∧ r.1.config = st.config ∧
      (source ∉ torn → (∀ f ∈ accepted, Recordable f) → Reads accepted source a b r.2) := by
  subst hr
  rw [CloudStorage.getSegment]
  split
  · exact ⟨h, rfl, fun _ _ _ hf => absurd hf List.not_mem_nil⟩
  · -- the file is in the cache, or it is downloaded
    have hcached : ∀ r, (if st.fs.hasPath (st.cachePath source info.startTimeUs) then (st, .ok ())
          else st.downloadFromS3 info.key (st.cachePath source info.startTimeUs) answer) = r →
        Genuine r.1 accepted torn ∧ r.1.config = st.config ∧
          ((∃ stderr : String, r.2 = .error s!"S3 download failed: {stderr}") ∨
            r.2 = .ok () ∧
              ∃ i, r.1.fs.names.lookup (st.cachePath source info.startTimeUs) = some i) := by
      rintro r rfl
      split
      · next hpath => exact ⟨h, rfl, .inr ⟨rfl, Option.isSome_iff_exists.mp hpath⟩⟩
      · next hpath =>
        rw [hkey]
        exact h.download (Option.not_isSome_iff_eq_none.mp hpath) rfl
    simp only []
    split
    · next st' e heq =>
      obtain ⟨hgenuine, hconfig, ⟨stderr, he⟩ | ⟨hok, -⟩⟩ := hcached _ heq
      · exact ⟨hgenuine, hconfig, fun _ _ => ⟨stderr, Except.error.inj he⟩⟩
      · cases hok
    · next st' heq =>
      obtain ⟨hgenuine, hconfig, ⟨stderr, he⟩ | ⟨-, i, hi⟩⟩ := hcached _ heq
      · cases he
      · have hread : st'.fs.read (st.cachePath source info.startTimeUs) = some _ :=
          congrArg (Option.map _) hi
        have hpath : st.cachePath source info.startTimeUs =
            st'.cachePath source info.startTimeUs := by
          rw [cachePath, cachePath, hconfig]
        simp only [hread]
        refine ⟨hgenuine, hconfig, fun hsource hrecordable => ?_⟩
        exact reads_of_partOf ((hgenuine source).files _ i (hpath ▸ hi) hsource) hrecordable a b

/-- Reading all of them, up to the first download that fails. -/
theorem Genuine.getSegments {segments : List SegmentInfo} {a b : UInt64}
    {answers : String → Option String} (h : Genuine st accepted torn)
    (hkeys : ∀ info ∈ segments, info.key = st.objectKey source info.startTimeUs) :
    Genuine (st.getSegments source a b answers segments).1 accepted torn ∧
      (source ∉ torn → (∀ f ∈ accepted, Recordable f) →
        Reads accepted source a b (st.getSegments source a b answers segments).2) := by
  induction segments generalizing st with
  | nil => exact ⟨h, fun _ _ _ hf => absurd hf List.not_mem_nil⟩
  | cons info segments ih =>
    rw [CloudStorage.getSegments]
    cases hr : st.getSegment source info a b (answers info.key) with
    | mk st' result =>
      obtain ⟨hgenuine, hconfig, hreads⟩ := h.getSegment (hkeys info List.mem_cons_self) hr
      have hkeys' : ∀ info ∈ segments, info.key = st'.objectKey source info.startTimeUs := by
        rw [objectKey_congr hconfig]
        exact fun info hinfo => hkeys info (List.mem_cons_of_mem _ hinfo)
      obtain ⟨hrest, hreadsRest⟩ := ih hgenuine hkeys'
      cases result with
      | error e => exact ⟨hgenuine, hreads⟩
      | ok frames =>
        refine ⟨hrest, fun hsource hrecordable => ?_⟩
        have hframes := hreads hsource hrecordable
        have hothers := hreadsRest hsource hrecordable
        simp only []
        cases hresult : (st'.getSegments source a b answers segments).2 with
        | error e =>
          rw [hresult] at hothers
          exact hothers
        | ok others =>
          rw [hresult] at hothers
          intro f hf
          exact (List.mem_append.mp hf).elim (hframes f) (hothers f)

theorem Genuine.getFrames (h : Genuine st accepted torn) (source : SourceId) (a b : UInt64)
    (answers : String → Option String) :
    Genuine (st.getFrames source a b answers).1 accepted torn ∧
      (source ∉ torn → (∀ f ∈ accepted, Recordable f) →
        Reads accepted source a b (st.getFrames source a b answers).2) := by
  rw [CloudStorage.getFrames]
  cases hsegments : st.index.segments.lookup source with
  | none => exact ⟨h, fun _ _ _ hf => absurd hf List.not_mem_nil⟩
  | some segments =>
    have hkeys : ∀ info ∈ segments, info.key = st.objectKey source info.startTimeUs := by
      intro info hinfo
      refine (h source).keys info ?_
      rw [segmentsOf, hsegments]
      exact hinfo
    obtain ⟨hgenuine, hreads⟩ := h.getSegments (a := a) (b := b) hkeys
    refine ⟨hgenuine, fun hsource hrecordable => ?_⟩
    have hreads := hreads hsource hrecordable
    simp only []
    cases hresult : (st.getSegments source a b answers segments).2 with
    | error e =>
      rw [hresult] at hreads
      exact hreads
    | ok frames =>
      rw [hresult] at hreads
      exact fun f hf => hreads f ((List.mem_insertionSort _).mp hf)

theorem Genuine.cleanup (h : Genuine st accepted torn) (cutoff : UInt64)
    (answers : SourceId → Nat → Option String) :
    Genuine (st.cleanup cutoff answers).1 accepted torn := fun source =>
  { files := (h source).files
    objects := fun n data hlook hsource => by
      rcases (st.cleanup_spec cutoff answers).2 (st.objectKey source n) with hsame | ⟨hnone, -⟩
      · exact (h source).objects n data (hsame.symm.trans hlook) hsource
      · cases hnone.symm.trans hlook
    buffers := fun seg hlook => ((h source).buffers seg hlook).congr rfl rfl
    keys := fun info hinfo => by
      rw [(st.cleanup_spec cutoff answers).1 source] at hinfo
      exact (h source).keys info ((unpicked_sublist _ _).subset hinfo) }

/-- Everything is dropped but the files and the objects. -/
theorem Genuine.restart (h : Genuine st accepted torn) (drained : SourceId → Nat) :
    Genuine (st.restart drained) accepted torn := by
  have hdropped : ∀ (sources : List SourceId) (st : CloudStorage), Genuine st accepted torn →
      Genuine (sources.foldl (fun st source => st.dropSegment source (drained source)) st) accepted
        torn := by
    intro sources
    induction sources with
    | nil => exact fun _ h => h
    | cons source sources ih =>
      intro st h
      refine ih _ ?_
      show Genuine (st.dropSegment source (drained source)) accepted torn
      unfold dropSegment
      split
      · exact h
      · next seg hlook => exact h.drop hlook (drained source)
  have h := hdropped st.localSegments.keys st h
  exact fun source =>
    { files := (h source).files
      objects := (h source).objects
      buffers := fun seg hlook => by cases (AList.lookup_empty source).symm.trans hlook
      keys := fun info hinfo => by cases hinfo }

end CloudStorage

/-! ## Runs -/

namespace CloudRecorder

variable {s s' : CloudRecorder} {event : CloudUpkeep}

/-- What there is of the sources without torn writes is genuine. -/
def Genuine (s : CloudRecorder) : Prop := s.storage.Genuine s.accepted s.torn

theorem genuine_step (h : s.Genuine) (hstep : step s event = some s') : s'.Genuine := by
  cases event with
  | store frame answers drained =>
    obtain rfl := Option.some.inj hstep
    exact CloudStorage.Genuine.storeOrDrop h frame answers drained
  | get source a b answers =>
    obtain rfl := Option.some.inj hstep
    exact (CloudStorage.Genuine.getFrames h source a b answers).1
  | cleanup cutoff answers =>
    obtain rfl := Option.some.inj hstep
    exact CloudStorage.Genuine.cleanup h cutoff answers
  | restart drained =>
    obtain rfl := Option.some.inj hstep
    exact CloudStorage.Genuine.restart h drained

/-- **What is played back is genuine.** In every run, whatever fails, reading a source for which no
write was torn gives frames of it that were accepted and are in the range, or the failure of a
download. -/
theorem cloud_playback_genuine (config : CloudStorageConfig) (events : List CloudUpkeep) :
    Always step (fun s => (∀ f ∈ s.accepted, Recordable f) → ∀ source ∉ s.torn, ∀ a b answers,
        CloudStorage.Reads s.accepted source a b (s.storage.getFrames source a b answers).2)
      { storage := .onEmptyCache config } events := by
  have hgenuine : Always step Genuine { storage := .onEmptyCache config } events :=
    always_of_step (.onEmptyCache config) (fun _ _ _ h hstep => genuine_step h hstep) events
  exact hgenuine.mono fun s h hrecordable source hsource a b answers =>
    (CloudStorage.Genuine.getFrames h source a b answers).2 hsource hrecordable

end CloudRecorder

end Kodama
