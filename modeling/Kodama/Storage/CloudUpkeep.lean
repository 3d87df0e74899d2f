import Kodama.Lib.Positions
import Kodama.Storage.Cloud

/-!
# Runs of the cloud storage (crates/kodama/src/storage/cloud.rs)

`CloudRecorder` is a cloud storage whose calls are made one after the other, with what they left
behind on the way: frames that were accepted, files in the cache directory, objects in the bucket.

Files and objects are found by a name made of the source and a time, and no name is of two
sources (`cachePath_inj`, `objectKey_inj`). So whatever a call does for one source leaves what
there is of the others (`SameFor`).
-/

namespace Kodama

open Lib

/-! ## Cleanup and restart -/

namespace CloudStorage

/-- The segments of a source in the index. -/
def segmentsOf (st : CloudStorage) (source : SourceId) : List SegmentInfo :=
  (st.index.segments.lookup source).getD []

/-- Delete an object from S3. That there is none is no error. -/
def deleteFromS3 (objects : HashMap String Bytes) (key : String) (answer : Option String) :
    Result (HashMap String Bytes) :=
  match answer with
  | some stderr => .error s!"S3 delete failed: {stderr}"
  | none => .ok (objects.erase key)

/-- One pass of `cleanup` over the segments of a source: the positions to remove are collected.
The answers are those to the deletions, by position. -/
def deleteSegments (answers : Nat → Option String) (beforeTimestampUs : UInt64) :
    List (SegmentInfo × Nat) → HashMap String Bytes × UInt64 →
    (HashMap String Bytes × UInt64) × List Nat
  | [], acc => (acc, [])
  | (seg, i) :: segments, (objects, deletedBytes) =>
    if seg.endTimeUs < beforeTimestampUs then
      match deleteFromS3 objects seg.key (answers i) with
      | .error _ => deleteSegments answers beforeTimestampUs segments (objects, deletedBytes)
      | .ok objects =>
        let r := deleteSegments answers beforeTimestampUs segments
          (objects, deletedBytes + seg.sizeBytes)
        (r.1, i :: r.2)
    else deleteSegments answers beforeTimestampUs segments (objects, deletedBytes)

/-- `cleanup` for one source; the positions are removed last first. -/
def cleanupSource (answers : SourceId → Nat → Option String) (beforeTimestampUs : UInt64)
    (acc : (HashMap String Bytes × UInt64) × HashMap SourceId (List SegmentInfo))
    (entry : SourceId × List SegmentInfo) :
    (HashMap String Bytes × UInt64) × HashMap SourceId (List SegmentInfo) :=
  let r := deleteSegments (answers entry.1) beforeTimestampUs entry.2.zipIdx acc.1
  (r.1, acc.2.insert entry.1 (r.2.reverse.foldl (fun segments i => segments.eraseIdx i) entry.2))

/-- Delete the segments that ended before a timestamp; also the bytes deleted. -/
def cleanup (st : CloudStorage) (beforeTimestampUs : UInt64)
    (answers : SourceId → Nat → Option String) : CloudStorage × UInt64 :=
  let r := (st.index.segments.entries.map fun e => (e.1, e.2)).foldl
    (cleanupSource answers beforeTimestampUs) ((st.objects, 0), st.index.segments)
  let totalBytes := if r.1.2 ≤ st.index.totalBytes then st.index.totalBytes - r.1.2 else 0
  ({ st with objects := r.1.1, index := ⟨r.2, totalBytes⟩ }, r.1.2)

/-- `store_frame`. When the flush of the old segment has failed, the segment is dropped, and what
its buffer still has is written out once more, as far as that goes. -/
def storeOrDrop (st : CloudStorage) (frame : Frame) (answers : StoreAnswers) (drained : Nat) :
    CloudStorage × Result Unit :=
  let r := st.storeFrame frame answers
  match answers.flush, st.localSegments.lookup frame.source,
      r.1.localSegments.lookup frame.source with
  | some _, some seg, none => ({ r.1 with fs := (seg.file.writePart r.1.fs [] drained).1 }, r.2)
  | _, _, _ => r

/-- The local segment of a source is dropped. -/
def dropSegment (st : CloudStorage) (source : SourceId) (drained : Nat) : CloudStorage :=
  match st.localSegments.lookup source with
  | none => st
  | some seg =>
    { st with
      fs := (seg.file.writePart st.fs [] drained).1
      localSegments := st.localSegments.erase source }

/-- The process ends, and `CloudStorage::new` opens the cache directory and the bucket again. -/
def restart (st : CloudStorage) (drained : SourceId → Nat) : CloudStorage :=
  let st := st.localSegments.keys.foldl (fun st source => st.dropSegment source (drained source)) st
  { st with index := ⟨∅, 0⟩, localSegments := ∅ }

end CloudStorage

/-- A cloud storage whose calls are made one after the other, and what has become of them. -/
structure CloudRecorder where
  storage : CloudStorage
  /-- the frames whose call returned `Ok` -/
  accepted : List Frame := []
  /-- the sources for which a write failed -/
  torn : List SourceId := []
  /-- the segments that ended before it may have been deleted -/
  cutoff : UInt64 := 0

inductive CloudUpkeep where
  | store (frame : Frame) (answers : StoreAnswers) (drained : Nat)
  | get (source : SourceId) (startTimeUs endTimeUs : UInt64) (answers : String → Option String)
  | cleanup (beforeTimestampUs : UInt64) (answers : SourceId → Nat → Option String)
  | restart (drained : SourceId → Nat)

namespace CloudRecorder

def step (s : CloudRecorder) : CloudUpkeep → Option CloudRecorder
  | .store frame answers drained =>
    let r := s.storage.storeOrDrop frame answers drained
    some
      { s with
        storage := r.1
        accepted := if r.2 = .ok () then s.accepted ++ [frame] else s.accepted
        torn := if answers.write.isSome then frame.source :: s.torn else s.torn }
  | .get source startTimeUs endTimeUs answers =>
    some { s with storage := (s.storage.getFrames source startTimeUs endTimeUs answers).1 }
  | .cleanup beforeTimestampUs answers =>
    some
      { s with
        storage := (s.storage.cleanup beforeTimestampUs answers).1
        cutoff := max s.cutoff beforeTimestampUs }
  | .restart drained => some { s with storage := s.storage.restart drained }

end CloudRecorder

/-! ## Names -/

theorem SourceId.display_length (source : SourceId) : source.display.toList.length = 16 := by
  rw [SourceId.display, String.toList_ofList, List.length_flatMap]
  have hbyte : ∀ b : UInt8, [hexDigit (b.toNat / 16), hexDigit (b.toNat % 16)].length = 2 :=
    fun _ => rfl
  simp only [hbyte, List.map_const', source.length_eq]
  rfl

namespace CloudStorage

variable {st : CloudStorage} {source source' : SourceId} {m n : UInt64}

/-- A text in which a source stands between others is of no other source. -/
theorem display_inj {before between name name' : String}
    (h : before ++ (source.display ++ (between ++ name)) =
      before ++ (source'.display ++ (between ++ name'))) : source = source' ∧ name = name' := by
  have hlist := congrArg String.toList h
  simp only [String.toList_append] at hlist
  obtain ⟨hdisplay, hrest⟩ := List.append_inj (List.append_cancel_left hlist)
    (source.display_length.trans source'.display_length.symm)
  exact ⟨SourceId.display_injective (String.toList_inj.mp hdisplay),
    String.toList_inj.mp (List.append_cancel_left hrest)⟩

theorem cachePath_inj (h : st.cachePath source m = st.cachePath source' n) :
    source = source' ∧ m = n := by
  have hname : ∀ source n, (st.cachePath source n).file =
      "" ++ (source.display ++ ("_" ++ s!"{n}.segment")) := by
    intro source n
    show source.display ++ "_" ++ toString n ++ ".segment" = _
    rw [String.empty_append, String.append_assoc, String.append_assoc]
    rfl
  have hfile := congrArg PathBuf.file h
  rw [hname, hname] at hfile
  exact (display_inj hfile).imp_right segmentFile_inj

theorem objectKey_inj (h : st.objectKey source m = st.objectKey source' n) :
    source = source' ∧ m = n := by
  obtain ⟨before, hname⟩ : ∃ before, ∀ source n, st.objectKey source n =
      before ++ (source.display ++ ("/" ++ s!"{n}.segment")) := by
    refine ⟨if st.config.keyPrefix.isEmpty then "" else s!"{st.config.keyPrefix}/",
      fun source n => ?_⟩
    show _ ++ source.display ++ "/" ++ toString n ++ ".segment" = _
    rw [String.append_assoc, String.append_assoc, String.append_assoc]
    rfl
  rw [hname, hname] at h
  exact (display_inj h).imp_right segmentFile_inj

/-! ## Sources apart from each other -/

/-- Nothing that is found of a source differs. -/
structure SameFor (st st' : CloudStorage) (k : SourceId) : Prop where
  config : st'.config = st.config
  segment : st'.localSegments.lookup k = st.localSegments.lookup k
  indexed : st'.segmentsOf k = st.segmentsOf k
  names : ∀ n, st'.fs.names.lookup (st.cachePath k n) = st.fs.names.lookup (st.cachePath k n)
  data : ∀ n i, st.fs.names.lookup (st.cachePath k n) = some i → st'.fs.data i = st.fs.data i
  objects : ∀ n, st'.objects.lookup (st.objectKey k n) = st.objects.lookup (st.objectKey k n)

theorem cachePath_congr {st' : CloudStorage} (hconfig : st'.config = st.config) :
    st'.cachePath = st.cachePath := by
  funext source n
  rw [cachePath, cachePath, hconfig]

theorem objectKey_congr {st' : CloudStorage} (hconfig : st'.config = st.config) :
    st'.objectKey = st.objectKey := by
  funext source n
  simp only [objectKey, hconfig]

theorem SameFor.refl (st : CloudStorage) (k : SourceId) : SameFor st st k :=
  ⟨rfl, rfl, rfl, fun _ => rfl, fun _ _ _ => rfl, fun _ => rfl⟩

theorem SameFor.trans {st₁ st₂ st₃ : CloudStorage} {k : SourceId} (h₁ : SameFor st₁ st₂ k)
    (h₂ : SameFor st₂ st₃ k) : SameFor st₁ st₃ k where
  config := h₂.config.trans h₁.config
  segment := h₂.segment.trans h₁.segment
  indexed := h₂.indexed.trans h₁.indexed
  names n := by
    have hn := h₂.names n
    rw [cachePath_congr h₁.config] at hn
    exact hn.trans (h₁.names n)
  data n i hi := by
    refine (h₂.data n i ?_).trans (h₁.data n i hi)
    rw [cachePath_congr h₁.config, h₁.names n]
    exact hi
  objects n := by
    have hn := h₂.objects n
    rw [objectKey_congr h₁.config] at hn
    exact hn.trans (h₁.objects n)

variable {k : SourceId} {fs' : FileSystem PathBuf} {i : Nat}

/-- One file of a source changes, and its segment. -/
theorem sameFor_change {segments : HashMap SourceId LocalSegment} (hk : k ≠ source)
    (hnamed : st.fs.names.lookup (st.cachePath source n) = some i) (hsame : st.fs.SameBut fs' i)
    (hothers : ∀ k, k ≠ source → segments.lookup k = st.localSegments.lookup k) :
    SameFor st { st with fs := fs', localSegments := segments } k where
  config := rfl
  segment := hothers k hk
  indexed := rfl
  names n := by rw [hsame.names]
  data m j hj := by
    refine hsame.data ?_
    rintro rfl
    exact hk (cachePath_inj (st.fs.names_inj _ _ _ hj hnamed)).1
  objects _ := rfl

/-- A file is created, or emptied, under a name of a source. -/
theorem sameFor_create (hk : k ≠ source) (n : UInt64) :
    SameFor st { st with fs := (st.fs.create (st.cachePath source n)).1 } k where
  config := rfl
  segment := rfl
  indexed := rfl
  names _ := (st.fs.lookup_create _ _).trans (if_neg fun heq => hk (cachePath_inj heq).1)
  data _ _ hj := FileSystem.create_data_other (fun heq => hk (cachePath_inj heq).1) hj
  objects _ := rfl

theorem sameFor_remove (hk : k ≠ source)
    (hremove : st.fs.remove (st.cachePath source n) = some fs') :
    SameFor st { st with fs := fs' } k where
  config := rfl
  segment := rfl
  indexed := rfl
  names _ := (FileSystem.lookup_remove hremove _).trans
    (if_neg fun heq => hk (cachePath_inj heq).1)
  data _ j _ := congrArg Inode.data (congrFun (FileSystem.remove_inodes hremove).1 j)
  objects _ := rfl

/-- An object is put under a key of a source. -/
theorem sameFor_putObject (hk : k ≠ source) (n : UInt64) (data : Bytes) :
    SameFor st { st with objects := st.objects.insert (st.objectKey source n) data } k where
  config := rfl
  segment := rfl
  indexed := rfl
  names _ := rfl
  data _ _ _ := rfl
  objects _ := AList.lookup_insert_ne fun heq => hk (objectKey_inj heq).1

/-- What indexing a segment adds. -/
theorem segmentsOf_indexSegment (st : CloudStorage) (source k : SourceId) (seg : LocalSegment) :
    ∃ info : SegmentInfo, (st.indexSegment source seg).segmentsOf k =
      (if k = source then st.segmentsOf source ++ [info] else st.segmentsOf k) ∧
      info.key = st.objectKey source info.startTimeUs ∧ info.startTimeUs = seg.startTimeUs ∧
      info.endTimeUs = seg.endTimeUs ∧ info.frames = seg.frames := by
  refine ⟨⟨st.objectKey source seg.startTimeUs, seg.startTimeUs, seg.endTimeUs, seg.frameCount,
    seg.bytesWritten, seg.frames⟩, ?_, rfl, rfl, rfl, rfl⟩
  show ((st.index.segments.insert source _).lookup k).getD [] = _
  rw [HashMap.lookup_insert_ite]
  split
  · rfl
  · rfl

theorem sameFor_indexSegment (hk : k ≠ source) (seg : LocalSegment) :
    SameFor st (st.indexSegment source seg) k where
  config := rfl
  segment := rfl
  indexed := by
    obtain ⟨info, hsegments, -⟩ := st.segmentsOf_indexSegment source k seg
    rw [hsegments, if_neg hk]
  names _ := rfl
  data _ _ _ := rfl
  objects _ := rfl

/-! ## What a cleanup leaves -/

/-- Whether a cleanup deletes a segment at a position. -/
def deletes (answers : Nat → Option String) (cutoff : UInt64) (seg : SegmentInfo) (i : Nat) :
    Bool :=
  seg.endTimeUs < cutoff && (answers i).isNone

/-- The segments of a source that a cleanup leaves. -/
def keptSegments (answers : Nat → Option String) (cutoff : UInt64) : List SegmentInfo →
    List SegmentInfo :=
  unpicked (deletes answers cutoff)

/-- One pass over the segments of a source: the positions of those deleted, and no other object is
touched. -/
theorem deleteSegments_spec (answers : Nat → Option String) (cutoff : UInt64)
    (segments : List (SegmentInfo × Nat)) :
    ∀ (objects : HashMap String Bytes) (freed : UInt64),
      (deleteSegments answers cutoff segments (objects, freed)).2 =
        (segments.filter fun e => deletes answers cutoff e.1 e.2).map Prod.snd ∧
      ∀ key, (deleteSegments answers cutoff segments (objects, freed)).1.1.lookup key =
          objects.lookup key ∨
        (deleteSegments answers cutoff segments (objects, freed)).1.1.lookup key = none ∧
          ∃ e ∈ segments, deletes answers cutoff e.1 e.2 ∧ e.1.key = key := by
  induction segments with
  | nil => exact fun objects freed => ⟨rfl, fun key => .inl rfl⟩
  | cons head segments ih =>
    obtain ⟨seg, i⟩ := head
    intro objects freed
    have hlater : ∀ key, (∃ e ∈ segments, deletes answers cutoff e.1 e.2 ∧ e.1.key = key) →
        ∃ e ∈ (seg, i) :: segments, deletes answers cutoff e.1 e.2 ∧ e.1.key = key :=
      fun key ⟨e, he, hdeletes⟩ => ⟨e, List.mem_cons_of_mem _ he, hdeletes⟩
    rw [List.filter_cons]
    unfold deleteSegments
    by_cases hend : seg.endTimeUs < cutoff
    · rw [if_pos hend]
      cases hanswer : answers i with
      | some stderr =>
        have hkept : deletes answers cutoff seg i = false := by simp [deletes, hanswer]
        rw [hkept, if_neg Bool.false_ne_true]
        obtain ⟨hpositions, hobjects⟩ := ih objects freed
        exact ⟨hpositions, fun key => (hobjects key).imp_right (.imp_right (hlater key))⟩
      | none =>
        have hdeleted : deletes answers cutoff seg i = true := by simp [deletes, hanswer, hend]
        rw [hdeleted, if_pos rfl, List.map_cons]
        obtain ⟨hpositions, hobjects⟩ := ih (objects.erase seg.key) (freed + seg.sizeBytes)
        refine ⟨congrArg (i :: ·) hpositions, fun key => ?_⟩
        rcases hobjects key with hsame | ⟨hnone, he⟩
        · rw [HashMap.lookup_erase_ite] at hsame
          split at hsame
          · next hkey =>
            exact .inr ⟨hsame, (seg, i), List.mem_cons_self, hdeleted, hkey.symm⟩
          · exact .inl hsame
        · exact .inr ⟨hnone, hlater key he⟩
    · have hkept : deletes answers cutoff seg i = false := by simp [deletes, hend]
      rw [if_neg hend, hkept, if_neg Bool.false_ne_true]
      obtain ⟨hpositions, hobjects⟩ := ih objects freed
      exact ⟨hpositions, fun key => (hobjects key).imp_right (.imp_right (hlater key))⟩

/-- On the way of a cleanup: the sources to come are as in the index, and the objects that are gone
are those of segments that it deletes. -/
structure Cleaning (st : CloudStorage) (answers : SourceId → Nat → Option String) (cutoff : UInt64)
    (acc : HashMap String Bytes × UInt64) (sources : List (SourceId × List SegmentInfo)) :
    Prop where
  sources : ∀ s ∈ sources, st.index.segments.lookup s.1 = some s.2
  objects : ∀ key, acc.1.lookup key = st.objects.lookup key ∨
    acc.1.lookup key = none ∧ ∃ source, ∃ e ∈ (st.segmentsOf source).zipIdx,
      deletes (answers source) cutoff e.1 e.2 ∧ e.1.key = key

theorem Cleaning.cleanupSource {st : CloudStorage} {answers : SourceId → Nat → Option String}
    {cutoff : UInt64}
    {acc : (HashMap String Bytes × UInt64) × HashMap SourceId (List SegmentInfo)}
    {entry : SourceId × List SegmentInfo} {sources : List (SourceId × List SegmentInfo)}
    (h : st.Cleaning answers cutoff acc.1 (entry :: sources)) :
    (CloudStorage.cleanupSource answers cutoff acc entry).2 =
        acc.2.insert entry.1 (keptSegments (answers entry.1) cutoff entry.2) ∧
      st.Cleaning answers cutoff (CloudStorage.cleanupSource answers cutoff acc entry).1
        sources := by
  obtain ⟨hpositions, hobjects⟩ := deleteSegments_spec (answers entry.1) cutoff entry.2.zipIdx
    acc.1.1 acc.1.2
  refine ⟨?_, fun s hs => h.sources s (List.mem_cons_of_mem _ hs), fun key => ?_⟩
  · show acc.2.insert entry.1 _ = _
    rw [hpositions, List.foldl_reverse]
    exact congrArg (acc.2.insert entry.1)
      (foldr_eraseIdx_filter entry.2 (deletes (answers entry.1) cutoff))
  · rcases hobjects key with hsame | ⟨hnone, e, he, hdeleted⟩
    · exact (h.objects key).imp hsame.trans (.imp_left hsame.trans)
    · refine .inr ⟨hnone, entry.1, e, ?_, hdeleted⟩
      rw [segmentsOf, h.sources entry List.mem_cons_self]
      exact he

/-- **What a cleanup leaves**: of each source the segments it did not delete, and all objects but
those of segments that it deleted. -/
theorem cleanup_spec (st : CloudStorage) (cutoff : UInt64)
    (answers : SourceId → Nat → Option String) :
    (∀ source, (st.cleanup cutoff answers).1.segmentsOf source =
      keptSegments (answers source) cutoff (st.segmentsOf source)) ∧
    ∀ key, (st.cleanup cutoff answers).1.objects.lookup key = st.objects.lookup key ∨
      (st.cleanup cutoff answers).1.objects.lookup key = none ∧
        ∃ source, ∃ e ∈ (st.segmentsOf source).zipIdx,
          deletes (answers source) cutoff e.1 e.2 ∧ e.1.key = key := by
  have hstart : st.Cleaning answers cutoff (st.objects, 0)
      (st.index.segments.entries.map fun e => (e.1, e.2)) :=
    ⟨fun _ hs => HashMap.mem_map_entries_iff.mp hs, fun _ => .inl rfl⟩
  obtain ⟨hkept, hend⟩ := HashMap.lookup_foldl_entries
    (f := fun source => keptSegments (answers source) cutoff) (fun _ _ _ h => h.cleanupSource)
    st.index.segments hstart
  refine ⟨fun source => ?_, hend.objects⟩
  refine (congrArg (Option.getD · []) (hkept source)).trans ?_
  rw [segmentsOf]
  cases st.index.segments.lookup source <;> rfl

end CloudStorage

end Kodama
