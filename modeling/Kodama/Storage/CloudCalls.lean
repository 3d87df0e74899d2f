import Kodama.Lib.Machine
import Kodama.Storage.Cloud
import Mathlib.Data.List.Perm.Basic

/-!
# Concurrent calls of the cloud storage (crates/kodama/src/storage/cloud.rs)

Calls of `store_frame` for one source run concurrently. A call holds the lock on
`local_segments` while it looks at the source's segment, takes it out or creates one, and
again while it writes; it does not while a segment it has taken out is flushed, uploaded,
indexed and removed, nor between creating a segment and writing. Each step here is what a call
does between two points where others can run; alone, its steps are `storeFrame` (`run_alone`).

The call that rotated creates the next segment without looking whether another call has done
so meanwhile. Files and objects are found by name: creating a segment truncates a file that is
at its path, an upload takes what is at the path and replaces an object with its key, the
removal takes the file that is there. Every accepted frame is kept exactly once as long as
none of this meets another segment (`always_keepsAccepted`).
-/

namespace Kodama

open Lib

/-- Where a call is. A segment that it has taken out of the map it has itself. -/
inductive CloudCallPhase where
  | checking
  | flushing (old : LocalSegment)
  | uploading (old : LocalSegment)
  | indexing (old : LocalSegment)
  | unlinking (old : LocalSegment)
  | creating
  | writing
  | stored
  | failed (error : String)

/-- A call of `store_frame`. -/
structure CloudCall where
  frame : Frame
  phase : CloudCallPhase

namespace CloudCall

/-- The next step of a call, if its file and upload operations can succeed. -/
def advance (st : CloudStorage) (call : CloudCall) : Option (CloudStorage × CloudCallPhase) :=
  let source := call.frame.source
  match call.phase with
  | .checking =>
    if st.config.segmentDurationUs = 0 then some (st, .failed "attempt to divide by zero")
    else
      match st.localSegments.lookup source with
      | none => some (st.createSegment source call.frame.timestampUs, .writing)
      | some seg =>
        if st.segmentStart seg.startTimeUs = st.segmentStart call.frame.timestampUs then
          some (st, .writing)
        else some ({ st with localSegments := st.localSegments.erase source }, .flushing seg)
  | .flushing old =>
    let flushed := old.file.flush st.fs
    some ({ st with fs := flushed.1 }, .uploading { old with file := flushed.2 })
  | .uploading old =>
    (st.uploadToS3 old.path (st.objectKey source old.startTimeUs)).map fun st =>
      (st, .indexing old)
  | .indexing old => some (st.indexSegment source old, .unlinking old)
  | .unlinking old => (st.fs.remove old.path).map fun fs => ({ st with fs }, .creating)
  | .creating => some (st.createSegment source call.frame.timestampUs, .writing)
  | .writing =>
    match st.localSegments.lookup source with
    | none => some (st, .failed "Segment not found after creation")
    | some segment => some (st.appendRecord segment call.frame, .stored)
  | .stored | .failed _ => none

/-- The segment a call has taken out and not uploaded. -/
def buffered (call : CloudCall) : Option LocalSegment :=
  match call.phase with
  | .flushing old | .uploading old => some old
  | _ => none

/-- The segment a call has uploaded and not removed. -/
def closing (call : CloudCall) : Option LocalSegment :=
  match call.phase with
  | .indexing old | .unlinking old => some old
  | _ => none

/-- The frame of a call that has returned `Ok`. -/
def accepted (call : CloudCall) : Option Frame :=
  match call.phase with
  | .stored => some call.frame
  | _ => none

end CloudCall

/-- A storage and the calls that have been made for a source. -/
structure CloudCalls where
  storage : CloudStorage
  calls : List CloudCall := []

inductive CloudCallEvent where
  | call (frame : Frame)
  | advance (i : Nat)

namespace CloudCalls

def step (source : SourceId) (s : CloudCalls) : CloudCallEvent → Option CloudCalls
  | .call frame =>
    if frame.source = source then some { s with calls := s.calls ++ [⟨frame, .checking⟩] }
    else none
  | .advance i =>
    s.calls[i]?.bind fun call => (call.advance s.storage).map fun r =>
      { storage := r.1, calls := s.calls.set i { call with phase := r.2 } }

/-- The local segment of the source in the map. -/
def localSegment (s : CloudCalls) (source : SourceId) : List LocalSegment :=
  (s.storage.localSegments.lookup source).toList

/-- The buffered segments: in the map, or taken out and not uploaded. -/
def segments (s : CloudCalls) (source : SourceId) : List LocalSegment :=
  s.localSegment source ++ s.calls.filterMap CloudCall.buffered

/-- The bytes of the objects. -/
def objects (s : CloudCalls) : List Bytes := s.storage.objects.entries.map Sigma.snd

/-- The bytes of a segment once its buffer is flushed. -/
def content (fs : FileSystem PathBuf) (segment : LocalSegment) : Bytes :=
  (segment.file.flush fs).1.data segment.inode

/-- The frames whose call returned `Ok`. -/
def accepted (s : CloudCalls) : List Frame := s.calls.filterMap CloudCall.accepted

/-- The bytes of the buffered and uploaded segments. -/
def contents (s : CloudCalls) (source : SourceId) : List Bytes :=
  (s.segments source).map (content s.storage.fs) ++ s.objects

/-- Every segment is the records of some frames, and these frames together are the accepted
ones. -/
def KeepsAccepted (s : CloudCalls) (source : SourceId) : Prop :=
  ∃ stored : List (List Frame), s.contents source =
    stored.map (fun frames => frames.flatMap encodeRecord) ∧ stored.flatten.Perm s.accepted

end CloudCalls

/-! ## Segments apart from each other -/

/-- The records of a segment's frames. -/
def LocalSegment.records (segment : LocalSegment) : Bytes := segment.frames.flatMap encodeRecord

/-- Every segment has a file of its own, in which there are its records; these and the uploaded
ones are those of the accepted frames. -/
structure Apart (fs : FileSystem PathBuf) (objects : List Bytes)
    (buffered closing : List LocalSegment) (accepted : List Frame) : Prop where
  holds : ∀ seg ∈ buffered, seg.file.Holds fs seg.records
  named : ∀ seg ∈ buffered ++ closing, fs.names.lookup seg.path = some seg.inode
  distinct : (buffered ++ closing).Pairwise fun seg seg' => seg.path ≠ seg'.path
  stored : ∃ uploaded : List (List Frame),
    objects = uploaded.map (fun frames => frames.flatMap encodeRecord) ∧
      (buffered.flatMap LocalSegment.frames ++ uploaded.flatten).Perm accepted

namespace Apart

variable {fs fs' : FileSystem PathBuf} {objects : List Bytes} {seg seg' : LocalSegment}
  {buffered buffered' closing closing' : List LocalSegment} {accepted accepted' : List Frame}

theorem perm (h : Apart fs objects buffered closing accepted) (hbuffered : buffered.Perm buffered')
    (hclosing : closing.Perm closing') (haccepted : accepted.Perm accepted') :
    Apart fs objects buffered' closing' accepted' where
  holds seg hseg := h.holds seg (hbuffered.mem_iff.mpr hseg)
  named seg hseg := h.named seg ((hbuffered.append hclosing).mem_iff.mpr hseg)
  distinct := ((hbuffered.append hclosing).pairwise_iff Ne.symm).mp h.distinct
  stored :=
    let ⟨uploaded, hobjects, hperm⟩ := h.stored
    ⟨uploaded, hobjects,
      (((hbuffered.flatMap_right _).append_right _).symm.trans hperm).trans haccepted⟩

/-- Different segments have different files. -/
theorem inode_ne (h : Apart fs objects (seg :: buffered) closing accepted)
    (hseg' : seg' ∈ buffered ++ closing) : seg'.inode ≠ seg.inode := by
  intro heq
  have hnamed := h.named seg List.mem_cons_self
  have hnamed' := h.named seg' (List.mem_cons_of_mem _ hseg')
  rw [heq] at hnamed'
  exact (List.pairwise_cons.mp h.distinct).1 seg' hseg'
    (fs.names_inj _ _ _ hnamed hnamed')

/-- A change of one segment and its file: it is flushed, or given a frame. -/
theorem write (h : Apart fs objects (seg :: buffered) closing accepted) (seg' : LocalSegment)
    (added : List Frame) (hpath : seg'.path = seg.path) (hinode : seg'.inode = seg.inode)
    (hsame : fs.SameBut fs' seg.inode) (hframes : seg'.frames = seg.frames ++ added)
    (hholds : seg'.file.Holds fs' seg'.records) :
    Apart fs' objects (seg' :: buffered) closing (accepted ++ added) where
  holds := by
    rintro s (_ | ⟨_, hs⟩)
    · exact hholds
    · refine (h.holds s (List.mem_cons_of_mem _ hs)).of_data (hsame.data ?_)
      exact h.inode_ne (List.mem_append_left _ hs)
  named := by
    rintro s (_ | ⟨_, hs⟩)
    · rw [hsame.names, hpath, hinode]
      exact h.named seg List.mem_cons_self
    · rw [hsame.names]
      exact h.named s (List.mem_cons_of_mem _ hs)
  distinct := by
    obtain ⟨hhead, htail⟩ := List.pairwise_cons.mp h.distinct
    refine List.pairwise_cons.mpr ⟨fun s hs => ?_, htail⟩
    rw [hpath]
    exact hhead s hs
  stored := by
    obtain ⟨uploaded, hobjects, hperm⟩ := h.stored
    refine ⟨uploaded, hobjects, ?_⟩
    have hadded := hperm.append_right added
    rw [List.flatMap_cons, List.append_assoc, List.append_assoc] at hadded
    rw [List.flatMap_cons, hframes, List.append_assoc, List.append_assoc]
    refine (List.Perm.append_left _ ?_).trans hadded
    exact List.perm_append_comm.trans (List.Perm.of_eq (List.append_assoc _ _ _))

/-- Uploading what is at the path of a flushed segment. -/
theorem upload (h : Apart fs objects (seg :: buffered) closing accepted)
    (hbuf : seg.file.buf = []) {data : Bytes} (hread : fs.read seg.path = some data) :
    Apart fs (data :: objects) buffered (seg :: closing) accepted := by
  have hdata : data = seg.records := by
    rw [FileSystem.read, h.named seg List.mem_cons_self] at hread
    have hholds := (h.holds seg List.mem_cons_self).data
    rw [hbuf, List.append_nil] at hholds
    exact (Option.some.inj hread).symm.trans hholds
  have hperm : (seg :: buffered ++ closing).Perm (buffered ++ seg :: closing) :=
    List.perm_middle.symm
  refine ⟨fun s hs => h.holds s (List.mem_cons_of_mem _ hs),
    fun s hs => h.named s (hperm.mem_iff.mpr hs),
    (hperm.pairwise_iff Ne.symm).mp h.distinct, ?_⟩
  obtain ⟨uploaded, hobjects, hstored⟩ := h.stored
  refine ⟨seg.frames :: uploaded, by rw [hobjects, hdata]; rfl, ?_⟩
  rw [List.flatMap_cons, List.append_assoc] at hstored
  rw [List.flatten_cons, ← List.append_assoc]
  exact ((List.perm_append_comm.append_right _).trans
    (List.Perm.of_eq (List.append_assoc _ _ _))).trans hstored

/-- Removing the file of an uploaded segment. -/
theorem unlink (h : Apart fs objects buffered (seg :: closing) accepted)
    (hremove : fs.remove seg.path = some fs') : Apart fs' objects buffered closing accepted := by
  have hperm : (buffered ++ seg :: closing).Perm (seg :: (buffered ++ closing)) := List.perm_middle
  obtain ⟨hhead, htail⟩ := List.pairwise_cons.mp ((hperm.pairwise_iff Ne.symm).mp h.distinct)
  refine ⟨fun s hs => (h.holds s hs).of_data ?_, fun s hs => ?_, htail, h.stored⟩
  · rw [FileSystem.data, (FileSystem.remove_inodes hremove).1]
    rfl
  · rw [FileSystem.lookup_remove hremove, if_neg (hhead s hs).symm]
    exact h.named s (hperm.mem_iff.mpr (List.mem_cons_of_mem _ hs))

/-- A new segment, at a path without a file. -/
theorem create (h : Apart fs objects buffered closing accepted) {path : PathBuf}
    (hnone : fs.names.lookup path = none) (hpath : seg.path = path)
    (hfile : seg.file = ⟨(fs.create path).2, []⟩) (hframes : seg.frames = []) :
    Apart (fs.create path).1 objects (seg :: buffered) closing accepted := by
  subst hpath
  have hinode : seg.inode = fs.next := by
    rw [LocalSegment.inode, hfile]
    exact FileSystem.create_inode_new hnone
  have hne : ∀ s ∈ buffered ++ closing, s.path ≠ seg.path := by
    intro s hs heq
    have := h.named s hs
    rw [heq, hnone] at this
    cases this
  refine ⟨?_, ?_, ?_, ?_⟩
  · rintro s (_ | ⟨_, hs⟩)
    · rw [hfile, LocalSegment.records, hframes]
      exact ⟨by rw [FileSystem.create_data]; exact FileSystem.create_pos _ _,
        by rw [FileSystem.create_data]; rfl⟩
    · refine (h.holds s hs).of_data ?_
      have hlt := fs.named_lt _ _ (h.named s (List.mem_append_left _ hs))
      rw [FileSystem.data, FileSystem.create_inodes, FileSystem.data]
      rw [FileSystem.create_inode_new hnone]
      exact Nat.ne_of_lt hlt
  · rintro s (_ | ⟨_, hs⟩)
    · rw [FileSystem.lookup_create, if_pos rfl, FileSystem.create_inode_new hnone, hinode]
    · rw [FileSystem.lookup_create, if_neg (hne s hs)]
      exact h.named s hs
  · exact List.pairwise_cons.mpr ⟨fun s hs => (hne s hs).symm, h.distinct⟩
  · obtain ⟨uploaded, hobjects, hperm⟩ := h.stored
    refine ⟨uploaded, hobjects, ?_⟩
    rw [List.flatMap_cons, hframes, List.nil_append]
    exact hperm

/-- All the bytes there are. -/
theorem contents_eq (h : Apart fs objects buffered closing accepted) :
    ∃ stored : List (List Frame), buffered.map (CloudCalls.content fs) ++ objects =
      stored.map (fun frames => frames.flatMap encodeRecord) ∧ stored.flatten.Perm accepted := by
  obtain ⟨uploaded, hobjects, hperm⟩ := h.stored
  refine ⟨buffered.map LocalSegment.frames ++ uploaded, ?_, ?_⟩
  · rw [List.map_append, ← hobjects, List.map_map]
    congr 1
    exact List.map_congr_left fun seg hseg => BufWriter.flush_data (h.holds seg hseg)
  · rwa [List.flatten_append, ← List.flatMap_def]

end Apart

/-! ## What a step of a call does -/

/-- Neither a segment nor a file is where a new segment goes. -/
def CloudStorage.Vacant (st : CloudStorage) (source : SourceId) (timestampUs : UInt64) : Prop :=
  st.localSegments.lookup source = none ∧
    st.fs.names.lookup (st.cachePath source (st.segmentStart timestampUs)) = none

instance (st : CloudStorage) (source : SourceId) (timestampUs : UInt64) :
    Decidable (st.Vacant source timestampUs) :=
  inferInstanceAs (Decidable (_ ∧ _))

/-- A segment is created where there is none, and uploaded as a new object. -/
def CloudCall.Undisturbed (st : CloudStorage) (call : CloudCall) : Prop :=
  match call.phase with
  | .checking => st.localSegments.lookup call.frame.source = none →
    st.Vacant call.frame.source call.frame.timestampUs
  | .creating => st.Vacant call.frame.source call.frame.timestampUs
  | .uploading old => st.objects.lookup (st.objectKey call.frame.source old.startTimeUs) = none
  | _ => True

instance (st : CloudStorage) : DecidablePred (CloudCall.Undisturbed st)
  | ⟨_, .checking⟩ => inferInstanceAs (Decidable (_ → _))
  | ⟨_, .creating⟩ => inferInstanceAs (Decidable (st.Vacant _ _))
  | ⟨_, .uploading _⟩ => inferInstanceAs (Decidable (_ = _))
  | ⟨_, .flushing _⟩ | ⟨_, .indexing _⟩ | ⟨_, .unlinking _⟩ | ⟨_, .writing⟩ | ⟨_, .stored⟩
  | ⟨_, .failed _⟩ => .isTrue trivial

/-- The storage and the call that is taking a step, the other calls given by their segments
and frames. -/
def CloudCall.Apart (st : CloudStorage) (call : CloudCall) (buffered closing : List LocalSegment)
    (accepted : List Frame) : Prop :=
  Kodama.Apart st.fs (st.objects.entries.map Sigma.snd)
    ((st.localSegments.lookup call.frame.source).toList ++ (call.buffered.toList ++ buffered))
    (call.closing.toList ++ closing) (call.accepted.toList ++ accepted)

namespace CloudCall

variable {st st' : CloudStorage} {call : CloudCall} {phase : CloudCallPhase} {frame : Frame}
  {buffered closing : List LocalSegment} {accepted : List Frame} {old : LocalSegment}

/-- Creating a segment where there is none. -/
theorem Apart.create (h : Kodama.Apart st.fs (st.objects.entries.map Sigma.snd)
      ((st.localSegments.lookup frame.source).toList ++ buffered) closing accepted)
    (hvacant : st.Vacant frame.source frame.timestampUs) :
    Apart (st.createSegment frame.source frame.timestampUs) ⟨frame, .writing⟩ buffered closing
      accepted := by
  obtain ⟨hnone, hpath⟩ := hvacant
  rw [hnone] at h
  rw [Apart, CloudStorage.createSegment]
  simp only [hnone, AList.lookup_insert, Option.toList_some, List.singleton_append]
  exact Kodama.Apart.create h hpath rfl rfl rfl

/-- Writing a record to the segment in the map. -/
theorem Apart.write {segment : LocalSegment}
    (hlook : st.localSegments.lookup frame.source = some segment)
    (h : Apart st ⟨frame, .writing⟩ buffered closing accepted) :
    Apart (st.appendRecord segment frame) ⟨frame, .stored⟩ buffered closing accepted := by
  rw [Apart, hlook] at h
  have hholds := h.holds segment List.mem_cons_self
  obtain ⟨hsame, hinode⟩ := segment.file.writeAll_twice_sameBut st.fs
    (toLe 4 (UInt32.ofNat (frameToBytes frame).length).toNat) (frameToBytes frame)
  rw [Apart, CloudStorage.appendRecord]
  simp only [AList.lookup_insert]
  refine (h.write _ [frame] ?_ hinode hsame ?_ ?_).perm (.refl _) (.refl _) List.perm_append_comm
  · rfl
  · rfl
  rw [LocalSegment.records, List.flatMap_append, List.flatMap_singleton]
  exact BufWriter.writeAll_twice_holds hholds _ _

theorem Apart.flush (h : Apart st ⟨frame, .flushing old⟩ buffered closing accepted) :
    Apart { st with fs := (old.file.flush st.fs).1 }
      ⟨frame, .uploading { old with file := (old.file.flush st.fs).2 }⟩ buffered closing
      accepted := by
  have hfirst := h.perm List.perm_middle (.refl _) (.refl _)
  have hholds := hfirst.holds old List.mem_cons_self
  have hflushed := hfirst.write { old with file := (old.file.flush st.fs).2 } [] rfl rfl
    (old.file.flush_sameBut st.fs) (List.append_nil _).symm (BufWriter.flush_holds hholds)
  exact hflushed.perm List.perm_middle.symm (.refl _) (List.Perm.of_eq (List.append_nil _))

theorem Apart.upload (h : Apart st ⟨frame, .uploading old⟩ buffered closing accepted)
    (hbuf : old.file.buf = [])
    (hnew : st.objects.lookup (st.objectKey frame.source old.startTimeUs) = none)
    (hupload : st.uploadToS3 old.path (st.objectKey frame.source old.startTimeUs) = some st') :
    Apart st' ⟨frame, .indexing old⟩ buffered closing accepted := by
  obtain ⟨data, hread, rfl⟩ := Option.map_eq_some_iff.mp hupload
  have hfirst := h.perm List.perm_middle (.refl _) (.refl _)
  have huploaded := hfirst.upload hbuf hread
  rw [Apart]
  simp only [AList.entries_insert_of_notMem (AList.lookup_eq_none.mp hnew)]
  exact huploaded

/-- **One step.** Undisturbed, it keeps all segments apart. -/
theorem Apart.advance (h : Apart st call buffered closing accepted)
    (hflushed : ∀ old, call.phase = .uploading old → old.file.buf = [])
    (hundisturbed : call.Undisturbed st) (hstep : call.advance st = some (st', phase)) :
    Apart st' { call with phase } buffered closing accepted := by
  obtain ⟨frame, before⟩ := call
  rw [CloudCall.advance] at hstep
  cases before with
  | checking =>
    simp only [] at hstep
    split at hstep
    · obtain ⟨rfl, rfl⟩ := Prod.mk.inj (Option.some.inj hstep)
      exact h
    · split at hstep
      · next hnone =>
        obtain ⟨rfl, rfl⟩ := Prod.mk.inj (Option.some.inj hstep)
        exact Apart.create h (hundisturbed hnone)
      · next seg hlook =>
        split at hstep <;> obtain ⟨rfl, rfl⟩ := Prod.mk.inj (Option.some.inj hstep)
        · exact h
        · rw [Apart, hlook] at h
          rw [Apart, AList.lookup_erase]
          exact h
  | flushing old =>
    obtain ⟨rfl, rfl⟩ := Prod.mk.inj (Option.some.inj hstep)
    exact h.flush
  | uploading old =>
    obtain ⟨st'', hupload, heq⟩ := Option.map_eq_some_iff.mp hstep
    obtain ⟨rfl, rfl⟩ := Prod.mk.inj heq
    exact h.upload (hflushed old rfl) hundisturbed hupload
  | indexing old =>
    obtain ⟨rfl, rfl⟩ := Prod.mk.inj (Option.some.inj hstep)
    exact h
  | unlinking old =>
    obtain ⟨fs, hremove, heq⟩ := Option.map_eq_some_iff.mp hstep
    obtain ⟨rfl, rfl⟩ := Prod.mk.inj heq
    exact h.unlink hremove
  | creating =>
    obtain ⟨rfl, rfl⟩ := Prod.mk.inj (Option.some.inj hstep)
    exact Apart.create h hundisturbed
  | writing =>
    simp only [] at hstep
    split at hstep <;> obtain ⟨rfl, rfl⟩ := Prod.mk.inj (Option.some.inj hstep)
    · exact h
    · next segment hlook => exact h.write hlook
  | stored => cases hstep
  | failed e => cases hstep

/-- Before its upload a segment is flushed. -/
theorem advance_flushed (hstep : call.advance st = some (st', .uploading old)) :
    old.file.buf = [] := by
  obtain ⟨frame, before⟩ := call
  rw [CloudCall.advance] at hstep
  cases before with
  | flushing old' =>
    obtain ⟨-, heq⟩ := Prod.mk.inj (Option.some.inj hstep)
    obtain rfl := CloudCallPhase.uploading.inj heq
    rfl
  | checking =>
    simp only [] at hstep
    split at hstep
    · cases hstep
    · split at hstep
      · cases hstep
      · split at hstep <;> cases hstep
  | uploading =>
    obtain ⟨_, _, heq⟩ := Option.map_eq_some_iff.mp hstep
    cases (Prod.mk.inj heq).2
  | unlinking =>
    obtain ⟨_, _, heq⟩ := Option.map_eq_some_iff.mp hstep
    cases (Prod.mk.inj heq).2
  | writing =>
    simp only [] at hstep
    split at hstep <;> cases hstep
  | indexing | creating | stored | failed => cases hstep

end CloudCall

namespace CloudCalls

/-! ## A call alone -/

/-- A storage with one call. -/
def alone (st : CloudStorage) (frame : Frame) (phase : CloudCallPhase) : CloudCalls :=
  { storage := st, calls := [⟨frame, phase⟩] }

variable {frame : Frame} {st st' : CloudStorage} {phase phase' : CloudCallPhase}

theorem run_advance (h : CloudCall.advance st ⟨frame, phase⟩ = some (st', phase'))
    (events : List CloudCallEvent) :
    Machine.run (step frame.source) (alone st frame phase) (.advance 0 :: events) =
      Machine.run (step frame.source) (alone st' frame phase') events := by
  have hstep : step frame.source (alone st frame phase) (.advance 0) =
      some (alone st' frame phase') := by
    show (CloudCall.advance st ⟨frame, phase⟩).map _ = _
    rw [h]
    rfl
  rw [Machine.run_cons, hstep, Option.bind_some]

/-- The call that has taken a segment out finalizes it. -/
theorem run_finalize {old : LocalSegment}
    (hok : st.finalizeSegment frame.source old {} = (st', .ok ())) (events : List CloudCallEvent) :
    Machine.run (step frame.source) (alone st frame (.flushing old))
        (.advance 0 :: .advance 0 :: .advance 0 :: .advance 0 :: events) =
      Machine.run (step frame.source) (alone st' frame .creating) events := by
  rw [CloudStorage.finalizeSegment] at hok
  simp only [] at hok
  split at hok
  · cases hok
  · cases hok
  · next uploaded _ hupload =>
    obtain ⟨rfl, -⟩ := Prod.mk.inj hok
    let flushed := { old with file := (old.file.flush st.fs).2 }
    have hflushing : CloudCall.advance st ⟨frame, .flushing old⟩ =
        some ({ st with fs := (old.file.flush st.fs).1 }, .uploading flushed) := rfl
    have huploading : CloudCall.advance { st with fs := (old.file.flush st.fs).1 }
        ⟨frame, .uploading flushed⟩ = some (uploaded, .indexing flushed) := by
      rw [CloudCall.advance]
      simp only [flushed, hupload, Option.map_some]
    have hindexing : CloudCall.advance uploaded ⟨frame, .indexing flushed⟩ =
        some (uploaded.indexSegment frame.source old, .unlinking flushed) := rfl
    -- what could be read can be removed
    obtain ⟨data, hread, rfl⟩ := Option.map_eq_some_iff.mp hupload
    obtain ⟨inode, hnamed, -⟩ := Option.map_eq_some_iff.mp hread
    obtain ⟨fs, hremove⟩ := FileSystem.exists_remove hnamed
    rw [run_advance hflushing, run_advance huploading, run_advance hindexing, run_advance]
    rw [CloudCall.advance, CloudStorage.indexSegment]
    simp only [flushed, hremove, Option.map_some, Option.getD_some]

/-- The steps of a call up to the write are `get_or_create_segment`. -/
theorem run_getOrCreate
    (hok : st.getOrCreateSegment frame.source frame.timestampUs {} = (st', .ok ())) :
    ∃ n, ∀ events, Machine.run (step frame.source) (alone st frame .checking)
        (List.replicate n (.advance 0) ++ events) =
      Machine.run (step frame.source) (alone st' frame .writing) events := by
  rw [CloudStorage.getOrCreateSegment] at hok
  split at hok
  · cases hok
  · next hduration =>
    split at hok
    · next hnone =>
      obtain ⟨rfl, -⟩ := Prod.mk.inj hok
      refine ⟨1, fun events => run_advance ?_ events⟩
      rw [CloudCall.advance]
      simp only [hnone, if_neg hduration]
    · next seg hsome =>
      split at hok
      · next hwindow =>
        obtain ⟨rfl, -⟩ := Prod.mk.inj hok
        refine ⟨1, fun events => run_advance ?_ events⟩
        rw [CloudCall.advance]
        simp only [hsome, if_neg hduration, if_pos hwindow]
      · next hwindow =>
        split at hok
        · cases hok
        · next finalized hfinalized =>
          obtain ⟨rfl, -⟩ := Prod.mk.inj hok
          have hchecking : CloudCall.advance st ⟨frame, .checking⟩ =
              some ({ st with localSegments := st.localSegments.erase frame.source },
                .flushing seg) := by
            rw [CloudCall.advance]
            simp only [hsome, if_neg hduration, if_neg hwindow]
          refine ⟨6, fun events => (run_advance hchecking _).trans ?_⟩
          exact (run_finalize hfinalized _).trans (run_advance rfl events)

/-- A call beside which no other runs is `store_frame`. -/
theorem run_alone (hok : st.storeFrame frame {} = (st', .ok ())) :
    ∃ n, Machine.run (step frame.source) (alone st frame .checking)
      (List.replicate n (.advance 0)) = some (alone st' frame .stored) := by
  rw [CloudStorage.storeFrame, CloudStorage.writeFrame] at hok
  split at hok
  · cases hok
  · next created hcreated =>
    obtain ⟨n, hrun⟩ := run_getOrCreate hcreated
    split at hok
    · cases hok
    · cases hok
    · next segment hlook _ =>
      obtain ⟨rfl, -⟩ := Prod.mk.inj hok
      refine ⟨n + 1, ?_⟩
      rw [List.replicate_succ', hrun, run_advance]
      · rfl
      · rw [CloudCall.advance]
        simp only [hlook]

/-! ## Whole runs -/

variable {source : SourceId} {s s' : CloudCalls} {event : CloudCallEvent}

/-- All calls are for the source; what they have and what the map has is apart. -/
structure Sound (s : CloudCalls) (source : SourceId) : Prop where
  apart : Apart s.storage.fs s.objects (s.segments source) (s.calls.filterMap CloudCall.closing)
    s.accepted
  flushed : ∀ call ∈ s.calls, ∀ old, call.phase = .uploading old → old.file.buf = []
  calls : ∀ call ∈ s.calls, call.frame.source = source

/-- A call on its own, and the rest of them. -/
theorem exists_rest {calls : List CloudCall} {i : Nat} {call : CloudCall}
    (h : calls[i]? = some call) :
    ∃ rest : List CloudCall, calls.Perm (call :: rest) ∧
      ∀ call', (calls.set i call').Perm (call' :: rest) := by
  obtain ⟨hi, rfl⟩ := List.getElem?_eq_some_iff.mp h
  exact ⟨calls.eraseIdx i, (List.getElem_cons_eraseIdx_perm hi).symm,
    fun call' => List.set_perm_cons_eraseIdx hi call'⟩

theorem filterMap_perm {β : Type} {calls rest : List CloudCall} {call : CloudCall}
    (h : calls.Perm (call :: rest)) (f : CloudCall → Option β) :
    (calls.filterMap f).Perm ((f call).toList ++ rest.filterMap f) := by
  refine (h.filterMap f).trans (List.Perm.of_eq ?_)
  rw [List.filterMap_cons]
  cases f call <;> rfl

theorem Sound.onEmptyCache (config : CloudStorageConfig) (source : SourceId) :
    Sound { storage := .onEmptyCache config } source where
  apart := {
    holds _ h := by cases h
    named _ h := by cases h
    distinct := .nil
    stored := ⟨[], rfl, .refl _⟩ }
  flushed _ h := by cases h
  calls _ h := by cases h

/-- Every call that takes a step is undisturbed. -/
def Undisturbed (s : CloudCalls) : CloudCallEvent → Prop
  | .call _ => True
  | .advance i => ∀ call ∈ s.calls[i]?, call.Undisturbed s.storage

instance (s : CloudCalls) : DecidablePred s.Undisturbed
  | .call _ => .isTrue trivial
  | .advance i => inferInstanceAs (Decidable (∀ call ∈ s.calls[i]?, _))

/-- A call that is made. -/
theorem Sound.call (h : s.Sound source) {frame : Frame} (hsource : frame.source = source) :
    Sound { s with calls := s.calls ++ [⟨frame, .checking⟩] } source where
  apart := by
    refine h.apart.perm (.of_eq ?_) (.of_eq ?_) (.of_eq ?_)
    · rw [segments, segments, List.filterMap_append]
      exact congrArg _ (List.append_nil _).symm
    · rw [List.filterMap_append]
      exact (List.append_nil _).symm
    · rw [CloudCalls.accepted, CloudCalls.accepted, List.filterMap_append]
      exact (List.append_nil _).symm
  flushed call hcall := by
    rcases List.mem_append.mp hcall with hcall | hcall
    · exact h.flushed call hcall
    · rw [List.mem_singleton.mp hcall]
      exact fun old heq => by cases heq
  calls call hcall := by
    rcases List.mem_append.mp hcall with hcall | hcall
    · exact h.calls call hcall
    · rw [List.mem_singleton.mp hcall]
      exact hsource

/-- A call that takes a step. It is put first, and back. -/
theorem Sound.advance (h : s.Sound source) {i : Nat} {call : CloudCall} {st : CloudStorage}
    {phase : CloudCallPhase} (hi : s.calls[i]? = some call)
    (hundisturbed : call.Undisturbed s.storage)
    (hadvance : call.advance s.storage = some (st, phase)) :
    Sound { storage := st, calls := s.calls.set i { call with phase } } source := by
  obtain ⟨rest, hbefore, hafter⟩ := exists_rest hi
  have hmem : call ∈ s.calls := List.mem_of_getElem? hi
  have hsource := h.calls call hmem
  have hapart : call.Apart s.storage (rest.filterMap CloudCall.buffered)
      (rest.filterMap CloudCall.closing) (rest.filterMap CloudCall.accepted) := by
    rw [CloudCall.Apart, hsource]
    exact h.apart.perm ((filterMap_perm hbefore _).append_left _) (filterMap_perm hbefore _)
      (filterMap_perm hbefore _)
  have hstepped : CloudCall.Apart st { call with phase } _ _ _ :=
    hapart.advance (h.flushed call hmem) hundisturbed hadvance
  have hsource' : ({ call with phase } : CloudCall).frame.source = source := hsource
  rw [CloudCall.Apart, hsource'] at hstepped
  refine ⟨?_, fun call' hcall' => ?_, fun call' hcall' => ?_⟩
  · exact hstepped.perm ((filterMap_perm (hafter _) _).symm.append_left _)
      (filterMap_perm (hafter _) _).symm (filterMap_perm (hafter _) _).symm
  · rcases List.mem_or_eq_of_mem_set hcall' with hcall' | rfl
    · exact h.flushed call' hcall'
    · rintro old rfl
      exact CloudCall.advance_flushed hadvance
  · rcases List.mem_or_eq_of_mem_set hcall' with hcall' | rfl
    · exact h.calls call' hcall'
    · exact h.calls call hmem

theorem Sound.step (h : s.Sound source) (hundisturbed : s.Undisturbed event)
    (hstep : s.step source event = some s') : s'.Sound source := by
  cases event with
  | call frame =>
    rw [CloudCalls.step] at hstep
    split at hstep
    · next hsource =>
      obtain rfl := Option.some.inj hstep
      exact h.call hsource
    · cases hstep
  | advance i =>
    obtain ⟨call, hi, hmap⟩ := Option.bind_eq_some_iff.mp hstep
    obtain ⟨⟨st, phase⟩, hadvance, rfl⟩ := Option.map_eq_some_iff.mp hmap
    exact h.advance hi (hundisturbed call hi) hadvance

/-- **Accepted frames are kept**: in every run of calls for a source whose steps are all
undisturbed, the buffered and uploaded segments are the records of the accepted frames. -/
theorem always_keepsAccepted (config : CloudStorageConfig) (source : SourceId)
    (events : List CloudCallEvent)
    (hundisturbed : Machine.EachStep (step source) (fun s event _ => s.Undisturbed event)
      { storage := .onEmptyCache config } events) :
    Machine.Always (step source) (fun s => s.KeepsAccepted source)
      { storage := .onEmptyCache config } events := by
  have hsound : Machine.Always (step source) (fun s => s.Sound source)
      { storage := .onEmptyCache config } events :=
    Machine.always_of_eachStep (Sound.onEmptyCache config source)
      (fun _ _ _ h hundisturbed hstep => h.step hundisturbed hstep) hundisturbed
  exact hsound.mono fun s h => h.apart.contents_eq

/-- Then the segments read as the accepted frames, if these can be read back. -/
theorem KeepsAccepted.read (h : s.KeepsAccepted source)
    (hframes : ∀ f ∈ s.accepted, Recordable f) :
    ∃ stored, (s.contents source).mapM readRecords = .ok stored ∧
      stored.flatten.Perm s.accepted := by
  obtain ⟨stored, hcontents, hperm⟩ := h
  refine ⟨stored, ?_, hperm⟩
  rw [hcontents, List.mapM_map]
  refine (LocalStorage.mapM_ok fun frames hfs => readRecords_flatMap fun f hf => ?_).trans
    (congrArg Except.ok (List.map_id _))
  exact hframes f (hperm.mem_iff.mp (List.mem_flatten.mpr ⟨frames, hfs, hf⟩))

/-- As many bytes are there as the accepted frames have. -/
theorem KeepsAccepted.length (h : s.KeepsAccepted source) :
    (s.contents source).flatten.length = (s.accepted.flatMap encodeRecord).length := by
  obtain ⟨stored, hcontents, hperm⟩ := h
  rw [hcontents, ← (hperm.flatMap_right encodeRecord).length_eq, ← List.flatMap_def,
    ← List.flatMap_id', List.flatMap_assoc]

/-- A source whose calls overlap. -/
def overlapping : SourceId := ⟨[3, 5, 8, 9, 7, 9, 3, 2], rfl⟩

def overlappingFrame (timestampUs : UInt64) : Frame := ⟨overlapping, .video, ⟨0⟩, timestampUs, []⟩

/-- The second call rotates; the third looks at the segment after it. -/
def overlap : List CloudCallEvent :=
  [.call (overlappingFrame 0), .advance 0, .advance 0,
    .call (overlappingFrame 10), .call (overlappingFrame 11),
    .advance 1, .advance 1, .advance 1, .advance 1, .advance 1, .advance 1,
    .advance 2, .advance 2, .advance 1]

theorem always_keepsAccepted_overlap :
    Machine.Always (step overlapping) (fun s => s.KeepsAccepted overlapping)
      { storage := .onEmptyCache ⟨"", "cache", 10⟩ } overlap :=
  always_keepsAccepted _ _ _ (by decide +kernel)

/-- The third looks before the second creates the next segment, and so creates one itself: its
frame is in the file that the second truncates. -/
def overlapCreating : List CloudCallEvent :=
  [.call (overlappingFrame 0), .advance 0, .advance 0,
    .call (overlappingFrame 10), .call (overlappingFrame 11),
    .advance 1, .advance 1, .advance 1, .advance 1, .advance 1,
    .advance 2, .advance 2, .advance 1, .advance 1]

theorem second_segment_loses : ¬ ∀ (config : CloudStorageConfig) (source : SourceId)
    (events : List CloudCallEvent), Machine.Always (step source) (fun s => s.KeepsAccepted source)
      { storage := .onEmptyCache config } events := by
  intro h
  have hrun : (Machine.run (step overlapping) { storage := .onEmptyCache ⟨"", "cache", 10⟩ }
      overlapCreating).map (fun s => (s.contents overlapping, s.accepted)) =
      some ([encodeRecord (overlappingFrame 10), encodeRecord (overlappingFrame 0)],
        [overlappingFrame 0, overlappingFrame 10, overlappingFrame 11]) := by
    decide +kernel
  obtain ⟨s, hkeeps, hs⟩ := (h _ _ _).observed hrun
  obtain ⟨hcontents, haccepted⟩ := Prod.mk.inj hs
  have hlength := hkeeps.length
  rw [hcontents, haccepted] at hlength
  exact absurd hlength (by decide)

end CloudCalls

end Kodama
