import Kodama.Storage.Lossless

/-!
# What a cleanup expires (storage/local.rs, `cleanup`)

A cleanup deletes the files of the index entries that ended before its cutoff. An entry's
end is the timestamp stored last, so it bounds what its file holds only if the frames came
in order; and it belongs to the file its path names now, which a later segment of the same
window may have opened anew.

- `keepsFresh_iff_endsBound`: along a run of stores and flushes no cleanup, at any cutoff,
  would remove a frame at or after the cutoff, exactly if every segment ends with its
  newest frame when it is closed and no frame goes to a file that an entry ending before it
  names.
- `cleanup_deletesNewest`: two frames in the wrong order, and a cleanup at the time of the
  newer one deletes both.
-/

namespace Kodama

open Lib

namespace Recording

variable {r r' : Recording Frame} {source : SourceId} {writer : SegmentWriter}

/-- A cleanup at any cutoff, with any deletions failing, removes no file that holds a frame
at or after the cutoff. -/
def CleanupKeepsFresh (r : Recording Frame) : Prop :=
  ∀ cutoff unlinkFails p i, r.storage.fs.names.lookup p = some i →
    (r.cleanup cutoff unlinkFails).storage.fs.names.lookup p = none →
    ∀ f ∈ r.held i, f.timestampUs < cutoff

/-- What the file of an index entry holds is no newer than the entry's end. -/
def Bounds (r : Recording Frame) (seg : SegmentIndex) : Prop :=
  ∀ i, r.storage.fs.names.lookup seg.path = some i →
    ∀ f ∈ r.held i, f.timestampUs ≤ seg.endTimeUs

def EntriesBound (r : Recording Frame) : Prop :=
  ∀ source seg, seg ∈ r.storage.segmentsOf source → Bounds r seg

/-- A step after which entries bound their files. Storing: the segment closed for it, if
any, ends with its newest frame, and no entry of the file the frame goes to ends before it.
Flushing: every open segment ends with its newest frame. -/
def EndsBound (r : Recording Frame) : Event → Prop
  | .store frame =>
    (r.storage.currentWriter frame.source frame.timestampUs = none → EndsLast r frame.source) ∧
    ∀ source seg, seg ∈ r.storage.segmentsOf source →
      seg.path = r.storage.segmentPath frame.source frame.timestampUs →
      frame.timestampUs ≤ seg.endTimeUs
  | .flush => ∀ source ∈ r.storage.writers.keys, EndsLast r source

/-- Deletion is decided by the ends of the entries, so these must bound the files. -/
theorem cleanupKeepsFresh_iff : CleanupKeepsFresh r ↔ EntriesBound r := by
  constructor
  · intro hfresh source seg hseg i hi f hf
    obtain ⟨-, -, hnames⟩ := r.storage.cleanup_spec f.timestampUs fun _ _ => false
    obtain ⟨n, hn⟩ := List.mem_iff_getElem?.mp hseg
    by_contra hnot
    rw [UInt64.not_le] at hnot
    -- at the time of a newer frame the entry's file is deleted
    have hgone : (r.cleanup f.timestampUs fun _ _ => false).storage.fs.names.lookup seg.path =
        none := by
      refine Option.eq_none_iff_forall_ne_some.mpr fun j hj => ?_
      exact ((hnames seg.path j).mp hj).2 source seg n (List.mk_mem_zipIdx_iff_getElem?.mpr hn)
        ⟨hnot, rfl⟩ rfl
    exact UInt64.lt_irrefl _ (hfresh _ _ _ i hi hgone f hf)
  · intro hbound cutoff unlinkFails p i hp hgone f hf
    obtain ⟨-, -, hnames⟩ := r.storage.cleanup_spec cutoff unlinkFails
    by_contra hnot
    rw [UInt64.not_lt] at hnot
    -- otherwise the file is still there
    have hkept : (r.cleanup cutoff unlinkFails).storage.fs.names.lookup p = some i := by
      refine (hnames p i).mpr ⟨hp, fun source seg n hseg hdeletes hpath => ?_⟩
      have hle := hbound source seg (List.fst_mem_of_mem_zipIdx hseg) i (hpath ▸ hp) f hf
      exact UInt64.not_le.mpr hdeletes.1 (UInt64.le_trans hnot hle)
    cases hkept.symm.trans hgone

/-! ## What a step does to the bounds -/

theorem EntriesBound.onEmptyRoot (config : LocalStorageConfig) :
    EntriesBound (Recording.onEmptyRoot config) :=
  fun _ _ hseg => absurd hseg List.not_mem_nil

/-- Closing a segment adds an entry that bounds its file if the segment ends last. -/
theorem entriesBound_close_iff (h : Placed id r) :
    EntriesBound (r.close source) ↔ EntriesBound r ∧ EndsLast r source := by
  cases hlook : r.storage.writers.lookup source with
  | none =>
    rw [Recording.close, LocalStorage.closeSegment_of_none hlook]
    refine (and_iff_left ?_).symm
    intro writer hwriter
    cases hlook.symm.trans hwriter
  | some closing =>
    have hbounds : ∀ seg, Bounds (r.close source) seg ↔ Bounds r seg := by
      intro seg
      rw [Bounds, Bounds, close_names]
      rfl
    -- the new entry bounds its file exactly if the segment ended last
    have hends : EndsLast r source ↔ Bounds r closing.segIndex := by
      constructor
      · intro hends i hi
        obtain rfl := Option.some.inj ((h.named source closing hlook).symm.trans hi)
        exact hends closing hlook
      · intro hbound writer hwriter
        obtain rfl := Option.some.inj (hlook.symm.trans hwriter)
        exact hbound _ (h.named source closing hlook)
    rw [hends]
    constructor
    · intro hall
      refine ⟨fun k seg hseg => (hbounds seg).mp (hall k seg ?_),
        (hbounds _).mp (hall source _ ?_)⟩
      · rw [segmentsOf_close hlook]
        split
        · next hk => exact List.mem_append_left _ (hk ▸ hseg)
        · exact hseg
      · rw [segmentsOf_close hlook, if_pos rfl]
        exact List.mem_append_right _ (List.mem_singleton_self _)
    · rintro ⟨hall, hnew⟩ k seg hseg
      rw [hbounds]
      rw [segmentsOf_close hlook] at hseg
      split at hseg
      · rcases List.mem_append.mp hseg with hseg | hseg
        · exact hall source seg hseg
        · exact List.mem_singleton.mp hseg ▸ hnew
      · exact hall k seg hseg

/-- Appending to an open segment: the entries of its file, if any, have to bound the new
frame as well. -/
theorem entriesBound_append_iff {f : Frame} (h : Placed id r)
    (hlook : r.storage.writers.lookup f.source = some writer) :
    EntriesBound (r.append id writer f) ↔ EntriesBound r ∧
      ∀ source seg, seg ∈ r.storage.segmentsOf source → seg.path = writer.path →
        f.timestampUs ≤ seg.endTimeUs := by
  obtain ⟨-, -, -, -, -, hsame, hkeep, hheld, -⟩ := append_spec id r writer f
  have hnamed := h.named _ writer hlook
  -- only an entry for the file appended to has more to bound
  have hbounds : ∀ seg, Bounds (r.append id writer f) seg ↔
      Bounds r seg ∧ (seg.path = writer.path → f.timestampUs ≤ seg.endTimeUs) := by
    intro seg
    rw [Bounds, hsame.names]
    constructor
    · intro hall
      refine ⟨fun i hi g hg => ?_, fun hpath => ?_⟩
      · refine hall i hi g ?_
        by_cases hi' : i = writer.inode
        · rw [hi', hheld]
          exact List.mem_append_left _ (hi' ▸ hg)
        · rwa [hkeep i hi']
      · refine hall writer.inode (hpath ▸ hnamed) f ?_
        rw [hheld]
        exact List.mem_append_right _ (List.mem_singleton_self f)
    · rintro ⟨hold, hnew⟩ i hi g hg
      by_cases hi' : i = writer.inode
      · subst hi'
        rw [hheld] at hg
        rcases List.mem_append.mp hg with hg | hg
        · exact hold _ hi g hg
        · obtain rfl := List.mem_singleton.mp hg
          exact hnew (r.storage.fs.names_inj _ _ _ hi hnamed)
      · rw [hkeep i hi'] at hg
        exact hold i hi g hg
  constructor
  · exact fun hall => ⟨fun k seg hseg => ((hbounds seg).mp (hall k seg hseg)).1,
      fun k seg hseg => ((hbounds seg).mp (hall k seg hseg)).2⟩
  · exact fun hall k seg hseg => (hbounds seg).mpr ⟨hall.1 k seg hseg, hall.2 k seg hseg⟩

/-- Opening a segment empties the file of its path, so that only the entries of other files
still have something to bound. -/
theorem entriesBound_create_iff {timestampUs : UInt64} :
    EntriesBound (r.create source timestampUs) ↔
      ∀ k seg, seg ∈ r.storage.segmentsOf k →
        seg.path ≠ r.storage.segmentPath source timestampUs → Bounds r seg := by
  obtain ⟨created, hinode, hpath, -, -, hnames, -, hkeep, hempty, -⟩ :=
    r.create_spec source timestampUs
  have hbounds : ∀ seg, Bounds (r.create source timestampUs) seg ↔
      (seg.path ≠ r.storage.segmentPath source timestampUs → Bounds r seg) := by
    intro seg
    rw [Bounds, hnames, hpath]
    by_cases hseg : seg.path = r.storage.segmentPath source timestampUs
    · rw [if_pos hseg]
      refine iff_of_true (fun i hi f hf => ?_) (absurd hseg)
      obtain rfl := Option.some.inj hi
      rw [hempty] at hf
      cases hf
    · rw [if_neg hseg, imp_iff_right hseg]
      -- a file with another name is another file
      refine forall₂_congr fun i hi => ?_
      rw [(hkeep i (hinode ▸ ne_createdInode hi hseg)).2]
  exact forall₃_congr fun k seg hseg => hbounds seg

/-- A store. -/
theorem entriesBound_store_iff {f : Frame} (h : Placed id r) (hbound : EntriesBound r)
    (hstore : r.store id f = some r') : EntriesBound r' ↔ EndsBound r (.store f) := by
  rcases store_cases hstore with ⟨writer, hcurrent, rfl⟩ | ⟨hnone, _, writer, rfl, hwriter, rfl⟩
  · -- the open segment goes on
    obtain ⟨hlook, hwindow⟩ := LocalStorage.currentWriter_eq_some.mp hcurrent
    have hpath : writer.path = r.storage.segmentPath f.source f.timestampUs := by
      rw [h.path_eq _ writer hlook, LocalStorage.segmentPath, hwindow]
      rfl
    refine (entriesBound_append_iff h hlook).trans ?_
    rw [and_iff_right hbound, hpath]
    refine (and_iff_right fun hnone => ?_).symm
    cases hcurrent.symm.trans hnone
  · -- a new segment, after the open one, if any, has got its entry
    have hclosed := h.close f.source
    have hfree : (r.close f.source).storage.writers.lookup f.source = none := by
      rw [lookup_close_ite, if_pos rfl]
    have hcreated := hclosed.create hfree f.timestampUs
    have hpath : writer.path = (r.close f.source).storage.segmentPath f.source f.timestampUs :=
      (writer_create hwriter).1
    refine (entriesBound_append_iff hcreated hwriter).trans ?_
    rw [entriesBound_create_iff, hpath, segmentPath_close]
    constructor
    · rintro ⟨hrest, hfile⟩
      refine ⟨fun _ => ?_, fun k seg hseg => hfile k seg (mem_segmentsOf_close.mpr (.inl hseg))⟩
      intro closing hclosing g hg
      refine hrest f.source closing.segIndex
        (mem_segmentsOf_close.mpr (.inr ⟨closing, hclosing, rfl, rfl⟩))
        (h.path_ne hnone hclosing) closing.inode ?_ g hg
      rw [close_names]
      exact h.named _ closing hclosing
    · rintro ⟨hends, hfile⟩
      refine ⟨fun k seg hseg _ => (entriesBound_close_iff h).mpr ⟨hbound, hends hnone⟩ k seg hseg,
        fun k seg hseg hsame => ?_⟩
      rcases mem_segmentsOf_close.mp hseg with hseg | ⟨closing, hclosing, -, rfl⟩
      · exact hfile k seg hseg hsame
      · exact absurd hsame (h.path_ne hnone hclosing)

/-- A flush closes one open segment after the other. -/
theorem entriesBound_flush_iff (h : Placed id r) (hbound : EntriesBound r) :
    EntriesBound r.flush ↔ EndsBound r .flush := by
  have hfold : ∀ (sources : List SourceId) (r : Recording Frame), Placed id r → sources.Nodup →
      (EntriesBound (sources.foldl Recording.close r) ↔
        EntriesBound r ∧ ∀ source ∈ sources, EndsLast r source) := by
    intro sources
    induction sources with
    | nil => exact fun r _ _ => (and_iff_left nofun).symm
    | cons source sources ih =>
      intro r h hnodup
      rw [List.foldl_cons, ih _ (h.close source) (List.nodup_cons.mp hnodup).2,
        entriesBound_close_iff h, and_assoc, List.forall_mem_cons]
      refine and_congr_right fun _ => and_congr_right fun _ => forall₂_congr fun k hk => ?_
      have hne : k ≠ source := by
        rintro rfl
        exact (List.nodup_cons.mp hnodup).1 hk
      have hlook : (r.close source).storage.writers.lookup k = r.storage.writers.lookup k := by
        rw [lookup_close_ite, if_neg hne]
      rw [EndsLast, EndsLast, hlook]
      rfl
  rw [flush_eq, hfold _ r h (AList.keys_nodup _), and_iff_right hbound]
  rfl

/-- **When cleanups are safe.** Along any run of stores and flushes on an empty storage, a
cleanup in any of its states, at any cutoff and with any deletions failing, removes no frame
at or after the cutoff if and only if each step leaves the index entries bounding their
files. -/
theorem keepsFresh_iff_endsBound (config : LocalStorageConfig) (events : List Event) :
    Machine.Always step CleanupKeepsFresh (onEmptyRoot config) events ↔
      Machine.EachStep step (fun r event _ => EndsBound r event) (onEmptyRoot config) events := by
  have hplaced : ∀ r event r', Placed id r → step r event = some r' → Placed id r' := by
    intro r event r' h hstep
    cases event with
    | store f => exact h.store hstep
    | flush => exact Option.some.inj hstep ▸ h.flush
  refine Machine.always_iff_eachStep (J := Placed id) (.onEmptyRoot config) hplaced
    (cleanupKeepsFresh_iff.mpr (.onEmptyRoot config)) fun r event r' h hfresh hstep => ?_
  rw [cleanupKeepsFresh_iff] at hfresh ⊢
  cases event with
  | store f => exact entriesBound_store_iff h hfresh hstep
  | flush =>
    obtain rfl := Option.some.inj hstep
    exact entriesBound_flush_iff h hfresh

/-- Two frames of one window in the wrong order, flushed: the entry ends with the older one,
and a cleanup at the time of the newer one deletes the file of both. -/
theorem cleanup_deletesNewest :
    let file : PathBuf := ⟨camera.display, "0.segment"⟩
    (Machine.run step (onEmptyRoot oneSecond) (goesBack ++ [.flush])).map (fun r =>
        ((r.storage.fs.names.lookup file).map r.held,
          (r.cleanup 6 fun _ _ => false).storage.fs.names.lookup file)) =
      some (some [cameraFrame 6, cameraFrame 5], none) ∧
    ¬ Machine.Always step CleanupKeepsFresh (onEmptyRoot oneSecond) (goesBack ++ [.flush]) := by
  intro file
  have hrun : (Machine.run step (onEmptyRoot oneSecond) (goesBack ++ [.flush])).map (fun r =>
        ((r.storage.fs.names.lookup file).map r.held,
          (r.cleanup 6 fun _ _ => false).storage.fs.names.lookup file)) =
      some (some [cameraFrame 6, cameraFrame 5], none) := by
    decide +kernel
  refine ⟨hrun, fun h => ?_⟩
  obtain ⟨r, hfresh, hobserved⟩ := h.observed hrun
  obtain ⟨hheld, hgone⟩ := Prod.mk.inj hobserved
  obtain ⟨i, hi, hheld⟩ := Option.map_eq_some_iff.mp hheld
  have := hfresh 6 _ file i hi hgone (cameraFrame 6) (hheld ▸ List.mem_cons_self)
  exact UInt64.lt_irrefl _ this

end Recording

end Kodama
