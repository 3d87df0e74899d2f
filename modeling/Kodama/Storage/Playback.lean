import Kodama.Storage.Accounting
import Kodama.Storage.CleanupIndex
import Kodama.Storage.Truncation
import Mathlib.Data.List.Infix

/-!
# Playing back (crates/kodama/src/storage/local.rs, `get_frames`)

Whatever is done to a storage and its directory, and however old what the index and the headers
say may be: a file in the directory of a source has a header and then a part of the records of
frames of this source that were stored (`Genuine`). So `get_frames` fails, or returns frames that
were stored.

- `playback_genuine`: along any run of stores, flushes, cleanups and reopenings, what is read
  back of a source was stored, is of this source and in the range, and is sorted.

A segment that is open has its file in the directory too, with what its buffer has written out
so far: `records_on_disk` holds of open files as of finalized ones.
-/

namespace Kodama

open Lib Lib.Machine
open scoped List

/-- Where the results of a `mapM` come from. -/
theorem exists_of_mem_mapM {α β : Type} {f : α → Result β} {as : List α} {bs : List β}
    (h : as.mapM f = .ok bs) : ∀ b ∈ bs, ∃ a ∈ as, f a = .ok b := by
  induction as generalizing bs with
  | nil =>
    obtain rfl := Except.ok.inj h
    exact fun _ hb => absurd hb List.not_mem_nil
  | cons a as ih =>
    rw [List.mapM_cons] at h
    obtain ⟨b, hb, h⟩ := Result.bind_eq_ok.mp h
    obtain ⟨bs', hbs, h⟩ := Result.bind_eq_ok.mp h
    obtain rfl := Except.ok.inj h
    intro b' hb'
    rcases List.mem_cons.mp hb' with rfl | hb'
    · exact ⟨a, List.mem_cons_self, hb⟩
    · obtain ⟨a', ha', hf⟩ := ih hbs b' hb'
      exact ⟨a', List.mem_cons_of_mem _ ha', hf⟩

/-- A part of some records reads as some of their frames, if it can be read. -/
theorem LocalStorage.readRange_subset {frames got : List Frame} {file : Bytes} {a b : UInt64}
    (hframes : ∀ f ∈ frames, Recordable f) (hfile : file <+: frames.flatMap encodeRecord)
    (h : readRange file a b = .ok got) :
    ∀ f ∈ got, f ∈ frames ∧ a ≤ f.timestampUs ∧ f.timestampUs ≤ b := by
  obtain ⟨tail, htail, hcut⟩ := exists_cutRecord hfile
  have hcomplete := completeFrames_subset frames file.length
  rw [local_readRange_eq a b (fun f hf => hframes f (hcomplete hf)) hframes htail hcut] at h
  split at h
  · obtain rfl := Except.ok.inj h
    intro f hf
    obtain ⟨hf, hrange⟩ := List.mem_filter.mp hf
    rw [Bool.and_eq_true, decide_eq_true_eq, decide_eq_true_eq] at hrange
    exact ⟨hcomplete hf, hrange⟩
  · cases h

namespace Recording

variable {C : Type} {frame : C → Frame} {r r' : Recording C} {source : SourceId}
  {writer : SegmentWriter} {timestampUs : UInt64}

/-- What is on disk can be played back: the files hold what was stored, each that of one source,
and the entries of a source are in its directory. -/
structure Genuine (frame : C → Frame) (r : Recording C) : Prop where
  faithful : Faithful frame r
  shaped : Shaped frame r
  held : ∀ i, r.held i ⊆ r.log
  indexed : ∀ source seg, seg ∈ r.storage.segmentsOf source → seg.path.dir = source.display

/-! ## The operations -/

theorem Genuine.onEmptyRoot (config : LocalStorageConfig) :
    Genuine frame (Recording.onEmptyRoot config) where
  faithful := .onEmptyRoot config
  shaped := .onEmptyRoot config
  held _ := List.nil_subset _
  indexed _ _ h := absurd h List.not_mem_nil

/-- Closing a segment gives the source an entry in its directory. -/
theorem Genuine.close (h : Genuine frame r) (source : SourceId) :
    Genuine frame (r.close source) where
  faithful := h.faithful.close source
  shaped := h.shaped.close source
  held := h.held
  indexed k seg hseg := by
    rcases mem_segmentsOf_close.mp hseg with hold | ⟨closing, hclosing, rfl, rfl⟩
    · exact h.indexed k seg hold
    · exact (h.faithful.writer k closing hclosing).path_dir

/-- A new segment holds nothing. -/
theorem Genuine.create (h : Genuine frame r) (hnone : r.storage.writers.lookup source = none)
    (timestampUs : UInt64) : Genuine frame (r.create source timestampUs) where
  faithful := h.faithful.create hnone timestampUs
  shaped := h.shaped.create source timestampUs
  held i := by
    show Function.update r.held _ [] i ⊆ r.log
    by_cases hi : i = r.storage.createdInode source timestampUs
    · rw [hi, Function.update_self]
      exact List.nil_subset _
    · rw [Function.update_of_ne hi]
      exact h.held i
  indexed := h.indexed

/-- What goes to a segment is recorded. -/
theorem Genuine.append (h : Genuine frame r) {c : C}
    (hlook : r.storage.writers.lookup (frame c).source = some writer) :
    Genuine frame (r.append frame writer c) where
  faithful := h.faithful.append hlook
  shaped := h.shaped.append h.faithful hlook
  held i := by
    show Function.update r.held writer.inode _ i ⊆ r.log ++ [c]
    by_cases hi : i = writer.inode
    · rw [hi, Function.update_self]
      exact List.append_subset.mpr ⟨List.subset_append_of_subset_left _ (h.held _),
        List.subset_append_right _ _⟩
    · rw [Function.update_of_ne hi]
      exact List.subset_append_of_subset_left _ (h.held i)
  indexed := h.indexed

theorem Genuine.store (h : Genuine frame r) {c : C} (hstore : r.store frame c = some r') :
    Genuine frame r' := by
  rcases store_cases hstore with ⟨writer, hcurrent, rfl⟩ | ⟨-, _, writer, rfl, hwriter, rfl⟩
  · exact h.append (LocalStorage.currentWriter_eq_some.mp hcurrent).1
  · refine ((h.close _).create ?_ _).append hwriter
    rw [lookup_close_ite, if_pos rfl]

theorem Genuine.flush (h : Genuine frame r) : Genuine frame r.flush :=
  flush_preserves (fun _ source h => h.close source) h

/-- A cleanup takes entries and files away. -/
theorem Genuine.cleanup (h : Genuine frame r) (cutoff : UInt64)
    (unlinkFails : SourceId → Nat → Bool) : Genuine frame (r.cleanup cutoff unlinkFails) where
  faithful := h.faithful.cleanup cutoff unlinkFails
  shaped := by
    obtain ⟨-, -, hnames⟩ := r.storage.cleanup_spec cutoff unlinkFails
    exact h.shaped.mono (fun p i hp => ((hnames p i).mp hp).1) rfl
  held := h.held
  indexed source seg hseg := by
    obtain ⟨-, hsegments, -⟩ := LocalStorage.cleanup_eq r.storage cutoff unlinkFails
    have hseg : seg ∈ (r.storage.cleanup cutoff unlinkFails).1.segmentsOf source := hseg
    rw [hsegments source, LocalStorage.remaining] at hseg
    obtain ⟨e, he, rfl⟩ := List.mem_map.mp hseg
    exact h.indexed source e.1 (List.fst_mem_of_mem_zipIdx (List.mem_of_mem_filter he))

/-- Reopening gives a source the entries that are found in its directory. -/
theorem Genuine.reopen (h : Genuine frame r) (config : LocalStorageConfig)
    {listing : List PathBuf} (hlisting : listing.Perm r.storage.fs.names.keys) :
    Genuine frame (r.reopen config listing) where
  faithful := h.faithful.reopen
  shaped := h.shaped.reopen h.faithful
  held := h.held
  indexed source seg hseg := by
    have hperm : ((r.reopen config listing).storage.segmentsOf source).Perm _ :=
      segmentsOf_reopen h.faithful h.shaped hlisting source
    have hscan := scannable_drop h.faithful h.shaped hlisting
    exact ((LocalStorage.mem_scanDir hscan).mp (hperm.mem_iff.mp hseg)).2.1

/-! ## Reading -/

/-- After its first 20 bytes, every file there is a part of the records of what it holds: all of
them in a finalized file, those that its buffer has written out in an open one. -/
theorem Faithful.records_on_disk (h : Faithful frame r) {p : PathBuf} {i : Nat}
    (hp : r.storage.fs.names.lookup p = some i) :
    (r.storage.fs.data i).drop 20 <+: ((r.held i).map frame).flatMap encodeRecord := by
  have hrecords : records frame (r.held i) = ((r.held i).map frame).flatMap encodeRecord :=
    (List.flatMap_map _ _ _).symm
  rw [← hrecords]
  by_cases hclosed : r.Closed i
  · obtain ⟨header, hlen, hdata⟩ := h.closed p i hp hclosed
    rw [hdata, List.drop_left' hlen]
  · obtain ⟨source, writer, hlook, rfl⟩ := exists_writer_of_not_closed hclosed
    have hdata := (h.writer source writer hlook).holds.data
    have hpre : r.storage.fs.data writer.inode <+:
        List.replicate 20 0 ++ records frame (r.held writer.inode) := ⟨_, hdata⟩
    have hlen : (List.replicate 20 (0 : UInt8)).length = 20 := List.length_replicate
    have hdrop := hpre.drop 20
    rwa [List.drop_left' hlen] at hdrop

/-- What `get_frames` may return. -/
structure ReadBack (frame : C → Frame) (log : List C) (source : SourceId)
    (startTimeUs endTimeUs : UInt64) (frames : List Frame) : Prop where
  stored : ∀ f ∈ frames, ∃ c ∈ log, frame c = f
  owner : ∀ f ∈ frames, f.source = source
  range : ∀ f ∈ frames, startTimeUs ≤ f.timestampUs ∧ f.timestampUs ≤ endTimeUs
  sorted : frames.Pairwise fun f f' => f.timestampUs ≤ f'.timestampUs

/-- What one entry gives. -/
theorem Genuine.readSegment (h : Genuine frame r) (hlog : ∀ c ∈ r.log, Recordable (frame c))
    {seg : SegmentIndex} (hseg : seg ∈ r.storage.segmentsOf source) {a b : UInt64}
    {frames : List Frame} (hread : LocalStorage.readSegment r.storage.fs seg a b = .ok frames) :
    ∀ f ∈ frames, (∃ c ∈ r.log, frame c = f) ∧ f.source = source ∧
      a ≤ f.timestampUs ∧ f.timestampUs ≤ b := by
  by_cases hskip : seg.endTimeUs < a ∨ seg.startTimeUs > b
  · rw [LocalStorage.readSegment, if_pos hskip] at hread
    obtain rfl := Except.ok.inj hread
    exact fun _ hf => absurd hf List.not_mem_nil
  · cases hfile : r.storage.fs.read seg.path with
    | none =>
      rw [LocalStorage.readSegment, if_neg hskip, hfile] at hread
      cases hread
    | some file =>
      rw [LocalStorage.readSegment_eq_readRange hskip hfile] at hread
      obtain ⟨i, hi, rfl⟩ := Option.map_eq_some_iff.mp hfile
      have hframes : ∀ f ∈ (r.held i).map frame, Recordable f := by
        intro f hf
        obtain ⟨c, hc, rfl⟩ := List.mem_map.mp hf
        exact hlog c (h.held i hc)
      intro f hf
      obtain ⟨hf, hrange⟩ := LocalStorage.readRange_subset hframes
        (h.faithful.records_on_disk hi) hread f hf
      obtain ⟨c, hc, rfl⟩ := List.mem_map.mp hf
      -- the file is in the directory of the entry's source
      obtain ⟨owner, n, hpath, howner⟩ := h.shaped seg.path i hi
      have hdir : owner = source := by
        apply SourceId.display_injective
        rw [← h.indexed source seg hseg, hpath]
      exact ⟨⟨c, h.held i hc, rfl⟩, (howner c hc).trans hdir, hrange⟩

/-- What is read back of a source. -/
theorem Genuine.readBack (h : Genuine frame r) (hlog : ∀ c ∈ r.log, Recordable (frame c))
    {a b : UInt64} {frames : List Frame} (hget : r.storage.getFrames source a b = .ok frames) :
    ReadBack frame r.log source a b frames := by
  cases hsegments : r.storage.index.segments.lookup source with
  | none =>
    rw [LocalStorage.getFrames, hsegments] at hget
    obtain rfl := Except.ok.inj hget
    have hnone : ∀ f : Frame, f ∉ ([] : List Frame) := fun _ => List.not_mem_nil
    exact
      { stored := fun f hf => absurd hf (hnone f)
        owner := fun f hf => absurd hf (hnone f)
        range := fun f hf => absurd hf (hnone f)
        sorted := .nil }
  | some segments =>
    rw [LocalStorage.getFrames, hsegments] at hget
    obtain ⟨parts, hparts, hget⟩ := Result.bind_eq_ok.mp hget
    obtain rfl := Except.ok.inj hget
    have hall : ∀ f ∈ parts.flatten.insertionSort fun f f' => f.timestampUs ≤ f'.timestampUs,
        (∃ c ∈ r.log, frame c = f) ∧ f.source = source ∧
          a ≤ f.timestampUs ∧ f.timestampUs ≤ b := by
      intro f hf
      obtain ⟨part, hpart, hf⟩ := List.mem_flatten.mp ((List.mem_insertionSort _).mp hf)
      obtain ⟨seg, hseg, hread⟩ := exists_of_mem_mapM hparts part hpart
      have hmem : seg ∈ r.storage.segmentsOf source := by
        rw [LocalStorage.segmentsOf, hsegments]
        exact hseg
      exact h.readSegment hlog hmem hread f hf
    exact
      { stored := fun f hf => (hall f hf).1
        owner := fun f hf => (hall f hf).2.1
        range := fun f hf => (hall f hf).2.2
        sorted := List.pairwise_insertionSort _ _ }

/-! ## Runs -/

theorem genuine_upkeep {r r' : Recording Frame} (h : Genuine id r) {event : Upkeep}
    (hstep : r.upkeep event = some r') : Genuine id r' := by
  cases event with
  | act action =>
    cases action with
    | store f => exact h.store hstep
    | flush => exact Option.some.inj hstep ▸ h.flush
    | reopen config listing =>
      simp only [upkeep, act] at hstep
      split at hstep
      · next hlisting => exact Option.some.inj hstep ▸ h.reopen config hlisting
      · cases hstep
  | cleanup cutoff unlinkFails => exact Option.some.inj hstep ▸ h.cleanup cutoff unlinkFails

/-- **Recordings are genuine.** In every run, as long as what is stored can be recorded, what is
read back of a source, for whatever range, are frames that were stored. -/
theorem playback_genuine (config : LocalStorageConfig) (events : List Upkeep) :
    Always upkeep
      (fun r => (∀ f ∈ r.log, Recordable f) → ∀ source a b frames,
        r.storage.getFrames source a b = .ok frames → ReadBack id r.log source a b frames)
      (onEmptyRoot config) events := by
  have hgenuine : Always upkeep (Genuine id) (onEmptyRoot config) events :=
    always_of_step (.onEmptyRoot config) (fun _ _ _ h hstep => genuine_upkeep h hstep) events
  exact hgenuine.mono fun _ h hlog _ _ _ _ hget => h.readBack hlog hget

end Recording

end Kodama
