import Kodama.Storage.Cleanup
import Kodama.Storage.DiskUsage
import Kodama.Storage.Reopen

/-!
# Index and disk (storage/local.rs)

The index says of every finalized segment where its file is and how long it is, and
`usage_bytes` is kept up to date with every finalization and cleanup. `Agree` states what a
reader of the index relies on: no two entries share a file, every entry's file is there with
the length the entry gives, and the usage is the sum of the lengths of the finalized files.
A file is finalized while no writer has it open; that includes files left by a storage that
was dropped, which the scan indexes like any other.

- `agree_iff_keepsBooks`: along any run of stores, flushes, cleanups and reopenings, index
  and disk agree in every state exactly if no segment is opened on a path that has a file
  already, and the finalized files stay below 2^64 bytes.
- `agree_breaks`: a flush in the middle of a window. The next frame of that window empties
  the file, which is indexed.
-/

namespace Kodama

open Lib

namespace Recording

/-- What is done to a storage and its directory, cleanups included. -/
inductive Upkeep where
  | act (action : Action)
  | cleanup (beforeTimestampUs : UInt64) (unlinkFails : SourceId → Nat → Bool)

def upkeep (r : Recording Frame) : Upkeep → Option (Recording Frame)
  | .act action => act r action
  | .cleanup beforeTimestampUs unlinkFails => some (r.cleanup beforeTimestampUs unlinkFails)

/-- Index and disk agree. -/
structure Agree (r : Recording Frame) : Prop where
  distinct : (r.storage.indexEntries.map SegmentIndex.path).Nodup
  onDisk : ∀ seg ∈ r.storage.indexEntries, r.storage.fs.hasPath seg.path = true
  sizes : ∀ seg ∈ r.storage.indexEntries, ∀ i, r.storage.fs.names.lookup seg.path = some i →
    r.Closed i → (r.storage.fs.data i).length = seg.sizeBytes.toNat
  usage : r.storage.usageBytes.toNat = r.finalizedBytes

/-- Opening a segment: its path has no file yet. Finalizing segments: the finalized files,
with those that become so, have fewer than 2^64 bytes. -/
def KeepsBooks (r : Recording Frame) : Upkeep → Prop
  | .act (.store f) => r.storage.currentWriter f.source f.timestampUs = none →
    r.storage.fs.hasPath (r.storage.segmentPath f.source f.timestampUs) = false ∧
      r.finalizedBytes + r.storage.openBytes f.source < 2 ^ 64
  | .act .flush => r.storage.allBytes < 2 ^ 64
  | .act (.reopen _ _) => r.storage.allBytes < 2 ^ 64
  | .cleanup _ _ => True

/-! ## The invariant -/

variable {r r' : Recording Frame} {source : SourceId} {writer : SegmentWriter}
  {timestampUs : UInt64}

/-- An entry of a finalized file in its source's directory, with the file's length. -/
def Entered (r : Recording Frame) (source : SourceId) (seg : SegmentIndex) : Prop :=
  seg.path.dir = source.display ∧ ∃ i, r.storage.fs.names.lookup seg.path = some i ∧
    r.Closed i ∧ seg.sizeBytes = UInt64.ofNat (segmentLength id r i)

/-- Entries, writers and the usage give the lengths of the files, modulo 2^64. -/
structure Accounted (r : Recording Frame) : Prop where
  placed : Placed id r
  shaped : Shaped id r
  written : Counted id r
  entered : ∀ source seg, seg ∈ r.storage.segmentsOf source → Entered r source seg
  nodup : ∀ source, ((r.storage.segmentsOf source).map SegmentIndex.path).Nodup
  usage : r.storage.usageBytes = UInt64.ofNat r.finalizedBytes

theorem mem_indexEntries {seg : SegmentIndex} :
    seg ∈ r.storage.indexEntries ↔ ∃ source, seg ∈ r.storage.segmentsOf source := by
  rw [LocalStorage.indexEntries, List.mem_flatMap]
  constructor
  · rintro ⟨e, he, hseg⟩
    refine ⟨e.1, ?_⟩
    rw [LocalStorage.segmentsOf, HashMap.mem_entries_iff.mp he]
    exact hseg
  · rintro ⟨source, hseg⟩
    cases hlook : r.storage.index.segments.lookup source with
    | none =>
      rw [LocalStorage.segmentsOf, hlook] at hseg
      cases hseg
    | some segments =>
      rw [LocalStorage.segmentsOf, hlook] at hseg
      exact ⟨⟨source, segments⟩, HashMap.mem_entries_iff.mpr hlook, hseg⟩

/-- Two entries with one path are of one source. -/
theorem Accounted.source_eq (h : Accounted r) {k k' : SourceId} {seg seg' : SegmentIndex}
    (hseg : seg ∈ r.storage.segmentsOf k) (hseg' : seg' ∈ r.storage.segmentsOf k')
    (hpath : seg.path = seg'.path) : k = k' := by
  apply SourceId.display_injective
  rw [← (h.entered k seg hseg).1, ← (h.entered k' seg' hseg').1, hpath]

/-- Below 2^64 bytes, accounted for means that index and disk agree. -/
theorem Accounted.agree (h : Accounted r) (hlt : r.finalizedBytes < 2 ^ 64) : Agree r := by
  have hsegs : ∀ e ∈ r.storage.index.segments.entries, r.storage.segmentsOf e.1 = e.2 := by
    intro e he
    rw [LocalStorage.segmentsOf, HashMap.mem_entries_iff.mp he]
    rfl
  constructor
  · -- within a source by the invariant, across sources by the directory
    rw [LocalStorage.indexEntries, List.map_flatMap, List.nodup_flatMap]
    refine ⟨fun e he => hsegs e he ▸ h.nodup e.1, ?_⟩
    have hkeys : r.storage.index.segments.entries.Pairwise fun e e' => e.1 ≠ e'.1 :=
      List.nodupKeys_iff_pairwise.mp r.storage.index.segments.nodupKeys
    refine hkeys.imp_of_mem fun {e e'} he he' hne p hp hp' => hne ?_
    obtain ⟨seg, hseg, rfl⟩ := List.mem_map.mp hp
    obtain ⟨seg', hseg', hpath⟩ := List.mem_map.mp hp'
    exact h.source_eq (hsegs e he ▸ hseg) (hsegs e' he' ▸ hseg') hpath.symm
  · intro seg hseg
    obtain ⟨source, hseg⟩ := mem_indexEntries.mp hseg
    obtain ⟨-, i, hi, -⟩ := h.entered source seg hseg
    rw [FileSystem.hasPath, hi]
    rfl
  · intro seg hseg i hi hclosed
    obtain ⟨source, hseg⟩ := mem_indexEntries.mp hseg
    obtain ⟨-, i', hi', -, hsize⟩ := h.entered source seg hseg
    obtain rfl := Option.some.inj (hi.symm.trans hi')
    have hle := segmentLength_le_finalizedBytes h.placed.faithful hi hclosed
    rw [h.placed.faithful.length_closed hi hclosed, hsize,
      UInt64.toNat_ofNat_of_lt' (Nat.lt_of_le_of_lt hle hlt)]
  · rw [h.usage, UInt64.toNat_ofNat_of_lt' hlt]

/-- Where the usage agrees with the disk, the finalized files are below 2^64 bytes. -/
theorem Agree.finalizedBytes_lt (h : Agree r) : r.finalizedBytes < 2 ^ 64 :=
  h.usage ▸ r.storage.usageBytes.toNat_lt

theorem Accounted.onEmptyRoot (config : LocalStorageConfig) :
    Accounted (Recording.onEmptyRoot config) where
  placed := .onEmptyRoot config
  shaped := .onEmptyRoot config
  written := .onEmptyRoot config
  entered _ _ h := absurd h List.not_mem_nil
  nodup _ := List.nodup_nil
  usage := rfl

/-! ## Its preservation, part by part -/

/-- An entry stays right where its file stays, closed and with what it holds. -/
theorem Entered.mono {seg : SegmentIndex} (h : Entered r source seg)
    (hkeep : ∀ i, r.storage.fs.names.lookup seg.path = some i → r.Closed i →
      r'.storage.fs.names.lookup seg.path = some i ∧ r'.Closed i ∧ r'.held i = r.held i) :
    Entered r' source seg := by
  obtain ⟨hdir, i, hi, hclosed, hsize⟩ := h
  obtain ⟨hi', hclosed', hheld⟩ := hkeep i hi hclosed
  exact ⟨hdir, i, hi', hclosed', hsize.trans (congrArg _ (segmentLength_congr hheld).symm)⟩

/-- Closing a segment counts it. -/
theorem Accounted.close (h : Accounted r) (source : SourceId) : Accounted (r.close source) := by
  cases hlook : r.storage.writers.lookup source with
  | none =>
    rw [Recording.close, LocalStorage.closeSegment_of_none hlook]
    exact h
  | some closing =>
    have hr := close_retires hlook
    have hfaithful := h.placed.faithful
    have hnamed := h.placed.named source closing hlook
    have hkeep : ∀ k seg, seg ∈ r.storage.segmentsOf k → Entered (r.close source) k seg := by
      intro k seg hseg
      refine (h.entered k seg hseg).mono fun i hi hclosed => ⟨?_, ?_, rfl⟩
      · rw [hr.same.names, hi]
      · exact (hr.closed_iff (hclosed source closing hlook).symm).mpr hclosed
    constructor
    · exact h.placed.close source
    · exact h.shaped.close source
    · exact h.written.close source
    · intro k seg hseg
      rcases mem_segmentsOf_close.mp hseg with hold | ⟨_, hclosing, rfl, rfl⟩
      · exact hkeep k seg hold
      · obtain rfl := Option.some.inj (hlook.symm.trans hclosing)
        refine ⟨(hfaithful.writer k closing hlook).path_dir, closing.inode, ?_,
          hr.closed_self hfaithful, h.written k closing hlook⟩
        rw [hr.same.names]
        exact hnamed
    · intro k
      rw [segmentsOf_close hlook]
      split
      · rw [List.map_append, List.map_singleton]
        refine List.nodup_append.mpr ⟨h.nodup source, List.nodup_singleton _, ?_⟩
        rintro p hp _ hp' rfl
        obtain rfl := List.mem_singleton.mp hp'
        -- the file of an entry is closed, that of the segment being closed is open
        obtain ⟨seg, hseg, hpath⟩ := List.mem_map.mp hp
        obtain ⟨-, i, hi, hclosed, -⟩ := h.entered source seg hseg
        rw [hpath] at hi
        obtain rfl := Option.some.inj (hnamed.symm.trans hi)
        exact hclosed source closing hlook rfl
      · exact h.nodup k
    · rw [usageBytes_close h.written hfaithful, openBytes_of_lookup hfaithful hlook, h.usage,
        finalizedBytes_retire hfaithful hr hnamed, UInt64.ofNat_add]

/-- What closing a segment adds to the finalized files. -/
theorem finalizedBytes_close (h : Placed id r) (source : SourceId) :
    (r.close source).finalizedBytes = r.finalizedBytes + r.storage.openBytes source := by
  cases hlook : r.storage.writers.lookup source with
  | none =>
    rw [Recording.close, LocalStorage.closeSegment_of_none hlook, openBytes_of_none hlook]
    rfl
  | some closing =>
    rw [finalizedBytes_retire h.faithful (close_retires hlook) (h.named source closing hlook),
      openBytes_of_lookup h.faithful hlook]

/-- Opening a segment on a path without a file. -/
theorem Accounted.create (h : Accounted r) (hnone : r.storage.writers.lookup source = none)
    (hpath : r.storage.fs.names.lookup (r.storage.segmentPath source timestampUs) = none) :
    Accounted (r.create source timestampUs) := by
  constructor
  · exact h.placed.create hnone timestampUs
  · exact h.shaped.create source timestampUs
  · exact h.written.create h.placed.faithful hnone timestampUs
  · intro k seg hseg
    refine (h.entered k seg hseg).mono fun i hi hclosed => ?_
    obtain ⟨hi', hother, hheld'⟩ := create_keeps hpath hi
    exact ⟨hi', (closed_create_iff hnone hother).mpr hclosed, hheld'⟩
  · exact h.nodup
  · have hsum := finalizedBytes_create h.placed.faithful hnone timestampUs
    rw [HashMap.sumAt_of_lookup_none hpath, Nat.add_zero] at hsum
    rw [hsum]
    exact h.usage

/-- Appending to an open segment. -/
theorem Accounted.append (h : Accounted r) {f : Frame}
    (hlook : r.storage.writers.lookup f.source = some writer) :
    Accounted (r.append id writer f) := by
  obtain ⟨-, -, -, -, -, hsame, hkeep, -⟩ := append_spec id r writer f
  have hfaithful := h.placed.faithful
  constructor
  · exact h.placed.append hlook
  · exact h.shaped.append hfaithful hlook
  · exact h.written.append hfaithful hlook
  · intro k seg hseg
    refine (h.entered k seg hseg).mono fun i hi hclosed => ?_
    rw [hsame.names]
    exact ⟨hi, (closed_append_iff hlook).mpr hclosed,
      hkeep i (hclosed _ writer hlook).symm⟩
  · exact h.nodup
  · rw [finalizedBytes_append hlook hfaithful]
    exact h.usage

/-! ## Stores, flushes and reopening -/

/-- A store is accounted for unless it opens a segment on a path with a file. -/
theorem Accounted.store (h : Accounted r) {f : Frame} (hstore : r.store id f = some r')
    (hfree : r.storage.currentWriter f.source f.timestampUs = none →
      r.storage.fs.hasPath (r.storage.segmentPath f.source f.timestampUs) = false) :
    Accounted r' := by
  rcases store_cases hstore with ⟨writer, hcurrent, rfl⟩ | ⟨hnone, _, writer, rfl, hwriter, rfl⟩
  · exact h.append (LocalStorage.currentWriter_eq_some.mp hcurrent).1
  · refine ((h.close (id f).source).create ?_ ?_).append hwriter
    · rw [lookup_close_ite, if_pos rfl]
    · rw [close_names, segmentPath_close]
      exact Option.not_isSome_iff_eq_none.mp (Bool.eq_false_iff.mp (hfree hnone))

/-- What a store adds to the finalized files, and takes away from them: the segment it closes,
and the file at the path of the one it opens. -/
theorem finalizedBytes_store (h : Placed id r) {f : Frame} (hstore : r.store id f = some r') :
    (∃ writer, r.storage.currentWriter f.source f.timestampUs = some writer ∧
      r'.finalizedBytes = r.finalizedBytes) ∨
    (r.storage.currentWriter f.source f.timestampUs = none ∧
      r'.storage.usageBytes = (r.close f.source).storage.usageBytes ∧
      r'.finalizedBytes + HashMap.sumAt (fun _ => finalizedLength id (r.close f.source))
          r.storage.fs.names (r.storage.segmentPath f.source f.timestampUs) =
        r.finalizedBytes + r.storage.openBytes f.source) := by
  rcases store_cases hstore with ⟨writer, hcurrent, rfl⟩ | ⟨hnone, _, writer, rfl, hwriter, rfl⟩
  · have hlook := (LocalStorage.currentWriter_eq_some.mp hcurrent).1
    exact .inl ⟨writer, hcurrent, finalizedBytes_append hlook h.faithful⟩
  · have hclosed := h.faithful.close f.source
    have hfree : (r.close f.source).storage.writers.lookup f.source = none := by
      rw [lookup_close_ite, if_pos rfl]
    refine .inr ⟨hnone, rfl, ?_⟩
    have hsum := finalizedBytes_create hclosed hfree f.timestampUs
    rw [close_names, segmentPath_close] at hsum
    rw [finalizedBytes_append hwriter (hclosed.create hfree f.timestampUs),
      ← finalizedBytes_close h]
    exact hsum

/-- A flush closes one segment after the other, and leaves none open. -/
theorem Accounted.flush (h : Accounted r) : Accounted r.flush :=
  flush_preserves (fun _ source h => h.close source) h

theorem finalizedBytes_flush (h : Faithful id r) : r.flush.finalizedBytes = r.storage.allBytes := by
  have hclosed : ∀ i, r.flush.Closed i :=
    fun i k w hk => nomatch (lookup_flush r k).symm.trans hk
  rw [finalizedBytes_eq_allBytes h.flush hclosed, allBytes_eq h.flush, allBytes_eq h, flush_names]
  rfl

theorem finalizedBytes_reopen (h : Faithful id r) {config : LocalStorageConfig}
    {listing : List PathBuf} : (r.reopen config listing).finalizedBytes = r.storage.allBytes := by
  rw [finalizedBytes_eq_allBytes h.reopen (closed_reopen config r listing), allBytes_eq h.reopen,
    allBytes_eq h, reopen_names h]
  rfl

/-- The scan accounts for everything, whatever the index said before. -/
theorem Accounted.reopen (hplaced : Placed id r) (hshaped : Shaped id r)
    {config : LocalStorageConfig} {listing : List PathBuf}
    (hlisting : listing.Perm r.storage.fs.names.keys) :
    Accounted (r.reopen config listing) := by
  have hfaithful : Faithful id (r.reopen config listing) := hplaced.faithful.reopen
  have hscan := scannable_drop hplaced.faithful hshaped hlisting
  have hsegs : ∀ source, ((r.reopen config listing).storage.segmentsOf source).Perm _ :=
    segmentsOf_reopen hplaced.faithful hshaped hlisting
  have hnames : (r.reopen config listing).storage.fs.names = r.storage.fs.names :=
    reopen_names hplaced.faithful
  have hclosed := closed_reopen config r listing
  constructor
  · exact hplaced.reopen
  · exact hshaped.reopen hplaced.faithful
  · exact fun k w hk => absurd rfl (hclosed w.inode k w hk)
  · intro source seg hseg
    obtain ⟨hmem, hdir, hread⟩ :=
      (LocalStorage.mem_scanDir hscan).mp ((hsegs source).mem_iff.mp hseg)
    obtain ⟨i, hi⟩ := HashMap.mem_keys_iff.mp (hlisting.mem_iff.mp hmem)
    rw [← hnames] at hi
    refine ⟨hdir, i, hi, hclosed i, ?_⟩
    rw [(LocalStorage.of_readSegmentIndex hread).2, ← hfaithful.length_closed hi (hclosed i)]
    exact congrArg UInt64.ofNat (HashMap.sumAt_of_lookup hi)
  · intro source
    -- the entries are at the listed paths of one directory
    rw [((hsegs source).map _).nodup_iff, LocalStorage.map_path_scanDir hscan]
    exact (hlisting.nodup_iff.mpr (AList.keys_nodup _)).filter _
  · have hperm : listing.Perm r.drop.storage.fs.names.keys := by
      rw [show r.drop.storage.fs.names = r.storage.fs.names from hnames]
      exact hlisting
    refine (LocalStorage.usageBytes_new hscan hperm).trans (congrArg UInt64.ofNat ?_)
    refine HashMap.sumOver_congr fun p i _ => ?_
    exact (if_pos (hclosed i)).symm

/-! ## Cleanups -/

/-- A path names one entry of a source, at one position. -/
theorem entry_eq {segments : List SegmentIndex} {e e' : SegmentIndex × Nat}
    (hnodup : (segments.map SegmentIndex.path).Nodup) (he : e ∈ segments.zipIdx)
    (he' : e' ∈ segments.zipIdx) (hpath : e.1.path = e'.1.path) : e = e' := by
  have hget := List.mk_mem_zipIdx_iff_getElem?.mp he
  have hget' := List.mk_mem_zipIdx_iff_getElem?.mp he'
  have hlen : e.2 < (segments.map SegmentIndex.path).length := by
    rw [List.length_map]
    exact (List.getElem?_eq_some_iff.mp hget).1
  have hposition : e.2 = e'.2 := by
    refine (List.getElem?_inj hlen hnodup).mp ?_
    rw [List.getElem?_map, List.getElem?_map, hget, hget', Option.map_some, Option.map_some, hpath]
  rw [hposition] at hget
  exact Prod.ext (Option.some.inj (hget.symm.trans hget')) hposition

/-- The file of a kept entry stays: no other entry names it, in no source. -/
theorem Accounted.kept_path (h : Accounted r) {cutoff : UInt64}
    {unlinkFails : SourceId → Nat → Bool} {k : SourceId} {seg : SegmentIndex} {n : Nat}
    (hn : (seg, n) ∈ (r.storage.segmentsOf k).zipIdx)
    (hkept : ¬ LocalStorage.Deletes (unlinkFails k) cutoff seg n) :
    ∀ k' seg' n', (seg', n') ∈ (r.storage.segmentsOf k').zipIdx →
      LocalStorage.Deletes (unlinkFails k') cutoff seg' n' → seg'.path ≠ seg.path := by
  intro k' seg' n' hn' hdeletes hpath
  obtain rfl := h.source_eq (List.fst_mem_of_mem_zipIdx hn') (List.fst_mem_of_mem_zipIdx hn) hpath
  obtain ⟨rfl, rfl⟩ := Prod.mk.inj (entry_eq (h.nodup k') hn' hn hpath)
  exact hkept hdeletes

/-- A cleanup reports the lengths of the files it deletes. -/
theorem Accounted.freed (h : Accounted r) (hlt : r.finalizedBytes < 2 ^ 64) (cutoff : UInt64)
    (unlinkFails : SourceId → Nat → Bool) :
    (∀ k, (r.cleanup cutoff unlinkFails).storage.segmentsOf k =
      LocalStorage.keptSegments (unlinkFails k) cutoff (r.storage.segmentsOf k)) ∧
    (r.storage.cleanup cutoff unlinkFails).2.toNat +
      (r.cleanup cutoff unlinkFails).finalizedBytes = r.finalizedBytes := by
  have hfaithful := h.placed.faithful
  rw [finalizedBytes_eq hfaithful, finalizedBytes_eq (hfaithful.cleanup cutoff unlinkFails)]
  refine r.storage.cleanup_exact (finalizedLength id r) cutoff unlinkFails
    (fun source seg hseg => ?_) (h.agree hlt).distinct (finalizedBytes_eq hfaithful ▸ hlt)
  obtain ⟨-, i, hi, hclosed, hsize⟩ := h.entered source seg hseg
  have hle := segmentLength_le_finalizedBytes hfaithful hi hclosed
  refine ⟨i, hi, ?_⟩
  rw [hsize, finalizedLength_of_closed hclosed,
    UInt64.toNat_ofNat_of_lt' (Nat.lt_of_le_of_lt hle hlt)]

/-- A cleanup takes what it deletes off the usage. -/
theorem Accounted.cleanup (h : Accounted r) (hlt : r.finalizedBytes < 2 ^ 64) (cutoff : UInt64)
    (unlinkFails : SourceId → Nat → Bool) :
    Accounted (r.cleanup cutoff unlinkFails) ∧
      (r.cleanup cutoff unlinkFails).finalizedBytes ≤ r.finalizedBytes := by
  have hfaithful := h.placed.faithful
  obtain ⟨-, -, hnames⟩ := r.storage.cleanup_spec cutoff unlinkFails
  obtain ⟨hkept, hfreed⟩ := h.freed hlt cutoff unlinkFails
  refine ⟨?_, Nat.le.intro ((Nat.add_comm _ _).trans hfreed)⟩
  constructor
  · refine ⟨hfaithful.cleanup cutoff unlinkFails, fun k w hk => ?_, h.placed.path_eq⟩
    -- the file of an entry is closed, so that of an open segment stays
    refine (hnames w.path w.inode).mpr ⟨h.placed.named k w hk, fun k' seg n hseg _ hpath => ?_⟩
    obtain ⟨-, i, hi, hclosed, -⟩ := h.entered k' seg (List.fst_mem_of_mem_zipIdx hseg)
    rw [hpath, h.placed.named k w hk] at hi
    exact hclosed k w hk (Option.some.inj hi)
  · exact h.shaped.mono (fun p i hp => ((hnames p i).mp hp).1) rfl
  · exact h.written
  · intro k seg hseg
    rw [hkept] at hseg
    obtain ⟨n, hn, hstays⟩ := LocalStorage.mem_keptSegments hseg
    refine (h.entered k seg (List.fst_mem_of_mem_zipIdx hn)).mono fun i hi hclosed => ?_
    exact ⟨(hnames seg.path i).mpr ⟨hi, h.kept_path hn hstays⟩, hclosed, rfl⟩
  · intro k
    rw [hkept]
    exact (h.nodup k).sublist ((unpicked_sublist _ _).map _)
  · have husage : (r.cleanup cutoff unlinkFails).storage.usageBytes =
        if (r.storage.cleanup cutoff unlinkFails).2 ≤ r.storage.usageBytes then
          r.storage.usageBytes - (r.storage.cleanup cutoff unlinkFails).2 else 0 := rfl
    have htotal := (h.agree hlt).usage
    have hle : (r.storage.cleanup cutoff unlinkFails).2 ≤ r.storage.usageBytes := by
      rw [UInt64.le_iff_toNat_le]
      omega
    have hlt' : (r.cleanup cutoff unlinkFails).finalizedBytes < 2 ^ 64 := by omega
    rw [husage, if_pos hle]
    apply UInt64.toNat_inj.mp
    rw [UInt64.toNat_sub_of_le _ _ hle, UInt64.toNat_ofNat_of_lt' hlt']
    omega

/-! ## When the books are right -/

theorem accounted_upkeep {event : Upkeep} (h : Accounted r ∧ r.finalizedBytes < 2 ^ 64)
    (hkeeps : KeepsBooks r event) (hr : upkeep r event = some r') :
    Accounted r' ∧ r'.finalizedBytes < 2 ^ 64 := by
  obtain ⟨h, hlt⟩ := h
  cases event with
  | cleanup cutoff unlinkFails =>
    obtain rfl := Option.some.inj hr
    obtain ⟨haccounted, hle⟩ := h.cleanup hlt cutoff unlinkFails
    exact ⟨haccounted, Nat.lt_of_le_of_lt hle hlt⟩
  | act action =>
    cases action with
    | store f =>
      refine ⟨h.store hr fun hnone => (hkeeps hnone).1, ?_⟩
      rcases finalizedBytes_store h.placed hr with ⟨_, -, hsame⟩ | ⟨hnone, -, hsum⟩
      · rw [hsame]
        exact hlt
      · have := (hkeeps hnone).2
        omega
    | flush =>
      obtain rfl := Option.some.inj hr
      refine ⟨h.flush, ?_⟩
      rw [finalizedBytes_flush h.placed.faithful]
      exact hkeeps
    | reopen config listing =>
      obtain ⟨hlisting, hr⟩ := Option.ite_none_right_eq_some.mp hr
      obtain rfl := Option.some.inj hr
      refine ⟨.reopen h.placed h.shaped hlisting, ?_⟩
      rw [finalizedBytes_reopen h.placed.faithful]
      exact hkeeps

/-- A step after which index and disk agree keeps the books. A store that opens a segment on
the path of a finalized file does not: the usage still has that file. -/
theorem keepsBooks_of_agree {event : Upkeep} (h : Accounted r ∧ r.finalizedBytes < 2 ^ 64)
    (hr : upkeep r event = some r') (hagree : Agree r') : KeepsBooks r event := by
  obtain ⟨h, hlt⟩ := h
  cases event with
  | cleanup cutoff unlinkFails => trivial
  | act action =>
    cases action with
    | store f =>
      intro hnone
      rcases finalizedBytes_store h.placed hr with ⟨_, hcurrent, -⟩ | ⟨-, husage, hsum⟩
      · cases hnone.symm.trans hcurrent
      · -- the usage is that of all finalized files, the emptied one included
        rw [(h.close f.source).usage, finalizedBytes_close h.placed] at husage
        have hnew := hagree.usage
        rw [husage, UInt64.toNat_ofNat'] at hnew
        cases hfile : r.storage.fs.names.lookup
            (r.storage.segmentPath f.source f.timestampUs) with
        | none =>
          rw [HashMap.sumAt_of_lookup_none hfile, Nat.add_zero] at hsum
          refine ⟨by rw [FileSystem.hasPath, hfile]; rfl, ?_⟩
          omega
        | some i =>
          -- the file that is emptied is one of the finalized ones
          have hclosed := h.placed.closed_at hnone hfile
          have hle := segmentLength_le_finalizedBytes h.placed.faithful hfile hclosed
          have hclosed' : (r.close f.source).Closed i :=
            fun k w hk => hclosed k w (lookup_close.mp hk).2
          have hlength : finalizedLength id (r.close f.source) i = segmentLength id r i :=
            finalizedLength_of_closed hclosed'
          rw [HashMap.sumAt_of_lookup hfile, hlength] at hsum
          have hheader : 20 ≤ segmentLength id r i := Nat.le_add_right _ _
          omega
    | flush =>
      obtain rfl := Option.some.inj hr
      show r.storage.allBytes < 2 ^ 64
      rw [← finalizedBytes_flush h.placed.faithful]
      exact hagree.finalizedBytes_lt
    | reopen config listing =>
      obtain ⟨-, hr⟩ := Option.ite_none_right_eq_some.mp hr
      obtain rfl := Option.some.inj hr
      show r.storage.allBytes < 2 ^ 64
      rw [← finalizedBytes_reopen h.placed.faithful]
      exact hagree.finalizedBytes_lt

/-- **When index and disk agree.** Along any run from an empty directory they agree in every
state if and only if every step keeps the books. -/
theorem agree_iff_keepsBooks (config : LocalStorageConfig) (events : List Upkeep) :
    Machine.Always upkeep Agree (onEmptyRoot config) events ↔
      Machine.EachStep upkeep (fun r event _ => KeepsBooks r event) (onEmptyRoot config)
        events :=
  Machine.always_iff_eachStep_of_invariant
    (I := fun r => Accounted r ∧ r.finalizedBytes < 2 ^ 64)
    ⟨.onEmptyRoot config, Nat.two_pow_pos 64⟩ (fun _ h => h.1.agree h.2)
    (fun _ _ _ h hkeeps hr => accounted_upkeep h hkeeps hr)
    fun _ _ _ h hr hagree => keepsBooks_of_agree h hr hagree

/-- A flush inside a window, and another frame of that window: the usage is that of a file
which has been emptied and is being written again. -/
theorem agree_breaks :
    let events : List Upkeep := [.act (.store (cameraFrame 5)), .act .flush,
      .act (.store (cameraFrame 6)), .act .flush]
    (Machine.run upkeep (onEmptyRoot oneSecond) events).map (fun r =>
        (r.storage.indexEntries.map fun seg => (seg.path.file, seg.sizeBytes),
          r.storage.usageBytes, r.finalizedBytes)) =
      some ([("0.segment", 43), ("0.segment", 43)], 86, 43) ∧
    ¬ Machine.Always upkeep Agree (onEmptyRoot oneSecond) events := by
  intro events
  have hrun : (Machine.run upkeep (onEmptyRoot oneSecond) events).map (fun r =>
        (r.storage.indexEntries.map fun seg => (seg.path.file, seg.sizeBytes),
          r.storage.usageBytes, r.finalizedBytes)) =
      some ([("0.segment", 43), ("0.segment", 43)], 86, 43) := by
    decide +kernel
  refine ⟨hrun, fun h => ?_⟩
  obtain ⟨r, hagree, hobserved⟩ := h.observed hrun
  obtain ⟨-, hobserved⟩ := Prod.mk.inj hobserved
  obtain ⟨husage, hfinalized⟩ := Prod.mk.inj hobserved
  have := hagree.usage
  rw [husage, hfinalized] at this
  cases this

end Recording

end Kodama
