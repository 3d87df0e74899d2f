import Kodama.Storage.Cleanup

/-!
# What a cleanup does to the index (storage/local.rs, `cleanup`)

`cleanup_exact` is about an index whose entries all have a file of their own. In general two
entries may share a file and a file may be missing, so whether the deletion of an entry's file
succeeds also depends on what has been deleted before. `unlinkAll` makes these calls in the
order of the iteration and says which of them succeed; `Edits` is what taking out the entries
they succeeded for makes of the map, for one source and then for all.

`cleanup_edits_index` is the effect on any index whose usage is the sum of the sizes of its
entries: gone are the entries whose deletion succeeded, the other ones stay in their order, and
the usage is the sum again.
-/

namespace Kodama

open Lib

namespace LocalStorage

/-- An entry of the index, with its source and its position among the source's segments. -/
abbrev Entry := SourceId × SegmentIndex × Nat

/-- The bytes of some entries. -/
def sizeOfAll (segments : List SegmentIndex) : Nat :=
  (segments.map fun seg => seg.sizeBytes.toNat).sum

/-- The entries of a source that ended before the cutoff. -/
def outdated (cutoff : UInt64) (source : SourceId) (segments : List (SegmentIndex × Nat)) :
    List Entry :=
  (segments.filter fun e => e.1.endTimeUs < cutoff).map fun e => (source, e)

/-- Delete the files of some entries, one after the other; also those for which that works. -/
def unlinkAll (unlinkFails : SourceId → Nat → Bool) :
    FileSystem PathBuf → List Entry → FileSystem PathBuf × List Entry
  | fs, [] => (fs, [])
  | fs, (source, seg, i) :: entries =>
    match if unlinkFails source i then none else fs.remove seg.path with
    | none => unlinkAll unlinkFails fs entries
    | some fs =>
      let r := unlinkAll unlinkFails fs entries
      (r.1, (source, seg, i) :: r.2)

/-- The entries a cleanup deletes the files of. -/
def unlinked (st : LocalStorage) (cutoff : UInt64) (unlinkFails : SourceId → Nat → Bool) :
    List Entry :=
  (unlinkAll unlinkFails st.fs
    (st.index.segments.entries.flatMap fun s => outdated cutoff s.1 s.2.zipIdx)).2

/-- Whether the deletion of the file of a source's entry succeeds. -/
def unlinks (st : LocalStorage) (cutoff : UInt64) (unlinkFails : SourceId → Nat → Bool)
    (source : SourceId) (position : Nat) : Bool :=
  (st.unlinked cutoff unlinkFails).any fun e => e.1 = source && e.2.2 = position

/-- The segments of a source without those that are gone. -/
def remaining (gone : SegmentIndex × Nat → Bool) (segments : List SegmentIndex) :
    List SegmentIndex :=
  (segments.zipIdx.filter fun e => !gone e).map Prod.fst

/-- The segments of a source that are gone. -/
def removed (gone : SegmentIndex × Nat → Bool) (segments : List SegmentIndex) :
    List SegmentIndex :=
  (segments.zipIdx.filter gone).map Prod.fst

variable {unlinkFails : SourceId → Nat → Bool} {cutoff : UInt64}

theorem sizeOfAll_append (segments segments' : List SegmentIndex) :
    sizeOfAll (segments ++ segments') = sizeOfAll segments + sizeOfAll segments' := by
  rw [sizeOfAll, List.map_append, List.sum_append]
  rfl

theorem sizeOfAll_perm {segments segments' : List SegmentIndex} (h : segments.Perm segments') :
    sizeOfAll segments = sizeOfAll segments' :=
  (h.map _).sum_nat

/-- A segment is gone or remains. -/
theorem sizeOfAll_remaining (gone : SegmentIndex × Nat → Bool) (segments : List SegmentIndex) :
    sizeOfAll (remaining gone segments) + sizeOfAll (removed gone segments) =
      sizeOfAll segments := by
  have hsplit : (removed gone segments ++ remaining gone segments).Perm segments := by
    rw [removed, remaining, ← List.map_append]
    refine ((List.filter_append_perm gone segments.zipIdx).map Prod.fst).trans (.of_eq ?_)
    exact List.zipIdx_map_fst 0 segments
  rw [Nat.add_comm, ← sizeOfAll_append]
  exact sizeOfAll_perm hsplit

/-! ## The calls -/

theorem unlinkAll_append (fs : FileSystem PathBuf) (entries entries' : List Entry) :
    unlinkAll unlinkFails fs (entries ++ entries') =
      let r := unlinkAll unlinkFails fs entries
      let r' := unlinkAll unlinkFails r.1 entries'
      (r'.1, r.2 ++ r'.2) := by
  induction entries generalizing fs with
  | nil => rfl
  | cons entry entries ih =>
    obtain ⟨source, seg, i⟩ := entry
    rw [List.cons_append, unlinkAll, unlinkAll]
    split
    · exact ih fs
    · next fs' _ => rw [ih fs']; rfl

theorem unlinkAll_sublist (fs : FileSystem PathBuf) (entries : List Entry) :
    (unlinkAll unlinkFails fs entries).2.Sublist entries := by
  induction entries generalizing fs with
  | nil => exact .slnil
  | cons entry entries ih =>
    obtain ⟨source, seg, i⟩ := entry
    rw [unlinkAll]
    split
    · exact (ih fs).cons _
    · next fs' _ => exact (ih fs').cons_cons _

theorem outdated_cons (source : SourceId) (e : SegmentIndex × Nat)
    (segments : List (SegmentIndex × Nat)) :
    outdated cutoff source (e :: segments) =
      if e.1.endTimeUs < cutoff then (source, e) :: outdated cutoff source segments
      else outdated cutoff source segments := by
  rw [outdated, List.filter_cons]
  split
  · next h =>
    rw [if_pos (of_decide_eq_true h)]
    rfl
  · next h =>
    rw [if_neg (mt decide_eq_true h)]
    rfl

/-- A pass over the segments of a source makes the calls for those that ended before the cutoff,
adds up the sizes of the deleted ones and collects their positions. -/
theorem deleteSegments_eq (source : SourceId) (segments : List (SegmentIndex × Nat))
    (fs : FileSystem PathBuf) (freed : UInt64) :
    deleteSegments (unlinkFails source) cutoff segments (fs, freed) =
      let r := unlinkAll unlinkFails fs (outdated cutoff source segments)
      ((r.1, freed + UInt64.ofNat (sizeOfAll (r.2.map fun e => e.2.1))),
        r.2.map fun e => e.2.2) := by
  induction segments generalizing fs freed with
  | nil => exact congrArg (fun n => ((fs, n), [])) (UInt64.add_zero freed).symm
  | cons head segments ih =>
    obtain ⟨seg, i⟩ := head
    unfold deleteSegments
    rw [outdated_cons]
    by_cases hend : seg.endTimeUs < cutoff
    · rw [if_pos hend, if_pos hend, unlinkAll]
      cases if unlinkFails source i = true then none else fs.remove seg.path with
      | none => exact ih fs freed
      | some fs' =>
        -- the size of a deleted entry is added before those of the rest
        dsimp only
        rw [ih fs' (freed + seg.sizeBytes)]
        simp only [List.map_cons, sizeOfAll, List.sum_cons, UInt64.ofNat_add, UInt64.ofNat_toNat,
          UInt64.add_assoc]
    · rw [if_neg hend, if_neg hend]
      exact ih fs freed

theorem fst_of_mem_outdated {source : SourceId} {segments : List (SegmentIndex × Nat)}
    {e : Entry} (h : e ∈ outdated cutoff source segments) : e.1 = source := by
  obtain ⟨_, -, rfl⟩ := List.mem_map.mp h
  rfl

/-- The deleted entries of a source, among all of its entries. -/
theorem unlinkAll_outdated (source : SourceId) (segments : List SegmentIndex)
    (fs : FileSystem PathBuf) :
    let r := unlinkAll unlinkFails fs (outdated cutoff source segments.zipIdx)
    r.2.map Prod.snd = segments.zipIdx.filter fun e => (source, e) ∈ r.2 := by
  intro r
  have hsub : r.2.Sublist (segments.zipIdx.map fun e => (source, e)) :=
    (unlinkAll_sublist fs _).trans (List.filter_sublist.map _)
  have hpairs : (r.2.map Prod.snd).Sublist segments.zipIdx := by
    have hmap := hsub.map Prod.snd
    rwa [List.map_map, show Prod.snd ∘ (fun e => (source, e)) = id from rfl,
      List.map_id] at hmap
  have hnodup : segments.zipIdx.Nodup := .of_map Prod.snd (List.nodup_zipIdx_map_snd segments)
  rw [← filter_mem_of_sublist hpairs hnodup]
  refine List.filter_congr fun e _ => ?_
  rw [decide_eq_decide, List.mem_map]
  constructor
  · rintro ⟨⟨k, e'⟩, hmem, rfl⟩
    obtain rfl : k = source := fst_of_mem_outdated ((unlinkAll_sublist fs _).subset hmem)
    exact hmem
  · exact fun hmem => ⟨_, hmem, rfl⟩

/-- What a cleanup does for one source: it takes the deleted entries out. -/
theorem cleanupSource_eq
    (acc : (FileSystem PathBuf × UInt64) × HashMap SourceId (List SegmentIndex))
    (source : SourceId) (segments : List SegmentIndex) :
    let r := unlinkAll unlinkFails acc.1.1 (outdated cutoff source segments.zipIdx)
    cleanupSource unlinkFails cutoff acc (source, segments) =
      ((r.1, acc.1.2 + UInt64.ofNat (sizeOfAll (r.2.map fun e => e.2.1))),
        acc.2.insert source (remaining (fun e => (source, e) ∈ r.2) segments)) := by
  intro r
  have hpositions : r.2.map (fun e => e.2.2) =
      (segments.zipIdx.filter fun e => (source, e) ∈ r.2).map Prod.snd := by
    rw [← unlinkAll_outdated, List.map_map]
    rfl
  rw [cleanupSource, deleteSegments_eq]
  show (_, acc.2.insert source (removePositions segments (r.2.map fun e => e.2.2))) = _
  rw [hpositions, removePositions, List.foldl_reverse]
  exact congrArg (fun kept => (_, acc.2.insert source kept))
    (foldr_eraseIdx_filter segments fun seg i => (source, seg, i) ∈ r.2)

theorem removed_congr {gone gone' : SegmentIndex × Nat → Bool} (segments : List SegmentIndex)
    (h : ∀ e ∈ segments.zipIdx, gone e = gone' e) :
    removed gone segments = removed gone' segments := by
  rw [removed, removed, List.filter_congr h]

theorem remaining_congr {gone gone' : SegmentIndex × Nat → Bool} (segments : List SegmentIndex)
    (h : ∀ e ∈ segments.zipIdx, gone e = gone' e) :
    remaining gone segments = remaining gone' segments := by
  rw [remaining, remaining, List.filter_congr fun e he => congrArg (!·) (h e he)]

/-- What a cleanup of some sources makes of the map of the index, told by the entries whose
files it has deleted. -/
structure Edits (before after : HashMap SourceId (List SegmentIndex))
    (sources : List (SourceId × List SegmentIndex)) (deleted : List Entry) : Prop where
  kept : ∀ s ∈ sources, after.lookup s.1 = some (remaining (fun e => (s.1, e) ∈ deleted) s.2)
  other : ∀ k, k ∉ sources.map Prod.fst → after.lookup k = before.lookup k
  deleted_eq : (deleted.map fun e => e.2.1) =
    sources.flatMap fun s => removed (fun e => (s.1, e) ∈ deleted) s.2
  bytes : HashMap.sumOver (fun _ => sizeOfAll) after + sizeOfAll (deleted.map fun e => e.2.1) =
    HashMap.sumOver (fun _ => sizeOfAll) before
  within : ∀ e ∈ deleted, e.1 ∈ sources.map Prod.fst

/-- Taking the deleted entries out of one source. -/
theorem edits_source {before : HashMap SourceId (List SegmentIndex)} {source : SourceId}
    {segments : List SegmentIndex} {deleted : List Entry}
    (hlook : before.lookup source = some segments)
    (hdeleted : deleted.map Prod.snd = segments.zipIdx.filter fun e => (source, e) ∈ deleted)
    (hsource : ∀ e ∈ deleted, e.1 = source) :
    Edits before (before.insert source (remaining (fun e => (source, e) ∈ deleted) segments))
      [(source, segments)] deleted := by
  have hremoved : removed (fun e => (source, e) ∈ deleted) segments =
      deleted.map fun e => e.2.1 := by
    rw [removed, ← hdeleted, List.map_map]
    rfl
  refine ⟨?_, fun k hk => ?_, ?_, ?_, fun e he => ?_⟩
  · exact List.forall_mem_singleton.mpr (AList.lookup_insert _)
  · exact AList.lookup_insert_ne (List.ne_of_not_mem_cons hk)
  · rw [List.flatMap_singleton, hremoved]
  · have hinsert := HashMap.sumOver_insert (fun _ => sizeOfAll) before source
      (remaining (fun e => (source, e) ∈ deleted) segments)
    have hsplit := sizeOfAll_remaining (fun e => (source, e) ∈ deleted) segments
    rw [HashMap.sumAt_of_lookup hlook, ← hsplit, hremoved] at hinsert
    omega
  · exact List.mem_singleton.mpr (hsource e he)

/-- One part of the sources after the other. -/
theorem Edits.append {before between after : HashMap SourceId (List SegmentIndex)}
    {sources sources' : List (SourceId × List SegmentIndex)} {deleted deleted' : List Entry}
    (h : Edits before between sources deleted) (h' : Edits between after sources' deleted')
    (hdisjoint : (sources.map Prod.fst).Disjoint (sources'.map Prod.fst)) :
    Edits before after (sources ++ sources') (deleted ++ deleted') := by
  -- no deletion is of sources of both parts
  have hleft : ∀ s ∈ sources, ∀ e,
      decide ((s.1, e) ∈ deleted) = decide ((s.1, e) ∈ deleted ++ deleted') := by
    intro s hs e
    rw [decide_eq_decide, List.mem_append]
    exact (or_iff_left fun he => hdisjoint (List.mem_map_of_mem hs) (h'.within _ he)).symm
  have hright : ∀ s ∈ sources', ∀ e,
      decide ((s.1, e) ∈ deleted') = decide ((s.1, e) ∈ deleted ++ deleted') := by
    intro s hs e
    rw [decide_eq_decide, List.mem_append]
    exact (or_iff_right fun he => hdisjoint (h.within _ he) (List.mem_map_of_mem hs)).symm
  refine ⟨?_, fun k hk => ?_, ?_, ?_, ?_⟩
  · refine List.forall_mem_append.mpr ⟨fun s hs => ?_, fun s hs => ?_⟩
    · rw [h'.other s.1 (hdisjoint (List.mem_map_of_mem hs)), h.kept s hs]
      exact congrArg some (remaining_congr _ fun e _ => hleft s hs e)
    · rw [h'.kept s hs]
      exact congrArg some (remaining_congr _ fun e _ => hright s hs e)
  · rw [List.map_append, List.mem_append, not_or] at hk
    rw [h'.other k hk.2, h.other k hk.1]
  · rw [List.map_append, List.flatMap_append, h.deleted_eq, h'.deleted_eq]
    refine congrArg₂ _ (List.flatMap_congr fun s hs => ?_) (List.flatMap_congr fun s hs => ?_)
    · exact removed_congr _ fun e _ => hleft s hs e
    · exact removed_congr _ fun e _ => hright s hs e
  · have hbytes := h.bytes
    have hbytes' := h'.bytes
    rw [List.map_append, sizeOfAll_append]
    omega
  · intro e he
    rw [List.map_append]
    exact List.mem_append.mpr ((List.mem_append.mp he).imp (h.within e) (h'.within e))

/-- The same for all sources, one after the other. -/
theorem foldl_cleanupSource_eq (sources : List (SourceId × List SegmentIndex)) :
    ∀ acc : (FileSystem PathBuf × UInt64) × HashMap SourceId (List SegmentIndex),
      (sources.map Prod.fst).Nodup → (∀ s ∈ sources, acc.2.lookup s.1 = some s.2) →
      let r := unlinkAll unlinkFails acc.1.1
        (sources.flatMap fun s => outdated cutoff s.1 s.2.zipIdx)
      let cleaned := sources.foldl (cleanupSource unlinkFails cutoff) acc
      cleaned.1 = (r.1, acc.1.2 + UInt64.ofNat (sizeOfAll (r.2.map fun e => e.2.1))) ∧
      Edits acc.2 cleaned.2 sources r.2 := by
  induction sources with
  | nil =>
    intro acc _ _
    exact ⟨congrArg (Prod.mk acc.1.1) (UInt64.add_zero _).symm, nofun, fun _ _ => rfl, rfl, rfl,
      nofun⟩
  | cons entry sources ih =>
    obtain ⟨source, segments⟩ := entry
    intro acc hkeys hlook
    obtain ⟨hkey, hkeys⟩ := List.nodup_cons.mp hkeys
    let own := unlinkAll unlinkFails acc.1.1 (outdated cutoff source segments.zipIdx)
    have hown : Edits acc.2
        (acc.2.insert source (remaining (fun e => (source, e) ∈ own.2) segments))
        [(source, segments)] own.2 :=
      edits_source (hlook _ List.mem_cons_self) (unlinkAll_outdated source segments acc.1.1)
        fun e he => fst_of_mem_outdated ((unlinkAll_sublist _ _).subset he)
    have hstep : cleanupSource unlinkFails cutoff acc (source, segments) =
        ((own.1, acc.1.2 + UInt64.ofNat (sizeOfAll (own.2.map fun e => e.2.1))),
          acc.2.insert source (remaining (fun e => (source, e) ∈ own.2) segments)) :=
      cleanupSource_eq acc source segments
    have hlook' : ∀ s ∈ sources,
        (cleanupSource unlinkFails cutoff acc (source, segments)).2.lookup s.1 = some s.2 := by
      intro s hs
      have hne : s.1 ≠ source := fun heq => hkey (List.mem_map.mpr ⟨s, hs, heq⟩)
      rw [hstep]
      exact (AList.lookup_insert_ne hne).trans (hlook s (List.mem_cons_of_mem _ hs))
    obtain ⟨hcleaned, hrest⟩ := ih _ hkeys hlook'
    rw [hstep] at hcleaned hrest
    rw [List.foldl_cons, hstep, List.flatMap_cons, unlinkAll_append]
    refine ⟨hcleaned.trans (Prod.ext rfl ?_), hown.append hrest ?_⟩
    · dsimp only
      rw [List.map_append, sizeOfAll_append, UInt64.ofNat_add, ← UInt64.add_assoc]
    · exact List.singleton_disjoint.mpr hkey

/-! ## The effect on the index -/

variable {st : LocalStorage}

/-- The bytes of all entries, added up source by source. -/
theorem sizeOfAll_indexEntries (st : LocalStorage) :
    sizeOfAll st.indexEntries = HashMap.sumOver (fun _ => sizeOfAll) st.index.segments := by
  rw [indexEntries, HashMap.sumOver]
  induction st.index.segments.entries with
  | nil => rfl
  | cons s entries ih => rw [List.flatMap_cons, sizeOfAll_append, ih, List.map_cons, List.sum_cons]

/-- A deleted entry ended before the cutoff, and its position tells it from the others. -/
theorem mem_unlinked_iff {source : SourceId} {e : SegmentIndex × Nat}
    (he : e ∈ (st.segmentsOf source).zipIdx) :
    (source, e) ∈ st.unlinked cutoff unlinkFails ↔
      e.1.endTimeUs < cutoff ∧ st.unlinks cutoff unlinkFails source e.2 = true := by
  have hentry : ∀ e', (source, e') ∈ st.unlinked cutoff unlinkFails →
      e' ∈ (st.segmentsOf source).zipIdx ∧ e'.1.endTimeUs < cutoff := by
    intro e' hmem
    obtain ⟨s, hs, hmem⟩ := List.mem_flatMap.mp ((unlinkAll_sublist _ _).subset hmem)
    obtain ⟨e'', hended, heq⟩ := List.mem_map.mp hmem
    obtain ⟨rfl, rfl⟩ := Prod.mk.inj heq
    rw [segmentsOf, HashMap.mem_entries_iff.mp hs, Option.getD_some]
    exact ⟨List.mem_of_mem_filter hended, of_decide_eq_true (List.mem_filter.mp hended).2⟩
  rw [unlinks, List.any_eq_true]
  constructor
  · exact fun hmem => ⟨(hentry e hmem).2, _, hmem, by simp⟩
  · rintro ⟨-, ⟨k, e'⟩, hmem, hsame⟩
    obtain ⟨rfl, hposition⟩ : k = source ∧ e'.2 = e.2 := by simpa using hsame
    have hget := List.mk_mem_zipIdx_iff_getElem?.mp he
    have hget' := List.mk_mem_zipIdx_iff_getElem?.mp (hentry e' hmem).1
    rw [hposition, hget] at hget'
    rwa [Prod.ext (Option.some.inj hget') hposition.symm]

/-- A cleanup as a whole, told by the entries it has deleted the files of. -/
theorem cleanup_eq (st : LocalStorage) (cutoff : UInt64)
    (unlinkFails : SourceId → Nat → Bool) :
    let unlinked := st.unlinked cutoff unlinkFails
    let bytes := sizeOfAll (unlinked.map fun e => e.2.1)
    let cleaned := st.cleanup cutoff unlinkFails
    cleaned.2 = UInt64.ofNat bytes ∧
    (∀ source, cleaned.1.segmentsOf source =
      remaining (fun e => (source, e) ∈ unlinked) (st.segmentsOf source)) ∧
    (unlinked.map fun e => e.2.1) =
      st.index.segments.entries.flatMap (fun s => removed (fun e => (s.1, e) ∈ unlinked) s.2) ∧
    sizeOfAll cleaned.1.indexEntries + bytes = sizeOfAll st.indexEntries := by
  intro unlinked bytes cleaned
  -- the map is iterated as its list of entries
  let sources := st.index.segments.entries.map fun s => (s.1, s.2)
  have hlook : ∀ s ∈ sources, st.index.segments.lookup s.1 = some s.2 :=
    fun _ hs => HashMap.mem_map_entries_iff.mp hs
  have hkeys : (sources.map Prod.fst).Nodup := by
    rw [HashMap.map_entries_fst]
    exact AList.keys_nodup _
  have hunlinked : unlinked = (unlinkAll unlinkFails st.fs
      (sources.flatMap fun s => outdated cutoff s.1 s.2.zipIdx)).2 := by
    rw [List.flatMap_map]
    rfl
  obtain ⟨hcleaned, hedits⟩ := foldl_cleanupSource_eq sources
    ((st.fs, 0), st.index.segments) hkeys hlook
  rw [← hunlinked] at hcleaned hedits
  refine ⟨(congrArg Prod.snd hcleaned).trans (UInt64.zero_add _), ?_, ?_, ?_⟩
  · have hlookup := HashMap.lookup_of_entries
      (f := fun source => remaining fun e => (source, e) ∈ unlinked) hedits.kept hedits.other
    exact fun source => segmentsOf_of_lookup
      (f := fun source => remaining fun e => (source, e) ∈ unlinked) (fun _ => rfl)
      (hlookup source)
  · rw [hedits.deleted_eq, List.flatMap_map]
  · rw [sizeOfAll_indexEntries, sizeOfAll_indexEntries]
    exact hedits.bytes

/-- **What a cleanup does to the index.** Whatever deletions fail, the entries that are gone
are those that ended before the cutoff and whose file could be deleted. The others are there
in their order, the bytes reported are the sizes of those gone, and if the usage was the sum of
the sizes of all entries, it is again: the subtraction does not saturate. -/
theorem cleanup_edits_index (st : LocalStorage) (cutoff : UInt64)
    (unlinkFails : SourceId → Nat → Bool)
    (htotal : st.index.totalBytes.toNat = sizeOfAll st.indexEntries) :
    let gone : SourceId → SegmentIndex × Nat → Bool := fun source e =>
      e.1.endTimeUs < cutoff && st.unlinks cutoff unlinkFails source e.2
    let cleaned := st.cleanup cutoff unlinkFails
    (∀ source, cleaned.1.segmentsOf source = remaining (gone source) (st.segmentsOf source)) ∧
    cleaned.2.toNat =
      sizeOfAll (st.index.segments.entries.flatMap fun s => removed (gone s.1) s.2) ∧
    cleaned.2 ≤ st.index.totalBytes ∧
    cleaned.1.index.totalBytes.toNat = sizeOfAll cleaned.1.indexEntries := by
  intro gone cleaned
  obtain ⟨hbytes, hkept, hremoved, hsum⟩ := cleanup_eq st cutoff unlinkFails
  rw [← htotal] at hsum
  -- the entries gone, told by the cutoff and the deletion
  have hgone : ∀ source, ∀ e ∈ (st.segmentsOf source).zipIdx,
      decide ((source, e) ∈ st.unlinked cutoff unlinkFails) = gone source e := by
    intro source e he
    rw [Bool.eq_iff_iff, decide_eq_true_eq, Bool.and_eq_true, decide_eq_true_eq]
    exact mem_unlinked_iff he
  have hfreed : (st.unlinked cutoff unlinkFails).map (fun e => e.2.1) =
      st.index.segments.entries.flatMap fun s => removed (gone s.1) s.2 := by
    rw [hremoved]
    refine List.flatMap_congr fun s hs => removed_congr _ ?_
    have hentry : st.segmentsOf s.1 = s.2 := by
      rw [segmentsOf, HashMap.mem_entries_iff.mp hs, Option.getD_some]
    exact hentry ▸ hgone s.1
  -- what is gone is part of the usage
  have hpart : sizeOfAll ((st.unlinked cutoff unlinkFails).map fun e => e.2.1) ≤
      st.index.totalBytes.toNat := by omega
  have hfreedBytes : cleaned.2.toNat =
      sizeOfAll ((st.unlinked cutoff unlinkFails).map fun e => e.2.1) := by
    rw [hbytes,
      UInt64.toNat_ofNat_of_lt' (Nat.lt_of_le_of_lt hpart st.index.totalBytes.toNat_lt)]
  have hle : cleaned.2 ≤ st.index.totalBytes := by
    rw [UInt64.le_iff_toNat_le]
    omega
  refine ⟨fun source => ?_, by rw [hfreedBytes, hfreed], hle, ?_⟩
  · rw [hkept, remaining_congr _ (hgone source)]
  · have husage : cleaned.1.index.totalBytes = if cleaned.2 ≤ st.index.totalBytes then
        st.index.totalBytes - cleaned.2 else 0 := rfl
    rw [husage, if_pos hle, UInt64.toNat_sub_of_le _ _ hle, hfreedBytes]
    exact Nat.sub_eq_of_eq_add hsum.symm

/-- Two entries of one source on the same file, as a window that is recorded again leaves
them. -/
def sharedFile (source : SourceId) : LocalStorage :=
  let path : PathBuf := ⟨source.display, "0.segment"⟩
  { config := ⟨1_000_000⟩
    fs := (FileSystem.empty.create path).1
    index := ⟨(∅ : HashMap SourceId _).insert source [⟨path, 1, 2, 1, 43⟩, ⟨path, 3, 4, 1, 50⟩], 93⟩
    writers := ∅ }

/-- The file of the second entry is gone when its turn comes, so the entry stays. -/
theorem cleanup_edits_index_sharedFile :
    let source : SourceId := ⟨[8, 6, 4, 2, 1, 3, 5, 7], rfl⟩
    let cleaned := (sharedFile source).cleanup 10 fun _ _ => false
    (cleaned.1.segmentsOf source).map SegmentIndex.startTimeUs = [3] ∧
      cleaned.2.toNat = 43 ∧ cleaned.1.index.totalBytes.toNat = 50 := by
  intro source cleaned
  obtain ⟨hkept, hfreed, -, htotal⟩ :=
    cleanup_edits_index (sharedFile source) 10 (fun _ _ => false) (by decide +kernel)
  refine ⟨(congrArg _ (hkept source)).trans (by decide +kernel),
    hfreed.trans (by decide +kernel), htotal.trans (by decide +kernel)⟩

end LocalStorage

end Kodama
