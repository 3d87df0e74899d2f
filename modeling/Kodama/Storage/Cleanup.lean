import Kodama.Lib.Positions
import Kodama.Storage.Local

/-!
# What a cleanup leaves (storage/local.rs, `cleanup`)

A cleanup collects, source by source, the positions of the entries whose files it has
deleted, adds up their sizes, and then removes those positions from the index, last first.

`cleanup_exact` is its effect on an index whose entries all have a file of their own, with
the length they give: the entries that stay are those it did not delete, and the bytes it
reports are the lengths of the files that are gone.
-/

namespace Kodama

open Lib

namespace LocalStorage

/-- All entries of the index. -/
def indexEntries (st : LocalStorage) : List SegmentIndex :=
  st.index.segments.entries.flatMap fun e => e.2

/-- Whether a cleanup deletes an entry at a position. -/
def deletes (unlinkFails : Nat → Bool) (cutoff : UInt64) (seg : SegmentIndex) (i : Nat) : Bool :=
  seg.endTimeUs < cutoff && !unlinkFails i

/-- The entries of a source that a cleanup leaves. -/
def keptSegments (unlinkFails : Nat → Bool) (cutoff : UInt64) : List SegmentIndex →
    List SegmentIndex :=
  unpicked (deletes unlinkFails cutoff)

/-- A kept entry stands at a position where nothing was deleted. -/
theorem mem_keptSegments {unlinkFails : Nat → Bool} {cutoff : UInt64} {segments : List SegmentIndex}
    {seg : SegmentIndex} (h : seg ∈ keptSegments unlinkFails cutoff segments) :
    ∃ n, (seg, n) ∈ segments.zipIdx ∧ ¬ Deletes unlinkFails cutoff seg n := by
  obtain ⟨⟨_, n⟩, hn, rfl⟩ := List.mem_map.mp h
  obtain ⟨hn, hkept⟩ := List.mem_filter.mp hn
  refine ⟨n, hn, fun hdeletes => ?_⟩
  simp [deletes, hdeletes.1, hdeletes.2] at hkept

/-- Where the files of all entries are there, one pass over the segments of a source collects
exactly those to be deleted, and the bytes it frees are those of the files it deletes. -/
theorem deleteSegments_exact {length : Nat → Nat} (unlinkFails : Nat → Bool) (cutoff : UInt64)
    (segments : List (SegmentIndex × Nat)) :
    ∀ (fs : FileSystem PathBuf) (freed : UInt64),
      (∀ e ∈ segments, ∃ i, fs.names.lookup e.1.path = some i ∧
        e.1.sizeBytes.toNat = length i) →
      (segments.map fun e => e.1.path).Nodup →
      freed.toNat + HashMap.sumOver (fun _ => length) fs.names < 2 ^ 64 →
      (deleteSegments unlinkFails cutoff segments (fs, freed)).2 =
        (segments.filter fun e => deletes unlinkFails cutoff e.1 e.2).map Prod.snd ∧
      (deleteSegments unlinkFails cutoff segments (fs, freed)).1.2.toNat +
          HashMap.sumOver (fun _ => length)
            (deleteSegments unlinkFails cutoff segments (fs, freed)).1.1.names =
        freed.toNat + HashMap.sumOver (fun _ => length) fs.names := by
  induction segments with
  | nil => exact fun fs freed _ _ _ => ⟨rfl, rfl⟩
  | cons head segments ih =>
    obtain ⟨seg, n⟩ := head
    intro fs freed hfiles hpaths hlt
    obtain ⟨hnot, hpaths⟩ := List.nodup_cons.mp hpaths
    obtain ⟨i, hi, hsize⟩ : ∃ i, fs.names.lookup seg.path = some i ∧
        seg.sizeBytes.toNat = length i := hfiles (seg, n) List.mem_cons_self
    have hrest := fun e he => hfiles e (List.mem_cons_of_mem _ he)
    rw [List.filter_cons]
    unfold deleteSegments
    by_cases hdeletes : seg.endTimeUs < cutoff ∧ unlinkFails n = false
    · obtain ⟨hend, hworks⟩ := hdeletes
      obtain ⟨fs', hremove⟩ := FileSystem.exists_remove hi
      have hnames := FileSystem.lookup_remove hremove
      have hsum := HashMap.sumOver_of_lookup_erase (g := fun _ => length) hnames
      rw [HashMap.sumAt_of_lookup hi, ← hsize] at hsum
      -- what is freed is part of what was there, so the sum does not wrap
      have hfreed : (freed + seg.sizeBytes).toNat = freed.toNat + seg.sizeBytes.toNat := by
        rw [UInt64.toNat_add, Nat.mod_eq_of_lt (by omega)]
      obtain ⟨hpositions, hbytes⟩ := ih fs' (freed + seg.sizeBytes) (fun e he => by
          obtain ⟨j, hj, hsize'⟩ := hrest e he
          have hne : e.1.path ≠ seg.path := fun heq =>
            hnot (List.mem_map.mpr ⟨e, he, heq⟩)
          exact ⟨j, by rw [hnames, if_neg hne, hj], hsize'⟩) hpaths (by omega)
      have hdeletes : deletes unlinkFails cutoff seg n = true := by
        rw [deletes, hworks, decide_eq_true hend]
        rfl
      rw [if_pos hend, hworks, if_neg Bool.false_ne_true, hremove, hdeletes, if_pos rfl,
        List.map_cons]
      refine ⟨congrArg _ hpositions, hbytes.trans ?_⟩
      omega
    · obtain ⟨hpositions, hbytes⟩ := ih fs freed hrest hpaths hlt
      have hkept : deletes unlinkFails cutoff seg n = false := by
        rw [deletes]
        simpa using hdeletes
      rw [hkept, if_neg Bool.false_ne_true]
      split
      · next hend =>
        have hfails : unlinkFails n = true := by simpa [hend] using hdeletes
        rw [hfails, if_pos rfl]
        exact ⟨hpositions, hbytes⟩
      · exact ⟨hpositions, hbytes⟩

/-- Before some sources are cleaned up: the files of their entries are there, each once, and with
what has been freed the files make up the same total. -/
structure Deletable (length : Nat → Nat) (total : Nat) (acc : FileSystem PathBuf × UInt64)
    (sources : List (SourceId × List SegmentIndex)) : Prop where
  files : ∀ e ∈ sources, ∀ seg ∈ e.2, ∃ i, acc.1.names.lookup seg.path = some i ∧
    seg.sizeBytes.toNat = length i
  paths : (sources.flatMap fun e => e.2.map SegmentIndex.path).Nodup
  total : acc.2.toNat + HashMap.sumOver (fun _ => length) acc.1.names = total

/-- Cleaning up one of them. -/
theorem Deletable.cleanupSource {length : Nat → Nat} {total : Nat} (hlt : total < 2 ^ 64)
    (unlinkFails : SourceId → Nat → Bool) (cutoff : UInt64)
    {acc : (FileSystem PathBuf × UInt64) × HashMap SourceId (List SegmentIndex)}
    {entry : SourceId × List SegmentIndex} {sources : List (SourceId × List SegmentIndex)}
    (h : Deletable length total acc.1 (entry :: sources)) :
    (LocalStorage.cleanupSource unlinkFails cutoff acc entry).2 =
        acc.2.insert entry.1 (keptSegments (unlinkFails entry.1) cutoff entry.2) ∧
      Deletable length total (LocalStorage.cleanupSource unlinkFails cutoff acc entry).1
        sources := by
  have hpaths := h.paths
  rw [List.flatMap_cons, List.nodup_append] at hpaths
  obtain ⟨hown, hpaths, hdisjoint⟩ := hpaths
  have hzip : (entry.2.zipIdx.map fun e => e.1.path) = entry.2.map SegmentIndex.path := by
    calc (entry.2.zipIdx.map fun e => e.1.path)
        = (entry.2.zipIdx.map Prod.fst).map SegmentIndex.path := List.map_map.symm
      _ = entry.2.map SegmentIndex.path := congrArg _ (List.zipIdx_map_fst 0 entry.2)
  obtain ⟨hpositions, hbytes⟩ := deleteSegments_exact (unlinkFails entry.1) cutoff
    entry.2.zipIdx acc.1.1 acc.1.2
    (fun e he => h.files entry List.mem_cons_self e.1 (List.fst_mem_of_mem_zipIdx he))
    (hzip ▸ hown) (h.total ▸ hlt)
  have hwithout := deleteSegments_without (unlinkFails entry.1) cutoff entry.2.zipIdx
    acc.1.1 acc.1.2
  refine ⟨?_, fun e he seg hseg => ?_, hpaths, hbytes.trans h.total⟩
  · show acc.2.insert entry.1 (removePositions entry.2 _) = _
    rw [hpositions, removePositions, List.foldl_reverse]
    exact congrArg (acc.2.insert entry.1)
      (foldr_eraseIdx_filter entry.2 (deletes (unlinkFails entry.1) cutoff))
  · -- what the other sources have is not touched
    obtain ⟨i, hi, hsize⟩ := h.files e (List.mem_cons_of_mem _ he) seg hseg
    refine ⟨i, (hwithout.lookup seg.path i).mpr ⟨hi, ?_⟩, hsize⟩
    rintro ⟨seg', n, hmem, -, heq⟩
    exact hdisjoint _ (List.mem_map_of_mem (List.fst_mem_of_mem_zipIdx hmem)) _
      (List.mem_flatMap.mpr ⟨e, he, List.mem_map_of_mem hseg⟩) heq

/-- What becomes of every entry of the map becomes of the segments of every source. -/
theorem segmentsOf_of_lookup {st st' : LocalStorage}
    {f : SourceId → List SegmentIndex → List SegmentIndex} (hnil : ∀ source, f source [] = [])
    {source : SourceId}
    (h : st'.index.segments.lookup source = (st.index.segments.lookup source).map (f source)) :
    st'.segmentsOf source = f source (st.segmentsOf source) := by
  rw [segmentsOf, segmentsOf, h]
  cases st.index.segments.lookup source with
  | none => exact (hnil source).symm
  | some segments => rfl

/-- **What a cleanup leaves.** Of each source the entries it did not delete, and of the bytes
in the files all but those it reports as freed. -/
theorem cleanup_exact (st : LocalStorage) (length : Nat → Nat) (cutoff : UInt64)
    (unlinkFails : SourceId → Nat → Bool)
    (hfiles : ∀ source seg, seg ∈ st.segmentsOf source → ∃ i,
      st.fs.names.lookup seg.path = some i ∧ seg.sizeBytes.toNat = length i)
    (hpaths : (st.indexEntries.map SegmentIndex.path).Nodup)
    (hlt : HashMap.sumOver (fun _ => length) st.fs.names < 2 ^ 64) :
    (∀ source, (st.cleanup cutoff unlinkFails).1.segmentsOf source =
      keptSegments (unlinkFails source) cutoff (st.segmentsOf source)) ∧
    (st.cleanup cutoff unlinkFails).2.toNat +
        HashMap.sumOver (fun _ => length) (st.cleanup cutoff unlinkFails).1.fs.names =
      HashMap.sumOver (fun _ => length) st.fs.names := by
  -- the map is iterated as its list of entries
  have hdeletable : Deletable length (HashMap.sumOver (fun _ => length) st.fs.names) (st.fs, 0)
      (st.index.segments.entries.map fun e => (e.1, e.2)) := by
    refine ⟨fun e he seg hseg => hfiles e.1 seg ?_, ?_, ?_⟩
    · rw [segmentsOf, HashMap.mem_map_entries_iff.mp he]
      exact hseg
    · rw [List.flatMap_map]
      rwa [indexEntries, List.map_flatMap] at hpaths
    · rw [UInt64.toNat_zero, Nat.zero_add]
  obtain ⟨hkept, hend⟩ := HashMap.lookup_foldl_entries
    (f := fun source => keptSegments (unlinkFails source) cutoff)
    (fun _ _ _ h => Deletable.cleanupSource hlt unlinkFails cutoff h) st.index.segments hdeletable
  refine ⟨fun source => segmentsOf_of_lookup
    (f := fun source => keptSegments (unlinkFails source) cutoff) (fun _ => rfl) (hkept source), ?_⟩
  exact hend.total

end LocalStorage

end Kodama
