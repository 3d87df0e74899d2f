import Kodama.Storage.Lossless
import Mathlib.Data.List.Dedup

/-!
# Reopening a storage (storage/local.rs, `LocalStorage::new`)

A storage that is dropped writes out the buffers of its open segments, without their final
header. Opening the directory again rebuilds the index from what is there: the directories
named like a source, in them the files called `*.segment`, of each the times in its header
and its length.

`rebuildIndex` is that scan, on a listing of the files in any order. `Recording.reopen` drops
a recording's storage and opens its directory again, with a configuration that may differ.
For directories that only this storage has written to, `segmentsOf_new` and `usageBytes_new`
say what the index is then: one entry for every file, with the times that are in its first 20
bytes.
-/

namespace Kodama

open Lib

/-! ## The scan -/

/-- The value of a hexadecimal digit. -/
def hexValue (c : Char) : Option Nat :=
  if '0' ≤ c ∧ c ≤ '9' then some (c.toNat - 48)
  else if 'a' ≤ c ∧ c ≤ 'f' then some (c.toNat - 87)
  else if 'A' ≤ c ∧ c ≤ 'F' then some (c.toNat - 55)
  else none

/-- `u8::from_str_radix` on two characters: two digits, or a plus sign and one. -/
def hexByte (hi lo : Char) : Option UInt8 :=
  if hi = '+' then (hexValue lo).map UInt8.ofNat
  else (hexValue hi).bind fun h => (hexValue lo).map fun l => UInt8.ofNat (16 * h + l)

def parseHexPairs : List Char → Option Bytes
  | [] => some []
  | hi :: lo :: name => (hexByte hi lo).bind fun b => (parseHexPairs name).map fun bs => b :: bs
  | [_] => none

/-- Parse a source id from a directory name: 16 characters, a byte for every two. -/
def parseSourceIdFromDir (name : String) : Option SourceId :=
  match parseHexPairs name.toList with
  | some bytes => if h : bytes.length = 8 then some ⟨bytes, h⟩ else none
  | none => none

/-- A file name with the extension `segment`, and something before it. -/
def isSegmentFile (file : String) : Bool :=
  ".segment".toList.isSuffixOf file.toList && file != ".segment"

/-- Read an index entry from the header of a file. -/
def readSegmentIndex (fs : FileSystem PathBuf) (path : PathBuf) : Option SegmentIndex :=
  match fs.read path with
  | none => none
  | some file =>
    match takeExact 20 file with
    | none => none
    | some (header, _) => some
        { path
          startTimeUs := UInt64.ofNat (ofLe (header.take 8))
          endTimeUs := UInt64.ofNat (ofLe ((header.drop 8).take 8))
          frameCount := UInt32.ofNat (ofLe (header.drop 16))
          sizeBytes := UInt64.ofNat file.length }

namespace LocalStorage

/-- The segments in one directory, in the order of the listing. -/
def scanDir (fs : FileSystem PathBuf) (listing : List PathBuf) (dir : String) :
    List SegmentIndex :=
  (listing.filter fun p => p.dir = dir && isSegmentFile p.file).filterMap (readSegmentIndex fs)

/-- Add the segments of a directory to the index, if it is one of a source. -/
def indexDir (fs : FileSystem PathBuf) (listing : List PathBuf) (index : StorageIndex)
    (dir : String) : StorageIndex :=
  match parseSourceIdFromDir dir with
  | none => index
  | some source =>
    let segments := scanDir fs listing dir
    { segments := index.segments.insert source
        (segments.insertionSort fun s s' => s.startTimeUs ≤ s'.startTimeUs)
      totalBytes := segments.foldl (fun total seg => total + seg.sizeBytes) index.totalBytes }

/-- Rebuild the index from the files of a listing. A directory without files, which would
give its source an empty list of segments, does not occur in a listing. -/
def rebuildIndex (fs : FileSystem PathBuf) (listing : List PathBuf) : StorageIndex :=
  (listing.map PathBuf.dir).dedup.foldl (indexDir fs listing) ⟨∅, 0⟩

/-- `LocalStorage::new` on a directory with files. -/
def new (config : LocalStorageConfig) (fs : FileSystem PathBuf) (listing : List PathBuf) :
    LocalStorage :=
  ⟨config, fs, rebuildIndex fs listing, ∅⟩

/-- Dropping an open segment writes out its buffer. -/
def dropWriter (st : LocalStorage) (source : SourceId) : LocalStorage :=
  match st.writers.lookup source with
  | some writer =>
    { st with fs := (writer.file.flush st.fs).1, writers := st.writers.erase source }
  | none => st

/-- Dropping the storage. -/
def dropWriters (st : LocalStorage) : LocalStorage := st.writers.keys.foldl dropWriter st

end LocalStorage

/-! ## What the scan finds -/

theorem hexByte_hexDigit :
    ∀ m n : Fin 16, hexByte (hexDigit m) (hexDigit n) = some (UInt8.ofNat (16 * m + n)) := by
  decide +kernel

/-- A directory name is read back as the source it was made from. -/
theorem parseSourceIdFromDir_display (source : SourceId) :
    parseSourceIdFromDir source.display = some source := by
  obtain ⟨bytes, hlen⟩ := source
  have hpairs : ∀ bs : Bytes,
      parseHexPairs (bs.flatMap fun b => [hexDigit (b.toNat / 16), hexDigit (b.toNat % 16)]) =
        some bs := by
    intro bs
    induction bs with
    | nil => rfl
    | cons b bs ih =>
      have hb := b.toNat_lt
      have hdigits := hexByte_hexDigit ⟨b.toNat / 16, by omega⟩ ⟨b.toNat % 16, by omega⟩
      rw [Nat.div_add_mod, UInt8.ofNat_toNat] at hdigits
      show (hexByte (hexDigit (b.toNat / 16)) (hexDigit (b.toNat % 16))).bind
        (fun b => (parseHexPairs (bs.flatMap _)).map fun bs => b :: bs) = _
      rw [hdigits, Option.bind_some, ih]
      rfl
  rw [parseSourceIdFromDir, SourceId.display, String.toList_ofList, hpairs]
  exact dif_pos hlen

theorem isSegmentFile_segment (n : UInt64) : isSegmentFile s!"{n}.segment" = true := by
  have hname := segmentFile_toList n
  have hsuffix : ".segment".toList.isSuffixOf (s!"{n}.segment").toList = true := by
    rw [List.isSuffixOf_iff_suffix, hname]
    exact List.suffix_append _ _
  have hstem : (s!"{n}.segment" != ".segment") = true := by
    refine bne_iff_ne.mpr fun heq => ?_
    rw [heq] at hname
    have hlen := congrArg List.length hname
    rw [List.length_append] at hlen
    have := Nat.length_toDigits_pos (b := 10) (n := n.toNat)
    omega
  rw [isSegmentFile, hsuffix, hstem]
  rfl

/-- What the scan reads of a file that is long enough. -/
theorem readSegmentIndex_of_read {fs : FileSystem PathBuf} {path : PathBuf}
    {header body : Bytes} (hread : fs.read path = some (header ++ body))
    (hheader : header.length = 20) :
    readSegmentIndex fs path = some
      { path
        startTimeUs := UInt64.ofNat (ofLe (header.take 8))
        endTimeUs := UInt64.ofNat (ofLe ((header.drop 8).take 8))
        frameCount := UInt32.ofNat (ofLe (header.drop 16))
        sizeBytes := UInt64.ofNat (header ++ body).length } := by
  simp only [readSegmentIndex, hread, takeExact_append body hheader]

/-- Sorting by a key into groups and taking one group after the other rearranges a list. -/
theorem perm_flatMap_filter {α β : Type} [DecidableEq β] (key : α → β) (l : List α) :
    ∀ keys : List β, keys.Nodup →
      (keys.flatMap fun k => l.filter fun a => key a = k).Perm (l.filter fun a => key a ∈ keys)
  | [], _ => by
    rw [List.filter_eq_nil_iff.mpr fun a _ => by simp]
    exact .refl _
  | k :: keys, hnodup => by
    obtain ⟨hk, hnodup⟩ := List.nodup_cons.mp hnodup
    have hrest := perm_flatMap_filter key l keys hnodup
    rw [List.flatMap_cons]
    refine (hrest.append_left _).trans (.trans (.of_eq ?_) (List.filter_append_perm
      (fun a => key a = k) (l.filter fun a => key a ∈ k :: keys)))
    rw [List.filter_filter, List.filter_filter]
    congr 1 <;> refine List.filter_congr fun a _ => ?_
    · by_cases ha : key a = k <;> simp [ha]
    · by_cases ha : key a = k
      · simp [ha, hk]
      · simp [ha]

/-- Mapping what is found for every element of a list. -/
theorem map_filterMap_of_some {α β γ : Type} {f : α → Option β} {g : β → γ} {g' : α → γ}
    {l : List α} (h : ∀ a ∈ l, ∃ b, f a = some b ∧ g b = g' a) :
    (l.filterMap f).map g = l.map g' := by
  induction l with
  | nil => rfl
  | cons a l ih =>
    obtain ⟨b, hb, hg⟩ := h a List.mem_cons_self
    rw [List.filterMap_cons_some hb, List.map_cons, List.map_cons, hg,
      ih fun a' ha' => h a' (List.mem_cons_of_mem _ ha')]

namespace LocalStorage

variable {fs : FileSystem PathBuf} {listing : List PathBuf} {config : LocalStorageConfig}
  {source : SourceId}

/-- What the scan reads of a file is at the file's path, with the file's length. -/
theorem of_readSegmentIndex {p : PathBuf} {seg : SegmentIndex}
    (h : readSegmentIndex fs p = some seg) :
    seg.path = p ∧ seg.sizeBytes = UInt64.ofNat (fs.fileLength p) := by
  unfold readSegmentIndex at h
  split at h
  · cases h
  · next file hread =>
    split at h
    · cases h
    · obtain rfl := Option.some.inj h
      obtain ⟨i, hi, rfl⟩ := Option.map_eq_some_iff.mp hread
      have hlen : fs.fileLength p = (fs.data i).length := HashMap.sumAt_of_lookup hi
      exact ⟨rfl, congrArg UInt64.ofNat hlen.symm⟩

/-- Every listed file is a segment file in the directory of a source, and can be read. -/
def Scannable (fs : FileSystem PathBuf) (listing : List PathBuf) : Prop :=
  ∀ p ∈ listing, (∃ source : SourceId, p.dir = source.display) ∧ isSegmentFile p.file = true ∧
    (readSegmentIndex fs p).isSome

theorem Scannable.dirs (h : Scannable fs listing) :
    ∀ dir ∈ (listing.map PathBuf.dir).dedup, ∃ source : SourceId, dir = source.display := by
  intro dir hdir
  obtain ⟨p, hp, rfl⟩ := List.mem_map.mp (List.mem_dedup.mp hdir)
  exact (h p hp).1

theorem scanDir_eq (h : Scannable fs listing) (dir : String) :
    scanDir fs listing dir =
      (listing.filter fun p => p.dir = dir).filterMap (readSegmentIndex fs) := by
  rw [scanDir]
  congr 1
  refine List.filter_congr fun p hp => ?_
  rw [(h p hp).2.1, Bool.and_true]

theorem mem_scanDir (h : Scannable fs listing) {dir : String} {seg : SegmentIndex} :
    seg ∈ scanDir fs listing dir ↔
      seg.path ∈ listing ∧ seg.path.dir = dir ∧ readSegmentIndex fs seg.path = some seg := by
  rw [scanDir_eq h, List.mem_filterMap]
  constructor
  · rintro ⟨p, hp, hread⟩
    obtain rfl := (of_readSegmentIndex hread).1
    obtain ⟨hmem, hdir⟩ := List.mem_filter.mp hp
    exact ⟨hmem, of_decide_eq_true hdir, hread⟩
  · rintro ⟨hmem, hdir, hread⟩
    exact ⟨seg.path, List.mem_filter.mpr ⟨hmem, decide_eq_true hdir⟩, hread⟩

/-- A scanned entry is at the path it was read from. -/
theorem map_path_scanDir (h : Scannable fs listing) (dir : String) :
    (scanDir fs listing dir).map SegmentIndex.path = listing.filter fun p => p.dir = dir := by
  rw [scanDir_eq h]
  refine Eq.trans (map_filterMap_of_some fun p hp => ?_) (List.map_id _)
  obtain ⟨seg, hseg⟩ := Option.isSome_iff_exists.mp (h p (List.mem_of_mem_filter hp)).2.2
  exact ⟨seg, hseg, (of_readSegmentIndex hseg).1⟩

/-- The scan gives a source the segments of its directory. -/
theorem lookup_foldl_indexDir (source : SourceId) (dirs : List String)
    (hdirs : ∀ dir ∈ dirs, ∃ source : SourceId, dir = source.display) (index : StorageIndex) :
    (dirs.foldl (indexDir fs listing) index).segments.lookup source =
      if source.display ∈ dirs then some ((scanDir fs listing source.display).insertionSort
        fun s s' => s.startTimeUs ≤ s'.startTimeUs)
      else index.segments.lookup source := by
  induction dirs generalizing index with
  | nil => rfl
  | cons dir dirs ih =>
    obtain ⟨owner, rfl⟩ := hdirs dir List.mem_cons_self
    rw [List.foldl_cons, ih fun dir hdir => hdirs dir (List.mem_cons_of_mem _ hdir), indexDir,
      parseSourceIdFromDir_display]
    by_cases hrest : source.display ∈ dirs
    · rw [if_pos hrest, if_pos (List.mem_cons_of_mem _ hrest)]
    · rw [if_neg hrest]
      show (index.segments.insert owner _).lookup source = _
      rw [HashMap.lookup_insert_ite]
      by_cases howner : source = owner
      · rw [if_pos howner, howner, if_pos List.mem_cons_self]
      · have hdir : source.display ∉ owner.display :: dirs := fun hmem =>
          (List.mem_cons.mp hmem).elim (fun heq => howner (SourceId.display_injective heq)) hrest
        rw [if_neg howner, if_neg hdir]

/-- The entries of a reopened storage. -/
theorem segmentsOf_new (h : Scannable fs listing) (source : SourceId) :
    (new config fs listing).segmentsOf source =
      (scanDir fs listing source.display).insertionSort
        fun s s' => s.startTimeUs ≤ s'.startTimeUs := by
  rw [segmentsOf]
  show ((rebuildIndex fs listing).segments.lookup source).getD [] = _
  rw [rebuildIndex, lookup_foldl_indexDir source _ h.dirs]
  split
  · rfl
  · next hnone =>
    have hempty : scanDir fs listing source.display = [] := by
      refine List.eq_nil_iff_forall_not_mem.mpr fun seg hseg => hnone ?_
      obtain ⟨hmem, hdir, -⟩ := (mem_scanDir h).mp hseg
      exact List.mem_dedup.mpr (List.mem_map.mpr ⟨_, hmem, hdir⟩)
    rw [hempty]
    rfl

/-- The scan adds up the lengths of the files it indexes. -/
theorem totalBytes_foldl_indexDir (dirs : List String)
    (hdirs : ∀ dir ∈ dirs, ∃ source : SourceId, dir = source.display) (index : StorageIndex) :
    (dirs.foldl (indexDir fs listing) index).totalBytes = index.totalBytes +
      UInt64.ofNat (((dirs.flatMap (scanDir fs listing)).map
        fun seg => fs.fileLength seg.path).sum) := by
  -- one directory adds the sizes of its entries
  have hdir : ∀ (segments : List SegmentIndex) (total : UInt64),
      (∀ seg ∈ segments, seg.sizeBytes = UInt64.ofNat (fs.fileLength seg.path)) →
      segments.foldl (fun total seg => total + seg.sizeBytes) total =
        total + UInt64.ofNat ((segments.map fun seg => fs.fileLength seg.path).sum) := by
    intro segments
    induction segments with
    | nil => exact fun total _ => (UInt64.add_zero total).symm
    | cons seg segments ih =>
      intro total hsizes
      rw [List.foldl_cons, ih _ fun s hs => hsizes s (List.mem_cons_of_mem _ hs),
        hsizes seg List.mem_cons_self, List.map_cons, List.sum_cons, UInt64.ofNat_add,
        UInt64.add_assoc]
  induction dirs generalizing index with
  | nil => exact (UInt64.add_zero _).symm
  | cons dir dirs ih =>
    obtain ⟨owner, rfl⟩ := hdirs dir List.mem_cons_self
    rw [List.foldl_cons, ih fun dir hdir => hdirs dir (List.mem_cons_of_mem _ hdir), indexDir,
      parseSourceIdFromDir_display]
    dsimp only
    rw [hdir, List.flatMap_cons, List.map_append, List.sum_append, UInt64.ofNat_add,
      UInt64.add_assoc]
    intro seg hseg
    obtain ⟨p, -, hread⟩ := List.mem_filterMap.mp hseg
    obtain ⟨rfl, hsize⟩ := of_readSegmentIndex hread
    exact hsize

/-- A reopened storage counts every file. -/
theorem usageBytes_new (h : Scannable fs listing) (hlisting : listing.Perm fs.names.keys) :
    (new config fs listing).usageBytes =
      UInt64.ofNat (HashMap.sumOver (fun _ i => (fs.data i).length) fs.names) := by
  let dirs := (listing.map PathBuf.dir).dedup
  -- every listed file is read, so the lengths of the entries are those of the files
  have hscan : ∀ dir, (scanDir fs listing dir).map (fun seg => fs.fileLength seg.path) =
      (listing.filter fun p => p.dir = dir).map fs.fileLength := by
    intro dir
    rw [scanDir_eq h]
    refine map_filterMap_of_some fun p hp => ?_
    obtain ⟨seg, hseg⟩ := Option.isSome_iff_exists.mp (h p (List.mem_of_mem_filter hp)).2.2
    exact ⟨seg, hseg, congrArg _ (of_readSegmentIndex hseg).1⟩
  -- and every file is in one of the directories
  have hgroups : (dirs.flatMap fun dir => listing.filter fun p => p.dir = dir).Perm listing := by
    refine (perm_flatMap_filter PathBuf.dir listing dirs (List.nodup_dedup _)).trans (.of_eq ?_)
    refine List.filter_eq_self.mpr fun p hp => decide_eq_true ?_
    exact List.mem_dedup.mpr (List.mem_map_of_mem hp)
  show (rebuildIndex fs listing).totalBytes = _
  rw [rebuildIndex, totalBytes_foldl_indexDir dirs h.dirs, UInt64.zero_add, List.map_flatMap,
    HashMap.sumOver_eq_sum_keys hlisting]
  have hmap : (dirs.flatMap fun dir => (scanDir fs listing dir).map fun seg =>
      fs.fileLength seg.path) =
      (dirs.flatMap fun dir => listing.filter fun p => p.dir = dir).map fs.fileLength := by
    rw [List.map_flatMap]
    exact List.flatMap_congr fun dir _ => hscan dir
  rw [hmap, (hgroups.map _).sum_nat]
  rfl

/-- Dropping an open segment forgets the writer of that source and no other. -/
theorem lookup_dropWriter (st : LocalStorage) (source k : SourceId) :
    (st.dropWriter source).writers.lookup k =
      if k = source then none else st.writers.lookup k := by
  rw [dropWriter]
  split
  · exact HashMap.lookup_erase_ite _ _ _
  · next hnone =>
    split
    · next hk => rw [hk, hnone]
    · rfl

end LocalStorage

namespace Recording

/-! ## Dropping and reopening a recording -/

variable {C : Type} {frame : C → Frame} {r r' : Recording C} {source : SourceId}
  {writer : SegmentWriter} {timestampUs : UInt64} {config : LocalStorageConfig}
  {listing : List PathBuf}

/-- Dropping the open segment of a source. -/
def release (r : Recording C) (source : SourceId) : Recording C :=
  { r with storage := r.storage.dropWriter source }

/-- Dropping the storage. -/
def drop (r : Recording C) : Recording C := { r with storage := r.storage.dropWriters }

/-- Dropping the storage and opening its directory again. -/
def reopen (config : LocalStorageConfig) (r : Recording C) (listing : List PathBuf) :
    Recording C :=
  { r with storage := .new config r.drop.storage.fs listing }

theorem release_retires (h : r.storage.writers.lookup source = some writer) :
    Retires r (r.release source) source writer (List.replicate 20 0) := by
  have hrelease : (r.release source).storage = { r.storage with
      fs := (writer.file.flush r.storage.fs).1
      writers := r.storage.writers.erase source } := by
    show r.storage.dropWriter source = _
    rw [LocalStorage.dropWriter, h]
  refine ⟨h, ?_, ?_, List.length_replicate, fun body hholds => ?_, rfl⟩ <;> rw [hrelease]
  · exact BufWriter.flush_sameBut writer.file r.storage.fs
  · exact BufWriter.flush_data hholds

theorem release_of_none (h : r.storage.writers.lookup source = none) :
    r.release source = r := by
  rw [release, LocalStorage.dropWriter, h]

theorem drop_eq (r : Recording C) : r.drop = r.storage.writers.keys.foldl release r := by
  have hfold : ∀ (sources : List SourceId) (r : Recording C),
      sources.foldl release r =
        { r with storage := sources.foldl LocalStorage.dropWriter r.storage } := by
    intro sources
    induction sources with
    | nil => intro r; rfl
    | cons source sources ih => exact fun r => ih (r.release source)
  exact (hfold _ r).symm

/-- The open segments of some sources are given up: their files keep the header of zeros, the
closed ones stay as they are. -/
structure Released (frame : C → Frame) (r r' : Recording C) (sources : List SourceId) : Prop where
  faithful : Faithful frame r'
  names : r'.storage.fs.names = r.storage.fs.names
  closed : ∀ i, r.Closed i → r'.storage.fs.data i = r.storage.fs.data i
  opened : ∀ source ∈ sources, ∀ writer, r.storage.writers.lookup source = some writer →
    r'.storage.fs.data writer.inode = List.replicate 20 0 ++ records frame (r.held writer.inode)

theorem released_foldl (h : Faithful frame r) (sources : List SourceId) :
    Released frame r (sources.foldl release r) sources := by
  induction sources generalizing r with
  | nil => exact ⟨h, rfl, fun _ _ => rfl, nofun⟩
  | cons source sources ih =>
    rw [List.foldl_cons]
    cases hlook : r.storage.writers.lookup source with
    | none =>
      rw [release_of_none hlook]
      obtain ⟨hfaithful, hnames, hclosed, hopened⟩ := ih h
      refine ⟨hfaithful, hnames, hclosed, fun k hk w hw => hopened k ?_ w hw⟩
      exact (List.mem_cons.mp hk).resolve_left (by rintro rfl; cases hlook.symm.trans hw)
    | some closing =>
      have hretires := release_retires hlook
      obtain ⟨hfaithful, hnames, hclosed, hopened⟩ := ih (h.retire hretires)
      refine ⟨hfaithful, hnames.trans hretires.same.names, fun i hi => ?_, fun k hk w hw => ?_⟩
      · have hne : i ≠ closing.inode := fun heq => hi source closing hlook heq.symm
        rw [hclosed i ((hretires.closed_iff hne).mpr hi)]
        exact hretires.same.data hne
      · by_cases hks : k = source
        · -- its file is closed now, so the rest leaves it alone
          subst hks
          obtain rfl := Option.some.inj (hlook.symm.trans hw)
          rw [hclosed _ (hretires.closed_self h)]
          exact hretires.file h
        · exact hopened k ((List.mem_cons.mp hk).resolve_left hks) w
            (hretires.lookup.mpr ⟨hks, hw⟩)

/-- A dropped storage leaves every file closed: those that were open with a header of zeros
and all their records, the others as they were. -/
theorem drop_spec (h : Faithful frame r) :
    Faithful frame r.drop ∧ (∀ i, r.drop.Closed i) ∧
      r.drop.storage.fs.names = r.storage.fs.names ∧
      (∀ i, r.Closed i → r.drop.storage.fs.data i = r.storage.fs.data i) ∧
      ∀ source writer, r.storage.writers.lookup source = some writer →
        r.drop.storage.fs.data writer.inode =
          List.replicate 20 0 ++ records frame (r.held writer.inode) := by
  obtain ⟨hfaithful, hnames, hclosed, hopened⟩ := released_foldl h r.storage.writers.keys
  rw [drop_eq]
  refine ⟨hfaithful, fun i source writer hw => ?_, hnames, hclosed, fun source writer hw => ?_⟩
  · have hforgets : ∀ (r : Recording C) source k, (r.release source).storage.writers.lookup k =
        if k = source then none else r.storage.writers.lookup k :=
      fun r source k => LocalStorage.lookup_dropWriter r.storage source k
    cases (lookup_foldl_keys hforgets r source).symm.trans hw
  · exact hopened source (HashMap.mem_keys_iff.mpr ⟨writer, hw⟩) writer hw

/-- A reopened storage has no open segments. -/
theorem lookup_reopen (config : LocalStorageConfig) (r : Recording C) (listing : List PathBuf)
    (k : SourceId) : (r.reopen config listing).storage.writers.lookup k = none :=
  AList.lookup_empty k

theorem closed_reopen (config : LocalStorageConfig) (r : Recording C) (listing : List PathBuf)
    (i : Nat) : (r.reopen config listing).Closed i := by
  intro k writer hk
  cases (lookup_reopen config r listing k).symm.trans hk

theorem Faithful.reopen (h : Faithful frame r) : Faithful frame (r.reopen config listing) where
  writer k _ hk := nomatch (lookup_reopen config r listing k).symm.trans hk
  distinct k _ _ _ hk := nomatch (lookup_reopen config r listing k).symm.trans hk
  closed p i hp _ := (drop_spec h).1.closed p i hp ((drop_spec h).2.1 i)

theorem Placed.reopen (h : Placed frame r) : Placed frame (r.reopen config listing) where
  faithful := h.faithful.reopen
  named k _ hk := nomatch (lookup_reopen config r listing k).symm.trans hk
  path_eq k _ hk := nomatch (lookup_reopen config r listing k).symm.trans hk

/-! ## What only this storage has written -/

/-- Every file is a segment file in the directory of a source, and holds frames of that
source. -/
def Shaped (frame : C → Frame) (r : Recording C) : Prop :=
  ∀ p i, r.storage.fs.names.lookup p = some i → ∃ (source : SourceId) (n : UInt64),
    p = ⟨source.display, s!"{n}.segment"⟩ ∧ ∀ c ∈ r.held i, (frame c).source = source

theorem Shaped.onEmptyRoot (config : LocalStorageConfig) :
    Shaped frame (Recording.onEmptyRoot config) :=
  fun _ _ h => nomatch (AList.lookup_empty _).symm.trans h

/-- Files can go away. -/
theorem Shaped.mono (h : Shaped frame r)
    (hnames : ∀ p i, r'.storage.fs.names.lookup p = some i → r.storage.fs.names.lookup p = some i)
    (hheld : r'.held = r.held) : Shaped frame r' := by
  intro p i hp
  rw [hheld]
  exact h p i (hnames p i hp)

theorem Shaped.close (h : Shaped frame r) (source : SourceId) : Shaped frame (r.close source) :=
  h.mono (fun p i hp => by rwa [close_names] at hp) rfl

theorem Shaped.create (h : Shaped frame r) (source : SourceId) (timestampUs : UInt64) :
    Shaped frame (r.create source timestampUs) := by
  obtain ⟨created, -, hpath, -, -, hnames, -, hkeep, hempty, -⟩ :=
    r.create_spec source timestampUs
  intro p i hp
  by_cases hi : i = created.inode
  · have hself : (r.create source timestampUs).storage.fs.names.lookup created.path =
        some created.inode := by
      rw [hnames, if_pos rfl]
    obtain rfl := FileSystem.names_inj _ _ _ _ hp (hi ▸ hself)
    refine ⟨source, r.storage.segmentStart timestampUs, hpath, fun c hc => ?_⟩
    rw [hi, hempty] at hc
    cases hc
  · rw [(hkeep i hi).2]
    rw [hnames] at hp
    split at hp
    · exact absurd (Option.some.inj hp).symm hi
    · exact h p i hp

theorem Shaped.append (h : Shaped frame r) (hfaithful : Faithful frame r) {c : C}
    (hlook : r.storage.writers.lookup (frame c).source = some writer) :
    Shaped frame (r.append frame writer c) := by
  obtain ⟨-, -, -, -, -, hsame, hkeep, hheld, -⟩ := append_spec frame r writer c
  intro p i hp
  rw [hsame.names] at hp
  obtain ⟨source, n, hpath, hsource⟩ := h p i hp
  refine ⟨source, n, hpath, ?_⟩
  by_cases hi : i = writer.inode
  · subst hi
    -- the file has the path of the open segment, which is in the directory of its source
    have hdir : source = (frame c).source := by
      apply SourceId.display_injective
      have hwriter := hfaithful.writer _ writer hlook
      rw [← hwriter.path_dir, ← hwriter.named p hp, hpath]
    rw [hheld]
    intro c' hc'
    rcases List.mem_append.mp hc' with hc' | hc'
    · exact hsource c' hc'
    · rw [List.mem_singleton.mp hc', hdir]
  · rw [hkeep i hi]
    exact hsource

theorem Shaped.store (h : Shaped frame r) (hfaithful : Faithful frame r) {c : C}
    (hstore : r.store frame c = some r') : Shaped frame r' := by
  rcases store_cases hstore with ⟨writer, hcurrent, rfl⟩ | ⟨-, _, writer, rfl, hwriter, rfl⟩
  · exact h.append hfaithful (LocalStorage.currentWriter_eq_some.mp hcurrent).1
  · have hnone : (r.close (frame c).source).storage.writers.lookup (frame c).source = none := by
      rw [lookup_close_ite, if_pos rfl]
    have hclosed := hfaithful.close (frame c).source
    exact ((h.close _).create _ _).append (hclosed.create hnone _) hwriter

theorem Shaped.flush (h : Shaped frame r) : Shaped frame r.flush :=
  flush_preserves (fun _ source h => h.close source) h

theorem flush_names (r : Recording C) : r.flush.storage.fs.names = r.storage.fs.names :=
  flush_preserves (P := fun r' => r'.storage.fs.names = r.storage.fs.names)
    (fun r' source h => (close_names r' source).trans h) rfl

/-- Reopening changes no name. -/
theorem reopen_names (h : Faithful frame r) :
    (r.reopen config listing).storage.fs.names = r.storage.fs.names :=
  (drop_spec h).2.2.1

theorem Shaped.reopen (h : Shaped frame r) (hfaithful : Faithful frame r) :
    Shaped frame (r.reopen config listing) :=
  h.mono (fun p i hp => by rwa [reopen_names hfaithful] at hp) rfl

/-- The files of a dropped storage can all be read by the scan. -/
theorem scannable_drop (h : Faithful frame r) (hshaped : Shaped frame r)
    (hlisting : listing.Perm r.storage.fs.names.keys) :
    LocalStorage.Scannable r.drop.storage.fs listing := by
  obtain ⟨hfaithful, hclosed, hnames, -⟩ := drop_spec h
  intro p hp
  obtain ⟨i, hi⟩ := HashMap.mem_keys_iff.mp (hlisting.mem_iff.mp hp)
  obtain ⟨source, n, rfl, -⟩ := hshaped p i hi
  rw [← hnames] at hi
  obtain ⟨header, hlen, hdata⟩ := hfaithful.closed _ i hi (hclosed i)
  refine ⟨⟨source, rfl⟩, isSegmentFile_segment n, ?_⟩
  have hread : r.drop.storage.fs.read ⟨source.display, s!"{n}.segment"⟩ =
      some (header ++ records frame (r.held i)) := by
    rw [FileSystem.read, hi]
    exact congrArg some hdata
  rw [readSegmentIndex_of_read hread hlen]
  rfl

/-- The reopened index has of each source what the scan finds in its directory. -/
theorem segmentsOf_reopen (h : Faithful frame r) (hshaped : Shaped frame r)
    (hlisting : listing.Perm r.storage.fs.names.keys) (source : SourceId) :
    ((r.reopen config listing).storage.segmentsOf source).Perm
      (LocalStorage.scanDir r.drop.storage.fs listing source.display) := by
  have hsegs : (r.reopen config listing).storage.segmentsOf source = _ :=
    LocalStorage.segmentsOf_new (scannable_drop h hshaped hlisting) source
  rw [hsegs]
  exact List.perm_insertionSort _ _

/-- What is done to a storage and its directory. -/
inductive Action where
  | store (frame : Frame)
  | flush
  | reopen (config : LocalStorageConfig) (listing : List PathBuf)

/-- A reopened directory lists the files that are there, in any order. -/
def act (r : Recording Frame) : Action → Option (Recording Frame)
  | .store frame => r.store id frame
  | .flush => some r.flush
  | .reopen config listing =>
    if listing.Perm r.storage.fs.names.keys then some (r.reopen config listing) else none

end Recording

end Kodama
