import Kodama.Lib.Machine
import Kodama.Storage.Local

/-!
# Recordings: a storage and what has been stored in it

`Recording` runs the storage operations and keeps a record of what goes into them: `held i`
lists what the file at inode `i` has been given since it was last emptied, `log` everything
that was ever stored. Neither is read by the storage; they are what its state is measured
against. What is stored is a `C` that yields a frame, so that users of the storage can keep
more about a frame than the storage sees.

`Faithful` says that every file and every open segment has the records of exactly what is
`held` for it. The operations are composed of three parts (closing a segment, opening one,
appending to one), each of which keeps it; so it holds in every run, deletions included.
-/

namespace Kodama

open Lib

/-- A storage, with what its files were given and everything that was stored. -/
structure Recording (C : Type) where
  storage : LocalStorage
  held : Nat → List C
  log : List C

namespace Recording

variable {C : Type} {frame : C → Frame} {r r' : Recording C} {source : SourceId}
  {writer : SegmentWriter} {timestampUs : UInt64}

def onEmptyRoot (config : LocalStorageConfig) : Recording C :=
  ⟨.onEmptyRoot config, fun _ => [], []⟩

/-- `store_frame`. The frame goes to the open segment of its window, or to a new one, which
is empty before. -/
def store (frame : C → Frame) (r : Recording C) (c : C) : Option (Recording C) :=
  match r.storage.storeFrame (frame c) with
  | .error _ => none
  | .ok storage =>
    (storage.writers.lookup (frame c).source).map fun writer =>
      { storage
        held := Function.update r.held writer.inode
          (match r.storage.currentWriter (frame c).source (frame c).timestampUs with
            | some _ => r.held writer.inode ++ [c]
            | none => [c])
        log := r.log ++ [c] }

/-- `flush`. -/
def flush (r : Recording C) : Recording C := { r with storage := r.storage.flush }

/-- `cleanup`. -/
def cleanup (r : Recording C) (beforeTimestampUs : UInt64) (unlinkFails : SourceId → Nat → Bool) :
    Recording C :=
  { r with storage := (r.storage.cleanup beforeTimestampUs unlinkFails).1 }

/-! ## The parts of an operation -/

/-- Closing the open segment of a source. -/
def close (r : Recording C) (source : SourceId) : Recording C :=
  { r with storage := r.storage.closeSegment source }

/-- Opening a segment empties its file. -/
def create (r : Recording C) (source : SourceId) (timestampUs : UInt64) : Recording C :=
  { r with
    storage := r.storage.createSegment source timestampUs
    held := Function.update r.held (r.storage.createdInode source timestampUs) [] }

/-- Appending to an open segment. -/
def append (frame : C → Frame) (r : Recording C) (writer : SegmentWriter) (c : C) :
    Recording C where
  storage := r.storage.appendRecord writer (frame c)
  held := Function.update r.held writer.inode (r.held writer.inode ++ [c])
  log := r.log ++ [c]

/-- Storing appends to the current segment, or closes the open one, opens the segment of
the new window and appends to that. -/
theorem store_cases {c : C} (h : r.store frame c = some r') :
    (∃ writer,
      r.storage.currentWriter (frame c).source (frame c).timestampUs = some writer ∧
      r' = r.append frame writer c) ∨
    (r.storage.currentWriter (frame c).source (frame c).timestampUs = none ∧
      ∃ opened writer,
        opened = (r.close (frame c).source).create (frame c).source (frame c).timestampUs ∧
        opened.storage.writers.lookup (frame c).source = some writer ∧
        r' = opened.append frame writer c) := by
  unfold store at h
  split at h
  · cases h
  · next storage hstore =>
    rcases LocalStorage.storeFrame_cases hstore with
      ⟨writer, hcurrent, hstorage⟩ | ⟨hcurrent, opened, writer, hopened, hwriter, hstorage⟩
    · obtain ⟨writer', hwriters, hinode, -, -⟩ :=
        LocalStorage.lookup_appendRecord r.storage writer (frame c)
      rw [hstorage, hwriters, AList.lookup_insert, hcurrent, Option.map_some, hinode] at h
      exact .inl ⟨writer, hcurrent, (Option.some.inj h).symm⟩
    · obtain ⟨writer', hwriters, hinode, -, -⟩ :=
        LocalStorage.lookup_appendRecord opened writer (frame c)
      rw [hstorage, hwriters, AList.lookup_insert, hcurrent, Option.map_some, hinode] at h
      subst hopened
      refine .inr ⟨hcurrent, (r.close (frame c).source).create (frame c).source
        (frame c).timestampUs, writer, rfl, hwriter, ?_⟩
      have hcreated : writer.inode = _ := LocalStorage.createSegment_inode hwriter
      -- what the new segment holds starts from nothing, whatever its file held
      rw [← Option.some.inj h, append, create]
      congr 1
      rw [← show writer.inode = (r.close (frame c).source).storage.createdInode _ _ from hcreated]
      show Function.update r.held writer.inode [c] =
        Function.update (Function.update r.held writer.inode []) writer.inode
          (Function.update r.held writer.inode [] writer.inode ++ [c])
      rw [Function.update_self, Function.update_idem, List.nil_append]

theorem store_log {c : C} (h : r.store frame c = some r') : r'.log = r.log ++ [c] := by
  rcases store_cases h with ⟨writer, -, rfl⟩ | ⟨-, _, writer, rfl, -, rfl⟩ <;> rfl

/-! ## The files hold what was stored -/

/-- The records of some stored values. -/
def records (frame : C → Frame) (cs : List C) : Bytes := cs.flatMap fun c => encodeRecord (frame c)

/-- No writer has this file open. -/
def Closed (r : Recording C) (i : Nat) : Prop :=
  ∀ source writer, r.storage.writers.lookup source = some writer → writer.inode ≠ i

/-- The open segment of a source is in the source's directory, its file has no other name,
and its writer has been given the placeholder header and the records of what is held. -/
structure WriterFaithful (frame : C → Frame) (r : Recording C) (source : SourceId)
    (writer : SegmentWriter) : Prop where
  path_dir : writer.path.dir = source.display
  inode_lt : writer.inode < r.storage.fs.next
  named : ∀ p, r.storage.fs.names.lookup p = some writer.inode → p = writer.path
  holds : writer.file.Holds r.storage.fs
    (List.replicate 20 0 ++ records frame (r.held writer.inode))

/-- A finalized segment: a header, and the records of what is held. -/
def FileFaithful (frame : C → Frame) (r : Recording C) (i : Nat) : Prop :=
  ∃ header : Bytes, header.length = 20 ∧ r.storage.fs.data i = header ++ records frame (r.held i)

/-- No two sources write to one file. -/
def DistinctFiles (writers : HashMap SourceId SegmentWriter) : Prop :=
  ∀ source source' writer writer', writers.lookup source = some writer →
    writers.lookup source' = some writer' → writer.inode = writer'.inode → source = source'

/-- A writer may be put in where no other source writes to its file. -/
theorem DistinctFiles.insert {writers : HashMap SourceId SegmentWriter}
    (h : DistinctFiles writers)
    (hother : ∀ k w, k ≠ source → writers.lookup k = some w → w.inode ≠ writer.inode) :
    DistinctFiles (writers.insert source writer) := by
  intro k k' w w' hk hk' heq
  rcases HashMap.lookup_insert_eq_some.mp hk with ⟨hs, hw⟩ | ⟨hne, hold⟩ <;>
    rcases HashMap.lookup_insert_eq_some.mp hk' with ⟨hs', hw'⟩ | ⟨hne', hold'⟩
  · rw [hs, hs']
  · exact absurd (heq.symm.trans (congrArg _ hw)) (hother k' w' hne' hold')
  · exact absurd (heq.trans (congrArg _ hw')) (hother k w hne hold)
  · exact h k k' w w' hold hold' heq

/-- Open segments and finalized files hold what was stored. -/
structure Faithful (frame : C → Frame) (r : Recording C) : Prop where
  writer : ∀ source writer, r.storage.writers.lookup source = some writer →
    WriterFaithful frame r source writer
  distinct : DistinctFiles r.storage.writers
  closed : ∀ p i, r.storage.fs.names.lookup p = some i → r.Closed i → FileFaithful frame r i

/-- A writer whose file an operation leaves alone stays faithful. -/
theorem WriterFaithful.mono (h : WriterFaithful frame r source writer)
    (hnext : r.storage.fs.next ≤ r'.storage.fs.next)
    (hnames : ∀ p, r'.storage.fs.names.lookup p = some writer.inode →
      r.storage.fs.names.lookup p = some writer.inode)
    (hdata : r'.storage.fs.data writer.inode = r.storage.fs.data writer.inode)
    (hheld : r'.held writer.inode = r.held writer.inode) :
    WriterFaithful frame r' source writer where
  path_dir := h.path_dir
  inode_lt := Nat.lt_of_lt_of_le h.inode_lt hnext
  named p hp := h.named p (hnames p hp)
  holds := by
    rw [hheld]
    exact ⟨h.holds.pos.trans (congrArg List.length hdata.symm), hdata ▸ h.holds.data⟩

theorem FileFaithful.mono {i : Nat} (h : FileFaithful frame r i)
    (hdata : r'.storage.fs.data i = r.storage.fs.data i) (hheld : r'.held i = r.held i) :
    FileFaithful frame r' i := by
  rw [FileFaithful, hdata, hheld]
  exact h

theorem Faithful.onEmptyRoot (config : LocalStorageConfig) :
    Faithful frame (Recording.onEmptyRoot config) where
  writer _ _ h := absurd ((AList.lookup_empty _).symm.trans h) (by simp)
  distinct _ _ _ _ h := absurd ((AList.lookup_empty _).symm.trans h) (by simp)
  closed _ _ h := absurd ((AList.lookup_empty _).symm.trans h) (by simp)

theorem lookup_close_ite (r : Recording C) (source k : SourceId) :
    (r.close source).storage.writers.lookup k =
      if k = source then none else r.storage.writers.lookup k :=
  LocalStorage.lookup_closeSegment _ _ _

/-- Closing a source's segment keeps every other writer. -/
theorem lookup_close {k : SourceId} :
    (r.close source).storage.writers.lookup k = some writer ↔
      k ≠ source ∧ r.storage.writers.lookup k = some writer := by
  rw [lookup_close_ite]
  split <;> simp_all

theorem close_names (r : Recording C) (source : SourceId) :
    (r.close source).storage.fs.names = r.storage.fs.names :=
  LocalStorage.closeSegment_names _ _

theorem segmentPath_close (r : Recording C) (source k : SourceId) (timestampUs : UInt64) :
    (r.close source).storage.segmentPath k timestampUs = r.storage.segmentPath k timestampUs := by
  rw [LocalStorage.segmentPath, LocalStorage.segmentStart,
    show (r.close source).storage.config = r.storage.config from
      LocalStorage.closeSegment_config _ _]
  rfl

theorem segmentsOf_close (h : r.storage.writers.lookup source = some writer) (k : SourceId) :
    (r.close source).storage.segmentsOf k =
      if k = source then r.storage.segmentsOf source ++ [writer.segIndex]
      else r.storage.segmentsOf k :=
  LocalStorage.segmentsOf_closeSegment h k

theorem mem_segmentsOf_close {k : SourceId} {seg : SegmentIndex} :
    seg ∈ (r.close source).storage.segmentsOf k ↔ seg ∈ r.storage.segmentsOf k ∨
      ∃ closing, r.storage.writers.lookup source = some closing ∧ k = source ∧
        seg = closing.segIndex := by
  cases hlook : r.storage.writers.lookup source with
  | none =>
    rw [close, LocalStorage.closeSegment_of_none hlook]
    exact (or_iff_left fun ⟨_, h, _⟩ => nomatch h).symm
  | some closing =>
    rw [segmentsOf_close hlook]
    split
    · next hk =>
      rw [List.mem_append, List.mem_singleton, hk]
      exact or_congr_right ⟨fun h => ⟨closing, rfl, rfl, h⟩,
        fun ⟨_, hc, _, h⟩ => Option.some.inj hc ▸ h⟩
    · next hk => exact (or_iff_left fun ⟨_, _, h, _⟩ => hk h).symm

/-- The open segment of a source is given up: its file gets a header before the records its
writer has been given, and nothing else changes. -/
structure Retires (r r' : Recording C) (source : SourceId) (writer : SegmentWriter)
    (header : Bytes) : Prop where
  open_before : r.storage.writers.lookup source = some writer
  writers : r'.storage.writers = r.storage.writers.erase source
  same : r.storage.fs.SameBut r'.storage.fs writer.inode
  header_length : header.length = 20
  data : ∀ body, writer.file.Holds r.storage.fs (List.replicate 20 0 ++ body) →
    r'.storage.fs.data writer.inode = header ++ body
  held : r'.held = r.held

theorem close_retires (h : r.storage.writers.lookup source = some writer) :
    Retires r (r.close source) source writer (segmentHeader writer) where
  open_before := h
  writers := by
    rw [Recording.close, LocalStorage.closeSegment_of_some h]
    rfl
  same := LocalStorage.closeSegment_sameBut h
  header_length := segmentHeader_length writer
  data _ hholds := LocalStorage.closeSegment_data h hholds
  held := rfl

section Retires

variable {header : Bytes} (hr : Retires r r' source writer header)
include hr

theorem Retires.lookup {k : SourceId} {w : SegmentWriter} :
    r'.storage.writers.lookup k = some w ↔ k ≠ source ∧ r.storage.writers.lookup k = some w := by
  rw [hr.writers, HashMap.lookup_erase_ite]
  split <;> simp_all

theorem Retires.file (h : Faithful frame r) :
    r'.storage.fs.data writer.inode = header ++ records frame (r'.held writer.inode) := by
  rw [hr.held]
  exact hr.data _ (h.writer source writer hr.open_before).holds

theorem Retires.closed_self (h : Faithful frame r) : r'.Closed writer.inode := by
  intro k w hk heq
  obtain ⟨hne, hk⟩ := hr.lookup.mp hk
  exact hne (h.distinct k source w writer hk hr.open_before heq)

theorem Retires.closed_iff {i : Nat} (hi : i ≠ writer.inode) :
    r'.Closed i ↔ r.Closed i := by
  refine ⟨fun hclosed k w hk heq => ?_, fun hclosed k w hk => hclosed k w (hr.lookup.mp hk).2⟩
  by_cases hks : k = source
  · subst hks
    obtain rfl := Option.some.inj (hk.symm.trans hr.open_before)
    exact hi heq.symm
  · exact hclosed k w (hr.lookup.mpr ⟨hks, hk⟩) heq

theorem Faithful.retire (h : Faithful frame r) : Faithful frame r' := by
  constructor
  · intro k w hk
    obtain ⟨hne, hk⟩ := hr.lookup.mp hk
    have hinode : w.inode ≠ writer.inode :=
      fun heq => hne (h.distinct k source w writer hk hr.open_before heq)
    refine (h.writer k w hk).mono (Nat.le_of_eq hr.same.next.symm) (fun p hp => ?_)
      (hr.same.data hinode) (congrFun hr.held _)
    rwa [hr.same.names] at hp
  · intro k k' w w' hk hk'
    exact h.distinct k k' w w' (hr.lookup.mp hk).2 (hr.lookup.mp hk').2
  · intro p i hp hclosed
    rw [hr.same.names] at hp
    by_cases hi : i = writer.inode
    · subst hi
      exact ⟨header, hr.header_length, hr.file h⟩
    · exact (h.closed p i hp ((hr.closed_iff hi).mp hclosed)).mono (hr.same.data hi)
        (congrFun hr.held i)

end Retires

theorem Faithful.close (h : Faithful frame r) (source : SourceId) :
    Faithful frame (r.close source) := by
  cases hlook : r.storage.writers.lookup source with
  | none =>
    rw [Recording.close, LocalStorage.closeSegment_of_none hlook]
    exact h
  | some closing => exact h.retire (close_retires hlook)

/-- The open segments of the other sources are not the file a segment is opened on. -/
theorem Faithful.createdInode_ne (h : Faithful frame r) {k : SourceId}
    (hk : r.storage.writers.lookup k = some writer) (hne : k ≠ source) :
    r.storage.createdInode source timestampUs ≠ writer.inode := by
  have hwriter := h.writer k writer hk
  refine FileSystem.create_inode_ne (fun hp => hne ?_) hwriter.inode_lt
  apply SourceId.display_injective
  rw [← hwriter.path_dir, ← hwriter.named _ hp]
  rfl

/-- What opening a segment does: the source gets a writer on the file of the segment's path,
which holds nothing yet; no other name, file or writer changes. -/
theorem create_spec (r : Recording C) (source : SourceId) (timestampUs : UInt64) :
    ∃ created : SegmentWriter,
      created.inode = r.storage.createdInode source timestampUs ∧
      created.path = r.storage.segmentPath source timestampUs ∧
      created.startTimeUs = timestampUs ∧
      (r.create source timestampUs).storage.writers = r.storage.writers.insert source created ∧
      (∀ p, (r.create source timestampUs).storage.fs.names.lookup p =
        if p = created.path then some created.inode else r.storage.fs.names.lookup p) ∧
      r.storage.fs.next ≤ (r.create source timestampUs).storage.fs.next ∧
      (∀ i, i ≠ created.inode →
        (r.create source timestampUs).storage.fs.data i = r.storage.fs.data i ∧
        (r.create source timestampUs).held i = r.held i) ∧
      (r.create source timestampUs).held created.inode = [] ∧
      created.file.Holds (r.create source timestampUs).storage.fs (List.replicate 20 0) := by
  obtain ⟨created, hwriters, hpath, hstart, hinode, hholds, hsame⟩ :=
    LocalStorage.createSegment_spec r.storage source timestampUs
  have hnames : (r.create source timestampUs).storage.fs.names =
      (r.storage.fs.create (r.storage.segmentPath source timestampUs)).1.names := hsame.names
  have hnext : (r.create source timestampUs).storage.fs.next =
      (r.storage.fs.create (r.storage.segmentPath source timestampUs)).1.next := hsame.next
  refine ⟨created, hinode, hpath, hstart, hwriters, fun p => ?_, ?_, fun i hi => ⟨?_, ?_⟩, ?_,
    hholds⟩
  · rw [hnames, FileSystem.lookup_create, hpath, hinode]
    rfl
  · rw [hnext]
    exact FileSystem.create_next _ _
  · rw [hinode] at hi
    exact (hsame.data hi).trans (congrArg Inode.data (FileSystem.create_inodes hi))
  · rw [hinode] at hi
    exact Function.update_of_ne hi _ _
  · rw [hinode]
    exact Function.update_self _ _ _

theorem closed_create_iff (hnone : r.storage.writers.lookup source = none) {i : Nat}
    (hi : i ≠ r.storage.createdInode source timestampUs) :
    (r.create source timestampUs).Closed i ↔ r.Closed i := by
  obtain ⟨created, hinode, -, -, hwriters, -⟩ := r.create_spec source timestampUs
  rw [Closed, hwriters]
  constructor
  · intro h k w hk
    refine h k w (HashMap.lookup_insert_eq_some.mpr (.inr ⟨?_, hk⟩))
    rintro rfl
    cases hnone.symm.trans hk
  · intro h k w hk
    rcases HashMap.lookup_insert_eq_some.mp hk with ⟨-, rfl⟩ | ⟨-, hk⟩
    · rw [hinode]
      exact hi.symm
    · exact h k w hk

/-- The writer of a segment that has just been opened. -/
theorem writer_create
    (h : (r.create source timestampUs).storage.writers.lookup source = some writer) :
    writer.path = r.storage.segmentPath source timestampUs ∧ writer.startTimeUs = timestampUs := by
  obtain ⟨created, -, hpath, hstart, hwriters, -⟩ := r.create_spec source timestampUs
  rw [hwriters, AList.lookup_insert] at h
  obtain rfl := Option.some.inj h
  exact ⟨hpath, hstart⟩

/-- A file with another name is not the one a segment is opened on. -/
theorem ne_createdInode {p : PathBuf} {i : Nat} (hp : r.storage.fs.names.lookup p = some i)
    (hne : p ≠ r.storage.segmentPath source timestampUs) :
    i ≠ r.storage.createdInode source timestampUs :=
  (FileSystem.create_inode_ne (fun h => hne (r.storage.fs.names_inj _ _ _ hp h))
    (r.storage.fs.named_lt p i hp)).symm

/-- Opening a segment on a path without a file leaves every named file as it is. -/
theorem create_keeps
    (hpath : r.storage.fs.names.lookup (r.storage.segmentPath source timestampUs) = none)
    {p : PathBuf} {i : Nat} (hp : r.storage.fs.names.lookup p = some i) :
    (r.create source timestampUs).storage.fs.names.lookup p = some i ∧
      i ≠ r.storage.createdInode source timestampUs ∧
      (r.create source timestampUs).held i = r.held i := by
  obtain ⟨created, hinode, hcreated, -, -, hnames, -, hheld, -⟩ :=
    r.create_spec source timestampUs
  have hne : p ≠ r.storage.segmentPath source timestampUs := by
    rintro rfl
    cases hpath.symm.trans hp
  have hi := ne_createdInode hp hne
  rw [hnames, hcreated, if_neg hne]
  exact ⟨hp, hi, (hheld i (hinode ▸ hi)).2⟩

/-- Opening a segment for a source that has none. -/
theorem Faithful.create (h : Faithful frame r) (hnone : r.storage.writers.lookup source = none)
    (timestampUs : UInt64) : Faithful frame (r.create source timestampUs) := by
  obtain ⟨created, hinode, hpath, -, hwriters, hnames, hnext, hkeep, hheld, hholds⟩ :=
    r.create_spec source timestampUs
  have hother : ∀ k writer, k ≠ source → r.storage.writers.lookup k = some writer →
      writer.inode ≠ created.inode := by
    intro k writer hne hk heq
    exact h.createdInode_ne hk hne (hinode.symm.trans heq.symm)
  have hnamed : (r.create source timestampUs).storage.fs.names.lookup created.path =
      some created.inode := by
    rw [hnames, if_pos rfl]
  constructor
  · intro k writer hk
    rw [hwriters] at hk
    rcases HashMap.lookup_insert_eq_some.mp hk with ⟨rfl, rfl⟩ | ⟨hne, hk⟩
    · refine ⟨by rw [hpath]; rfl, FileSystem.named_lt _ _ _ hnamed,
        fun p hp => FileSystem.names_inj _ _ _ _ hp hnamed, ?_⟩
      rw [hheld]
      exact hholds
    · have hi := hother k writer hne hk
      refine (h.writer k writer hk).mono hnext (fun p hp => ?_) (hkeep _ hi).1 (hkeep _ hi).2
      rw [hnames] at hp
      split at hp
      · exact absurd (Option.some.inj hp).symm hi
      · exact hp
  · rw [hwriters]
    exact h.distinct.insert hother
  · intro p i hp hclosed
    -- a closed file is not the new one, and was closed before
    have hi : i ≠ created.inode := by
      refine fun heq => hclosed source created ?_ heq.symm
      rw [hwriters, AList.lookup_insert]
    rw [hnames] at hp
    split at hp
    · exact absurd (Option.some.inj hp).symm hi
    · have hclosed := (closed_create_iff hnone (hinode ▸ hi)).mp hclosed
      exact (h.closed p i hp hclosed).mono (hkeep i hi).1 (hkeep i hi).2

/-- What appending does: the source's writer and the file it has open take the record; no
name and no other file or writer changes. -/
theorem append_spec (frame : C → Frame) (r : Recording C) (writer : SegmentWriter) (c : C) :
    ∃ writer' : SegmentWriter, writer'.inode = writer.inode ∧ writer'.path = writer.path ∧
      writer'.startTimeUs = writer.startTimeUs ∧
      (r.append frame writer c).storage.writers =
        r.storage.writers.insert (frame c).source writer' ∧
      r.storage.fs.SameBut (r.append frame writer c).storage.fs writer.inode ∧
      (∀ i, i ≠ writer.inode → (r.append frame writer c).held i = r.held i) ∧
      (r.append frame writer c).held writer.inode = r.held writer.inode ++ [c] ∧
      ∀ content, writer.file.Holds r.storage.fs content →
        writer'.file.Holds (r.append frame writer c).storage.fs
          (content ++ encodeRecord (frame c)) := by
  obtain ⟨hsame, hinode⟩ := LocalStorage.writeRecord_sameBut writer r.storage.fs (frame c)
  exact ⟨(LocalStorage.writeRecord writer r.storage.fs (frame c)).2, hinode, rfl, rfl, rfl, hsame,
    fun i hi => Function.update_of_ne hi _ _, Function.update_self _ _ _,
    fun content hholds => LocalStorage.writeRecord_holds hholds (frame c)⟩

theorem closed_append_iff {c : C} (hlook : r.storage.writers.lookup (frame c).source = some writer)
    {i : Nat} : (r.append frame writer c).Closed i ↔ r.Closed i := by
  obtain ⟨writer', hinode, -, -, hwriters, -⟩ := append_spec frame r writer c
  rw [Closed, hwriters]
  constructor
  · intro hclosed k w hk
    by_cases hks : k = (frame c).source
    · subst hks
      obtain rfl := Option.some.inj (hk.symm.trans hlook)
      rw [← hinode]
      exact hclosed _ writer' (AList.lookup_insert _)
    · exact hclosed k w (HashMap.lookup_insert_eq_some.mpr (.inr ⟨hks, hk⟩))
  · intro hclosed k w hk
    rcases HashMap.lookup_insert_eq_some.mp hk with ⟨-, rfl⟩ | ⟨-, hk⟩
    · rw [hinode]
      exact hclosed _ writer hlook
    · exact hclosed k w hk

theorem Faithful.append (h : Faithful frame r) {c : C}
    (hlook : r.storage.writers.lookup (frame c).source = some writer) :
    Faithful frame (r.append frame writer c) := by
  obtain ⟨writer', hinode, hpath, -, hwriters, hsame, hkeep, hheld, hholds⟩ :=
    append_spec frame r writer c
  have hwriter := h.writer _ _ hlook
  have hother : ∀ k w, k ≠ (frame c).source → r.storage.writers.lookup k = some w →
      w.inode ≠ writer.inode :=
    fun k w hne hk heq => hne (h.distinct k _ w writer hk hlook heq)
  constructor
  · intro k w hk
    rw [hwriters] at hk
    rcases HashMap.lookup_insert_eq_some.mp hk with ⟨rfl, rfl⟩ | ⟨hne, hold⟩
    · constructor
      · rw [hpath]
        exact hwriter.path_dir
      · rw [hinode, hsame.next]
        exact hwriter.inode_lt
      · intro p hp
        rw [hsame.names, hinode] at hp
        rw [hpath]
        exact hwriter.named p hp
      · rw [hinode, hheld, records, List.flatMap_append, List.flatMap_singleton,
          ← List.append_assoc]
        exact hholds _ hwriter.holds
    · have hi := hother k w hne hold
      exact (h.writer k w hold).mono (Nat.le_of_eq hsame.next.symm)
        (fun p hp => by rwa [hsame.names] at hp) (hsame.data hi) (hkeep _ hi)
  · rw [hwriters]
    refine h.distinct.insert fun k w hne hk => ?_
    rw [hinode]
    exact hother k w hne hk
  · intro p i hp hclosed
    rw [hsame.names] at hp
    -- the file appended to is open, so this is another one
    have hclosed := (closed_append_iff hlook).mp hclosed
    have hi : i ≠ writer.inode := (hclosed _ writer hlook).symm
    exact (h.closed p i hp hclosed).mono (hsame.data hi) (hkeep i hi)

/-- Storing keeps the files faithful. -/
theorem Faithful.store (h : Faithful frame r) {c : C} (hstore : r.store frame c = some r') :
    Faithful frame r' := by
  rcases store_cases hstore with ⟨writer, hcurrent, rfl⟩ | ⟨-, _, writer, rfl, hwriter, rfl⟩
  · exact h.append (LocalStorage.currentWriter_eq_some.mp hcurrent).1
  · refine ((h.close _).create ?_ _).append hwriter
    rw [lookup_close_ite, if_pos rfl]

/-- `flush` closes the open segments one after the other. -/
theorem flush_eq (r : Recording C) :
    r.flush = r.storage.writers.keys.foldl Recording.close r := by
  have hfold : ∀ (sources : List SourceId) (r : Recording C),
      sources.foldl Recording.close r =
        { r with storage := sources.foldl LocalStorage.closeSegment r.storage } := by
    intro sources
    induction sources with
    | nil => intro r; rfl
    | cons source sources ih => exact fun r => ih (r.close source)
  exact (hfold _ r).symm

/-- What every closing preserves, a flush preserves. -/
theorem flush_preserves {P : Recording C → Prop} (hclose : ∀ r source, P r → P (r.close source))
    (h : P r) : P r.flush := by
  rw [flush_eq]
  generalize r.storage.writers.keys = sources
  induction sources generalizing r with
  | nil => exact h
  | cons source sources ih => exact ih (hclose r source h)

/-- Giving up the open segments of some sources, one after the other, by any operation that
forgets the writer of the source it is for. -/
theorem lookup_foldl_ite {retire : Recording C → SourceId → Recording C}
    (hretire : ∀ r source k, (retire r source).storage.writers.lookup k =
      if k = source then none else r.storage.writers.lookup k)
    (sources : List SourceId) (r : Recording C) (k : SourceId) :
    (sources.foldl retire r).storage.writers.lookup k =
      if k ∈ sources then none else r.storage.writers.lookup k := by
  induction sources generalizing r with
  | nil => rfl
  | cons source sources ih =>
    rw [List.foldl_cons, ih, hretire]
    by_cases hk : k = source
    · simp [hk]
    · simp [hk]

/-- If that is done for all of them, none is open afterwards. -/
theorem lookup_foldl_keys {retire : Recording C → SourceId → Recording C}
    (hretire : ∀ r source k, (retire r source).storage.writers.lookup k =
      if k = source then none else r.storage.writers.lookup k)
    (r : Recording C) (k : SourceId) :
    (r.storage.writers.keys.foldl retire r).storage.writers.lookup k = none := by
  rw [lookup_foldl_ite hretire]
  split
  · rfl
  · next hk => exact AList.lookup_eq_none.mpr (mt AList.mem_keys.mp hk)

theorem Faithful.flush (h : Faithful frame r) : Faithful frame r.flush :=
  flush_preserves (fun _ source h => h.close source) h

/-- Deleting files keeps the others faithful. -/
theorem Faithful.cleanup (h : Faithful frame r) (cutoff : UInt64)
    (unlinkFails : SourceId → Nat → Bool) : Faithful frame (r.cleanup cutoff unlinkFails) := by
  obtain ⟨hinodes, hnext, hnames⟩ := r.storage.cleanup_spec cutoff unlinkFails
  have hdata : ∀ i, (r.cleanup cutoff unlinkFails).storage.fs.data i = r.storage.fs.data i :=
    fun i => congrArg Inode.data (congrFun hinodes i)
  constructor
  · intro k writer hk
    exact (h.writer k writer hk).mono (Nat.le_of_eq hnext.symm)
      (fun p hp => ((hnames p _).mp hp).1) (hdata _) rfl
  · exact h.distinct
  · intro p i hp hclosed
    exact (h.closed p i ((hnames p i).mp hp).1 hclosed).mono (hdata i) rfl

/-! ## Where the open segments are -/

/-- As long as no file is deleted, every open segment has its name, the one of the window of
its first timestamp. -/
structure Placed (frame : C → Frame) (r : Recording C) : Prop where
  faithful : Faithful frame r
  named : ∀ source writer, r.storage.writers.lookup source = some writer →
    r.storage.fs.names.lookup writer.path = some writer.inode
  path_eq : ∀ source writer, r.storage.writers.lookup source = some writer →
    writer.path = r.storage.segmentPath source writer.startTimeUs

theorem Placed.onEmptyRoot (config : LocalStorageConfig) :
    Placed frame (Recording.onEmptyRoot config) where
  faithful := .onEmptyRoot config
  named _ _ h := absurd ((AList.lookup_empty _).symm.trans h) (by simp)
  path_eq _ _ h := absurd ((AList.lookup_empty _).symm.trans h) (by simp)

theorem Placed.close (h : Placed frame r) (source : SourceId) :
    Placed frame (r.close source) where
  faithful := h.faithful.close source
  named k writer hk := by
    rw [close_names]
    exact h.named k writer (lookup_close.mp hk).2
  path_eq k writer hk := by
    rw [segmentPath_close]
    exact h.path_eq k writer (lookup_close.mp hk).2

theorem Placed.create (h : Placed frame r) (hnone : r.storage.writers.lookup source = none)
    (timestampUs : UInt64) : Placed frame (r.create source timestampUs) := by
  obtain ⟨created, -, hpath, hstart, hwriters, hnames, -⟩ := r.create_spec source timestampUs
  refine ⟨h.faithful.create hnone timestampUs, fun k writer hk => ?_, fun k writer hk => ?_⟩ <;>
    rw [hwriters] at hk <;>
    rcases HashMap.lookup_insert_eq_some.mp hk with ⟨rfl, rfl⟩ | ⟨hne, hold⟩
  · rw [hnames, if_pos rfl]
  · have hother : writer.path ≠ created.path := by
      intro heq
      refine hne (SourceId.display_injective ?_)
      rw [← (h.faithful.writer k writer hold).path_dir, heq, hpath]
      rfl
    rw [hnames, if_neg hother]
    exact h.named k writer hold
  · rw [hpath, hstart]
    rfl
  · exact h.path_eq k writer hold

theorem Placed.append (h : Placed frame r) {c : C}
    (hlook : r.storage.writers.lookup (frame c).source = some writer) :
    Placed frame (r.append frame writer c) := by
  obtain ⟨writer', hinode, hpath, hstart, hwriters, hsame, -⟩ := append_spec frame r writer c
  refine ⟨h.faithful.append hlook, fun k w hk => ?_, fun k w hk => ?_⟩ <;>
    rw [hwriters] at hk <;>
    rcases HashMap.lookup_insert_eq_some.mp hk with ⟨rfl, rfl⟩ | ⟨-, hold⟩
  · rw [hsame.names, hpath, hinode]
    exact h.named _ writer hlook
  · rw [hsame.names]
    exact h.named k w hold
  · rw [hpath, hstart]
    exact h.path_eq _ writer hlook
  · exact h.path_eq k w hold

theorem Placed.store (h : Placed frame r) {c : C} (hstore : r.store frame c = some r') :
    Placed frame r' := by
  rcases store_cases hstore with ⟨writer, hcurrent, rfl⟩ | ⟨-, _, writer, rfl, hwriter, rfl⟩
  · exact h.append (LocalStorage.currentWriter_eq_some.mp hcurrent).1
  · refine ((h.close _).create ?_ _).append hwriter
    rw [lookup_close_ite, if_pos rfl]

/-- When a segment is to be opened, no open one is at its path: the source's own, if any, is of
another window, and the others are in other directories. -/
theorem Placed.path_ne (h : Placed frame r)
    (hnone : r.storage.currentWriter source timestampUs = none) {k : SourceId}
    (hk : r.storage.writers.lookup k = some writer) :
    writer.path ≠ r.storage.segmentPath source timestampUs := by
  intro heq
  have hks : k = source := by
    apply SourceId.display_injective
    rw [← (h.faithful.writer k writer hk).path_dir, heq]
    rfl
  subst hks
  rw [h.path_eq k writer hk] at heq
  have hwindow := LocalStorage.segmentStart_eq_of_segmentPath_eq heq
  cases hnone.symm.trans (LocalStorage.currentWriter_eq_some.mpr ⟨hk, hwindow⟩)

/-- So a file at that path is finalized. -/
theorem Placed.closed_at (h : Placed frame r)
    (hnone : r.storage.currentWriter source timestampUs = none) {i : Nat}
    (hi : r.storage.fs.names.lookup (r.storage.segmentPath source timestampUs) = some i) :
    r.Closed i := by
  rintro k writer hk rfl
  exact h.path_ne hnone hk (r.storage.fs.names_inj _ _ _ (h.named k writer hk) hi)

theorem Placed.flush (h : Placed frame r) : Placed frame r.flush :=
  flush_preserves (fun _ source h => h.close source) h

end Recording

end Kodama
