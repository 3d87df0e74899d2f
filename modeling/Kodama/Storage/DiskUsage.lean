import Kodama.Storage.Recording

/-!
# Bytes on disk

How long the segment files of a recording are: the finalized ones, which no writer has open
(`finalizedBytes`), one that is open, with what is still in its buffer (`openBytes`), all that
are open (`openSegmentBytes`), and all of them (`allBytes`). In a faithful recording these are
sums of `segmentLength`, a header and the records of what is held; so each operation changes
them by what it adds to, or takes from, a single file. The writers count the same (`Counted`),
and a rotation moves it into the usage (`usage_store`).
-/

namespace Kodama

open Lib

namespace LocalStorage

/-- The bytes a file's writer, if any, has in its buffer. -/
def bufferedBytes (st : LocalStorage) (i : Nat) : Nat :=
  HashMap.sumOver (fun _ writer => if writer.inode = i then writer.file.buf.length else 0)
    st.writers

/-- The bytes of a source's open segment, its buffer included. -/
def openBytes (st : LocalStorage) (source : SourceId) : Nat :=
  match st.writers.lookup source with
  | some writer => (st.fs.data writer.inode).length + writer.file.buf.length
  | none => 0

/-- The bytes of all open segments, buffers included. -/
def openSegmentBytes (st : LocalStorage) : Nat :=
  HashMap.sumOver (fun _ writer => (st.fs.data writer.inode).length + writer.file.buf.length)
    st.writers

/-- The bytes of all segment files, buffers included. -/
def allBytes (st : LocalStorage) : Nat :=
  HashMap.sumOver (fun _ i => (st.fs.data i).length + st.bufferedBytes i) st.fs.names

end LocalStorage

namespace Recording

variable {C : Type} {frame : C → Frame} {r r' : Recording C} {source : SourceId}
  {writer : SegmentWriter} {timestampUs : UInt64} {header : Bytes}

instance (r : Recording C) (i : Nat) : Decidable (r.Closed i) :=
  decidable_of_iff (∀ e ∈ r.storage.writers.entries, e.2.inode ≠ i)
    ⟨fun h source writer hw => h ⟨source, writer⟩ (HashMap.mem_entries_iff.mpr hw),
      fun h e he => h e.1 e.2 (HashMap.mem_entries_iff.mp he)⟩

theorem exists_writer_of_not_closed {i : Nat} (h : ¬ r.Closed i) :
    ∃ source writer, r.storage.writers.lookup source = some writer ∧ writer.inode = i := by
  simpa [Closed] using h

/-- The bytes of the segment files that no writer has open. -/
def finalizedBytes (r : Recording C) : Nat :=
  HashMap.sumOver (fun _ i => if r.Closed i then (r.storage.fs.data i).length else 0)
    r.storage.fs.names

/-- A header and the records of what a file holds. -/
def segmentLength (frame : C → Frame) (r : Recording C) (i : Nat) : Nat :=
  20 + (records frame (r.held i)).length

/-- The length of a finalized file; nothing for an open one. -/
def finalizedLength (frame : C → Frame) (r : Recording C) (i : Nat) : Nat :=
  if r.Closed i then segmentLength frame r i else 0

theorem finalizedLength_of_closed {i : Nat} (h : r.Closed i) :
    finalizedLength frame r i = segmentLength frame r i :=
  if_pos h

theorem finalizedLength_of_open (h : r.storage.writers.lookup source = some writer) :
    finalizedLength frame r writer.inode = 0 :=
  if_neg fun hclosed => hclosed source writer h rfl

/-! ## Lengths in faithful recordings -/

theorem Faithful.length_closed (h : Faithful frame r) {p : PathBuf} {i : Nat}
    (hp : r.storage.fs.names.lookup p = some i) (hclosed : r.Closed i) :
    (r.storage.fs.data i).length = segmentLength frame r i := by
  obtain ⟨header, hlen, hdata⟩ := h.closed p i hp hclosed
  rw [hdata, List.length_append, hlen, segmentLength]

theorem Faithful.length_open (h : Faithful frame r)
    (hlook : r.storage.writers.lookup source = some writer) :
    (r.storage.fs.data writer.inode).length + writer.file.buf.length =
      segmentLength frame r writer.inode := by
  rw [← List.length_append, (h.writer source writer hlook).holds.data, List.length_append,
    List.length_replicate, segmentLength]

theorem openBytes_of_lookup (h : Faithful frame r)
    (hlook : r.storage.writers.lookup source = some writer) :
    r.storage.openBytes source = segmentLength frame r writer.inode := by
  rw [LocalStorage.openBytes, hlook]
  exact h.length_open hlook

theorem openBytes_of_none (hlook : r.storage.writers.lookup source = none) :
    r.storage.openBytes source = 0 := by
  rw [LocalStorage.openBytes, hlook]

/-- A file has at most one writer, so its buffered bytes are those of that writer. -/
theorem bufferedBytes_of_lookup (h : Faithful frame r)
    (hlook : r.storage.writers.lookup source = some writer) :
    r.storage.bufferedBytes writer.inode = writer.file.buf.length := by
  have herase := HashMap.sumOver_erase
    (fun _ w => if w.inode = writer.inode then w.file.buf.length else 0) r.storage.writers source
  rw [HashMap.sumAt_of_lookup hlook, if_pos rfl] at herase
  have hrest : HashMap.sumOver
      (fun _ w => if w.inode = writer.inode then w.file.buf.length else 0)
      (r.storage.writers.erase source) = 0 := by
    refine HashMap.sumOver_eq_zero fun k w hk => if_neg fun heq => ?_
    rw [HashMap.lookup_erase_ite] at hk
    split at hk
    · cases hk
    · next hne => exact hne (h.distinct k source w writer hk hlook heq)
  rw [LocalStorage.bufferedBytes, ← herase, hrest, Nat.zero_add]

theorem bufferedBytes_of_closed {i : Nat} (h : r.Closed i) : r.storage.bufferedBytes i = 0 :=
  HashMap.sumOver_eq_zero fun k w hk => if_neg (h k w hk)

theorem allBytes_eq (h : Faithful frame r) :
    r.storage.allBytes =
      HashMap.sumOver (fun _ => segmentLength frame r) r.storage.fs.names := by
  refine HashMap.sumOver_congr fun p i hp => ?_
  by_cases hclosed : r.Closed i
  · rw [bufferedBytes_of_closed hclosed, Nat.add_zero]
    exact h.length_closed hp hclosed
  · obtain ⟨source, writer, hlook, rfl⟩ := exists_writer_of_not_closed hclosed
    rw [bufferedBytes_of_lookup h hlook]
    exact h.length_open hlook

theorem finalizedBytes_eq (h : Faithful frame r) :
    r.finalizedBytes =
      HashMap.sumOver (fun _ => finalizedLength frame r) r.storage.fs.names := by
  refine HashMap.sumOver_congr fun p i hp => ?_
  rw [finalizedLength]
  split
  · next hclosed => exact h.length_closed hp hclosed
  · rfl

/-- Without open segments every file is finalized. -/
theorem finalizedBytes_eq_allBytes (h : Faithful frame r) (hclosed : ∀ i, r.Closed i) :
    r.finalizedBytes = r.storage.allBytes := by
  rw [finalizedBytes_eq h, allBytes_eq h]
  exact HashMap.sumOver_congr fun p i _ => finalizedLength_of_closed (hclosed i)

/-- A finalized file is counted. -/
theorem segmentLength_le_finalizedBytes (h : Faithful frame r) {p : PathBuf} {i : Nat}
    (hp : r.storage.fs.names.lookup p = some i) (hclosed : r.Closed i) :
    segmentLength frame r i ≤ r.finalizedBytes := by
  have hle := HashMap.sumAt_le (fun _ => finalizedLength frame r) r.storage.fs.names p
  rw [HashMap.sumAt_of_lookup hp, finalizedLength_of_closed hclosed] at hle
  rw [finalizedBytes_eq h]
  exact hle

/-! ## What the operations change -/

theorem segmentLength_congr {i : Nat} (h : r'.held i = r.held i) :
    segmentLength frame r' i = segmentLength frame r i := by
  rw [segmentLength, segmentLength, h]

/-- Giving up an open segment neither adds bytes nor takes any away. -/
theorem allBytes_retire (h : Faithful frame r) (hr : Retires r r' source writer header) :
    r'.storage.allBytes = r.storage.allBytes := by
  rw [allBytes_eq h, allBytes_eq (h.retire hr), hr.same.names]
  exact HashMap.sumOver_congr fun p i _ => segmentLength_congr (congrFun hr.held i)

/-- The open segment becomes a finalized one. -/
theorem finalizedBytes_retire (h : Faithful frame r) (hr : Retires r r' source writer header)
    (hnamed : r.storage.fs.names.lookup writer.path = some writer.inode) :
    r'.finalizedBytes = r.finalizedBytes + segmentLength frame r writer.inode := by
  have hother : ∀ p i, p ≠ writer.path → r.storage.fs.names.lookup p = some i →
      finalizedLength frame r' i = finalizedLength frame r i := by
    intro p i hp hi
    have hne : i ≠ writer.inode := by
      rintro rfl
      exact hp (r.storage.fs.names_inj _ _ _ hi hnamed)
    rw [finalizedLength, finalizedLength, segmentLength_congr (congrFun hr.held i)]
    exact if_congr (hr.closed_iff hne) rfl rfl
  have hsum := HashMap.sumOver_add_sumAt hother
  rw [HashMap.sumAt_of_lookup hnamed, HashMap.sumAt_of_lookup hnamed,
    finalizedLength_of_open hr.open_before, finalizedLength_of_closed (hr.closed_self h),
    segmentLength_congr (congrFun hr.held _), Nat.add_zero] at hsum
  rw [finalizedBytes_eq (h.retire hr), finalizedBytes_eq h, hr.same.names, hsum]

/-- Opening a segment replaces the file of its path, if there is one, by a new one: of a sum
over the files only their two terms change. -/
theorem sumOver_create (source : SourceId) (timestampUs : UInt64) {g g' : Nat → Nat}
    (h : ∀ i, i ≠ r.storage.createdInode source timestampUs → g' i = g i) :
    HashMap.sumOver (fun _ => g') (r.create source timestampUs).storage.fs.names +
        HashMap.sumAt (fun _ => g) r.storage.fs.names (r.storage.segmentPath source timestampUs) =
      HashMap.sumOver (fun _ => g) r.storage.fs.names +
        g' (r.storage.createdInode source timestampUs) := by
  obtain ⟨created, hinode, hpath, -, -, hnames, -⟩ := r.create_spec source timestampUs
  have hother : ∀ p i, p ≠ created.path → r.storage.fs.names.lookup p = some i → g' i = g i :=
    fun p i hp hi => h i (ne_createdInode hi (hpath ▸ hp))
  rw [← hpath, ← hinode]
  have hinsert := HashMap.sumOver_of_lookup_insert (g := fun _ => g') hnames
  have hchange := HashMap.sumOver_add_sumAt hother
  omega

/-- A file that a new segment is opened on is no longer finalized. -/
theorem finalizedBytes_create (h : Faithful frame r)
    (hnone : r.storage.writers.lookup source = none) (timestampUs : UInt64) :
    (r.create source timestampUs).finalizedBytes +
        HashMap.sumAt (fun _ => finalizedLength frame r) r.storage.fs.names
          (r.storage.segmentPath source timestampUs) =
      r.finalizedBytes := by
  obtain ⟨created, hinode, -, -, hwriters, -, -, hkeep, -⟩ := r.create_spec source timestampUs
  rw [finalizedBytes_eq (h.create hnone timestampUs), finalizedBytes_eq h]
  have hother : ∀ i, i ≠ r.storage.createdInode source timestampUs →
      finalizedLength frame (r.create source timestampUs) i = finalizedLength frame r i := by
    intro i hi
    rw [finalizedLength, finalizedLength, segmentLength_congr (hkeep i (hinode ▸ hi)).2]
    exact if_congr (closed_create_iff hnone hi) rfl rfl
  have hsum := sumOver_create source timestampUs hother
  have hopen : finalizedLength frame (r.create source timestampUs) created.inode = 0 := by
    have hlook : (r.create source timestampUs).storage.writers.lookup source = some created := by
      rw [hwriters, AList.lookup_insert]
    exact finalizedLength_of_open hlook
  rw [← hinode, hopen, Nat.add_zero] at hsum
  exact hsum

/-- A file that a new segment is opened on is cut down to the placeholder header. -/
theorem allBytes_create (h : Faithful frame r) (hnone : r.storage.writers.lookup source = none)
    (timestampUs : UInt64) :
    (r.create source timestampUs).storage.allBytes +
        HashMap.sumAt (fun _ => segmentLength frame r) r.storage.fs.names
          (r.storage.segmentPath source timestampUs) =
      r.storage.allBytes + 20 := by
  obtain ⟨created, hinode, -, -, -, -, -, hkeep, hempty, -⟩ := r.create_spec source timestampUs
  rw [allBytes_eq (h.create hnone timestampUs), allBytes_eq h]
  have hother : ∀ i, i ≠ r.storage.createdInode source timestampUs →
      segmentLength frame (r.create source timestampUs) i = segmentLength frame r i :=
    fun i hi => segmentLength_congr (hkeep i (hinode ▸ hi)).2
  have hsum := sumOver_create source timestampUs hother
  have hnew : segmentLength frame (r.create source timestampUs) created.inode = 20 := by
    rw [segmentLength, hempty]
    rfl
  rw [← hinode, hnew] at hsum
  exact hsum

/-- Appending makes a segment longer by the record. -/
theorem segmentLength_append (frame : C → Frame) (r : Recording C) (writer : SegmentWriter)
    (c : C) :
    segmentLength frame (r.append frame writer c) writer.inode =
      segmentLength frame r writer.inode + (encodeRecord (frame c)).length := by
  obtain ⟨-, -, -, -, -, -, -, hheld, -⟩ := append_spec frame r writer c
  rw [segmentLength, segmentLength, hheld, records, List.flatMap_append, List.flatMap_singleton,
    List.length_append, Nat.add_assoc]
  rfl

section Append

variable {c : C} (hlook : r.storage.writers.lookup (frame c).source = some writer)
include hlook

/-- Appending to an open segment touches no finalized file. -/
theorem finalizedBytes_append (h : Faithful frame r) :
    (r.append frame writer c).finalizedBytes = r.finalizedBytes := by
  obtain ⟨-, -, -, -, -, hsame, hkeep, -⟩ := append_spec frame r writer c
  rw [finalizedBytes_eq (h.append hlook), finalizedBytes_eq h, hsame.names]
  refine HashMap.sumOver_congr fun p i _ => ?_
  rw [finalizedLength, finalizedLength]
  refine (if_congr (closed_append_iff hlook) rfl rfl).trans ?_
  split
  · next hi => exact segmentLength_congr (hkeep i (hi _ writer hlook).symm)
  · rfl

/-- Appending adds the record. -/
theorem allBytes_append (h : Faithful frame r)
    (hnamed : r.storage.fs.names.lookup writer.path = some writer.inode) :
    (r.append frame writer c).storage.allBytes =
      r.storage.allBytes + (encodeRecord (frame c)).length := by
  obtain ⟨-, -, -, -, -, hsame, hkeep, -⟩ := append_spec frame r writer c
  have hother : ∀ p i, p ≠ writer.path → r.storage.fs.names.lookup p = some i →
      segmentLength frame (r.append frame writer c) i = segmentLength frame r i := by
    intro p i hp hi
    refine segmentLength_congr (hkeep i ?_)
    rintro rfl
    exact hp (r.storage.fs.names_inj _ _ _ hi hnamed)
  have hsum := HashMap.sumOver_add_sumAt hother
  rw [HashMap.sumAt_of_lookup hnamed, HashMap.sumAt_of_lookup hnamed,
    segmentLength_append] at hsum
  rw [allBytes_eq (h.append hlook), allBytes_eq h, hsame.names]
  omega

end Append

theorem allBytes_close (h : Faithful frame r) (source : SourceId) :
    (r.close source).storage.allBytes = r.storage.allBytes := by
  cases hlook : r.storage.writers.lookup source with
  | none => rw [Recording.close, LocalStorage.closeSegment_of_none hlook]
  | some closing => exact allBytes_retire h (close_retires hlook)

/-- A store adds its record, and for a new segment a header in place of the file at its path. -/
theorem allBytes_store (h : Placed frame r) {c : C} (hstore : r.store frame c = some r') :
    (∃ writer,
      r.storage.currentWriter (frame c).source (frame c).timestampUs = some writer ∧
      r'.storage.allBytes = r.storage.allBytes + (encodeRecord (frame c)).length) ∨
    (r.storage.currentWriter (frame c).source (frame c).timestampUs = none ∧
      r'.storage.allBytes + r.storage.fs.fileLength
          (r.storage.segmentPath (frame c).source (frame c).timestampUs) =
        r.storage.allBytes + (20 + (encodeRecord (frame c)).length)) := by
  rcases store_cases hstore with ⟨writer, hcurrent, rfl⟩ | ⟨hnone, _, writer, rfl, hwriter, rfl⟩
  · have hlook := (LocalStorage.currentWriter_eq_some.mp hcurrent).1
    exact .inl ⟨writer, hcurrent,
      allBytes_append hlook h.faithful (h.named _ writer hlook)⟩
  · have hclosed := h.close (frame c).source
    have hfree : (r.close (frame c).source).storage.writers.lookup (frame c).source = none := by
      rw [lookup_close_ite, if_pos rfl]
    have hcreated := hclosed.create hfree (frame c).timestampUs
    -- the file at the path, if any, is a finalized one
    have hfile : HashMap.sumAt (fun _ => segmentLength frame (r.close (frame c).source))
          r.storage.fs.names (r.storage.segmentPath (frame c).source (frame c).timestampUs) =
        r.storage.fs.fileLength
          (r.storage.segmentPath (frame c).source (frame c).timestampUs) := by
      rw [FileSystem.fileLength]
      cases hp : r.storage.fs.names.lookup
          (r.storage.segmentPath (frame c).source (frame c).timestampUs) with
      | none => rw [HashMap.sumAt_of_lookup_none hp, HashMap.sumAt_of_lookup_none hp]
      | some i =>
        rw [HashMap.sumAt_of_lookup hp, HashMap.sumAt_of_lookup hp,
          h.faithful.length_closed hp (h.closed_at hnone hp)]
        rfl
    have hcreate := allBytes_create hclosed.faithful hfree (frame c).timestampUs
    rw [close_names, segmentPath_close, hfile, allBytes_close h.faithful] at hcreate
    refine .inr ⟨hnone, ?_⟩
    show (Recording.append frame _ writer c).storage.allBytes + _ = _
    rw [allBytes_append hwriter hcreated.faithful (hcreated.named _ writer hwriter)]
    omega

/-! ## What is in the open segments -/

theorem openSegmentBytes_eq (h : Faithful frame r) :
    r.storage.openSegmentBytes =
      HashMap.sumOver (fun _ w => segmentLength frame r w.inode) r.storage.writers :=
  HashMap.sumOver_congr fun _ _ hk => h.length_open hk

theorem openBytes_eq (h : Faithful frame r) (source : SourceId) :
    r.storage.openBytes source =
      HashMap.sumAt (fun _ w => segmentLength frame r w.inode) r.storage.writers source := by
  cases hlook : r.storage.writers.lookup source with
  | none => rw [openBytes_of_none hlook, HashMap.sumAt_of_lookup_none hlook]
  | some writer => rw [openBytes_of_lookup h hlook, HashMap.sumAt_of_lookup hlook]

/-- Closing a segment takes its bytes out. -/
theorem openSegmentBytes_close (h : Faithful frame r) (source : SourceId) :
    (r.close source).storage.openSegmentBytes + r.storage.openBytes source =
      r.storage.openSegmentBytes := by
  rw [openSegmentBytes_eq (h.close source), openSegmentBytes_eq h, openBytes_eq h]
  exact HashMap.sumOver_of_lookup_erase (lookup_close_ite r source)

/-- Opening one puts a header in. -/
theorem openSegmentBytes_create (h : Faithful frame r)
    (hnone : r.storage.writers.lookup source = none) (timestampUs : UInt64) :
    (r.create source timestampUs).storage.openSegmentBytes = r.storage.openSegmentBytes + 20 := by
  obtain ⟨created, hinode, -, -, hwriters, -, -, hkeep, hempty, -⟩ :=
    r.create_spec source timestampUs
  have hnew : segmentLength frame (r.create source timestampUs) created.inode = 20 := by
    rw [segmentLength, hempty]
    rfl
  have hothers : HashMap.sumOver
      (fun _ w => segmentLength frame (r.create source timestampUs) w.inode) r.storage.writers =
      HashMap.sumOver (fun _ w => segmentLength frame r w.inode) r.storage.writers := by
    refine HashMap.sumOver_congr fun k w hk => segmentLength_congr (hkeep _ ?_).2
    rw [hinode]
    refine (h.createdInode_ne hk ?_).symm
    rintro rfl
    cases hnone.symm.trans hk
  have hsum := HashMap.sumOver_insert
    (fun _ w => segmentLength frame (r.create source timestampUs) w.inode) r.storage.writers
    source created
  rw [HashMap.sumAt_of_lookup_none hnone, hothers, hnew, Nat.add_zero, ← hwriters] at hsum
  rw [openSegmentBytes_eq (h.create hnone timestampUs), openSegmentBytes_eq h, hsum]

/-- Appending puts the record in. -/
theorem openSegmentBytes_append (h : Faithful frame r) {c : C}
    (hlook : r.storage.writers.lookup (frame c).source = some writer) :
    (r.append frame writer c).storage.openSegmentBytes =
      r.storage.openSegmentBytes + (encodeRecord (frame c)).length := by
  obtain ⟨writer', hinode, -, -, hwriters, -, hkeep, -⟩ := append_spec frame r writer c
  have hsum := HashMap.sumOver_insert
    (fun _ w => segmentLength frame (r.append frame writer c) w.inode) r.storage.writers
    (frame c).source writer'
  -- the other sources write to other files
  have hother : ∀ k w, k ≠ (frame c).source → r.storage.writers.lookup k = some w →
      segmentLength frame (r.append frame writer c) w.inode = segmentLength frame r w.inode :=
    fun k w hk hw =>
      segmentLength_congr (hkeep _ fun heq => hk (h.distinct k _ w writer hw hlook heq))
  have hchange := HashMap.sumOver_add_sumAt hother
  rw [HashMap.sumAt_of_lookup hlook, hinode, segmentLength_append, ← hwriters] at hsum
  rw [HashMap.sumAt_of_lookup hlook, HashMap.sumAt_of_lookup hlook, segmentLength_append] at hchange
  rw [openSegmentBytes_eq (h.append hlook), openSegmentBytes_eq h]
  omega

/-! ## What the writers count -/

/-- A new segment's writer has counted the placeholder header. -/
theorem create_bytesWritten
    (h : (r.create source timestampUs).storage.writers.lookup source = some writer) :
    writer.bytesWritten = 20 := by
  have hwriters : (r.create source timestampUs).storage.writers =
      r.storage.writers.insert source _ := rfl
  rw [hwriters, AList.lookup_insert] at h
  rw [← Option.some.inj h]

/-- Appending counts the record. -/
theorem append_bytesWritten {c : C} {writer' : SegmentWriter}
    (h : (r.append frame writer c).storage.writers.lookup (frame c).source = some writer') :
    writer'.bytesWritten =
      writer.bytesWritten + UInt64.ofNat (encodeRecord (frame c)).length := by
  have hwriters : (r.append frame writer c).storage.writers =
      r.storage.writers.insert (frame c).source _ := rfl
  rw [hwriters, AList.lookup_insert] at h
  rw [← Option.some.inj h, encodeRecord_length, UInt64.ofNat_add]
  rfl

/-- Every writer has counted the bytes of its segment, modulo 2^64. -/
def Counted (frame : C → Frame) (r : Recording C) : Prop :=
  ∀ source writer, r.storage.writers.lookup source = some writer →
    writer.bytesWritten = UInt64.ofNat (segmentLength frame r writer.inode)

theorem Counted.onEmptyRoot (config : LocalStorageConfig) :
    Counted frame (Recording.onEmptyRoot config) :=
  fun _ _ h => by cases (AList.lookup_empty _).symm.trans h

theorem Counted.close (h : Counted frame r) (source : SourceId) :
    Counted frame (r.close source) :=
  fun k w hk => h k w (lookup_close.mp hk).2

theorem Counted.create (h : Counted frame r) (hfaithful : Faithful frame r)
    (hnone : r.storage.writers.lookup source = none) (timestampUs : UInt64) :
    Counted frame (r.create source timestampUs) := by
  obtain ⟨created, hinode, -, -, hwriters, -, -, hkeep, hempty, -⟩ :=
    r.create_spec source timestampUs
  intro k w hk
  rw [hwriters] at hk
  rcases HashMap.lookup_insert_eq_some.mp hk with ⟨rfl, rfl⟩ | ⟨hne, hold⟩
  · rw [create_bytesWritten (by rw [hwriters, AList.lookup_insert]), segmentLength, hempty]
    rfl
  · rw [segmentLength_congr (hkeep _ ?_).2]
    · exact h k w hold
    · rw [hinode]
      exact (hfaithful.createdInode_ne hold hne).symm

theorem Counted.append (h : Counted frame r) (hfaithful : Faithful frame r) {c : C}
    (hlook : r.storage.writers.lookup (frame c).source = some writer) :
    Counted frame (r.append frame writer c) := by
  obtain ⟨writer', hinode, -, -, hwriters, -, hkeep, -⟩ := append_spec frame r writer c
  intro k w hk
  rw [hwriters] at hk
  rcases HashMap.lookup_insert_eq_some.mp hk with ⟨rfl, rfl⟩ | ⟨hne, hold⟩
  · have hwriter' : (r.append frame writer c).storage.writers.lookup (frame c).source = some w := by
      rw [hwriters, AList.lookup_insert]
    -- the writer counts the record, and the file has it
    rw [append_bytesWritten hwriter', hinode, segmentLength_append, h _ writer hlook,
      UInt64.ofNat_add]
  · have hother : w.inode ≠ writer.inode :=
      fun heq => hne (hfaithful.distinct k _ w writer hold hlook heq)
    rw [segmentLength_congr (hkeep _ hother)]
    exact h k w hold

/-- A rotation counts what its segment has gathered, modulo 2^64. -/
theorem usageBytes_close (h : Counted frame r) (hfaithful : Faithful frame r) (source : SourceId) :
    (r.close source).storage.usageBytes =
      r.storage.usageBytes + UInt64.ofNat (r.storage.openBytes source) := by
  cases hlook : r.storage.writers.lookup source with
  | none =>
    rw [openBytes_of_none hlook, Recording.close, LocalStorage.closeSegment_of_none hlook]
    exact (UInt64.add_zero _).symm
  | some writer =>
    rw [openBytes_of_lookup hfaithful hlook, ← h source writer hlook, Recording.close,
      LocalStorage.closeSegment_of_some hlook]
    rfl

/-- What a store adds to the usage and the open segments together, which have to fit into 64 bits
if there is a rotation. -/
theorem usage_store (h : Placed frame r) (hcounted : Counted frame r) {c : C}
    (hstore : r.store frame c = some r')
    (hfits : r.storage.currentWriter (frame c).source (frame c).timestampUs = none →
      r.storage.usageBytes.toNat + r.storage.openSegmentBytes < 2 ^ 64) :
    Counted frame r' ∧
      r'.storage.usageBytes.toNat + r'.storage.openSegmentBytes =
        r.storage.usageBytes.toNat + r.storage.openSegmentBytes +
          (if r.storage.currentWriter (frame c).source (frame c).timestampUs = none then 20
            else 0) + (encodeRecord (frame c)).length := by
  rcases store_cases hstore with ⟨writer, hcurrent, rfl⟩ | ⟨hnone, _, writer, rfl, hwriter, rfl⟩
  · have hlook := (LocalStorage.currentWriter_eq_some.mp hcurrent).1
    refine ⟨hcounted.append h.faithful hlook, ?_⟩
    rw [openSegmentBytes_append h.faithful hlook, if_neg (by rw [hcurrent]; simp)]
    show r.storage.usageBytes.toNat + _ = _
    omega
  · have hclosed := h.faithful.close (frame c).source
    have hfree : (r.close (frame c).source).storage.writers.lookup (frame c).source = none := by
      rw [lookup_close_ite, if_pos rfl]
    have hcreated := hclosed.create hfree (frame c).timestampUs
    refine ⟨((hcounted.close _).create hclosed hfree _).append hcreated hwriter, ?_⟩
    have hgathered := openSegmentBytes_close h.faithful (frame c).source
    have hfits := hfits hnone
    have husage := congrArg UInt64.toNat (usageBytes_close hcounted h.faithful (frame c).source)
    rw [UInt64.toNat_add, UInt64.toNat_ofNat', Nat.mod_eq_of_lt (by omega : _ < 2 ^ 64),
      Nat.mod_eq_of_lt (by omega)] at husage
    rw [openSegmentBytes_append hcreated hwriter, openSegmentBytes_create hclosed hfree,
      if_pos hnone]
    show (r.close (frame c).source).storage.usageBytes.toNat + _ = _
    omega

end Recording

end Kodama
