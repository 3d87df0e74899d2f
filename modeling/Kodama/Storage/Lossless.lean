import Kodama.Storage.Recording

/-!
# When a recording loses nothing

A recording that ends with `flush` gives back every range of every source
(`getFrames_of_lossless`) as long as its steps are `Lossless`: a segment is not opened on a
file that exists, and within a segment no frame is older than the first one and none, when
the segment is closed, newer than the last one.

Without that it does not (`getFrames_loses`): opening a segment truncates the file of an
earlier one of the same window, and the times of an index entry are the first and the last
timestamp, not the least and the greatest, so a range can pass over frames it contains.

The invariant is `Recorded`: every indexed file is there, is closed, and is bounded by its
entry; and what the indexed files and the open segments hold is, source by source, the log.
-/

namespace Kodama

open Lib

namespace Recording

/-- What a recorder does to the storage. -/
inductive Event where
  | store (frame : Frame)
  | flush

/-- The frames a schedule stores. -/
def storedFrames (events : List Event) : List Frame :=
  events.filterMap fun
    | .store frame => some frame
    | .flush => none

def step (r : Recording Frame) : Event → Option (Recording Frame)
  | .store frame => r.store id frame
  | .flush => some r.flush

/-- The last frame of the source's open segment has the greatest timestamp in it. -/
def EndsLast (r : Recording Frame) (source : SourceId) : Prop :=
  ∀ writer ∈ r.storage.writers.lookup source,
    ∀ f ∈ r.held writer.inode, f.timestampUs ≤ writer.endTimeUs

instance (r : Recording Frame) (source : SourceId) : Decidable (EndsLast r source) :=
  inferInstanceAs (Decidable (∀ _ ∈ _, ∀ _ ∈ _, _))

/-- A step that loses nothing. Storing: the frame can be read back, and it is no older than
the first of the segment it goes to; or a segment is opened for it, on a path without a
file, and the segment closed for that, if any, ends last. Flushing: every open segment ends
last. -/
def Lossless (r : Recording Frame) : Event → Prop
  | .store frame => Recordable frame ∧
    (∀ writer ∈ r.storage.currentWriter frame.source frame.timestampUs,
      writer.startTimeUs ≤ frame.timestampUs) ∧
    (r.storage.currentWriter frame.source frame.timestampUs = none →
      r.storage.fs.names.lookup (r.storage.segmentPath frame.source frame.timestampUs) = none ∧
        EndsLast r frame.source)
  | .flush => ∀ source ∈ r.storage.writers.keys, EndsLast r source

instance (r : Recording Frame) : ∀ event, Decidable (Lossless r event)
  | .store _ => inferInstanceAs (Decidable (_ ∧ (∀ _ ∈ _, _) ∧ (_ → _ ∧ _)))
  | .flush => inferInstanceAs (Decidable (∀ _ ∈ _, _))

/-! ## The invariant -/

variable {r r' : Recording Frame} {source : SourceId} {writer : SegmentWriter}
  {timestampUs : UInt64}

/-- An index entry of a file that is there, closed, and bounded by the entry. -/
def Indexed (r : Recording Frame) (seg : SegmentIndex) : Prop :=
  ∃ i, r.storage.fs.names.lookup seg.path = some i ∧ r.Closed i ∧
    ∀ f ∈ r.held i, Recordable f ∧ seg.startTimeUs ≤ f.timestampUs ∧ f.timestampUs ≤ seg.endTimeUs

/-- An open segment at its path, with no frame older than its first one. -/
def Opened (r : Recording Frame) (writer : SegmentWriter) : Prop :=
  r.storage.fs.names.lookup writer.path = some writer.inode ∧
    ∀ f ∈ r.held writer.inode, Recordable f ∧ writer.startTimeUs ≤ f.timestampUs

/-- What the file at a path holds. -/
def heldAt (r : Recording Frame) (p : PathBuf) : List Frame :=
  match r.storage.fs.names.lookup p with
  | some i => r.held i
  | none => []

/-- What the open segment of a source holds. -/
def heldOpen (r : Recording Frame) (source : SourceId) : List Frame :=
  match r.storage.writers.lookup source with
  | some writer => r.held writer.inode
  | none => []

/-- What the indexed files and the open segment of a source hold. -/
def recorded (r : Recording Frame) (source : SourceId) : List Frame :=
  (r.storage.segmentsOf source).flatMap (fun seg => r.heldAt seg.path) ++ r.heldOpen source

/-- Nothing of the log is lost, and every index entry bounds its file. -/
structure Recorded (r : Recording Frame) : Prop where
  faithful : Faithful id r
  indexed : ∀ source seg, seg ∈ r.storage.segmentsOf source → Indexed r seg
  opened : ∀ source writer, r.storage.writers.lookup source = some writer → Opened r writer
  all : ∀ source, (r.log.filter fun f => f.source = source).Perm (r.recorded source)

theorem heldAt_of_lookup {p : PathBuf} {i : Nat}
    (h : r.storage.fs.names.lookup p = some i) : r.heldAt p = r.held i := by
  rw [heldAt, h]

theorem heldOpen_of_lookup (h : r.storage.writers.lookup source = some writer) :
    r.heldOpen source = r.held writer.inode := by
  rw [heldOpen, h]

theorem heldOpen_of_none (h : r.storage.writers.lookup source = none) :
    r.heldOpen source = [] := by
  rw [heldOpen, h]

theorem heldOpen_congr
    (hlook : r'.storage.writers.lookup source = r.storage.writers.lookup source)
    (hheld : ∀ w, r.storage.writers.lookup source = some w → r'.held w.inode = r.held w.inode) :
    r'.heldOpen source = r.heldOpen source := by
  cases h : r.storage.writers.lookup source with
  | none => rw [heldOpen_of_none h, heldOpen_of_none (hlook.trans h)]
  | some w => rw [heldOpen_of_lookup h, heldOpen_of_lookup (hlook.trans h), hheld w h]

theorem Recorded.onEmptyRoot (config : LocalStorageConfig) :
    Recorded (Recording.onEmptyRoot config) where
  faithful := .onEmptyRoot config
  indexed _ _ h := absurd h (List.not_mem_nil)
  opened _ _ h := absurd ((AList.lookup_empty _).symm.trans h) (by simp)
  all _ := .refl _

/-! ## Its preservation, part by part -/

/-- An entry stays good where names and what its file holds do, and nobody opens it. -/
theorem Indexed.mono {seg : SegmentIndex} (h : Indexed r seg)
    (hkeep : ∀ i, r.storage.fs.names.lookup seg.path = some i → r.Closed i →
      r'.storage.fs.names.lookup seg.path = some i ∧ r'.Closed i ∧ r'.held i = r.held i) :
    Indexed r' seg ∧ r'.heldAt seg.path = r.heldAt seg.path := by
  obtain ⟨i, hp, hclosed, hbounds⟩ := h
  obtain ⟨hp', hclosed', hheld⟩ := hkeep i hp hclosed
  rw [heldAt_of_lookup hp, heldAt_of_lookup hp', ← hheld]
  exact ⟨⟨i, hp', hclosed', hheld ▸ hbounds⟩, rfl⟩

/-- Closing a segment that ends last moves what it holds to the index. -/
theorem Recorded.close (h : Recorded r) (hends : EndsLast r source) :
    Recorded (r.close source) := by
  cases hlook : r.storage.writers.lookup source with
  | none =>
    rw [Recording.close, LocalStorage.closeSegment_of_none hlook]
    exact h
  | some closing =>
    -- the entries and their files stay as they are
    have hkeep : ∀ k seg, seg ∈ r.storage.segmentsOf k →
        Indexed (r.close source) seg ∧ (r.close source).heldAt seg.path = r.heldAt seg.path := by
      intro k seg hseg
      refine (h.indexed k seg hseg).mono fun i hp hclosed => ⟨?_, ?_, rfl⟩
      · rw [close_names]
        exact hp
      · exact fun k writer hk => hclosed k writer (lookup_close.mp hk).2
    have hopened := h.opened source closing hlook
    have hpath : (r.close source).storage.fs.names.lookup closing.path = some closing.inode := by
      rw [close_names]
      exact hopened.1
    constructor
    · exact h.faithful.close source
    · intro k seg hseg
      rw [segmentsOf_close hlook] at hseg
      split at hseg
      · rcases List.mem_append.mp hseg with hold | hnew
        · exact (hkeep source seg hold).1
        · obtain rfl := List.mem_singleton.mp hnew
          refine ⟨closing.inode, hpath, fun k' writer hk' heq => ?_, fun f hf => ?_⟩
          · obtain ⟨hne, hk'⟩ := lookup_close.mp hk'
            exact hne (h.faithful.distinct k' source writer closing hk' hlook heq)
          · obtain ⟨hrec, hstart⟩ := hopened.2 f hf
            exact ⟨hrec, hstart, hends closing hlook f hf⟩
      · exact (hkeep k seg hseg).1
    · intro k writer hk
      obtain ⟨hp, hbounds⟩ := h.opened k writer (lookup_close.mp hk).2
      refine ⟨?_, hbounds⟩
      rw [close_names]
      exact hp
    · intro k
      refine (h.all k).trans (.of_eq ?_)
      rw [recorded, recorded, segmentsOf_close hlook]
      have hold : ∀ k,
          (r.storage.segmentsOf k).flatMap (fun seg => (r.close source).heldAt seg.path) =
          (r.storage.segmentsOf k).flatMap fun seg => r.heldAt seg.path :=
        fun k => List.flatMap_congr fun seg hseg => (hkeep k seg hseg).2
      split
      · next hk =>
        have hnone : (r.close source).storage.writers.lookup k = none := by
          rw [lookup_close_ite, if_pos hk]
        -- what the source had open moves to its new entry
        rw [hk, List.flatMap_append, hold, List.flatMap_singleton, heldOpen_of_lookup hlook,
          heldOpen_of_none (hk ▸ hnone), List.append_nil]
        exact congrArg _ (heldAt_of_lookup hpath).symm
      · next hk =>
        have hopen : (r.close source).heldOpen k = r.heldOpen k :=
          heldOpen_congr (by rw [lookup_close_ite, if_neg hk]) fun _ _ => rfl
        rw [hold, hopen]

/-- Opening a segment on a path without a file. -/
theorem Recorded.create (h : Recorded r) (hnone : r.storage.writers.lookup source = none)
    (hpath : r.storage.fs.names.lookup (r.storage.segmentPath source timestampUs) = none) :
    Recorded (r.create source timestampUs) := by
  obtain ⟨created, -, -, -, hwriters, hnames, -, -, hempty, -⟩ := r.create_spec source timestampUs
  -- the file is a new one, so the entries keep theirs
  have hkeep : ∀ k seg, seg ∈ r.storage.segmentsOf k →
      Indexed (r.create source timestampUs) seg ∧
        (r.create source timestampUs).heldAt seg.path = r.heldAt seg.path := by
    intro k seg hseg
    refine (h.indexed k seg hseg).mono fun i hp hclosed => ?_
    obtain ⟨hp', hi, hheld⟩ := create_keeps hpath hp
    exact ⟨hp', (closed_create_iff hnone hi).mpr hclosed, hheld⟩
  constructor
  · exact h.faithful.create hnone timestampUs
  · exact fun k seg hseg => (hkeep k seg hseg).1
  · intro k writer hk
    rw [hwriters] at hk
    rcases HashMap.lookup_insert_eq_some.mp hk with ⟨-, rfl⟩ | ⟨-, hold⟩
    · refine ⟨by rw [hnames, if_pos rfl], fun f hf => ?_⟩
      rw [hempty] at hf
      cases hf
    · obtain ⟨hp, hbounds⟩ := h.opened k writer hold
      obtain ⟨hp', -, hheld⟩ := create_keeps hpath hp
      exact ⟨hp', hheld ▸ hbounds⟩
  · intro k
    refine (h.all k).trans (.of_eq ?_)
    have hopen : (r.create source timestampUs).heldOpen k = r.heldOpen k := by
      by_cases hk : k = source
      · have hlook : (r.create source timestampUs).storage.writers.lookup k = some created := by
          rw [hwriters, hk, AList.lookup_insert]
        rw [heldOpen_of_lookup hlook, hempty, hk, heldOpen_of_none hnone]
      · refine heldOpen_congr ?_ fun w hw => ?_
        · rw [hwriters, AList.lookup_insert_ne hk]
        · exact (create_keeps hpath (h.opened k w hw).1).2.2
    rw [recorded, recorded, hopen]
    exact congrArg (· ++ _) (List.flatMap_congr fun seg hseg => (hkeep k seg hseg).2).symm

/-- Appending a frame that is no older than the segment's first one. -/
theorem Recorded.append (h : Recorded r) {f : Frame}
    (hlook : r.storage.writers.lookup f.source = some writer) (hrec : Recordable f)
    (hstart : writer.startTimeUs ≤ f.timestampUs) : Recorded (r.append id writer f) := by
  obtain ⟨writer', hinode, hpath, hstart', hwriters, hsame, hkeepHeld, hheld, -⟩ :=
    append_spec id r writer f
  -- the file is open, so no entry is about it
  have hkeep : ∀ k seg, seg ∈ r.storage.segmentsOf k →
      Indexed (r.append id writer f) seg ∧
        (r.append id writer f).heldAt seg.path = r.heldAt seg.path := by
    intro k seg hseg
    refine (h.indexed k seg hseg).mono fun i hp hclosed => ?_
    have hi : writer.inode ≠ i := hclosed f.source writer hlook
    exact ⟨by rw [hsame.names]; exact hp, (closed_append_iff hlook).mpr hclosed,
      hkeepHeld i hi.symm⟩
  have hopened := h.opened f.source writer hlook
  constructor
  · exact h.faithful.append hlook
  · exact fun k seg hseg => (hkeep k seg hseg).1
  · intro k w hk
    rw [hwriters] at hk
    rcases HashMap.lookup_insert_eq_some.mp hk with ⟨-, rfl⟩ | ⟨hne, hold⟩
    · refine ⟨by rw [hsame.names, hinode, hpath]; exact hopened.1, fun g hg => ?_⟩
      rw [hinode, hheld] at hg
      rw [hstart']
      rcases List.mem_append.mp hg with hg | hg
      · exact hopened.2 g hg
      · obtain rfl := List.mem_singleton.mp hg
        exact ⟨hrec, hstart⟩
    · obtain ⟨hp, hbounds⟩ := h.opened k w hold
      refine ⟨by rw [hsame.names]; exact hp, ?_⟩
      rw [hkeepHeld _ fun heq => hne (h.faithful.distinct k _ w writer hold hlook heq)]
      exact hbounds
  · intro k
    have hsegs : ((r.append id writer f).storage.segmentsOf k).flatMap
        (fun seg => (r.append id writer f).heldAt seg.path) =
        (r.storage.segmentsOf k).flatMap fun seg => r.heldAt seg.path :=
      List.flatMap_congr fun seg hseg => (hkeep k seg hseg).2
    show ((r.log ++ [f]).filter _).Perm _
    rw [recorded, hsegs, List.filter_append]
    by_cases hk : k = f.source
    · subst hk
      have hlook' : (r.append id writer f).storage.writers.lookup f.source = some writer' := by
        rw [hwriters]
        exact AList.lookup_insert _
      rw [List.filter_singleton, decide_eq_true rfl, heldOpen_of_lookup hlook', hinode, hheld,
        ← heldOpen_of_lookup hlook, ← List.append_assoc]
      exact (h.all f.source).append_right [f]
    · have hopen : (r.append id writer f).heldOpen k = r.heldOpen k := by
        refine heldOpen_congr ?_ fun w hw => ?_
        · rw [hwriters]
          exact AList.lookup_insert_ne hk
        · exact hkeepHeld _ fun heq => hk (h.faithful.distinct k _ w writer hw hlook heq)
      rw [hopen, List.filter_singleton, decide_eq_false (fun heq => hk heq.symm)]
      exact (List.append_nil _).symm ▸ h.all k

theorem Recorded.store (h : Recorded r) {f : Frame} (hstep : Lossless r (.store f))
    (hstore : r.store id f = some r') : Recorded r' := by
  obtain ⟨hrec, hcurrent, hnew⟩ := hstep
  rcases store_cases hstore with ⟨writer, hwriter, rfl⟩ | ⟨hnone, _, writer, rfl, hwriter, rfl⟩
  · exact h.append (LocalStorage.currentWriter_eq_some.mp hwriter).1 hrec (hcurrent writer hwriter)
  · obtain ⟨hpath, hends⟩ := hnew hnone
    have hopened : Recorded ((r.close f.source).create f.source f.timestampUs) := by
      refine (h.close hends).create ?_ ?_
      · rw [lookup_close_ite, if_pos rfl]
      · rw [close_names, segmentPath_close]
        exact hpath
    exact hopened.append hwriter hrec (UInt64.le_of_eq (writer_create hwriter).2)

/-- Closing segments of other sources does not change how a source's segment ends. -/
theorem EndsLast.close {k : SourceId} (h : EndsLast r k) : EndsLast (r.close source) k :=
  fun writer hk => h writer (lookup_close.mp hk).2

theorem Recorded.flush (h : Recorded r) (hstep : Lossless r .flush) : Recorded r.flush := by
  have hends : ∀ source, EndsLast r source := fun source writer hk =>
    hstep source (HashMap.mem_keys_iff.mpr ⟨writer, hk⟩) writer hk
  refine (flush_preserves (P := fun r => Recorded r ∧ ∀ source, EndsLast r source)
    (fun r source h => ?_) ⟨h, hends⟩).1
  exact ⟨h.1.close (h.2 source), fun k => (h.2 k).close⟩

theorem recorded_step {event : Event} (h : Recorded r) (hstep : Lossless r event)
    (hr : step r event = some r') : Recorded r' := by
  cases event with
  | store f => exact h.store hstep hr
  | flush => exact Option.some.inj hr ▸ h.flush hstep

/-- After a flush no segment is open. -/
theorem lookup_flush (r : Recording Frame) (k : SourceId) :
    r.flush.storage.writers.lookup k = none := by
  rw [flush_eq]
  exact lookup_foldl_keys lookup_close_ite r k

/-- The log is what the schedule stored. -/
theorem run_log {events : List Event} {r r' : Recording Frame}
    (hrun : Machine.run step r events = some r') : r'.log = r.log ++ storedFrames events := by
  refine Machine.run_appends log _ (fun s event t ht => ?_) hrun
  cases event with
  | store f => exact store_log ht
  | flush =>
    obtain rfl := Option.some.inj ht
    exact (List.append_nil _).symm

/-- Without open segments, reading a range gives what was recorded in it. -/
theorem Recorded.getFrames (h : Recorded r) (hflushed : ∀ k, r.storage.writers.lookup k = none)
    (source : SourceId) (a b : UInt64) :
    ∃ frames, r.storage.getFrames source a b = .ok frames ∧
      frames.Perm (r.log.filter fun f =>
        f.source = source ∧ a ≤ f.timestampUs ∧ f.timestampUs ≤ b) ∧
      frames.Pairwise fun f g => f.timestampUs ≤ g.timestampUs := by
  -- every entry is read, or bounds its file and is rightly skipped
  have hread : ∀ seg ∈ r.storage.segmentsOf source,
      LocalStorage.readSegment r.storage.fs seg a b =
        .ok ((r.heldAt seg.path).filter fun f => f.timestampUs ≥ a && f.timestampUs ≤ b) := by
    intro seg hseg
    obtain ⟨i, hp, hclosed, hbounds⟩ := h.indexed source seg hseg
    obtain ⟨header, hlen, hdata⟩ := h.faithful.closed _ i hp hclosed
    rw [heldAt_of_lookup hp]
    refine LocalStorage.readSegment_eq ?_ hlen (fun f hf => (hbounds f hf).1)
      (fun f hf => (hbounds f hf).2) a b
    rw [FileSystem.read, hp]
    exact congrArg some hdata
  refine ⟨_, LocalStorage.getFrames_eq hread, ?_, ?_⟩
  · refine (List.perm_insertionSort _ _).trans ?_
    have hall := (h.all source).filter fun f => f.timestampUs ≥ a && f.timestampUs ≤ b
    rw [recorded, heldOpen_of_none (hflushed source), List.append_nil, List.filter_flatMap,
      List.filter_filter] at hall
    refine hall.symm.trans (.of_eq (List.filter_congr fun f _ => ?_))
    simp [Bool.and_comm]
  · have htotal : Std.Total fun f g : Frame => f.timestampUs ≤ g.timestampUs :=
      ⟨fun f g => UInt64.le_total _ _⟩
    have htrans : IsTrans Frame fun f g => f.timestampUs ≤ g.timestampUs :=
      ⟨fun f g k => UInt64.le_trans⟩
    exact List.pairwise_insertionSort _ _

/-- **A lossless recording gives back every range.** After any stores and flushes that all
lose nothing, ended by a flush, the frames of a source in a range are the stored ones, each
as often as it was stored, by ascending timestamp. -/
theorem getFrames_of_lossless (config : LocalStorageConfig) (events : List Event)
    (hlossless : Machine.EachStep step (fun r event _ => Lossless r event) (onEmptyRoot config)
      (events ++ [.flush]))
    (hrun : Machine.run step (onEmptyRoot config) (events ++ [.flush]) = some r)
    (source : SourceId) (a b : UInt64) :
    ∃ frames, r.storage.getFrames source a b = .ok frames ∧
      frames.Perm ((storedFrames events).filter fun f =>
        f.source = source ∧ a ≤ f.timestampUs ∧ f.timestampUs ≤ b) ∧
      frames.Pairwise fun f g => f.timestampUs ≤ g.timestampUs := by
  have halways : Machine.Always step Recorded (onEmptyRoot config) (events ++ [.flush]) :=
    Machine.always_of_eachStep (.onEmptyRoot config)
      (fun _ _ _ h hstep hr => recorded_step h hstep hr) hlossless
  have hlog : r.log = storedFrames events := by
    rw [run_log hrun, storedFrames, List.filterMap_append]
    exact List.append_nil _
  obtain ⟨before, -, hflush⟩ := Machine.run_concat_eq_some.mp hrun
  have hflushed : ∀ k, r.storage.writers.lookup k = none := by
    obtain rfl := Option.some.inj hflush
    exact lookup_flush before
  rw [← hlog]
  exact (halways.final hrun).getFrames hflushed source a b

/-- Segments of one second. -/
def oneSecond : LocalStorageConfig := ⟨1_000_000⟩

/-- A source, and frames of it. -/
def camera : SourceId := ⟨[1, 2, 3, 4, 5, 6, 7, 8], rfl⟩

def cameraFrame (timestampUs : UInt64) : Frame :=
  (Frame.video camera [0x65] true).withTimestamp timestampUs

/-- Two windows, a flush between them, and a repeated timestamp. -/
def twoWindows : List Event :=
  [.store (cameraFrame 5), .store (cameraFrame 5), .flush, .store (cameraFrame 1_000_007)]

theorem getFrames_twoWindows :
    ∃ r, Machine.run step (onEmptyRoot oneSecond) (twoWindows ++ [.flush]) = some r ∧
      ∃ frames, r.storage.getFrames camera 0 2_000_000 = .ok frames ∧
        frames.Perm ((storedFrames twoWindows).filter fun f =>
          f.source = camera ∧ 0 ≤ f.timestampUs ∧ f.timestampUs ≤ 2_000_000) ∧
        frames.Pairwise fun f g => f.timestampUs ≤ g.timestampUs := by
  have hrun : (Machine.run step (onEmptyRoot oneSecond) (twoWindows ++ [.flush])).isSome := by
    decide +kernel
  obtain ⟨r, hr⟩ := Option.isSome_iff_exists.mp hrun
  exact ⟨r, hr,
    getFrames_of_lossless oneSecond twoWindows (by decide +kernel) hr camera 0 2_000_000⟩

/-- A flush in the middle of a window: the frame before it is gone, and the one after it is
read twice. -/
def flushedInside : List Event := [.store (cameraFrame 5), .flush, .store (cameraFrame 6)]

/-- A clock that goes back within a window: neither frame is found at its own time. -/
def goesBack : List Event := [.store (cameraFrame 6), .store (cameraFrame 5)]

theorem getFrames_loses :
    (Machine.run step (onEmptyRoot oneSecond) (flushedInside ++ [.flush])).map
        (fun r => r.storage.getFrames camera 0 999_999) =
      some (.ok [cameraFrame 6, cameraFrame 6]) ∧
    ¬ [cameraFrame 6, cameraFrame 6].Perm ((storedFrames flushedInside).filter fun f =>
        f.source = camera ∧ 0 ≤ f.timestampUs ∧ f.timestampUs ≤ 999_999) ∧
    (Machine.run step (onEmptyRoot oneSecond) (goesBack ++ [.flush])).map
        (fun r => (r.storage.getFrames camera 5 5, r.storage.getFrames camera 6 6)) =
      some (.ok [], .ok []) := by
  decide +kernel

end Recording

end Kodama
