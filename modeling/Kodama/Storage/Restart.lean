import Kodama.Storage.DiskUsage
import Kodama.Storage.Reopen

/-!
# Recordings after a restart (storage/local.rs)

A storage that is dropped without a flush, as the server drops it when it stops, leaves its
open segments on disk with all their records but with the placeholder header. The next
`LocalStorage::new` takes the times of a segment from its header, so such a segment is one
from time 0 to time 0, and `get_frames` passes over it unless the range starts at 0.

`survives_iff` fixes a source and a range. Along any run whose steps keep the frames of that
range (`KeepsRange`), what the reopened storage returns for it includes every frame stored,
exactly if the range starts at 0 or none of its frames is in the source's open segment when
the storage is dropped. `openSegment_lost`: one frame, dropped, reopened and asked for.

The invariant is `OnDisk`: the segment files hold each frame of the range as often as it was
stored, and the header of every closed file that holds one lets a reader find it.
-/

namespace Kodama

open Lib

/-- The start time in a segment file's header. -/
def headerStart (file : Bytes) : UInt64 := UInt64.ofNat (ofLe (file.take 8))

/-- The end time in a segment file's header. -/
def headerEnd (file : Bytes) : UInt64 := UInt64.ofNat (ofLe ((file.drop 8).take 8))

/-- By its header, the file has nothing in the range. -/
def PassedOver (a b : UInt64) (file : Bytes) : Prop := headerEnd file < a ∨ headerStart file > b

instance (a b : UInt64) (file : Bytes) : Decidable (PassedOver a b file) :=
  inferInstanceAs (Decidable (_ ∨ _))

/-- A frame of the source in the range. -/
def Wanted (source : SourceId) (a b : UInt64) (f : Frame) : Prop :=
  f.source = source ∧ a ≤ f.timestampUs ∧ f.timestampUs ≤ b

instance (source : SourceId) (a b : UInt64) : DecidablePred (Wanted source a b) :=
  fun _ => inferInstanceAs (Decidable (_ ∧ _ ∧ _))

namespace Recording

/-- The frames some actions store. -/
def stored (actions : List Action) : List Frame :=
  actions.filterMap fun
    | .store frame => some frame
    | _ => none

variable {r r' : Recording Frame} {source k : SourceId} {a b : UInt64}
  {writer : SegmentWriter} {config : LocalStorageConfig} {listing : List PathBuf}

/-- If the source's open segment holds a frame of the range, its first and last timestamps
do not exclude the range. -/
def EndsInRange (source : SourceId) (a b : UInt64) (r : Recording Frame) : Prop :=
  ∀ writer ∈ r.storage.writers.lookup source, (∃ f ∈ r.held writer.inode, Wanted source a b f) →
    ¬ (writer.endTimeUs < a ∨ writer.startTimeUs > b)

instance (source : SourceId) (a b : UInt64) (r : Recording Frame) :
    Decidable (EndsInRange source a b r) :=
  inferInstanceAs (Decidable (∀ _ ∈ _, (∃ _ ∈ _, _) → ¬ _))

/-- No frame of the range is in the source's open segment. -/
def NoneOpen (source : SourceId) (a b : UInt64) (r : Recording Frame) : Prop :=
  ∀ f ∈ r.heldOpen source, ¬ Wanted source a b f

instance (source : SourceId) (a b : UInt64) (r : Recording Frame) :
    Decidable (NoneOpen source a b r) :=
  inferInstanceAs (Decidable (∀ _ ∈ _, ¬ _))

/-- A step that keeps the frames of a range. Storing a frame of the source: it can be read
back; if a segment is opened for it, the one closed for that ends in the range as far as it
holds frames of it, and a file at the new segment's path holds none. Flushing: the open
segment ends in the range likewise. Reopening: the condition this is about. -/
def KeepsRange (source : SourceId) (a b : UInt64) (r : Recording Frame) : Action → Prop
  | .store f => f.source = source → Recordable f ∧
    (r.storage.currentWriter f.source f.timestampUs = none → EndsInRange source a b r ∧
      ∀ i ∈ r.storage.fs.names.lookup (r.storage.segmentPath f.source f.timestampUs),
        ∀ g ∈ r.held i, ¬ Wanted source a b g)
  | .flush => EndsInRange source a b r
  | .reopen _ _ => a = 0 ∨ NoneOpen source a b r

instance (source : SourceId) (a b : UInt64) (r : Recording Frame) :
    ∀ action, Decidable (KeepsRange source a b r action)
  | .store _ => inferInstanceAs (Decidable (_ → _ ∧ (_ → _ ∧ ∀ _ ∈ _, ∀ _ ∈ _, ¬ _)))
  | .flush => inferInstanceAs (Decidable (EndsInRange source a b r))
  | .reopen _ _ => inferInstanceAs (Decidable (_ ∨ _))

/-! ## The invariant -/

/-- The files hold every frame of the range that was stored, and their headers give it away. -/
structure OnDisk (source : SourceId) (a b : UInt64) (r : Recording Frame) : Prop where
  placed : Placed id r
  shaped : Shaped id r
  recordable : ∀ p i, r.storage.fs.names.lookup p = some i → p.dir = source.display →
    ∀ f ∈ r.held i, Recordable f
  found : ∀ p i, r.storage.fs.names.lookup p = some i → r.Closed i →
    (∃ f ∈ r.held i, Wanted source a b f) → ¬ PassedOver a b (r.storage.fs.data i)
  all : ∀ f, Wanted source a b f →
    r.log.count f = HashMap.sumOver (fun _ i => (r.held i).count f) r.storage.fs.names

/-- What a header says. -/
theorem passedOver_iff (startTimeUs endTimeUs : UInt64) (count body : Bytes) :
    PassedOver a b (toLe 8 startTimeUs.toNat ++ toLe 8 endTimeUs.toNat ++ count ++ body) ↔
      endTimeUs < a ∨ startTimeUs > b := by
  rw [PassedOver, headerStart, headerEnd, List.append_assoc, List.append_assoc,
    List.take_left' (toLe_length _ _), List.drop_left' (toLe_length _ _),
    List.take_left' (toLe_length _ _), ofNat_ofLe_toLe, ofNat_ofLe_toLe]

/-- The placeholder says from 0 to 0. -/
theorem passedOver_placeholder (body : Bytes) :
    PassedOver a b (List.replicate 20 0 ++ body) ↔ a ≠ 0 := by
  have hzeros : List.replicate 20 (0 : UInt8) =
      toLe 8 (0 : UInt64).toNat ++ toLe 8 (0 : UInt64).toNat ++ List.replicate 4 0 := by decide
  rw [hzeros, passedOver_iff, UInt64.pos_iff_ne_zero]
  exact or_iff_left (UInt64.not_lt.mpr UInt64.zero_le)

/-- A file with frames of a source is in that source's directory. -/
theorem Shaped.dir_eq (h : Shaped id r) {p : PathBuf} {i : Nat}
    (hp : r.storage.fs.names.lookup p = some i) {f : Frame} (hf : f ∈ r.held i) :
    p.dir = f.source.display := by
  obtain ⟨owner, n, rfl, hsource⟩ := h p i hp
  rw [show f.source = owner from hsource f hf]

/-- An open segment with frames of a source is that source's. -/
theorem OnDisk.owner_eq (h : OnDisk source a b r)
    (hlook : r.storage.writers.lookup k = some writer)
    (hf : ∃ f ∈ r.held writer.inode, Wanted source a b f) : k = source := by
  obtain ⟨f, hf, hwanted⟩ := hf
  apply SourceId.display_injective
  rw [← (h.placed.faithful.writer k writer hlook).path_dir,
    h.shaped.dir_eq (h.placed.named k writer hlook) hf, hwanted.1]

theorem OnDisk.onEmptyRoot (config : LocalStorageConfig) :
    OnDisk source a b (Recording.onEmptyRoot config) where
  placed := .onEmptyRoot config
  shaped := .onEmptyRoot config
  recordable _ _ h := nomatch (AList.lookup_empty _).symm.trans h
  found _ _ h := nomatch (AList.lookup_empty _).symm.trans h
  all _ _ := rfl

/-! ## Its preservation -/

theorem OnDisk.close (h : OnDisk source a b r) (hends : k = source → EndsInRange source a b r) :
    OnDisk source a b (r.close k) := by
  cases hlook : r.storage.writers.lookup k with
  | none =>
    rw [Recording.close, LocalStorage.closeSegment_of_none hlook]
    exact h
  | some closing =>
    have hr := close_retires hlook
    refine ⟨h.placed.close k, h.shaped.close k, fun p i hp => ?_, fun p i hp hclosed hf => ?_,
      fun f hf => ?_⟩
    · rw [close_names] at hp
      exact h.recordable p i hp
    · rw [close_names] at hp
      by_cases hi : i = closing.inode
      · subst hi
        obtain rfl := h.owner_eq hlook hf
        rw [hr.file h.placed.faithful, segmentHeader, passedOver_iff]
        exact hends rfl closing hlook hf
      · rw [hr.same.data hi]
        exact h.found p i hp ((hr.closed_iff hi).mp hclosed) hf
    · rw [close_names]
      exact h.all f hf

/-- Opening a segment. Only a frame in a file at its path would be lost. -/
theorem OnDisk.create (h : OnDisk source a b r) (hnone : r.storage.writers.lookup k = none)
    {timestampUs : UInt64}
    (hfile : ∀ i ∈ r.storage.fs.names.lookup (r.storage.segmentPath k timestampUs),
      ∀ g ∈ r.held i, ¬ Wanted source a b g) :
    OnDisk source a b (r.create k timestampUs) := by
  obtain ⟨created, hinode, -, -, hwriters, hnames, -, hkeep, hempty, -⟩ :=
    r.create_spec k timestampUs
  have hcreated : (r.create k timestampUs).storage.writers.lookup k = some created := by
    rw [hwriters, AList.lookup_insert]
  -- a named file other than the new one had its name before
  have hold : ∀ p i, (r.create k timestampUs).storage.fs.names.lookup p = some i →
      i ≠ created.inode → r.storage.fs.names.lookup p = some i := by
    intro p i hp hi
    rw [hnames] at hp
    split at hp
    · exact absurd (Option.some.inj hp).symm hi
    · exact hp
  refine ⟨h.placed.create hnone timestampUs, h.shaped.create k timestampUs,
    fun p i hp hdir f hf => ?_, fun p i hp hclosed hf => ?_, fun f hf => ?_⟩
  · by_cases hi : i = created.inode
    · rw [hi, hempty] at hf
      cases hf
    · rw [(hkeep i hi).2] at hf
      exact h.recordable p i (hold p i hp hi) hdir f hf
  · have hi : i ≠ created.inode := (hclosed k created hcreated).symm
    rw [(hkeep i hi).2] at hf
    rw [(hkeep i hi).1]
    exact h.found p i (hold p i hp hi) ((closed_create_iff hnone (hinode ▸ hi)).mp hclosed) hf
  · have hother : ∀ i, i ≠ r.storage.createdInode k timestampUs →
        ((r.create k timestampUs).held i).count f = (r.held i).count f :=
      fun i hi => by rw [(hkeep i (hinode ▸ hi)).2]
    have hsum := sumOver_create k timestampUs hother
    -- the file that is emptied held no wanted frame
    have hlost : HashMap.sumAt (fun _ i => (r.held i).count f) r.storage.fs.names
        (r.storage.segmentPath k timestampUs) = 0 := by
      cases hp : r.storage.fs.names.lookup (r.storage.segmentPath k timestampUs) with
      | none => exact HashMap.sumAt_of_lookup_none hp
      | some i =>
        rw [HashMap.sumAt_of_lookup hp]
        exact List.count_eq_zero.mpr fun hmem => hfile i hp f hmem hf
    rw [hlost, ← hinode, hempty] at hsum
    exact (h.all f hf).trans hsum.symm

/-- Appending a frame that can be read back, if it is one of the source. -/
theorem OnDisk.append (h : OnDisk source a b r) {f : Frame}
    (hlook : r.storage.writers.lookup f.source = some writer)
    (hrec : f.source = source → Recordable f) : OnDisk source a b (r.append id writer f) := by
  obtain ⟨-, -, -, -, -, hsame, hkeep, hheld, -⟩ := append_spec id r writer f
  have hnamed := h.placed.named _ writer hlook
  refine ⟨h.placed.append hlook, h.shaped.append h.placed.faithful hlook,
    fun p i hp hdir g hg => ?_, fun p i hp hclosed hg => ?_, fun g hg => ?_⟩
  · rw [hsame.names] at hp
    by_cases hi : i = writer.inode
    · subst hi
      rw [hheld] at hg
      rcases List.mem_append.mp hg with hg | hg
      · exact h.recordable p _ hp hdir g hg
      · obtain rfl := List.mem_singleton.mp hg
        refine hrec (SourceId.display_injective ?_)
        have hwriter := h.placed.faithful.writer _ writer hlook
        rw [← hdir, hwriter.named p hp, hwriter.path_dir]
    · rw [hkeep i hi] at hg
      exact h.recordable p i hp hdir g hg
  · rw [hsame.names] at hp
    have hclosed' := (closed_append_iff hlook).mp hclosed
    have hi : i ≠ writer.inode := (hclosed' _ writer hlook).symm
    rw [hkeep i hi] at hg
    rw [hsame.data hi]
    exact h.found p i hp hclosed' hg
  · -- only the file appended to holds more, and the log grows by the same frame
    have hother : ∀ p i, p ≠ writer.path → r.storage.fs.names.lookup p = some i →
        ((r.append id writer f).held i).count g = (r.held i).count g := by
      intro p i hp hi
      rw [hkeep i]
      rintro rfl
      exact hp (r.storage.fs.names_inj _ _ _ hi hnamed)
    have hsum := HashMap.sumOver_add_sumAt hother
    rw [HashMap.sumAt_of_lookup hnamed, HashMap.sumAt_of_lookup hnamed, hheld,
      List.count_append] at hsum
    show (r.log ++ [f]).count g = _
    rw [List.count_append, h.all g hg, hsame.names]
    show _ = HashMap.sumOver (fun _ i => ((r.append id writer f).held i).count g) _
    omega

theorem OnDisk.store (h : OnDisk source a b r) {f : Frame}
    (hkeeps : KeepsRange source a b r (.store f)) (hstore : r.store id f = some r') :
    OnDisk source a b r' := by
  rcases store_cases hstore with ⟨writer, hcurrent, rfl⟩ | ⟨hnone, _, writer, rfl, hwriter, rfl⟩
  · exact h.append (LocalStorage.currentWriter_eq_some.mp hcurrent).1 fun hf => (hkeeps hf).1
  · have hclosed : OnDisk source a b (r.close (id f).source) :=
      h.close fun hf => ((hkeeps hf).2 hnone).1
    refine (hclosed.create ?_ ?_).append hwriter fun hf => (hkeeps hf).1
    · rw [lookup_close_ite, if_pos rfl]
    · rw [close_names, segmentPath_close]
      intro i hi g hg hwanted
      -- a file at the path with a wanted frame is one of the frame's own source
      have hf : f.source = source := by
        apply SourceId.display_injective
        rw [← hwanted.1, ← h.shaped.dir_eq hi hg]
        rfl
      exact ((hkeeps hf).2 hnone).2 i hi g hg hwanted

theorem OnDisk.flush (h : OnDisk source a b r) (hends : EndsInRange source a b r) :
    OnDisk source a b r.flush := by
  refine (flush_preserves (P := fun r => OnDisk source a b r ∧ EndsInRange source a b r)
    (fun r k h => ?_) ⟨h, hends⟩).1
  exact ⟨h.1.close fun _ => h.2, fun writer hk => h.2 writer (lookup_close.mp hk).2⟩

/-- A storage that is dropped leaves its open segments with the placeholder. -/
theorem OnDisk.reopen (h : OnDisk source a b r) (hopen : a = 0 ∨ NoneOpen source a b r) :
    OnDisk source a b (r.reopen config listing) := by
  obtain ⟨-, -, -, hclosed, hdropped⟩ := drop_spec h.placed.faithful
  refine ⟨h.placed.reopen, h.shaped.reopen h.placed.faithful, fun p i hp => ?_,
    fun p i hp _ hf => ?_, fun f hf => ?_⟩
  · rw [reopen_names h.placed.faithful] at hp
    exact h.recordable p i hp
  · rw [reopen_names h.placed.faithful] at hp
    show ¬ PassedOver a b (r.drop.storage.fs.data i)
    by_cases hi : r.Closed i
    · rw [hclosed i hi]
      exact h.found p i hp hi hf
    · obtain ⟨k, writer, hlook, rfl⟩ := exists_writer_of_not_closed hi
      obtain rfl := h.owner_eq hlook hf
      rw [hdropped k writer hlook, passedOver_placeholder]
      refine not_not.mpr (hopen.resolve_right fun hnone => ?_)
      obtain ⟨f, hf, hwanted⟩ := hf
      exact hnone f (heldOpen_of_lookup hlook ▸ hf) hwanted
  · rw [reopen_names h.placed.faithful]
    exact h.all f hf

theorem onDisk_act {action : Action} (h : OnDisk source a b r)
    (hkeeps : KeepsRange source a b r action) (hr : act r action = some r') :
    OnDisk source a b r' := by
  cases action with
  | store f => exact h.store hkeeps hr
  | flush => exact Option.some.inj hr ▸ h.flush hkeeps
  | reopen config listing =>
    obtain ⟨-, hr⟩ := Option.ite_none_right_eq_some.mp hr
    exact Option.some.inj hr ▸ h.reopen hkeeps

/-! ## What the reopened storage returns -/

/-- The times of a scanned entry are those in its file's header. -/
theorem times_of_readSegmentIndex {fs : FileSystem PathBuf} {p : PathBuf} {i : Nat}
    {seg : SegmentIndex} (h : readSegmentIndex fs p = some seg)
    (hi : fs.names.lookup p = some i) :
    seg.endTimeUs < a ∨ seg.startTimeUs > b ↔ PassedOver a b (fs.data i) := by
  have hread : fs.read p = some (fs.data i) := by rw [FileSystem.read, hi]; rfl
  simp only [readSegmentIndex, hread] at h
  split at h
  · cases h
  · next header rest hheader =>
    obtain ⟨hdata, hlen⟩ := takeExact_eq_some.mp hheader
    obtain rfl := Option.some.inj h
    have hstart : headerStart (fs.data i) = UInt64.ofNat (ofLe (header.take 8)) := by
      rw [headerStart, hdata, List.take_append_of_le_length (by omega)]
    have hend : headerEnd (fs.data i) = UInt64.ofNat (ofLe ((header.drop 8).take 8)) := by
      rw [headerEnd, hdata, List.drop_append_of_le_length (by omega),
        List.take_append_of_le_length (by rw [List.length_drop]; omega)]
    rw [PassedOver, hstart, hend]

/-- Terms that are zero can be left out of a sum. -/
theorem sum_map_filter {α : Type} {p : α → Bool} {g : α → Nat} {l : List α}
    (h : ∀ x ∈ l, p x = false → g x = 0) : ((l.filter p).map g).sum = (l.map g).sum := by
  induction l with
  | nil => rfl
  | cons x l ih =>
    have hrest := ih fun y hy => h y (List.mem_cons_of_mem _ hy)
    rw [List.filter_cons, List.map_cons, List.sum_cons]
    split
    · rw [List.map_cons, List.sum_cons, hrest]
    · next hx =>
      rw [h x List.mem_cons_self (Bool.eq_false_iff.mpr hx), hrest, Nat.zero_add]

/-- The frames of a range that reading a scanned entry gives. -/
def framesIn (r : Recording Frame) (a b : UInt64) (seg : SegmentIndex) : List Frame :=
  if seg.endTimeUs < a ∨ seg.startTimeUs > b then []
  else (r.heldAt seg.path).filter fun f => f.timestampUs ≥ a && f.timestampUs ≤ b

/-- How often a file gives a frame of the range: never if it is passed over. -/
def timesIn (r : Recording Frame) (a b : UInt64) (f : Frame) (i : Nat) : Nat :=
  if PassedOver a b (r.drop.storage.fs.data i) then 0 else (r.held i).count f

theorem timesIn_of_passedOver {f : Frame} {i : Nat}
    (h : PassedOver a b (r.drop.storage.fs.data i)) : r.timesIn a b f i = 0 :=
  if_pos h

theorem timesIn_le {f : Frame} {i : Nat} : r.timesIn a b f i ≤ (r.held i).count f := by
  rw [timesIn]
  split
  · exact Nat.zero_le _
  · exact Nat.le_refl _

/-- Every entry of the source is read, up to the range its times exclude. -/
theorem readSegment_reopen (h : OnDisk source a b r)
    (hlisting : listing.Perm r.storage.fs.names.keys) {seg : SegmentIndex}
    (hseg : seg ∈ (r.reopen config listing).storage.segmentsOf source) :
    LocalStorage.readSegment (r.reopen config listing).storage.fs seg a b =
      .ok (r.framesIn a b seg) := by
  obtain ⟨hfaithful, hclosed, hnames, -⟩ := drop_spec h.placed.faithful
  have hscan := scannable_drop h.placed.faithful h.shaped hlisting
  have hsegs : ((r.reopen config listing).storage.segmentsOf source).Perm _ :=
    segmentsOf_reopen h.placed.faithful h.shaped hlisting source
  obtain ⟨hmem, hdir, -⟩ := (LocalStorage.mem_scanDir hscan).mp (hsegs.mem_iff.mp hseg)
  obtain ⟨i, hi⟩ := HashMap.mem_keys_iff.mp (hlisting.mem_iff.mp hmem)
  have hi' : r.drop.storage.fs.names.lookup seg.path = some i := hnames ▸ hi
  obtain ⟨header, hlen, hdata⟩ := hfaithful.closed _ i hi' (hclosed i)
  have hfile : r.drop.storage.fs.read seg.path =
      some (header ++ (r.held i).flatMap encodeRecord) := by
    rw [FileSystem.read, hi']
    exact congrArg some hdata
  refine (LocalStorage.readSegment_of_read hfile hlen (h.recordable _ i hi hdir) a b).trans ?_
  rw [framesIn, heldAt_of_lookup hi]

/-- Reading the entry of a file gives what `timesIn` says of the file. -/
theorem count_framesIn {p : PathBuf} {i : Nat} {seg : SegmentIndex} {f : Frame}
    (hi : r.storage.fs.names.lookup p = some i)
    (hi' : r.drop.storage.fs.names.lookup p = some i)
    (hseg : readSegmentIndex r.drop.storage.fs p = some seg) (hf : Wanted source a b f) :
    (r.framesIn a b seg).count f = r.timesIn a b f i := by
  have htimes := times_of_readSegmentIndex (a := a) (b := b) hseg hi'
  obtain rfl := (LocalStorage.of_readSegmentIndex hseg).1
  rw [framesIn, timesIn]
  by_cases hskip : PassedOver a b (r.drop.storage.fs.data i)
  · rw [if_pos (htimes.mpr hskip), if_pos hskip, List.count_nil]
  · rw [if_neg (mt htimes.mp hskip), if_neg hskip, heldAt_of_lookup hi, List.count_filter]
    rw [decide_eq_true hf.2.1, decide_eq_true hf.2.2]
    rfl

/-- A file outside the directory of the source holds none of its frames. -/
theorem timesIn_of_dir_ne (h : OnDisk source a b r) {p : PathBuf} {i : Nat} {f : Frame}
    (hi : r.storage.fs.names.lookup p = some i) (hdir : p.dir ≠ source.display)
    (hf : Wanted source a b f) : r.timesIn a b f i = 0 := by
  rw [timesIn]
  split
  · rfl
  · refine List.count_eq_zero.mpr fun hmem => hdir ?_
    rw [h.shaped.dir_eq hi hmem, hf.1]

/-- A wanted frame comes back as often as the files that are not passed over hold it. -/
theorem getFrames_reopen (h : OnDisk source a b r) (config : LocalStorageConfig)
    (hlisting : listing.Perm r.storage.fs.names.keys) :
    ∃ frames, (r.reopen config listing).storage.getFrames source a b = .ok frames ∧
      ∀ f, Wanted source a b f →
        frames.count f = HashMap.sumOver (fun _ => r.timesIn a b f) r.storage.fs.names := by
  have hscan := scannable_drop h.placed.faithful h.shaped hlisting
  have hnames := (drop_spec h.placed.faithful).2.2.1
  have hnamed : ∀ p ∈ listing, ∃ i, r.storage.fs.names.lookup p = some i := fun p hp =>
    HashMap.mem_keys_iff.mp (hlisting.mem_iff.mp hp)
  refine ⟨_, LocalStorage.getFrames_eq fun seg => readSegment_reopen h hlisting, fun f hf => ?_⟩
  -- one entry for every file of the source's directory
  have hentries : ((LocalStorage.scanDir r.drop.storage.fs listing source.display).map
        fun seg => (r.framesIn a b seg).count f) =
      (listing.filter fun p => p.dir = source.display).map
        (HashMap.sumAt (fun _ => r.timesIn a b f) r.storage.fs.names) := by
    rw [LocalStorage.scanDir_eq hscan]
    refine map_filterMap_of_some fun p hp => ?_
    have hmem := List.mem_of_mem_filter hp
    obtain ⟨seg, hseg⟩ := Option.isSome_iff_exists.mp (hscan p hmem).2.2
    obtain ⟨i, hi⟩ := hnamed p hmem
    refine ⟨seg, hseg, ?_⟩
    rw [HashMap.sumAt_of_lookup hi, count_framesIn hi (hnames ▸ hi) hseg hf]
  -- and nothing of it in the others
  have hothers : ∀ p ∈ listing, decide (p.dir = source.display) = false →
      HashMap.sumAt (fun _ => r.timesIn a b f) r.storage.fs.names p = 0 := by
    intro p hp hdir
    obtain ⟨i, hi⟩ := hnamed p hp
    rw [HashMap.sumAt_of_lookup hi, timesIn_of_dir_ne h hi (of_decide_eq_false hdir) hf]
  calc (List.insertionSort _ _).count f
      = (((r.reopen config listing).storage.segmentsOf source).map
          fun seg => (r.framesIn a b seg).count f).sum := by
        rw [(List.perm_insertionSort _ _).count_eq, List.count_flatMap]
        rfl
    _ = ((LocalStorage.scanDir r.drop.storage.fs listing source.display).map
          fun seg => (r.framesIn a b seg).count f).sum :=
        ((segmentsOf_reopen h.placed.faithful h.shaped hlisting source).map _).sum_nat
    _ = (listing.map (HashMap.sumAt (fun _ => r.timesIn a b f) r.storage.fs.names)).sum := by
        rw [hentries, sum_map_filter hothers]
    _ = HashMap.sumOver (fun _ => r.timesIn a b f) r.storage.fs.names :=
        (HashMap.sumOver_eq_sum_keys hlisting).symm

/-- Some elements of a list are among others, each as often as it is in the list. -/
theorem filter_subperm_iff {P : Frame → Prop} [DecidablePred P] {l frames : List Frame} :
    (l.filter P).Subperm frames ↔ ∀ f, P f → l.count f ≤ frames.count f := by
  have hfilter : ∀ f, P f → (l.filter P).count f = l.count f := fun f hf =>
    List.count_filter (p := fun g => decide (P g)) (decide_eq_true hf)
  rw [List.subperm_ext_iff]
  constructor
  · intro hall f hf
    by_cases hmem : f ∈ l
    · rw [← hfilter f hf]
      exact hall f (List.mem_filter.mpr ⟨hmem, decide_eq_true hf⟩)
    · rw [List.count_eq_zero.mpr hmem]
      exact Nat.zero_le _
  · intro hall f hf
    have hf : P f := of_decide_eq_true (List.mem_filter.mp hf).2
    rw [hfilter f hf]
    exact hall f hf

/-- The log is what the actions stored. -/
theorem run_act_log {actions : List Action} (hrun : Machine.run act r actions = some r') :
    r'.log = r.log ++ stored actions := by
  refine Machine.run_appends log _ (fun s action t ht => ?_) hrun
  cases action with
  | store f => exact store_log ht
  | flush =>
    obtain rfl := Option.some.inj ht
    exact (List.append_nil _).symm
  | reopen config listing =>
    obtain ⟨-, ht⟩ := Option.ite_none_right_eq_some.mp ht
    obtain rfl := Option.some.inj ht
    exact (List.append_nil _).symm

/-- **What survives a restart.** In any run of stores, flushes and reopenings on an empty
directory whose steps keep the frames of a source and a range, the storage is dropped and its
directory opened again, the files listed in any order. Then reading the range gives every
frame stored, each as often as it was stored, if and only if the range starts at 0 or the
source's open segment held none of its frames. -/
theorem survives_iff (start config : LocalStorageConfig) (actions : List Action)
    (source : SourceId) (a b : UInt64) (listing : List PathBuf)
    (hkeeps : Machine.EachStep act (fun r action _ => KeepsRange source a b r action)
      (onEmptyRoot start) actions)
    (hrun : Machine.run act (onEmptyRoot start) actions = some r)
    (hlisting : listing.Perm r.storage.fs.names.keys) :
    (∃ frames, (r.reopen config listing).storage.getFrames source a b = .ok frames ∧
      ((stored actions).filter (Wanted source a b)).Subperm frames) ↔
    a = 0 ∨ NoneOpen source a b r := by
  have halways : Machine.Always act (OnDisk source a b) (onEmptyRoot start) actions :=
    Machine.always_of_eachStep (.onEmptyRoot start)
      (fun _ _ _ h hkeeps hr => onDisk_act h hkeeps hr) hkeeps
  have h := halways.final hrun
  obtain ⟨frames, hframes, hcount⟩ := getFrames_reopen h config hlisting
  have hlog : r.log = stored actions := run_act_log hrun
  rw [← hlog]
  have hexists : (∃ frames, (r.reopen config listing).storage.getFrames source a b = .ok frames ∧
      (r.log.filter (Wanted source a b)).Subperm frames) ↔
      ∀ f, Wanted source a b f → r.log.count f ≤ frames.count f := by
    rw [← filter_subperm_iff, hframes]
    exact ⟨fun ⟨_, heq, hsub⟩ => Except.ok.inj heq ▸ hsub, fun hsub => ⟨frames, rfl, hsub⟩⟩
  rw [hexists]
  constructor
  · intro hall
    refine or_iff_not_imp_left.mpr fun ha f hf hwanted => ?_
    -- the file of the open segment holds the frame, and is passed over
    obtain ⟨writer, hlook, hmem⟩ : ∃ writer, r.storage.writers.lookup source = some writer ∧
        f ∈ r.held writer.inode := by
      rw [heldOpen] at hf
      split at hf
      · next writer hlook => exact ⟨writer, hlook, hf⟩
      · cases hf
    have hdropped := (drop_spec h.placed.faithful).2.2.2.2 source writer hlook
    have hlost : PassedOver a b (r.drop.storage.fs.data writer.inode) := by
      rw [hdropped, passedOver_placeholder]
      exact ha
    refine Nat.not_lt.mpr (hall f hwanted) ?_
    rw [hcount f hwanted, h.all f hwanted]
    refine HashMap.sumOver_lt (fun p i _ => timesIn_le) (h.placed.named source writer hlook) ?_
    rw [timesIn_of_passedOver hlost]
    exact List.count_pos_iff.mpr hmem
  · intro hopen f hf
    rw [hcount f hf, h.all f hf]
    refine HashMap.sumOver_mono fun p i hp => ?_
    by_cases hlost : PassedOver a b (r.drop.storage.fs.data i)
    · -- nothing wanted is in a file that is passed over
      rw [timesIn_of_passedOver hlost]
      refine Nat.le_of_eq (List.count_eq_zero.mpr fun hmem => ?_)
      have hreopened : OnDisk source a b (r.reopen config listing) := h.reopen hopen
      refine hreopened.found p i ?_ (fun k w hk => ?_) ⟨f, hmem, hf⟩ hlost
      · rw [reopen_names h.placed.faithful]
        exact hp
      · cases (lookup_reopen config r listing k).symm.trans hk
    · rw [timesIn, if_neg hlost]

/-- Two windows, the second of them open when the storage is dropped: the first is found. -/
theorem survives_closedWindow :
    ∃ r, Machine.run act (onEmptyRoot oneSecond)
        [.store (cameraFrame 5), .store (cameraFrame 1_000_007)] = some r ∧
      ∃ frames, (r.reopen oneSecond r.storage.fs.names.keys).storage.getFrames camera 1 9 =
          .ok frames ∧
        ((stored [.store (cameraFrame 5), .store (cameraFrame 1_000_007)]).filter
          (Wanted camera 1 9)).Subperm frames := by
  have hrun : (Machine.run act (onEmptyRoot oneSecond)
      [.store (cameraFrame 5), .store (cameraFrame 1_000_007)]).isSome := by
    decide +kernel
  have hopen : (Machine.run act (onEmptyRoot oneSecond)
      [.store (cameraFrame 5), .store (cameraFrame 1_000_007)]).all
        fun r => decide (NoneOpen camera 1 9 r) := by
    decide +kernel
  obtain ⟨r, hr⟩ := Option.isSome_iff_exists.mp hrun
  rw [hr] at hopen
  exact ⟨r, hr, (survives_iff oneSecond oneSecond _ camera 1 9 _ (by decide +kernel) hr
    (.refl _)).mpr (.inr (of_decide_eq_true hopen))⟩

/-- A single frame, in the segment that was open when the storage was dropped: its file is
found again, and the frame is not. -/
theorem openSegment_lost :
    (Machine.run act (onEmptyRoot oneSecond) [.store (cameraFrame 5)]).map (fun r =>
        let reopened := (r.reopen oneSecond r.storage.fs.names.keys).storage
        (reopened.usageBytes, reopened.getFrames camera 5 5)) = some (43, .ok []) ∧
    ¬ ((stored [.store (cameraFrame 5)]).filter (Wanted camera 5 5)).Subperm [] := by
  decide +kernel

end Recording

end Kodama
