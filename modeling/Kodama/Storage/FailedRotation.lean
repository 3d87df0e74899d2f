import Kodama.Lib.Machine
import Kodama.Storage.Cloud

/-!
# Rotations that fail (crates/kodama/src/storage/cloud.rs)

A frame that has been accepted is owned by the storage as long as the index or the map of
local segments has the segment it is in. `get_or_create_segment` takes the old segment out of
the map before it is flushed and uploaded, and an error of these returns at once: the segment
is then in neither. So a run of `store_frame` and `get_frames` calls keeps what it accepted if
and only if no rotation fails for a segment that holds accepted frames (`always_owns_iff`).
-/

namespace Kodama

open Lib

namespace CloudStorage

variable {st : CloudStorage} {source : SourceId} {segment : LocalSegment} {frame : Frame}
  {answers : StoreAnswers}

/-- The frames of a source in the index. -/
def indexedFrames (st : CloudStorage) (source : SourceId) : List Frame :=
  ((st.index.segments.lookup source).getD []).flatMap SegmentInfo.frames

/-- The frames of a source in its local segment. -/
def bufferedFrames (st : CloudStorage) (source : SourceId) : List Frame :=
  ((st.localSegments.lookup source).map LocalSegment.frames).getD []

/-- The frames of a source that the storage owns. -/
def ownedFrames (st : CloudStorage) (source : SourceId) : List Frame :=
  st.indexedFrames source ++ st.bufferedFrames source

/-- The segment is of another window than the frame. -/
def Rotates (st : CloudStorage) (segment : LocalSegment) (timestampUs : UInt64) : Prop :=
  st.config.segmentDurationUs ≠ 0 ∧
    st.segmentStart segment.startTimeUs ≠ st.segmentStart timestampUs

/-- The segment's flush or upload fails. -/
def FinalizeFails (st : CloudStorage) (segment : LocalSegment) (answers : StoreAnswers) : Prop :=
  answers.flush.isSome ∨ answers.upload.isSome ∨ st.fs.names.lookup segment.path = none

instance (st : CloudStorage) (segment : LocalSegment) (timestampUs : UInt64) :
    Decidable (st.Rotates segment timestampUs) :=
  inferInstanceAs (Decidable (_ ∧ _))

instance (st : CloudStorage) (segment : LocalSegment) (answers : StoreAnswers) :
    Decidable (st.FinalizeFails segment answers) :=
  inferInstanceAs (Decidable (_ ∨ _ ∨ _))

/-! ## What the parts of a call do to what is owned -/

/-- The index and the map decide what is owned. -/
theorem ownedFrames_congr {st' : CloudStorage} (hindex : st'.index = st.index)
    (hsegments : st'.localSegments = st.localSegments) : st'.ownedFrames = st.ownedFrames := by
  funext k
  rw [ownedFrames, ownedFrames, indexedFrames, indexedFrames, bufferedFrames, bufferedFrames,
    hindex, hsegments]

/-- A change of the map at one source. -/
theorem bufferedFrames_ite {st' : CloudStorage} {entry : Option LocalSegment}
    (h : ∀ k, st'.localSegments.lookup k =
      if k = source then entry else st.localSegments.lookup k) (k : SourceId) :
    st'.bufferedFrames k =
      if k = source then (entry.map LocalSegment.frames).getD [] else st.bufferedFrames k := by
  rw [bufferedFrames, h]
  split <;> rfl

theorem finalizeSegment_of_fails (source : SourceId) (h : st.FinalizeFails segment answers) :
    ∃ e, (st.finalizeSegment source segment answers).2 = .error e ∧
      (st.finalizeSegment source segment answers).1.index = st.index ∧
      (st.finalizeSegment source segment answers).1.localSegments = st.localSegments := by
  rw [finalizeSegment]
  cases hflush : answers.flush with
  | some e => exact ⟨e, rfl, rfl, rfl⟩
  | none =>
    cases hupload : answers.upload with
    | some e => exact ⟨_, rfl, rfl, rfl⟩
    | none =>
      have hpath : st.fs.names.lookup segment.path = none :=
        (h.resolve_left (by simp [hflush])).resolve_left (by simp [hupload])
      have hread : (segment.file.flush st.fs).1.read segment.path = none := by
        rw [FileSystem.read, (BufWriter.flush_sameBut segment.file st.fs).names, hpath]
        rfl
      simp only [uploadToS3, hread]
      exact ⟨_, rfl, rfl, rfl⟩

theorem finalizeSegment_of_not_fails (source : SourceId)
    (h : ¬ st.FinalizeFails segment answers) :
    (st.finalizeSegment source segment answers).2 = .ok () ∧
      (st.finalizeSegment source segment answers).1.localSegments = st.localSegments ∧
      (st.finalizeSegment source segment answers).1.indexedFrames =
        Function.update st.indexedFrames source (st.indexedFrames source ++ segment.frames) := by
  obtain ⟨hflush, hupload, hpath⟩ : answers.flush = none ∧ answers.upload = none ∧
      st.fs.names.lookup segment.path ≠ none := by
    simpa [FinalizeFails, not_or] using h
  obtain ⟨i, hi⟩ := Option.ne_none_iff_exists'.mp hpath
  have hread : (segment.file.flush st.fs).1.read segment.path =
      some ((segment.file.flush st.fs).1.data i) := by
    rw [FileSystem.read, (BufWriter.flush_sameBut segment.file st.fs).names, hi]
    rfl
  rw [finalizeSegment, hflush, hupload]
  simp only [uploadToS3, hread]
  refine ⟨rfl, rfl, funext fun k => ?_⟩
  rw [Function.update_apply, indexedFrames]
  show List.flatMap SegmentInfo.frames
    (((st.index.segments.insert source _).lookup k).getD []) = _
  rw [HashMap.lookup_insert_ite]
  split
  · rw [Option.getD_some, List.flatMap_append, List.flatMap_singleton]
    rfl
  · rfl

/-- A new segment is empty. -/
theorem ownedFrames_createSegment (h : st.localSegments.lookup source = none)
    (timestampUs : UInt64) :
    (st.createSegment source timestampUs).ownedFrames = st.ownedFrames := by
  funext k
  rw [ownedFrames, bufferedFrames_ite (HashMap.lookup_insert_ite st.localSegments source · _),
    ownedFrames]
  split
  · next hk =>
    rw [hk, bufferedFrames, h]
    rfl
  · rfl

theorem ownedFrames_tryCreateSegment (h : st.localSegments.lookup source = none)
    (timestampUs : UInt64) (answers : StoreAnswers) :
    (st.tryCreateSegment source timestampUs answers).1.ownedFrames = st.ownedFrames := by
  rw [tryCreateSegment]
  split
  · rfl
  · exact ownedFrames_createSegment h timestampUs

/-- Replacing the segment of a source, by one with other frames. -/
theorem ownedFrames_insert (st : CloudStorage) (source : SourceId) (segment : LocalSegment)
    (fs : FileSystem PathBuf) :
    ownedFrames { st with fs, localSegments := st.localSegments.insert source segment } =
      Function.update st.ownedFrames source (st.indexedFrames source ++ segment.frames) := by
  funext k
  rw [Function.update_apply, ownedFrames,
    bufferedFrames_ite (HashMap.lookup_insert_ite st.localSegments source · _), ownedFrames]
  split
  · next hk =>
    rw [hk]
    rfl
  · rfl

/-- The segment of a source is taken out of the map. -/
theorem bufferedFrames_erase {st' : CloudStorage}
    (h : st'.localSegments = st.localSegments.erase source) (k : SourceId) :
    st'.bufferedFrames k = if k = source then [] else st.bufferedFrames k := by
  have hlookup : ∀ k, st'.localSegments.lookup k =
      if k = source then none else st.localSegments.lookup k := by
    rw [h]
    exact HashMap.lookup_erase_ite st.localSegments source
  exact bufferedFrames_ite hlookup k

/-- A segment that has been taken out of the map and is not finalized is lost. -/
theorem finalizeSegment_erase_of_fails (source : SourceId)
    (h : st.FinalizeFails segment answers) :
    ∃ st' e, finalizeSegment { st with localSegments := st.localSegments.erase source } source
        segment answers = (st', .error e) ∧
      st'.ownedFrames = Function.update st.ownedFrames source (st.indexedFrames source) := by
  have hremoved : FinalizeFails { st with localSegments := st.localSegments.erase source } segment
      answers := h
  obtain ⟨e, herror, hindex, hsegments⟩ := finalizeSegment_of_fails source hremoved
  refine ⟨_, e, Prod.ext rfl herror, ?_⟩
  rw [ownedFrames_congr hindex hsegments]
  funext k
  rw [Function.update_apply, ownedFrames, bufferedFrames_erase rfl]
  split
  · next hk =>
    rw [hk, List.append_nil]
    rfl
  · rfl

/-- One that is finalized goes from the map into the index. -/
theorem finalizeSegment_erase_of_not_fails (hlook : st.localSegments.lookup source = some segment)
    (h : ¬ st.FinalizeFails segment answers) :
    ∃ st', finalizeSegment { st with localSegments := st.localSegments.erase source } source
        segment answers = (st', .ok ()) ∧
      st'.localSegments.lookup source = none ∧ st'.ownedFrames = st.ownedFrames := by
  have hremoved : ¬ FinalizeFails { st with localSegments := st.localSegments.erase source }
      segment answers := h
  obtain ⟨hok, hsegments, hindexed⟩ := finalizeSegment_of_not_fails source hremoved
  refine ⟨_, Prod.ext rfl hok, ?_, ?_⟩
  · rw [hsegments]
    exact AList.lookup_erase _ _
  · funext k
    rw [ownedFrames, bufferedFrames_erase hsegments, hindexed, Function.update_apply, ownedFrames]
    split
    · next hk =>
      rw [hk, List.append_nil, bufferedFrames, hlook]
      rfl
    · rfl

/-- A rotation that fails drops the old segment; one that does not puts it into the index. -/
theorem getOrCreateSegment_owned (st : CloudStorage) (source : SourceId) (timestampUs : UInt64)
    (answers : StoreAnswers) :
    (∃ segment, st.localSegments.lookup source = some segment ∧ st.Rotates segment timestampUs ∧
      st.FinalizeFails segment answers ∧
      (∃ e, (st.getOrCreateSegment source timestampUs answers).2 = .error e) ∧
      (st.getOrCreateSegment source timestampUs answers).1.ownedFrames =
        Function.update st.ownedFrames source (st.indexedFrames source)) ∨
    ((∀ segment ∈ st.localSegments.lookup source,
        st.Rotates segment timestampUs → ¬ st.FinalizeFails segment answers) ∧
      (st.getOrCreateSegment source timestampUs answers).1.ownedFrames = st.ownedFrames) := by
  rw [getOrCreateSegment]
  by_cases hduration : st.config.segmentDurationUs = 0
  · rw [if_pos hduration]
    exact .inr ⟨fun _ _ hrotates => absurd hduration hrotates.1, rfl⟩
  · rw [if_neg hduration]
    cases hlook : st.localSegments.lookup source with
    | none =>
      exact .inr ⟨fun _ h => (by cases h), ownedFrames_tryCreateSegment hlook timestampUs answers⟩
    | some segment =>
      simp only []
      by_cases hwindow : st.segmentStart segment.startTimeUs = st.segmentStart timestampUs
      · rw [if_pos hwindow]
        refine .inr ⟨fun segment' h hrotates => ?_, rfl⟩
        obtain rfl := Option.some.inj h
        exact absurd hwindow hrotates.2
      · rw [if_neg hwindow]
        by_cases hfails : st.FinalizeFails segment answers
        · obtain ⟨st', e, hfinalize, howned⟩ := finalizeSegment_erase_of_fails source hfails
          rw [hfinalize]
          exact .inl ⟨segment, rfl, ⟨hduration, hwindow⟩, hfails, ⟨e, rfl⟩, howned⟩
        · obtain ⟨st', hfinalize, hnone, howned⟩ := finalizeSegment_erase_of_not_fails hlook hfails
          rw [hfinalize]
          refine .inr ⟨fun segment' h _ => Option.some.inj h ▸ hfails, ?_⟩
          exact (ownedFrames_tryCreateSegment hnone timestampUs answers).trans howned

/-- What a call does to what is owned: it drops a segment and fails; or it drops none, and
adds its frame if it succeeds. -/
theorem storeFrame_owned (st : CloudStorage) (frame : Frame) (answers : StoreAnswers) :
    (∃ segment, st.localSegments.lookup frame.source = some segment ∧
      st.Rotates segment frame.timestampUs ∧ st.FinalizeFails segment answers ∧
      (∃ e, (st.storeFrame frame answers).2 = .error e) ∧
      (st.storeFrame frame answers).1.ownedFrames =
        Function.update st.ownedFrames frame.source (st.indexedFrames frame.source)) ∨
    ((∀ segment ∈ st.localSegments.lookup frame.source,
        st.Rotates segment frame.timestampUs → ¬ st.FinalizeFails segment answers) ∧
      ((∃ e, (st.storeFrame frame answers).2 = .error e ∧
          (st.storeFrame frame answers).1.ownedFrames = st.ownedFrames) ∨
        (st.storeFrame frame answers).2 = .ok () ∧
          (st.storeFrame frame answers).1.ownedFrames = Function.update st.ownedFrames
            frame.source (st.ownedFrames frame.source ++ [frame]))) := by
  have howned := getOrCreateSegment_owned st frame.source frame.timestampUs answers
  rw [storeFrame, writeFrame]
  generalize st.getOrCreateSegment frame.source frame.timestampUs answers = r at howned
  obtain ⟨st', result⟩ := r
  rcases howned with ⟨segment, hlook, hrotates, hfails, ⟨e, herror⟩, howned⟩ | ⟨hkeeps, howned⟩
  · obtain rfl : result = .error e := herror
    exact .inl ⟨segment, hlook, hrotates, hfails, ⟨e, rfl⟩, howned⟩
  · have howned : st'.ownedFrames = st.ownedFrames := howned
    refine .inr ⟨hkeeps, ?_⟩
    cases result with
    | error e => exact .inl ⟨e, rfl, howned⟩
    | ok =>
      simp only []
      have hbuffered : ∀ segment, st'.localSegments.lookup frame.source = some segment →
          st'.indexedFrames frame.source ++ segment.frames = st.ownedFrames frame.source := by
        intro segment hlook
        rw [← howned, ownedFrames, bufferedFrames, hlook]
        rfl
      cases hlook : st'.localSegments.lookup frame.source with
      | none => exact .inl ⟨_, rfl, howned⟩
      | some segment =>
        cases answers.write with
        | some fault =>
          refine .inl ⟨_, rfl, ?_⟩
          show (st'.failRecord segment frame fault).ownedFrames = _
          rw [failRecord, ownedFrames_insert, hbuffered segment hlook, howned]
          exact Function.update_eq_self _ _
        | none =>
          refine .inr ⟨rfl, ?_⟩
          show (st'.appendRecord segment frame).ownedFrames = _
          rw [appendRecord, ownedFrames_insert, ← List.append_assoc, hbuffered segment hlook,
            howned]

/-- Reading leaves index and map. -/
theorem getSegment_owned (st : CloudStorage) (source : SourceId) (seg : SegmentInfo)
    (a b : UInt64) (answer : Option String) :
    (st.getSegment source seg a b answer).1.ownedFrames = st.ownedFrames := by
  have hdownload : ∀ st' : CloudStorage × Result Unit,
      (if st.fs.hasPath (st.cachePath source seg.startTimeUs) then (st, .ok ())
        else st.downloadFromS3 seg.key (st.cachePath source seg.startTimeUs) answer) = st' →
      st'.1.index = st.index ∧ st'.1.localSegments = st.localSegments := by
    rintro st' rfl
    split
    · exact ⟨rfl, rfl⟩
    · unfold downloadFromS3
      split <;> exact ⟨rfl, rfl⟩
  rw [getSegment]
  split
  · rfl
  · simp only []
    split
    · next heq => exact ownedFrames_congr (hdownload _ heq).1 (hdownload _ heq).2
    · next heq =>
      split <;> exact ownedFrames_congr (hdownload _ heq).1 (hdownload _ heq).2

theorem getFrames_owned (st : CloudStorage) (source : SourceId) (a b : UInt64)
    (answers : String → Option String) :
    (st.getFrames source a b answers).1.ownedFrames = st.ownedFrames := by
  have hsegments : ∀ (segments : List SegmentInfo) (st : CloudStorage),
      (st.getSegments source a b answers segments).1.ownedFrames = st.ownedFrames := by
    intro segments
    induction segments with
    | nil => exact fun _ => rfl
    | cons seg segments ih =>
      intro st
      have hseg := getSegment_owned st source seg a b (answers seg.key)
      rw [getSegments]
      generalize st.getSegment source seg a b (answers seg.key) = r at hseg
      obtain ⟨st', _ | frames⟩ := r
      · exact hseg
      · exact (ih st').trans hseg
  rw [getFrames]
  split
  · rfl
  · exact hsegments _ st

end CloudStorage

/-! ## Whole runs -/

/-- A storage, and the frames it has accepted, by source. -/
structure CloudLedger where
  storage : CloudStorage
  accepted : SourceId → List Frame

inductive CloudEvent where
  | store (frame : Frame) (answers : StoreAnswers)
  | get (source : SourceId) (startTimeUs endTimeUs : UInt64) (answers : String → Option String)

namespace CloudLedger

/-- A storage that has lost nothing so far. -/
def ofStorage (st : CloudStorage) : CloudLedger := ⟨st, st.ownedFrames⟩

def step (s : CloudLedger) : CloudEvent → Option CloudLedger
  | .store frame answers =>
    let r := s.storage.storeFrame frame answers
    match r.2 with
    | .ok () => some
      { storage := r.1
        accepted := Function.update s.accepted frame.source (s.accepted frame.source ++ [frame]) }
    | .error _ => some { s with storage := r.1 }
  | .get source startTimeUs endTimeUs answers =>
    some { s with storage := (s.storage.getFrames source startTimeUs endTimeUs answers).1 }

/-- Every accepted frame is owned, as often as it was accepted. -/
def Owns (s : CloudLedger) : Prop :=
  ∀ source, (s.accepted source).Subperm (s.storage.ownedFrames source)

/-- No rotation fails for a segment that holds accepted frames. -/
def DropsNothing (s : CloudLedger) : CloudEvent → Prop
  | .store frame answers => ∀ segment ∈ s.storage.localSegments.lookup frame.source,
    s.storage.Rotates segment frame.timestampUs → s.storage.FinalizeFails segment answers →
      segment.frames = []
  | .get .. => True

/-- No more is owned than was accepted. -/
def OwnsOnly (s : CloudLedger) : Prop :=
  ∀ source, (s.storage.ownedFrames source).length ≤ (s.accepted source).length

variable {s s' : CloudLedger} {event : CloudEvent}

/-- What a step does to what is owned and accepted. -/
theorem step_cases (hstep : s.step event = some s') :
    (∃ frame answers segment, event = .store frame answers ∧
      s.storage.localSegments.lookup frame.source = some segment ∧
      s.storage.Rotates segment frame.timestampUs ∧ s.storage.FinalizeFails segment answers ∧
      s'.accepted = s.accepted ∧ s'.storage.ownedFrames = Function.update
        s.storage.ownedFrames frame.source (s.storage.indexedFrames frame.source)) ∨
    (∃ source frames, s.DropsNothing event ∧
      s'.accepted = Function.update s.accepted source (s.accepted source ++ frames) ∧
      s'.storage.ownedFrames = Function.update s.storage.ownedFrames source
        (s.storage.ownedFrames source ++ frames)) := by
  cases event with
  | store frame answers =>
    have howned := s.storage.storeFrame_owned frame answers
    rw [step] at hstep
    generalize s.storage.storeFrame frame answers = r at hstep howned
    obtain ⟨st, result⟩ := r
    rcases howned with ⟨segment, hlook, hrotates, hfails, ⟨e, herror⟩, howned⟩ | ⟨hkeeps, howned⟩
    · obtain rfl : result = .error e := herror
      obtain rfl := Option.some.inj hstep
      exact .inl ⟨frame, answers, segment, rfl, hlook, hrotates, hfails, rfl, howned⟩
    · have hdrops : s.DropsNothing (.store frame answers) :=
        fun segment hlook hrotates hfails => absurd hfails (hkeeps segment hlook hrotates)
      rcases howned with ⟨e, herror, howned⟩ | ⟨hok, howned⟩
      · obtain rfl : result = .error e := herror
        obtain rfl := Option.some.inj hstep
        refine .inr ⟨frame.source, [], hdrops, ?_, ?_⟩
        · rw [List.append_nil, Function.update_eq_self]
        · rw [List.append_nil, Function.update_eq_self]
          exact howned
      · obtain rfl : result = .ok () := hok
        obtain rfl := Option.some.inj hstep
        exact .inr ⟨frame.source, [frame], hdrops, rfl, howned⟩
  | get source a b answers =>
    obtain rfl := Option.some.inj hstep
    refine .inr ⟨source, [], trivial, ?_, ?_⟩
    · rw [List.append_nil, Function.update_eq_self]
    · rw [List.append_nil, Function.update_eq_self]
      exact s.storage.getFrames_owned source a b answers

theorem OwnsOnly.step (h : s.OwnsOnly) (hstep : s.step event = some s') : s'.OwnsOnly := by
  intro k
  have hk := h k
  rcases step_cases hstep with ⟨frame, answers, segment, -, -, -, -, haccepted, howned⟩ |
    ⟨source, frames, -, haccepted, howned⟩
  · rw [haccepted, howned, Function.update_apply]
    split
    · next heq =>
      rw [heq, CloudStorage.ownedFrames, List.length_append] at hk
      rw [heq]
      omega
    · exact hk
  · rw [haccepted, howned, Function.update_apply, Function.update_apply]
    split
    · next heq =>
      rw [heq] at hk
      rw [List.length_append, List.length_append]
      omega
    · exact hk

/-- What the storage owns after a step that drops nothing, and only then. -/
theorem owns_step_iff (honly : s.OwnsOnly) (h : s.Owns) (hstep : s.step event = some s') :
    s'.Owns ↔ s.DropsNothing event := by
  rcases step_cases hstep with ⟨frame, answers, segment, rfl, hlook, hrotates, hfails, haccepted,
      howned⟩ | ⟨source, frames, hdrops, haccepted, howned⟩
  · have hsplit : s.storage.ownedFrames frame.source =
        s.storage.indexedFrames frame.source ++ segment.frames := by
      rw [CloudStorage.ownedFrames, CloudStorage.bufferedFrames, hlook]
      rfl
    constructor
    · intro howns segment' hlook' _ _
      obtain rfl := Option.some.inj (hlook.symm.trans hlook')
      -- there is no room for the frames of the segment
      have hle := (howns frame.source).length_le
      rw [haccepted, howned, Function.update_self] at hle
      have honly := honly frame.source
      rw [hsplit, List.length_append] at honly
      exact List.eq_nil_of_length_eq_zero (by omega)
    · intro hnothing k
      have hnil := hnothing segment hlook hrotates hfails
      rw [haccepted, howned, Function.update_apply]
      split
      · next heq =>
        have hk := h frame.source
        rw [hsplit, hnil, List.append_nil] at hk
        rwa [heq]
      · exact h k
  · refine ⟨fun _ => hdrops, fun _ k => ?_⟩
    rw [haccepted, howned, Function.update_apply, Function.update_apply]
    split
    · exact (List.subperm_append_right frames).mpr (h source)
    · exact h k

/-- **When rotations lose nothing.** From any storage, a run of calls always owns what it has
accepted if and only if no rotation fails for a segment that holds accepted frames. -/
theorem always_owns_iff (st : CloudStorage) (events : List CloudEvent) :
    Machine.Always step Owns (ofStorage st) events ↔
      Machine.EachStep step (fun s event _ => s.DropsNothing event) (ofStorage st) events :=
  Machine.always_iff_eachStep (J := OwnsOnly) (fun _ => Nat.le_refl _)
    (fun _ _ _ h hstep => OwnsOnly.step h hstep) (fun _ => List.Subperm.refl _)
    fun _ _ _ honly h hstep => owns_step_iff honly h hstep

/-- The upload of a segment with one frame fails. -/
theorem failed_rotation_loses : ¬ ∀ (st : CloudStorage) (events : List CloudEvent),
    Machine.Always step Owns (ofStorage st) events := by
  intro h
  let source : SourceId := ⟨[1, 6, 1, 8, 0, 3, 3, 9], rfl⟩
  have hrun : (Machine.run step (ofStorage (.onEmptyCache ⟨"", "cache", 10⟩))
      [.store ⟨source, .video, ⟨0⟩, 0, []⟩ {},
        .store ⟨source, .video, ⟨0⟩, 10, []⟩ { upload := some "timeout" }]).map
      (fun s => (s.accepted source, s.storage.ownedFrames source)) =
        some ([⟨source, .video, ⟨0⟩, 0, []⟩], []) := by
    decide +kernel
  obtain ⟨s, howns, hs⟩ := (h _ _).observed hrun
  obtain ⟨haccepted, howned⟩ := Prod.mk.inj hs
  have hle := (howns source).length_le
  rw [haccepted, howned] at hle
  exact absurd hle (by decide)

end CloudLedger

end Kodama
