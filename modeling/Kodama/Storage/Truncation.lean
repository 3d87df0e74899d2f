import Kodama.Storage.Cloud

/-!
# Truncated segments (crates/kodama/src/storage/local.rs, cloud.rs)

Both backends read a segment as length-prefixed records, until no more of them is there. The
cloud loop stops before any record that is not whole. The local loop stops where the length
prefix is not whole, and fails where the prefix is but the frame is not. So a segment that was
cut reads as its complete frames in both if and only if the cut leaves less than a length
prefix (`alike_iff`).

The library fact behind it is that both loops read whole records one by one
(`readRecordsLoop_append`, `readRecordsFrom_append`); what is left for each is the tail.
-/

namespace Kodama

open Lib

/-- The record loop of the local `get_frames`, with its filter. -/
def LocalStorage.readRange (file : Bytes) (startTimeUs endTimeUs : UInt64) :
    Result (List Frame) := do
  let frames ← readRecords file
  return frames.filter fun frame =>
    frame.timestampUs ≥ startTimeUs && frame.timestampUs ≤ endTimeUs

/-- This is what is done with an indexed file after its header. -/
theorem LocalStorage.readSegment_eq_readRange {fs : FileSystem PathBuf} {seg : SegmentIndex}
    {file : Bytes} {a b : UInt64} (hrange : ¬ (seg.endTimeUs < a ∨ seg.startTimeUs > b))
    (hread : fs.read seg.path = some file) :
    readSegment fs seg a b = readRange (file.drop 20) a b := by
  rw [readSegment, if_neg hrange, hread]
  rfl

/-- The frames whose records lie within the first `cut` bytes. -/
def completeFrames : List Frame → Nat → List Frame
  | [], _ => []
  | f :: frames, cut =>
    if (encodeRecord f).length ≤ cut then
      f :: completeFrames frames (cut - (encodeRecord f).length)
    else []

/-- Both backends read the complete frames in the range. -/
def Alike (frames : List Frame) (file : Bytes) (a b : UInt64) : Prop :=
  let complete := (completeFrames frames file.length).filter fun frame =>
    frame.timestampUs ≥ a && frame.timestampUs ≤ b
  LocalStorage.readRange file a b = .ok complete ∧ CloudStorage.readRange file a b = .ok complete

/-! ## Where a record is cut -/

section Cut

variable {frames : List Frame} {f : Frame} {file tail : Bytes}

/-- What a cut leaves of the next record: less than its length prefix, or that and not all of
its frame. -/
inductive CutRecord (frames : List Frame) (tail : Bytes) : Prop
  | length (hshort : tail.length < 4)
  | frame (f : Frame) (body : Bytes) (hf : f ∈ frames)
    (htail : tail = toLe 4 (UInt32.ofNat (frameToBytes f).length).toNat ++ body)
    (hshort : body.length < (frameToBytes f).length)

theorem cutRecord_of_prefix (hf : f ∈ frames) (htail : tail <+: encodeRecord f)
    (hshort : tail.length < (encodeRecord f).length) : CutRecord frames tail := by
  by_cases hlen : tail.length < 4
  · exact .length hlen
  · rw [encodeRecord_length] at hshort
    have hlength := toLe_length 4 (UInt32.ofNat (frameToBytes f).length).toNat
    obtain ⟨body, rfl⟩ : toLe 4 (UInt32.ofNat (frameToBytes f).length).toNat <+: tail :=
      List.prefix_of_prefix_length_le (List.prefix_append _ _) htail (by omega)
    rw [List.length_append] at hshort
    exact .frame f body hf rfl (by omega)

/-- A prefix of some records is the complete ones, and a cut record. -/
theorem exists_cutRecord (h : file <+: frames.flatMap encodeRecord) :
    ∃ tail, file = (completeFrames frames file.length).flatMap encodeRecord ++ tail ∧
      CutRecord frames tail := by
  induction frames generalizing file with
  | nil => exact ⟨[], List.prefix_nil.mp h, .length (by decide)⟩
  | cons f frames ih =>
    rw [List.flatMap_cons] at h
    rw [completeFrames]
    split
    · next hle =>
      obtain ⟨rest, rfl⟩ := List.prefix_of_prefix_length_le (List.prefix_append _ _) h hle
      rw [List.prefix_append_right_inj] at h
      obtain ⟨tail, hrest, hcut⟩ := ih h
      refine ⟨tail, ?_, ?_⟩
      · rw [List.length_append, Nat.add_sub_cancel_left, List.flatMap_cons, List.append_assoc,
          ← hrest]
      · cases hcut with
        | length hshort => exact .length hshort
        | frame g body hg htail hshort =>
          exact .frame g body (List.mem_cons_of_mem _ hg) htail hshort
    · next hlt =>
      have hpre := List.prefix_of_prefix_length_le h (List.prefix_append _ _)
        (Nat.le_of_not_le hlt)
      exact ⟨file, rfl, cutRecord_of_prefix List.mem_cons_self hpre (Nat.lt_of_not_le hlt)⟩

theorem completeFrames_subset (frames : List Frame) (cut : Nat) :
    completeFrames frames cut ⊆ frames := by
  induction frames generalizing cut with
  | nil => exact List.Subset.refl _
  | cons f frames ih =>
    rw [completeFrames]
    split
    · exact List.cons_subset_cons _ (ih _)
    · exact List.nil_subset _

end Cut

/-! ## The local loop -/

section Local

variable {frames : List Frame} {tail : Bytes}

/-- After the prefix, a frame that is not whole is an error. -/
theorem readRecordsLoop_cutRecord (hframes : ∀ f ∈ frames, Recordable f) {n : Nat}
    (hn : tail.length ≤ n) (h : CutRecord frames tail) :
    readRecordsLoop n tail =
      if tail.length < 4 then .ok [] else .error "failed to fill whole buffer" := by
  cases h with
  | length hshort =>
    rw [if_pos hshort]
    cases n with
    | zero => rfl
    | succ n => rw [readRecordsLoop, takeExact, if_neg (by omega)]
  | frame f body hf htail hshort =>
    have hlength := toLe_length 4 (UInt32.ofNat (frameToBytes f).length).toNat
    have htail4 : 4 ≤ tail.length := by
      rw [htail, List.length_append, hlength]
      exact Nat.le_add_right _ _
    obtain ⟨n, rfl⟩ : ∃ m, n = m + 1 := ⟨n - 1, by omega⟩
    rw [if_neg (by omega), htail, readRecordsLoop, takeExact_append _ hlength]
    simp only [ofLe_recordPrefix (hframes f hf), readExactFile, takeExact]
    rw [if_neg (by omega)]
    rfl

theorem local_readRange_eq {file : Bytes} {complete : List Frame} (a b : UInt64)
    (hcomplete : ∀ f ∈ complete, Recordable f) (hframes : ∀ f ∈ frames, Recordable f)
    (hfile : file = complete.flatMap encodeRecord ++ tail) (hcut : CutRecord frames tail) :
    LocalStorage.readRange file a b =
      if tail.length < 4 then .ok (complete.filter fun frame =>
        frame.timestampUs ≥ a && frame.timestampUs ≤ b)
      else .error "failed to fill whole buffer" := by
  obtain ⟨m, hm, hloop⟩ := readRecordsLoop_append hcomplete tail file.length
    (Nat.le_of_eq (congrArg List.length hfile.symm))
  rw [LocalStorage.readRange, readRecords]
  rw [← hfile, readRecordsLoop_cutRecord hframes hm hcut] at hloop
  rw [hloop]
  split
  · show Except.ok (List.filter _ (complete ++ [])) = _
    rw [List.append_nil]
  · rfl

end Local

/-! ## The cloud loop -/

namespace CloudStorage

variable {frames : List Frame} {f : Frame} {fileData rest tail : Bytes} {a b : UInt64}
  {offset : Nat}

/-- One round of the loop, at a whole record. -/
theorem readRecordsFrom_record (hf : Recordable f)
    (hdata : fileData.drop offset = encodeRecord f ++ rest) :
    readRecordsFrom fileData a b offset = do
      let frames ← readRecordsFrom fileData a b (offset + (encodeRecord f).length)
      return if f.timestampUs ≥ a && f.timestampUs ≤ b then f :: frames else frames := by
  have hlength := toLe_length 4 (UInt32.ofNat (frameToBytes f).length).toNat
  have hsize := congrArg List.length hdata
  rw [List.length_drop, List.length_append, encodeRecord_length] at hsize
  have hdata' : fileData.drop offset =
      toLe 4 (UInt32.ofNat (frameToBytes f).length).toNat ++ (frameToBytes f ++ rest) := by
    rw [hdata, encodeRecord, List.append_assoc]
  have htake : (fileData.drop offset).take 4 =
      toLe 4 (UInt32.ofNat (frameToBytes f).length).toNat := by
    rw [hdata', List.take_left' hlength]
  have hbody : (fileData.drop (offset + 4)).take (frameToBytes f).length = frameToBytes f := by
    rw [← List.drop_drop, hdata', List.drop_left' hlength, List.take_left]
  rw [readRecordsFrom, if_pos (by omega)]
  simp only [htake, ofLe_recordPrefix hf, hbody, frameFromBytes_frameToBytes_canonical hf.1]
  rw [if_neg (by omega), encodeRecord_length, Nat.add_assoc]
  rfl

/-- Where no whole record is left the loop ends. -/
theorem readRecordsFrom_cutRecord (hframes : ∀ f ∈ frames, Recordable f)
    (hdata : fileData.drop offset = tail) (h : CutRecord frames tail) :
    readRecordsFrom fileData a b offset = .ok [] := by
  have hsize := congrArg List.length hdata
  rw [List.length_drop] at hsize
  cases h with
  | length hshort => rw [readRecordsFrom, if_neg (by omega)]
  | frame f body hf htail hshort =>
    have hlength := toLe_length 4 (UInt32.ofNat (frameToBytes f).length).toNat
    rw [htail, List.length_append, hlength] at hsize
    have htake : (fileData.drop offset).take 4 =
        toLe 4 (UInt32.ofNat (frameToBytes f).length).toNat := by
      rw [hdata, htail, List.take_left' hlength]
    rw [readRecordsFrom, if_pos (by omega)]
    simp only [htake, ofLe_recordPrefix (hframes f hf)]
    rw [if_pos (by omega)]

/-- Whole records, and then a cut one. -/
theorem readRecordsFrom_append {complete : List Frame} (hcomplete : ∀ f ∈ complete, Recordable f)
    (hframes : ∀ f ∈ frames, Recordable f)
    (hdata : fileData.drop offset = complete.flatMap encodeRecord ++ tail)
    (hcut : CutRecord frames tail) :
    readRecordsFrom fileData a b offset = .ok (complete.filter fun frame =>
      frame.timestampUs ≥ a && frame.timestampUs ≤ b) := by
  induction complete generalizing offset with
  | nil => exact readRecordsFrom_cutRecord hframes hdata hcut
  | cons f complete ih =>
    rw [List.flatMap_cons, List.append_assoc] at hdata
    have hrest : fileData.drop (offset + (encodeRecord f).length) =
        complete.flatMap encodeRecord ++ tail := by
      rw [← List.drop_drop, hdata, List.drop_left]
    rw [readRecordsFrom_record (hcomplete f List.mem_cons_self) hdata,
      ih (fun g hg => hcomplete g (List.mem_cons_of_mem _ hg)) hrest, List.filter_cons]
    show Except.ok _ = _
    split <;> rfl

end CloudStorage

/-! ## Both -/

/-- **When truncated segments degrade alike.** Cut anywhere, a sequence of records reads in
both backends as its complete frames in the range if and only if fewer than four bytes of the
record that was cut are there. -/
theorem alike_iff {frames : List Frame} {file : Bytes} (hframes : ∀ f ∈ frames, Recordable f)
    (hfile : file <+: frames.flatMap encodeRecord) (a b : UInt64) :
    Alike frames file a b ↔
      file.length < ((completeFrames frames file.length).flatMap encodeRecord).length + 4 := by
  obtain ⟨tail, htail, hcut⟩ := exists_cutRecord hfile
  have hcomplete : ∀ f ∈ completeFrames frames file.length, Recordable f :=
    fun f hf => hframes f (completeFrames_subset _ _ hf)
  have hlocal := local_readRange_eq a b hcomplete hframes htail hcut
  have hcloud : CloudStorage.readRecordsFrom file a b 0 = _ :=
    CloudStorage.readRecordsFrom_append hcomplete hframes htail hcut
  have hlength := congrArg List.length htail
  rw [List.length_append] at hlength
  have hshort : file.length <
      ((completeFrames frames file.length).flatMap encodeRecord).length + 4 ↔
        tail.length < 4 := by omega
  rw [Alike, hlocal, hshort]
  constructor
  · rintro ⟨hok, -⟩
    by_contra hlong
    rw [if_neg hlong] at hok
    cases hok
  · intro hlt
    rw [if_pos hlt]
    exact ⟨rfl, hcloud⟩

/-- A frame of the source, without payload. -/
def exampleRecord : Frame := ⟨⟨[3, 1, 4, 1, 5, 9, 2, 6], rfl⟩, .video, ⟨0⟩, 0, []⟩

theorem alike_iff_between :
    Alike [exampleRecord, exampleRecord] (encodeRecord exampleRecord ++ [18, 0, 0]) 0 9 ↔
      25 < ((completeFrames [exampleRecord, exampleRecord] 25).flatMap encodeRecord).length + 4 :=
  alike_iff (by decide) (by decide) 0 9

/-- One byte after the length prefix is enough for the local backend to fail. -/
theorem truncated_not_alike : ¬ ∀ (frames : List Frame) (file : Bytes),
    (∀ f ∈ frames, Recordable f) → file <+: frames.flatMap encodeRecord →
      ∀ a b, Alike frames file a b := by
  intro h
  have halike := h [exampleRecord] ((encodeRecord exampleRecord).take 5) (by decide) (by decide) 0 9
  have hlocal : LocalStorage.readRange ((encodeRecord exampleRecord).take 5) 0 9 =
      .error "failed to fill whole buffer" := by decide
  cases hlocal.symm.trans halike.1

end Kodama
