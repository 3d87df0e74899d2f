import Kodama.Core.Frame
import Kodama.Lib.Incremental
import Mathlib.Data.List.Infix

/-!
# H.264 byte streams (crates/kodama/src/capture/h264.rs)

An Annex B stream is a sequence of NAL units, each behind a start code of three or four
bytes. `NalParser` is fed the stream in chunks; it keeps what is not finished and gives out
the units in between. Its search for a start code looks at most four bytes ahead, so what it
finds in a buffer it finds in every longer one (`findStartCode_append`). This makes the
extraction incremental, and the parser's results independent of the chunks
(`feedAll_congr`). On a stream of units that obey the emulation-prevention rules the search
finds exactly the start codes that were put there, and the parser gives the units back
(`feed_flush_annexB`).
-/

namespace Kodama

open Lib

/-- NAL unit types (5 bits). -/
inductive NalUnitType where
  | sliceNonIdr
  | sliceDataPartA
  | sliceDataPartB
  | sliceDataPartC
  | sliceIdr
  | sei
  | sps
  | pps
  | aud
  | endSeq
  | endStream
  | filler
  | unknown (n : UInt8)
deriving DecidableEq

namespace NalUnitType

/-- `From<u8> for NalUnitType`. -/
def ofU8 (value : UInt8) : NalUnitType :=
  match value &&& 0x1F with
  | 1 => sliceNonIdr
  | 2 => sliceDataPartA
  | 3 => sliceDataPartB
  | 4 => sliceDataPartC
  | 5 => sliceIdr
  | 6 => sei
  | 7 => sps
  | 8 => pps
  | 9 => aud
  | 10 => endSeq
  | 11 => endStream
  | 12 => filler
  | n => unknown n

/-- Whether this NAL unit type indicates a keyframe. -/
def isKeyframe : NalUnitType → Bool
  | sliceIdr => true
  | _ => false

end NalUnitType

/-- A parsed NAL unit; `data` includes the header byte. -/
structure NalUnit where
  nalType : NalUnitType
  nalRefIdc : UInt8
  data : Bytes
deriving DecidableEq

namespace NalUnit

/-- The unit that starts with this header byte. -/
def ofHeader (header : UInt8) (data : Bytes) : NalUnit where
  nalType := NalUnitType.ofU8 header
  nalRefIdc := header >>> 5 &&& 0x03
  data := data

/-- Parse a NAL unit from raw bytes (without start code). -/
def parse : Bytes → Option NalUnit
  | [] => none
  | header :: rest => some (ofHeader header (header :: rest))

def isKeyframe (nal : NalUnit) : Bool := nal.nalType.isKeyframe

end NalUnit

/-- Maximum NAL parser buffer size (2 MB). -/
def maxNalBufferSize : Nat := 2 * 1024 * 1024

/-- Splits a byte stream into NAL units. -/
structure NalParser where
  buffer : Bytes
deriving DecidableEq

/-- The test the search makes at a position: `00 00 01`, or `00 00 00 01`. -/
def startCodeAt (buffer : Bytes) (i : Nat) : Bool :=
  (buffer[i]? == some 0 && buffer[i + 1]? == some 0 && buffer[i + 2]? == some 1) ||
    (i + 3 < buffer.length && buffer[i]? == some 0 && buffer[i + 1]? == some 0 &&
      buffer[i + 2]? == some 0 && buffer[i + 3]? == some 1)

/-- The position of a start code, from `offset` on. -/
def findStartCode (buffer : Bytes) (offset : Nat) : Option Nat :=
  if buffer.length < offset + 3 then none
  else (List.range' offset (buffer.length - 2 - offset)).find? (startCodeAt buffer)

/-- The length of the start code at the given position. -/
def startCodeLen (buffer : Bytes) (pos : Nat) : Nat :=
  if pos + 3 < buffer.length && buffer[pos]? == some 0 && buffer[pos + 1]? == some 0 &&
      buffer[pos + 2]? == some 0 && buffer[pos + 3]? == some 1 then 4
  else 3

/-! ## Start codes -/

/-- The bytes start with a start code. -/
def StartsCode (bs : Bytes) : Prop := [0, 0, 1] <+: bs ∨ [0, 0, 0, 1] <+: bs

theorem cons_prefix_iff_getElem {b : UInt8} {code bs : Bytes} :
    b :: code <+: bs ↔ bs[0]? = some b ∧ code <+: bs.drop 1 := by
  cases bs with
  | nil => simp
  | cons a bs => simp [List.cons_prefix_cons, eq_comm]

theorem shortCode_iff {bs : Bytes} :
    [0, 0, 1] <+: bs ↔ bs[0]? = some 0 ∧ bs[1]? = some 0 ∧ bs[2]? = some 1 := by
  simp [cons_prefix_iff_getElem]

theorem longCode_iff {bs : Bytes} :
    [0, 0, 0, 1] <+: bs ↔
      bs[0]? = some 0 ∧ bs[1]? = some 0 ∧ bs[2]? = some 0 ∧ bs[3]? = some 1 := by
  simp [cons_prefix_iff_getElem]

/-- A start code of three bytes at a position. -/
theorem shortCode_drop_iff {bs : Bytes} {i : Nat} : [0, 0, 1] <+: bs.drop i ↔
    bs[i]? = some 0 ∧ bs[i + 1]? = some 0 ∧ bs[i + 2]? = some 1 := by
  simp only [shortCode_iff, List.getElem?_drop, Nat.add_zero]

/-- A start code of four bytes at a position. -/
theorem longCode_drop_iff {bs : Bytes} {i : Nat} : [0, 0, 0, 1] <+: bs.drop i ↔
    bs[i]? = some 0 ∧ bs[i + 1]? = some 0 ∧ bs[i + 2]? = some 0 ∧ bs[i + 3]? = some 1 := by
  simp only [longCode_iff, List.getElem?_drop, Nat.add_zero]

theorem startCodeAt_iff {buffer : Bytes} {i : Nat} :
    startCodeAt buffer i = true ↔ StartsCode (buffer.drop i) := by
  have hlong : buffer[i + 3]? = some 1 → i + 3 < buffer.length :=
    fun h => (List.getElem?_eq_some_iff.mp h).1
  rw [StartsCode, shortCode_drop_iff, longCode_drop_iff, startCodeAt]
  simp only [Bool.or_eq_true, Bool.and_eq_true, beq_iff_eq, decide_eq_true_eq, and_assoc]
  constructor
  · rintro (h | ⟨-, h⟩)
    · exact .inl h
    · exact .inr h
  · rintro (h | h)
    · exact .inl h
    · exact .inr ⟨hlong h.2.2.2, h⟩

theorem startCodeLen_eq (buffer : Bytes) (pos : Nat) :
    startCodeLen buffer pos = if [0, 0, 0, 1] <+: buffer.drop pos then 4 else 3 := by
  have hlong : buffer[pos + 3]? = some 1 → pos + 3 < buffer.length :=
    fun h => (List.getElem?_eq_some_iff.mp h).1
  rw [startCodeLen]
  refine if_congr ?_ rfl rfl
  rw [longCode_drop_iff]
  simp only [Bool.and_eq_true, beq_iff_eq, decide_eq_true_eq, and_assoc]
  exact ⟨fun h => h.2, fun h => ⟨hlong h.2.2.2, h⟩⟩

theorem startCodeLen_pos (buffer : Bytes) (pos : Nat) : 3 ≤ startCodeLen buffer pos := by
  rw [startCodeLen]
  split <;> omega

theorem StartsCode.length {bs : Bytes} (h : StartsCode bs) : 3 ≤ bs.length := by
  rcases h with h | h
  · exact h.length_le
  · exact Nat.le_of_succ_le h.length_le

/-- A start code takes no more than four bytes, so later ones do not matter. -/
theorem startsCode_append {bs : Bytes} (rest : Bytes) (h : 4 ≤ bs.length) :
    StartsCode (bs ++ rest) ↔ StartsCode bs := by
  have hpref : ∀ code : Bytes, code.length ≤ 4 → (code <+: bs ++ rest ↔ code <+: bs) := by
    intro code hcode
    constructor
    · intro hpre
      exact List.prefix_of_prefix_length_le hpre (List.prefix_append bs rest) (hcode.trans h)
    · exact List.prefix_append_of_prefix
  exact or_congr (hpref _ (by decide)) (hpref _ (by decide))

/-- A start code found stays one when bytes are appended. -/
theorem StartsCode.append {bs : Bytes} (h : StartsCode bs) (rest : Bytes) :
    StartsCode (bs ++ rest) :=
  h.imp List.prefix_append_of_prefix List.prefix_append_of_prefix

/-- The search stops at the first start code. -/
theorem findStartCode_eq_some {buffer : Bytes} {offset i : Nat} :
    findStartCode buffer offset = some i ↔
      offset ≤ i ∧ StartsCode (buffer.drop i) ∧
        ∀ j, offset ≤ j → j < i → ¬ StartsCode (buffer.drop j) := by
  have hlast : StartsCode (buffer.drop i) → i + 3 ≤ buffer.length := fun h => by
    have := h.length
    rw [List.length_drop] at this
    omega
  rw [findStartCode]
  split
  · next hshort =>
    refine iff_of_false (by simp) fun ⟨hi, hcode, _⟩ => ?_
    have := hlast hcode
    omega
  · simp only [List.find?_range'_eq_some, startCodeAt_iff, List.mem_range'_1, Bool.not_eq_true',
      ← Bool.not_eq_true]
    constructor
    · rintro ⟨hcode, ⟨hi, -⟩, hfirst⟩
      exact ⟨hi, hcode, hfirst⟩
    · rintro ⟨hi, hcode, hfirst⟩
      have := hlast hcode
      exact ⟨hcode, ⟨hi, by omega⟩, hfirst⟩

/-- A start code at the front. -/
theorem findStartCode_zero {buffer : Bytes} (h : StartsCode buffer) :
    findStartCode buffer 0 = some 0 :=
  findStartCode_eq_some.mpr ⟨Nat.le_refl 0, h, fun j _ hj => absurd hj (Nat.not_lt_zero j)⟩

theorem findStartCode_eq_none {buffer : Bytes} {offset : Nat} :
    findStartCode buffer offset = none ↔ ∀ j, offset ≤ j → ¬ StartsCode (buffer.drop j) := by
  have hlast : ∀ j, StartsCode (buffer.drop j) → j + 3 ≤ buffer.length := fun j h => by
    have := h.length
    rw [List.length_drop] at this
    omega
  rw [findStartCode]
  split
  · next hshort =>
    refine iff_of_true rfl fun j hj hcode => ?_
    have := hlast j hcode
    omega
  · simp only [List.find?_range'_eq_none, Bool.not_eq_true', ← Bool.not_eq_true, startCodeAt_iff]
    constructor
    · intro h j hj hcode
      have := hlast j hcode
      exact h j hj (by omega) hcode
    · exact fun h j hj _ => h j hj

/-- What is found in a buffer is found in every longer one. -/
theorem findStartCode_append {buffer : Bytes} {offset i : Nat} (rest : Bytes)
    (h : findStartCode buffer offset = some i) :
    findStartCode (buffer ++ rest) offset = some i := by
  obtain ⟨hi, hcode, hfirst⟩ := findStartCode_eq_some.mp h
  have hlen := hcode.length
  rw [List.length_drop] at hlen
  have hdrop : ∀ j ≤ i, (buffer ++ rest).drop j = buffer.drop j ++ rest := fun j hj =>
    List.drop_append_of_le_length (by omega)
  refine findStartCode_eq_some.mpr ⟨hi, ?_, fun j hj hji => ?_⟩
  · rw [hdrop i (Nat.le_refl i)]
    exact hcode.append rest
  · -- an earlier one would lie within the old buffer
    rw [hdrop j (Nat.le_of_lt hji), startsCode_append]
    · exact hfirst j hj hji
    · rw [List.length_drop]
      omega

theorem startCodeLen_append {buffer : Bytes} {pos : Nat} (rest : Bytes)
    (h : StartsCode (buffer.drop pos)) :
    startCodeLen (buffer ++ rest) pos = startCodeLen buffer pos := by
  have hlen := h.length
  rw [List.length_drop] at hlen
  rw [startCodeLen_eq, startCodeLen_eq, List.drop_append_of_le_length (by omega)]
  refine if_congr ⟨fun hlong => ?_, List.prefix_append_of_prefix⟩ rfl rfl
  rcases h with hshort | hlong'
  · -- the third byte is already known to be 1
    have hone := (shortCode_iff.mp (hshort.trans (List.prefix_append _ rest))).2.2
    cases hone.symm.trans (longCode_iff.mp hlong).2.2.1
  · exact hlong'

/-! ## Extraction -/

/-- Extract all complete NAL units from the buffer; also what remains in it. -/
def extractNals (buffer : Bytes) : List NalUnit × Bytes :=
  match _ : findStartCode buffer 0 with
  | none => ([], buffer)
  | some start =>
    let nalStart := start + startCodeLen buffer start
    match _ : findStartCode buffer nalStart with
    -- no more start codes: the remaining data stays in the buffer
    | none => ([], if start > 0 then buffer.drop start else buffer)
    | some nalEnd =>
      let afterCode := buffer.drop nalStart
      let nalData := afterCode.take (nalEnd - nalStart)
      let rest := extractNals (afterCode.drop (nalEnd - nalStart))
      ((NalUnit.parse nalData).toList ++ rest.1, rest.2)
termination_by buffer.length
decreasing_by
  have hlen := (findStartCode_eq_some.mp ‹_ = some nalEnd›).2.1.length
  have hpos := startCodeLen_pos buffer start
  simp only [List.length_drop] at hlen ⊢
  omega

section Extract

variable {buffer : Bytes} {start nalEnd : Nat}

theorem extractNals_of_none (h : findStartCode buffer 0 = none) :
    extractNals buffer = ([], buffer) := by
  rw [extractNals]
  split
  · rfl
  · next hsome => cases h.symm.trans hsome

/-- From a start code on, up to the next one if there is one. -/
theorem extractNals_of_some (hstart : findStartCode buffer 0 = some start) :
    extractNals buffer =
      match findStartCode buffer (start + startCodeLen buffer start) with
      | none => ([], buffer.drop start)
      | some nalEnd =>
        ((NalUnit.parse ((buffer.take nalEnd).drop (start + startCodeLen buffer start))).toList ++
          (extractNals (buffer.drop nalEnd)).1, (extractNals (buffer.drop nalEnd)).2) := by
  rw [extractNals]
  split
  · next hnone => cases hstart.symm.trans hnone
  · next hsome =>
    obtain rfl := Option.some.inj (hstart.symm.trans hsome)
    simp only []
    split
    · next hnone =>
      rw [hnone]
      split
      · rfl
      · next hzero => rw [Nat.eq_zero_of_not_pos hzero, List.drop_zero]
    · next nalEnd hend =>
      have hle := (findStartCode_eq_some.mp hend).1
      rw [hend]
      dsimp only
      rw [List.drop_drop, List.drop_take, Nat.add_sub_of_le hle]

theorem extractNals_of_last (hstart : findStartCode buffer 0 = some start)
    (hend : findStartCode buffer (start + startCodeLen buffer start) = none) :
    extractNals buffer = ([], buffer.drop start) := by
  rw [extractNals_of_some hstart, hend]

theorem extractNals_of_next (hstart : findStartCode buffer 0 = some start)
    (hend : findStartCode buffer (start + startCodeLen buffer start) = some nalEnd) :
    extractNals buffer =
      ((NalUnit.parse ((buffer.take nalEnd).drop (start + startCodeLen buffer start))).toList ++
        (extractNals (buffer.drop nalEnd)).1, (extractNals (buffer.drop nalEnd)).2) := by
  rw [extractNals_of_some hstart, hend]

end Extract

/-- Searching behind some bytes. -/
theorem findStartCode_drop (buffer : Bytes) (n offset : Nat) :
    findStartCode buffer (n + offset) = (findStartCode (buffer.drop n) offset).map (n + ·) := by
  cases h : findStartCode (buffer.drop n) offset with
  | none =>
    refine findStartCode_eq_none.mpr fun j hj => ?_
    have := findStartCode_eq_none.mp h (j - n) (by omega)
    rwa [List.drop_drop, Nat.add_sub_of_le (by omega)] at this
  | some i =>
    obtain ⟨hi, hcode, hfirst⟩ := findStartCode_eq_some.mp h
    rw [Option.map_some]
    refine findStartCode_eq_some.mpr ⟨by omega, ?_, fun j hj hji => ?_⟩
    · rwa [List.drop_drop] at hcode
    · have := hfirst (j - n) (by omega) (by omega)
      rwa [List.drop_drop, Nat.add_sub_of_le (by omega)] at this

/-- What is before the first start code plays no role. -/
theorem extractNals_drop {buffer : Bytes} {start : Nat}
    (h : findStartCode buffer 0 = some start) :
    extractNals (buffer.drop start) = extractNals buffer := by
  obtain ⟨-, hcode, -⟩ := findStartCode_eq_some.mp h
  have hzero := findStartCode_zero hcode
  have hlen : startCodeLen (buffer.drop start) 0 = startCodeLen buffer start := by
    rw [startCodeLen_eq, startCodeLen_eq, List.drop_zero]
  have hnext := findStartCode_drop buffer start (startCodeLen buffer start)
  cases hend : findStartCode (buffer.drop start) (startCodeLen buffer start) with
  | none =>
    rw [hend, Option.map_none] at hnext
    rw [extractNals_of_last h hnext, extractNals_of_last hzero (by rw [hlen, Nat.zero_add, hend]),
      List.drop_zero]
  | some e =>
    rw [hend, Option.map_some] at hnext
    rw [extractNals_of_next h hnext, extractNals_of_next hzero (by rw [hlen, Nat.zero_add, hend]),
      hlen, Nat.zero_add, List.drop_drop, List.take_drop, List.drop_drop]

/-- Extracting early does not change the units, because no start code found early is lost or
moved by the bytes that follow. -/
theorem extractNals_incremental : Incremental extractNals := by
  intro xs ys
  fun_induction extractNals xs with
  | case1 buffer hstart => rfl
  | case2 buffer start hstart nalStart hend =>
    have hrest : (if start > 0 then buffer.drop start else buffer) = buffer.drop start := by
      split
      · rfl
      · next hzero => rw [Nat.eq_zero_of_not_pos hzero, List.drop_zero]
    have hlen := (findStartCode_eq_some.mp hstart).2.1.length
    rw [List.length_drop] at hlen
    simp only [hrest, List.nil_append]
    rw [← extractNals_drop (findStartCode_append ys hstart),
      List.drop_append_of_le_length (by omega)]
  | case3 buffer start hstart nalStart nalEnd hend afterCode nalData rest ih =>
    obtain ⟨-, hcode, -⟩ := findStartCode_eq_some.mp hstart
    obtain ⟨hle, hcodeEnd, -⟩ := findStartCode_eq_some.mp hend
    have hlen := hcodeEnd.length
    rw [List.length_drop] at hlen
    have hcodeLen := startCodeLen_append ys hcode
    have hend' : findStartCode (buffer ++ ys) (start + startCodeLen (buffer ++ ys) start) =
        some nalEnd := by
      rw [hcodeLen]
      exact findStartCode_append ys hend
    have hdrop : afterCode.drop (nalEnd - nalStart) = buffer.drop nalEnd := by
      rw [List.drop_drop, Nat.add_sub_of_le hle]
    have hdata : ((buffer ++ ys).take nalEnd).drop nalStart = nalData := by
      rw [List.take_append_of_le_length (by omega), List.drop_take]
    rw [extractNals_of_next (findStartCode_append ys hstart) hend', hcodeLen, hdata,
      List.drop_append_of_le_length (by omega), ← hdrop, ih, List.append_assoc]

/-- What stays in the buffer is its end. -/
theorem extractNals_suffix (buffer : Bytes) : (extractNals buffer).2 <:+ buffer := by
  fun_induction extractNals buffer with
  | case1 buffer hstart => exact List.suffix_rfl
  | case2 buffer start hstart nalStart hend =>
    show (if start > 0 then buffer.drop start else buffer) <:+ buffer
    split
    · exact List.drop_suffix _ _
    · exact List.suffix_rfl
  | case3 buffer start hstart nalStart nalEnd hend afterCode nalData rest ih =>
    exact (ih.trans (List.drop_suffix _ _)).trans (List.drop_suffix _ _)

/-! ## The parser -/

namespace NalParser

/-- `NalParser::new`. -/
def new : NalParser := ⟨[]⟩

/-- Feed data into the parser and extract complete NAL units. -/
def feed (parser : NalParser) (data : Bytes) : List NalUnit × NalParser :=
  let buffer := parser.buffer ++ data
  if buffer.length > maxNalBufferSize then ([], ⟨[]⟩)
  else
    let r := extractNals buffer
    (r.1, ⟨r.2⟩)

/-- Flush any remaining data in the buffer as a NAL unit. -/
def flush (parser : NalParser) : Option NalUnit × NalParser :=
  if parser.buffer.isEmpty then (none, parser)
  else
    let start := match findStartCode parser.buffer 0 with
      | some pos => pos + startCodeLen parser.buffer pos
      | none => 0
    if start ≥ parser.buffer.length then (none, ⟨[]⟩)
    else (NalUnit.parse (parser.buffer.drop start), ⟨[]⟩)

/-- Successive feeds, and all the units they return. -/
def feedChunks (parser : NalParser) : List Bytes → List NalUnit × NalParser
  | [] => ([], parser)
  | chunk :: chunks =>
    let r := parser.feed chunk
    let rs := r.2.feedChunks chunks
    (r.1 ++ rs.1, rs.2)

/-- No feed makes the buffer exceed its maximum size. -/
def Fits (parser : NalParser) : List Bytes → Prop
  | [] => True
  | chunk :: chunks =>
    (parser.buffer ++ chunk).length ≤ maxNalBufferSize ∧ (parser.feed chunk).2.Fits chunks

/-- The states a parser gets into. -/
inductive Reachable : NalParser → Prop
  | new : Reachable new
  | feed {parser : NalParser} (h : Reachable parser) (data : Bytes) : Reachable (parser.feed data).2
  | flush {parser : NalParser} (h : Reachable parser) : Reachable parser.flush.2

theorem feed_of_fits {parser : NalParser} {data : Bytes}
    (h : (parser.buffer ++ data).length ≤ maxNalBufferSize) :
    parser.feed data =
      ((extractNals (parser.buffer ++ data)).1, ⟨(extractNals (parser.buffer ++ data)).2⟩) :=
  if_neg (Nat.not_lt_of_le h)

/-- An empty buffer holds no units. -/
theorem settled_nil : Settled extractNals [] := extractNals_of_none rfl

/-- A flush empties the buffer, whatever it returns. -/
theorem flush_buffer (parser : NalParser) : parser.flush.2.buffer = [] := by
  rw [flush]
  split
  · next hempty => exact List.isEmpty_iff.mp hempty
  · extract_lets start
    split <;> rfl

/-- After every call the buffer holds nothing more to extract. -/
theorem Reachable.settled {parser : NalParser} (h : parser.Reachable) :
    Settled extractNals parser.buffer := by
  induction h with
  | new => exact settled_nil
  | @feed parser _ data _ =>
    rw [NalParser.feed]
    split
    · exact settled_nil
    · exact extractNals_incremental.settled _
  | flush =>
    rw [flush_buffer]
    exact settled_nil

/-- Nothing overflows if the buffer has room for all of the bytes. -/
theorem fits_of_length_le {parser : NalParser} {chunks : List Bytes}
    (h : parser.buffer.length + chunks.flatten.length ≤ maxNalBufferSize) :
    parser.Fits chunks := by
  induction chunks generalizing parser with
  | nil => trivial
  | cons chunk chunks ih =>
    rw [List.flatten_cons, List.length_append, ← Nat.add_assoc, ← List.length_append] at h
    have hchunk := Nat.le_of_add_right_le h
    have hrest := (extractNals_suffix (parser.buffer ++ chunk)).length_le
    refine ⟨hchunk, ih ?_⟩
    rw [feed_of_fits hchunk]
    show (extractNals (parser.buffer ++ chunk)).2.length + chunks.flatten.length ≤ _
    omega

theorem feedChunks_eq {parser : NalParser} {chunks : List Bytes} (h : parser.Fits chunks) :
    parser.feedChunks chunks =
      ((feedAll extractNals parser.buffer chunks).1,
        ⟨(feedAll extractNals parser.buffer chunks).2⟩) := by
  induction chunks generalizing parser with
  | nil => rfl
  | cons chunk chunks ih =>
    obtain ⟨hchunk, hchunks⟩ := h
    rw [feed_of_fits hchunk] at hchunks
    rw [feedChunks, feed_of_fits hchunk, ih hchunks, feedAll]

/-- **However a byte string is cut into feeds, the parser returns the same units and keeps the
same bytes**, as long as no feed overflows the buffer. -/
theorem feedChunks_congr {parser : NalParser} (h : parser.Reachable) {chunks chunks' : List Bytes}
    (hflatten : chunks.flatten = chunks'.flatten) (hfits : parser.Fits chunks)
    (hfits' : parser.Fits chunks') :
    (parser.feedChunks chunks).1 = (parser.feedChunks chunks').1 ∧
      (parser.feedChunks chunks).2.buffer = (parser.feedChunks chunks').2.buffer ∧
      (parser.feedChunks chunks).2.flush = (parser.feedChunks chunks').2.flush := by
  have heq : parser.feedChunks chunks = parser.feedChunks chunks' := by
    rw [feedChunks_eq hfits, feedChunks_eq hfits',
      extractNals_incremental.feedAll_congr h.settled hflatten]
  rw [heq]
  exact ⟨rfl, rfl, rfl⟩

/-- A start code cut in two, and the same bytes one by one. -/
theorem feedChunks_congr_cut :
    let chunks := [[0, 0], [1, 0x67, 0x42, 0], [0, 1, 0x65]]
    let chunks' := [[0], [0], [1], [0x67], [0x42], [0], [0], [1], [0x65]]
    (new.feedChunks chunks).1 = (new.feedChunks chunks').1 ∧
      (new.feedChunks chunks).2.buffer = (new.feedChunks chunks').2.buffer ∧
      (new.feedChunks chunks).2.flush = (new.feedChunks chunks').2.flush := by
  exact feedChunks_congr .new rfl (fits_of_length_le (by decide)) (fits_of_length_le (by decide))

end NalParser

/-! ## Annex B streams -/

/-- A NAL unit as an encoder writes it: emulation prevention keeps start codes and runs of
zeros out of it, and it does not end in a zero. -/
structure EscapedNal where
  data : Bytes
  nonempty : data ≠ []
  no_zeros : ¬ [0, 0, 0] <:+: data
  no_code : ¬ [0, 0, 1] <:+: data
  last_ne_zero : data.getLast? ≠ some 0

/-- The unit a parser is expected to give. -/
def EscapedNal.unit (nal : EscapedNal) : NalUnit :=
  NalUnit.ofHeader (nal.data.head nal.nonempty) nal.data

/-- The two start codes. -/
inductive StartCode where
  | short
  | long

def StartCode.bytes : StartCode → Bytes
  | short => [0, 0, 1]
  | long => [0, 0, 0, 1]

/-- Units behind their start codes. -/
def annexB (units : List (StartCode × EscapedNal)) : Bytes :=
  units.flatMap fun unit => unit.1.bytes ++ unit.2.data

theorem StartCode.startsCode (code : StartCode) (rest : Bytes) :
    StartsCode (code.bytes ++ rest) := by
  cases code with
  | short => exact .inl (List.prefix_append _ _)
  | long => exact .inr (List.prefix_append _ _)

theorem StartCode.startCodeLen_eq (code : StartCode) (rest : Bytes) :
    startCodeLen (code.bytes ++ rest) 0 = code.bytes.length := by
  rw [Kodama.startCodeLen_eq, List.drop_zero]
  cases code with
  | short => exact if_neg fun h => by cases (longCode_iff.mp h).2.2.1
  | long => exact if_pos (List.prefix_append _ _)

theorem annexB_startsCode {units : List (StartCode × EscapedNal)} (h : units ≠ []) :
    StartsCode (annexB units) := by
  obtain ⟨unit, units, rfl⟩ := List.exists_cons_of_ne_nil h
  rw [annexB, List.flatMap_cons, List.append_assoc]
  exact unit.1.startsCode _

/-- Bytes without start codes that do not end in a zero: no start code begins in them, whatever
follows. One that did would lie within them, or have their last byte among its zeros. -/
theorem not_startsCode_append {bs : Bytes} (rest : Bytes) (hne : bs ≠ [])
    (hzeros : ¬ [0, 0, 0] <:+: bs) (hcode : ¬ [0, 0, 1] <:+: bs) (hlast : bs.getLast? ≠ some 0) :
    ¬ StartsCode (bs ++ rest) := by
  intro h
  have hbytes : (bs ++ rest)[0]? = some 0 ∧ (bs ++ rest)[1]? = some 0 ∧
      ((bs ++ rest)[2]? = some 0 ∨ (bs ++ rest)[2]? = some 1) := by
    rcases h with h | h
    · obtain ⟨h0, h1, h2⟩ := shortCode_iff.mp h
      exact ⟨h0, h1, .inr h2⟩
    · obtain ⟨h0, h1, h2, -⟩ := longCode_iff.mp h
      exact ⟨h0, h1, .inl h2⟩
  match bs with
  | [a] => exact hlast hbytes.1
  | [a, b] => exact hlast hbytes.2.1
  | a :: b :: c :: bs =>
    obtain ⟨h0, h1, h2⟩ := hbytes
    obtain rfl := Option.some.inj h0
    obtain rfl := Option.some.inj h1
    rcases h2 with h2 | h2
    · obtain rfl := Option.some.inj h2
      exact hzeros (List.prefix_append [0, 0, 0] bs).isInfix
    · obtain rfl := Option.some.inj h2
      exact hcode (List.prefix_append [0, 0, 1] bs).isInfix

/-- No start code begins inside a unit. -/
theorem EscapedNal.not_startsCode_drop (nal : EscapedNal) (rest : Bytes) {j : Nat}
    (hj : j < nal.data.length) : ¬ StartsCode ((nal.data ++ rest).drop j) := by
  have hsuffix := List.drop_suffix j nal.data
  rw [List.drop_append_of_le_length (Nat.le_of_lt hj)]
  refine not_startsCode_append rest ?_ (fun h => nal.no_zeros (h.trans hsuffix.isInfix))
    (fun h => nal.no_code (h.trans hsuffix.isInfix)) ?_
  · intro hnil
    have := List.drop_eq_nil_iff.mp hnil
    omega
  · rw [List.getLast?_drop, if_neg (by omega)]
    exact nal.last_ne_zero

section Units

variable (code : StartCode) (nal : EscapedNal) {rest : Bytes}

theorem findStartCode_unit_start :
    findStartCode (code.bytes ++ nal.data ++ rest) 0 = some 0 := by
  rw [List.append_assoc]
  exact findStartCode_zero (code.startsCode _)

theorem findStartCode_unit_alone : findStartCode (code.bytes ++ nal.data) 0 = some 0 := by
  have h : findStartCode (code.bytes ++ nal.data ++ []) 0 = some 0 :=
    findStartCode_unit_start code nal
  rwa [List.append_nil] at h

theorem drop_unit (j : Nat) :
    (code.bytes ++ nal.data ++ rest).drop (code.bytes.length + j) = (nal.data ++ rest).drop j := by
  rw [List.append_assoc, ← List.drop_drop, List.drop_left]

/-- Behind a unit's start code the search finds the start code of the next unit. -/
theorem findStartCode_unit_end (h : StartsCode rest) :
    findStartCode (code.bytes ++ nal.data ++ rest) code.bytes.length =
      some (code.bytes.length + nal.data.length) := by
  refine findStartCode_eq_some.mpr ⟨Nat.le_add_right _ _, ?_, fun j hj hlt => ?_⟩
  · rwa [drop_unit, List.drop_left]
  · obtain ⟨j, rfl⟩ := Nat.exists_eq_add_of_le hj
    rw [drop_unit]
    exact nal.not_startsCode_drop rest (by omega)

/-- Behind the last one it finds none. -/
theorem findStartCode_unit_last :
    findStartCode (code.bytes ++ nal.data) code.bytes.length = none := by
  refine findStartCode_eq_none.mpr fun j hj => ?_
  obtain ⟨j, rfl⟩ := Nat.exists_eq_add_of_le hj
  rw [← List.append_nil (code.bytes ++ nal.data), drop_unit]
  by_cases hlt : j < nal.data.length
  · exact nal.not_startsCode_drop [] hlt
  · rw [List.append_nil, List.drop_eq_nil_of_le (Nat.le_of_not_lt hlt)]
    rintro (h | h) <;> cases h.length_le

theorem EscapedNal.parse_data : NalUnit.parse nal.data = some nal.unit := by
  obtain ⟨header, body, hdata⟩ := List.exists_cons_of_ne_nil nal.nonempty
  rw [EscapedNal.unit]
  simp only [hdata, NalUnit.parse, List.head_cons]

end Units

/-- All units but the last are extracted; the last one stays, behind its start code. -/
theorem extractNals_annexB (units : List (StartCode × EscapedNal)) (last : StartCode × EscapedNal) :
    extractNals (annexB (units ++ [last])) =
      (units.map fun unit => unit.2.unit, last.1.bytes ++ last.2.data) := by
  induction units with
  | nil =>
    obtain ⟨code, nal⟩ := last
    have hlen := code.startCodeLen_eq nal.data
    have hend := findStartCode_unit_last code nal
    rw [List.nil_append, annexB, List.flatMap_singleton,
      extractNals_of_last (findStartCode_unit_alone code nal) (by rw [hlen, Nat.zero_add, hend]),
      List.drop_zero, List.map_nil]
  | cons unit units ih =>
    obtain ⟨code, nal⟩ := unit
    have hne : units ++ [last] ≠ [] := List.append_ne_nil_of_right_ne_nil _ (List.cons_ne_nil _ _)
    have hlen := code.startCodeLen_eq (nal.data ++ annexB (units ++ [last]))
    rw [← List.append_assoc] at hlen
    have hend := findStartCode_unit_end code nal (annexB_startsCode hne)
    have hsplit : annexB ((code, nal) :: units ++ [last]) =
        code.bytes ++ nal.data ++ annexB (units ++ [last]) := by
      rw [List.cons_append, annexB, List.flatMap_cons]
      rfl
    rw [hsplit, extractNals_of_next (findStartCode_unit_start code nal)
        (by rw [hlen, Nat.zero_add, hend]), hlen, Nat.zero_add, ← List.length_append,
      List.take_left, List.drop_left, List.drop_left, ih, nal.parse_data]
    rfl

theorem EscapedNal.flush_unit (code : StartCode) (nal : EscapedNal) :
    (NalParser.flush ⟨code.bytes ++ nal.data⟩).1 = some nal.unit := by
  have hlen := code.startCodeLen_eq nal.data
  have hpos : 0 < nal.data.length := List.length_pos_of_ne_nil nal.nonempty
  rw [NalParser.flush, if_neg]
  · simp only [findStartCode_unit_alone, Nat.zero_add, hlen, List.drop_left, nal.parse_data]
    rw [if_neg]
    rw [List.length_append]
    omega
  · rw [List.isEmpty_iff, List.append_eq_nil_iff]
    exact fun h => nal.nonempty h.2

/-- **Annex B round trip.** Units written behind start codes of either length come back from
one feed and a flush, in order. -/
theorem feed_flush_annexB (units : List (StartCode × EscapedNal)) (hne : units ≠ [])
    (hlen : (annexB units).length ≤ maxNalBufferSize) :
    (NalParser.new.feed (annexB units)).1 ++
        (NalParser.new.feed (annexB units)).2.flush.1.toList =
      units.map fun unit => unit.2.unit := by
  obtain ⟨units, last, rfl⟩ := (List.eq_nil_or_concat' units).resolve_left hne
  rw [NalParser.feed_of_fits hlen]
  show (extractNals (annexB (units ++ [last]))).1 ++
    (NalParser.flush ⟨(extractNals (annexB (units ++ [last]))).2⟩).1.toList = _
  rw [extractNals_annexB, EscapedNal.flush_unit, List.map_append]
  rfl

/-- The stream of the source's parser test, with its zeros escaped. -/
theorem feed_flush_annexB_three :
    let units : List (StartCode × EscapedNal) :=
      [(.long, ⟨[0x67, 0x42, 0, 0x1E], by decide, by decide, by decide, by decide⟩),
        (.short, ⟨[0x68, 0xCE, 0x38, 0x80], by decide, by decide, by decide, by decide⟩),
        (.long, ⟨[0x65, 0x88, 0x84], by decide, by decide, by decide, by decide⟩)]
    (NalParser.new.feed (annexB units)).1 ++
        (NalParser.new.feed (annexB units)).2.flush.1.toList =
      [⟨.sps, 3, [0x67, 0x42, 0, 0x1E]⟩, ⟨.pps, 3, [0x68, 0xCE, 0x38, 0x80]⟩,
        ⟨.sliceIdr, 3, [0x65, 0x88, 0x84]⟩] :=
  feed_flush_annexB _ (by decide) (by decide)

/-! ## The quick keyframe check -/

/-- Check if a raw H.264 chunk contains a keyframe, without full parsing. -/
def containsKeyframe (data : Bytes) : Bool :=
  (List.range (data.length - 4)).any fun i =>
    let isStartCode :=
      (data[i]? == some 0 && data[i + 1]? == some 0 && data[i + 2]? == some 1) ||
        (data[i]? == some 0 && data[i + 1]? == some 0 && data[i + 2]? == some 0 &&
          data[i + 3]? == some 1)
    let nalOffset := if data[i + 2]? == some 1 then i + 3 else i + 4
    isStartCode && data[nalOffset]?.any fun header => header &&& 0x1F == 5

theorem NalUnitType.ofU8_eq_sliceIdr {value : UInt8} :
    NalUnitType.ofU8 value = .sliceIdr ↔ value &&& 0x1F = 5 := by
  rw [NalUnitType.ofU8]
  split <;> simp_all

/-- A start code of three bytes at `i` counts if the data goes on behind the header byte. -/
theorem containsKeyframe_of_short {data : Bytes} {i : Nat} {header : UInt8}
    (hcode : [0, 0, 1] <+: data.drop i) (hheader : data[i + 3]? = some header)
    (hidr : NalUnitType.ofU8 header = .sliceIdr) (hlen : i + 4 < data.length) :
    containsKeyframe data = true := by
  rw [shortCode_drop_iff] at hcode
  refine List.any_eq_true.mpr ⟨i, List.mem_range.mpr (by omega), ?_⟩
  simp [hcode, hheader, NalUnitType.ofU8_eq_sliceIdr.mp hidr]

/-- A start code of four bytes counts wherever the header byte is. -/
theorem containsKeyframe_of_long {data : Bytes} {i : Nat} {header : UInt8}
    (hcode : [0, 0, 0, 1] <+: data.drop i) (hheader : data[i + 4]? = some header)
    (hidr : NalUnitType.ofU8 header = .sliceIdr) : containsKeyframe data = true := by
  have hlen := (List.getElem?_eq_some_iff.mp hheader).1
  rw [longCode_drop_iff] at hcode
  refine List.any_eq_true.mpr ⟨i, List.mem_range.mpr (by omega), ?_⟩
  simp [hcode, hheader, NalUnitType.ofU8_eq_sliceIdr.mp hidr]

end Kodama
