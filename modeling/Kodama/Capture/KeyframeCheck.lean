import Kodama.Capture.H264

/-!
# The quick keyframe check against the parser (crates/kodama/src/capture/h264.rs)

`contains_keyframe` scans a chunk for a start code that is followed by the header of an IDR
slice. `NalParser` goes from start code to start code, and looks at the headers of the units in
between. The two see the same headers: a start code that the parser passes over is the end of a
longer one (`add_three_eq_startCodeLen`), and what follows a start code directly is a unit, unless
it is another start code, whose first byte is no header of a slice (`exists_idr_iff`).

But the scan stops four bytes before the end, and so does not look at a start code of three bytes
with a single byte behind it. `containsKeyframe_agrees_iff` says what this amounts to.
-/

namespace Kodama

open Lib

variable {data : Bytes} {i : Nat}

/-- A start code at `i`, the short one or the end of the long one, with the header of an IDR slice
behind it. -/
structure IdrAt (data : Bytes) (i : Nat) : Prop where
  code : [0, 0, 1] <+: data.drop i
  header : ∃ header, data[i + 3]? = some header ∧ NalUnitType.ofU8 header = .sliceIdr

theorem idrAt_drop {n : Nat} : IdrAt (data.drop n) i ↔ IdrAt data (n + i) := by
  have hiff : ([0, 0, 1] <+: (data.drop n).drop i ∧
      ∃ header, (data.drop n)[i + 3]? = some header ∧ NalUnitType.ofU8 header = .sliceIdr) ↔
      [0, 0, 1] <+: data.drop (n + i) ∧
        ∃ header, data[n + i + 3]? = some header ∧ NalUnitType.ofU8 header = .sliceIdr := by
    rw [List.drop_drop, List.getElem?_drop, Nat.add_assoc]
  exact ⟨fun h => ⟨(hiff.mp ⟨h.1, h.2⟩).1, (hiff.mp ⟨h.1, h.2⟩).2⟩,
    fun h => ⟨(hiff.mpr ⟨h.1, h.2⟩).1, (hiff.mpr ⟨h.1, h.2⟩).2⟩⟩

theorem IdrAt.length (h : IdrAt data i) : i + 4 ≤ data.length := by
  obtain ⟨header, hheader, -⟩ := h.header
  exact (List.getElem?_eq_some_iff.mp hheader).1

/-! ## Start codes within start codes -/

/-- The long start code ends in the short one. -/
theorem shortCode_of_startsCode (h : StartsCode data) :
    [0, 0, 1] <+: data.drop (startCodeLen data 0 - 3) := by
  rw [startCodeLen_eq, List.drop_zero]
  split
  · next hlong =>
    obtain ⟨-, h1, h2, h3⟩ := longCode_iff.mp hlong
    exact shortCode_drop_iff.mpr ⟨h1, h2, h3⟩
  · next hlong => exact h.resolve_right hlong

/-- And the short one begins nowhere else in a start code. -/
theorem add_three_eq_startCodeLen (h : StartsCode data) (hcode : [0, 0, 1] <+: data.drop i)
    (hlt : i < startCodeLen data 0) : i + 3 = startCodeLen data 0 := by
  obtain ⟨h0, h1, h2⟩ := shortCode_drop_iff.mp hcode
  rw [startCodeLen_eq, List.drop_zero] at hlt ⊢
  split
  · next hlong =>
    rw [if_pos hlong] at hlt
    obtain ⟨g0, g1, g2, g3⟩ := longCode_iff.mp hlong
    match i with
    | 0 => cases g2.symm.trans h2
    | 1 => rfl
    | 2 => cases g3.symm.trans h1
    | 3 => cases g3.symm.trans h0
  · next hlong =>
    rw [if_neg hlong] at hlt
    obtain ⟨g0, g1, g2⟩ := shortCode_iff.mp (h.resolve_right hlong)
    match i with
    | 0 => rfl
    | 1 => cases g2.symm.trans h1
    | 2 => cases g2.symm.trans h0

/-- The header behind the start code at the front. -/
theorem exists_idrAt_lt (h : StartsCode data) :
    (∃ i < startCodeLen data 0, IdrAt data i) ↔
      ∃ header, data[startCodeLen data 0]? = some header ∧
        NalUnitType.ofU8 header = .sliceIdr := by
  have hpos := startCodeLen_pos data 0
  constructor
  · rintro ⟨i, hlt, hcode, hheader⟩
    rwa [add_three_eq_startCodeLen h hcode hlt] at hheader
  · intro hheader
    refine ⟨startCodeLen data 0 - 3, by omega, shortCode_of_startsCode h, ?_⟩
    rwa [Nat.sub_add_cancel hpos]

/-! ## What the parser finds -/

/-- Some unit is an IDR slice. -/
def HasIdr (nals : List NalUnit) : Prop := ∃ nal ∈ nals, nal.nalType = .sliceIdr

theorem hasIdr_append {nals nals' : List NalUnit} :
    HasIdr (nals ++ nals') ↔ HasIdr nals ∨ HasIdr nals' := by
  simp only [HasIdr, List.mem_append, or_and_right, exists_or]

theorem hasIdr_parse (bytes : Bytes) :
    HasIdr (NalUnit.parse bytes).toList ↔
      ∃ header, bytes[0]? = some header ∧ NalUnitType.ofU8 header = .sliceIdr := by
  cases bytes with
  | nil => simp [HasIdr, NalUnit.parse]
  | cons header rest => simp [HasIdr, NalUnit.parse, NalUnit.ofHeader]

/-- All units of a byte string: those that are extracted, and what a flush returns. -/
def nalUnits (data : Bytes) : List NalUnit :=
  (extractNals data).1 ++ (NalParser.flush ⟨(extractNals data).2⟩).1.toList

/-- One unit. -/
theorem nalUnits_of_last (h : StartsCode data)
    (hend : findStartCode data (startCodeLen data 0) = none) :
    nalUnits data = (NalUnit.parse (data.drop (startCodeLen data 0))).toList := by
  have hstart := findStartCode_zero h
  rw [nalUnits, extractNals_of_last hstart (by rwa [Nat.zero_add]), List.drop_zero, List.nil_append,
    NalParser.flush]
  have hne : ¬ data.isEmpty = true := by
    intro hnil
    have := h.length
    rw [List.isEmpty_iff.mp hnil] at this
    cases this
  rw [if_neg hne]
  simp only [hstart, Nat.zero_add]
  split
  · next hle => rw [List.drop_eq_nil_of_le hle]; rfl
  · rfl

/-- A unit before others. -/
theorem nalUnits_of_next {nalEnd : Nat} (h : StartsCode data)
    (hend : findStartCode data (startCodeLen data 0) = some nalEnd) :
    nalUnits data = (NalUnit.parse ((data.take nalEnd).drop (startCodeLen data 0))).toList ++
      nalUnits (data.drop nalEnd) := by
  have hstart := findStartCode_zero h
  rw [nalUnits, extractNals_of_next hstart (by rwa [Nat.zero_add]), Nat.zero_add, List.append_assoc]
  rfl

theorem StartsCode.getElem?_zero (h : StartsCode data) : data[0]? = some 0 :=
  h.elim (fun h => (shortCode_iff.mp h).1) fun h => (longCode_iff.mp h).1

/-- Where two start codes follow one another, the second one is not taken for a header. -/
theorem header_take {nalEnd : Nat} (hcode : StartsCode (data.drop nalEnd)) {n : Nat}
    (hle : n ≤ nalEnd) :
    (∃ header, (data.take nalEnd)[n]? = some header ∧ NalUnitType.ofU8 header = .sliceIdr) ↔
      ∃ header, data[n]? = some header ∧ NalUnitType.ofU8 header = .sliceIdr := by
  rcases Nat.lt_or_eq_of_le hle with hlt | rfl
  · rw [List.getElem?_take_of_lt hlt]
  · have hzero := hcode.getElem?_zero
    rw [List.getElem?_drop, Nat.add_zero] at hzero
    refine iff_of_false ?_ ?_
    · rw [List.getElem?_take_eq_none (Nat.le_refl n)]
      rintro ⟨header, hheader, -⟩
      cases hheader
    · rintro ⟨header, hheader, hidr⟩
      obtain rfl := Option.some.inj (hzero.symm.trans hheader)
      cases hidr

/-- The parser's units and the start codes of the data show the same IDR headers. -/
theorem exists_idr_iff (h : StartsCode data) : HasIdr (nalUnits data) ↔ ∃ i, IdrAt data i := by
  induction hn : data.length using Nat.strong_induction_on generalizing data with
  | _ n ih =>
    -- the start code at the front, and those the search still finds
    have hsplit : (∃ i, IdrAt data i) ↔ (∃ i < startCodeLen data 0, IdrAt data i) ∨
        ∃ i, startCodeLen data 0 ≤ i ∧ IdrAt data i := by
      constructor
      · rintro ⟨i, hidr⟩
        rcases Nat.lt_or_ge i (startCodeLen data 0) with hlt | hle
        · exact .inl ⟨i, hlt, hidr⟩
        · exact .inr ⟨i, hle, hidr⟩
      · rintro (⟨i, -, hidr⟩ | ⟨i, -, hidr⟩) <;> exact ⟨i, hidr⟩
    rw [hsplit, exists_idrAt_lt h]
    cases hend : findStartCode data (startCodeLen data 0) with
    | none =>
      have hnone : ¬ ∃ i, startCodeLen data 0 ≤ i ∧ IdrAt data i := fun ⟨i, hi, hidr⟩ =>
        findStartCode_eq_none.mp hend i hi (.inl hidr.code)
      rw [nalUnits_of_last h hend, hasIdr_parse, List.getElem?_drop, Nat.add_zero,
        or_iff_left hnone]
    | some nalEnd =>
      obtain ⟨hle, hcode, hfirst⟩ := findStartCode_eq_some.mp hend
      have hrest : (∃ i, startCodeLen data 0 ≤ i ∧ IdrAt data i) ↔
          ∃ i, IdrAt (data.drop nalEnd) i := by
        constructor
        · rintro ⟨i, hi, hidr⟩
          have hge : nalEnd ≤ i := Nat.le_of_not_lt fun hlt => hfirst i hi hlt (.inl hidr.code)
          refine ⟨i - nalEnd, idrAt_drop.mpr ?_⟩
          rwa [Nat.add_sub_of_le hge]
        · rintro ⟨i, hidr⟩
          exact ⟨nalEnd + i, by omega, idrAt_drop.mp hidr⟩
      have hlength := hcode.length
      have hpos := startCodeLen_pos data 0
      rw [List.length_drop] at hlength
      rw [nalUnits_of_next h hend, hasIdr_append, hasIdr_parse, hrest,
        ih _ (by rw [List.length_drop]; omega) hcode rfl, List.getElem?_drop, Nat.add_zero,
        header_take hcode hle]

/-! ## What the scan finds -/

/-- The scan finds an IDR header unless it is the last byte, behind a start code of three bytes. -/
theorem containsKeyframe_iff : containsKeyframe data = true ↔
    ∃ i, IdrAt data i ∧ (i + 4 < data.length ∨ ∃ j, i = j + 1 ∧ data[j]? = some 0) := by
  constructor
  · intro h
    obtain ⟨i, hi, hfound⟩ := List.any_eq_true.mp h
    have hlt := List.mem_range.mp hi
    simp only [Bool.and_eq_true, Bool.or_eq_true, beq_iff_eq, and_assoc,
      Option.any_eq_true] at hfound
    obtain ⟨hcode, header, hheader, hidr⟩ := hfound
    rw [← NalUnitType.ofU8_eq_sliceIdr] at hidr
    rcases hcode with ⟨h0, h1, h2⟩ | ⟨h0, h1, h2, h3⟩
    · rw [if_pos h2] at hheader
      have hcode := shortCode_drop_iff.mpr ⟨h0, h1, h2⟩
      exact ⟨i, ⟨hcode, header, hheader, hidr⟩, .inl (by omega)⟩
    · rw [if_neg (by rw [h2]; decide)] at hheader
      have hcode : [0, 0, 1] <+: data.drop (i + 1) := shortCode_drop_iff.mpr ⟨h1, h2, h3⟩
      exact ⟨i + 1, ⟨hcode, header, hheader, hidr⟩, .inr ⟨i, rfl, h0⟩⟩
  · rintro ⟨i, ⟨hcode, header, hheader, hidr⟩, hlt | ⟨j, rfl, hzero⟩⟩
    · exact containsKeyframe_of_short hcode hheader hidr hlt
    · have hlong : [0, 0, 0, 1] <+: data.drop j :=
        longCode_drop_iff.mpr ⟨hzero, shortCode_drop_iff.mp hcode⟩
      exact containsKeyframe_of_long hlong hheader hidr

/-- The only IDR header of the data is its last byte, behind a start code of three bytes. -/
structure OnlyIdrLast (data : Bytes) : Prop where
  last : ∃ front header, data = front ++ [0, 0, 1, header] ∧
    NalUnitType.ofU8 header = .sliceIdr ∧ front.getLast? ≠ some 0
  only : ∀ i, IdrAt data i → i + 4 = data.length

/-- An IDR header in the last byte. -/
theorem IdrAt.append (h : IdrAt data i) (hlast : i + 4 = data.length) :
    ∃ header, data = data.take i ++ [0, 0, 1, header] ∧ NalUnitType.ofU8 header = .sliceIdr := by
  obtain ⟨⟨rest, hrest⟩, header, hheader, hidr⟩ := h
  refine ⟨header, ?_, hidr⟩
  have hlength := congrArg List.length hrest
  rw [List.length_append, List.length_drop, ← hlast] at hlength
  obtain ⟨b, rfl⟩ := List.length_eq_one_iff.mp (show rest.length = 1 by
    simp only [List.length_cons, List.length_nil] at hlength
    omega)
  rw [← Nat.add_zero (i + 3), Nat.add_assoc, ← List.getElem?_drop, ← hrest] at hheader
  obtain rfl := Option.some.inj hheader
  calc data = data.take i ++ data.drop i := (List.take_append_drop i data).symm
    _ = data.take i ++ [0, 0, 1, b] := by rw [← hrest]; rfl

theorem OnlyIdrLast.idrAt (h : OnlyIdrLast data) : ∃ i, IdrAt data i := by
  obtain ⟨front, header, rfl, hidr, -⟩ := h.last
  refine ⟨front.length, ?_, header, ?_, hidr⟩
  · rw [List.drop_left]
    exact List.prefix_append [0, 0, 1] [header]
  · rw [List.getElem?_append_right (Nat.le_add_right _ _), Nat.add_sub_cancel_left]
    rfl

/-- The scan misses such a header, and only such a header. -/
theorem onlyIdrLast_iff :
    OnlyIdrLast data ↔ (∃ i, IdrAt data i) ∧ ¬ containsKeyframe data = true := by
  rw [containsKeyframe_iff]
  constructor
  · intro h
    refine ⟨h.idrAt, ?_⟩
    rintro ⟨i, hidr, hlt | ⟨j, rfl, hzero⟩⟩
    · have := h.only i hidr
      omega
    · obtain ⟨front, header, rfl, -, hfront⟩ := h.last
      have hj := h.only _ hidr
      rw [List.length_append] at hj
      simp only [List.length_cons, List.length_nil] at hj
      rw [List.getElem?_append_left (by omega)] at hzero
      rw [List.getLast?_eq_getElem?, show front.length - 1 = j by omega] at hfront
      exact hfront hzero
  · rintro ⟨⟨i, hidr⟩, hmissed⟩
    have honly (i : Nat) (hidr : IdrAt data i) : i + 4 = data.length := by
      have := hidr.length
      by_contra hne
      exact hmissed ⟨i, hidr, .inl (by omega)⟩
    obtain ⟨header, heq, hheader⟩ := hidr.append (honly i hidr)
    refine ⟨⟨data.take i, header, heq, hheader, fun hzero => ?_⟩, honly⟩
    cases i with
    | zero => cases hzero
    | succ j =>
      have hlength := hidr.length
      rw [List.getLast?_eq_getElem?, List.length_take, Nat.min_eq_left (by omega),
        Nat.add_sub_cancel, List.getElem?_take_of_lt (Nat.lt_succ_self j)] at hzero
      exact hmissed ⟨j + 1, hidr, .inr ⟨j, rfl, hzero⟩⟩

/-- **The quick check agrees with the parser** on a chunk that begins with a start code if and
only if its only IDR header is not its last byte, behind a start code of three bytes. -/
theorem containsKeyframe_agrees_iff (data : Bytes) (hcode : StartsCode data)
    (hlen : data.length ≤ maxNalBufferSize) :
    (containsKeyframe data = true ↔
      HasIdr ((NalParser.new.feed data).1 ++ (NalParser.new.feed data).2.flush.1.toList)) ↔
      ¬ OnlyIdrLast data := by
  have hfits : (NalParser.new.buffer ++ data).length ≤ maxNalBufferSize := hlen
  rw [NalParser.feed_of_fits hfits]
  show (_ ↔ HasIdr (nalUnits data)) ↔ _
  rw [exists_idr_iff hcode, onlyIdrLast_iff]
  have hfound : containsKeyframe data = true → ∃ i, IdrAt data i := fun h =>
    let ⟨i, hidr, _⟩ := containsKeyframe_iff.mp h
    ⟨i, hidr⟩
  tauto

theorem containsKeyframe_agrees_iff_idr :
    (containsKeyframe [0, 0, 1, 0x65, 0x88] = true ↔
      HasIdr ((NalParser.new.feed [0, 0, 1, 0x65, 0x88]).1 ++
        (NalParser.new.feed [0, 0, 1, 0x65, 0x88]).2.flush.1.toList)) ↔
      ¬ OnlyIdrLast [0, 0, 1, 0x65, 0x88] :=
  containsKeyframe_agrees_iff _ (.inl (by decide)) (by decide)

/-- A unit that is its header alone, behind a start code of three bytes. -/
theorem containsKeyframe_last_header : ¬ ∀ data : Bytes, StartsCode data →
    data.length ≤ maxNalBufferSize → (containsKeyframe data = true ↔
      HasIdr ((NalParser.new.feed data).1 ++ (NalParser.new.feed data).2.flush.1.toList)) := by
  intro h
  have hcode : StartsCode [0, 0, 1, 0x65] := .inl (by decide)
  have hagree := h [0, 0, 1, 0x65] hcode (by decide)
  have hnot : containsKeyframe [0, 0, 1, 0x65] = false := by decide
  rw [NalParser.feed_of_fits (by decide), hnot] at hagree
  have hunits : nalUnits [0, 0, 1, 0x65] = [⟨.sliceIdr, 3, [0x65]⟩] :=
    nalUnits_of_last hcode (by decide)
  have hidr : HasIdr (nalUnits [0, 0, 1, 0x65]) := hunits ▸ ⟨_, List.mem_cons_self, rfl⟩
  cases hagree.mpr hidr

end Kodama
