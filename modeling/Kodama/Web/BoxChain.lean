import Kodama.Web.Fmp4

/-!
# Searching a chain of boxes (web/fmp4.rs, `find_box_end`)

`findBoxEnd` has offsets without bounds. On the 64-bit offsets of the code the sums could wrap,
and a sum that wraps could send the loop back; `findBoxEndRounds` is the loop with these sums,
cut off after a number of rounds. For data as long as a slice can be it never needs more than
one round for every 8 bytes, and finds what `findBoxEnd` finds (`findBoxEndRounds_eq`).

`findBoxEnd_parses` puts this together with what the search accepts, a chain of boxes up to the
first of the type, and with what `mux_frame` relies on when it searches the same output again
and again as it grows: an end that has been found stays where it is.
-/

namespace Kodama

open Lib

/-- The loop of `find_box_end` on 64-bit offsets, for at most some rounds; `none` if it is not
done by then. -/
def findBoxEndRounds (data boxType : Bytes) : Nat → UInt64 → Option (Option UInt64)
  | 0, _ => none
  | n + 1, pos =>
    if pos + 8 ≤ UInt64.ofNat data.length then
      let size := UInt64.ofNat (ofBe ((data.drop pos.toNat).take 4))
      if size < 8 ∨ pos + size > UInt64.ofNat data.length then some none
      else if (data.drop (pos + 4).toNat).take 4 = boxType then some (some (pos + size))
      else findBoxEndRounds data boxType n (pos + size)
    else some none

/-! ## 64-bit offsets -/

/-- A length field has 32 bits. -/
theorem ofBe_take_four_lt (data : Bytes) : ofBe (data.take 4) < 2 ^ 32 := by
  have hlt : ofBe (data.take 4) < 256 ^ (data.take 4).length := ofBe_lt rfl
  have hle : 256 ^ (data.take 4).length ≤ 256 ^ 4 :=
    Nat.pow_le_pow_right (by decide) (List.length_take_le 4 data)
  exact Nat.lt_of_lt_of_le hlt hle

/-- In data as long as a slice can be no sum wraps, and every round takes 8 bytes. -/
theorem findBoxEndRounds_eq {data : Bytes} (boxType : Bytes) (hlen : data.length < 2 ^ 63) :
    ∀ n pos, pos ≤ data.length → (data.length - pos) / 8 < n →
      findBoxEndRounds data boxType n (UInt64.ofNat pos) =
        some ((findBoxEndFrom data boxType pos).map UInt64.ofNat) := by
  intro n
  induction n with
  | zero => exact fun pos _ hn => absurd hn (Nat.not_lt_zero _)
  | succ n ih =>
    intro pos hpos hn
    have hsize := ofBe_take_four_lt (data.drop pos)
    have hlen64 : data.length < UInt64.size := Nat.lt_trans hlen (by decide)
    have hpos64 : (UInt64.ofNat pos).toNat = pos :=
      UInt64.toNat_ofNat_of_lt' (Nat.lt_of_le_of_lt hpos hlen64)
    have hsum : ∀ k, k < 2 ^ 32 → pos + k < UInt64.size := by
      intro k hk
      show pos + k < 2 ^ 64
      omega
    -- the comparisons of the loop, on offsets and on numbers
    have hfits : UInt64.ofNat pos + 8 ≤ UInt64.ofNat data.length ↔ pos + 8 ≤ data.length := by
      rw [show (8 : UInt64) = UInt64.ofNat 8 from rfl, ← UInt64.ofNat_add]
      exact UInt64.ofNat_le_iff_le (hsum 8 (by decide)) hlen64
    have hsmall : UInt64.ofNat (ofBe ((data.drop pos).take 4)) < 8 ↔
        ofBe ((data.drop pos).take 4) < 8 :=
      UInt64.ofNat_lt_iff_lt (Nat.lt_trans hsize (by decide)) (by decide)
    have hlong : UInt64.ofNat (pos + ofBe ((data.drop pos).take 4)) > UInt64.ofNat data.length ↔
        pos + ofBe ((data.drop pos).take 4) > data.length :=
      UInt64.ofNat_lt_iff_lt hlen64 (hsum _ hsize)
    rw [findBoxEndRounds, findBoxEndFrom]
    simp only [hpos64, ← UInt64.ofNat_add, hfits, hsmall, hlong]
    split
    · next hheader =>
      have htype : (UInt64.ofNat pos + 4).toNat = pos + 4 := by
        rw [show (4 : UInt64) = UInt64.ofNat 4 from rfl, ← UInt64.ofNat_add]
        exact UInt64.toNat_ofNat_of_lt' (hsum 4 (by decide))
      rw [htype]
      split
      · rfl
      · next hsize' =>
        split
        · rfl
        · exact ih _ (by omega) (by omega)
    · rfl

/-! ## The search -/

/-- What has been found stays found while the output grows. -/
theorem findBoxEnd_append {data boxType : Bytes} {e : Nat} (h : findBoxEnd data boxType = some e)
    (rest : Bytes) : findBoxEnd (data ++ rest) boxType = some e := by
  obtain ⟨boxes, last, hfirst, hpref, rfl⟩ := findBoxEnd_eq_some.mp h
  exact findBoxEnd_eq_some.mpr ⟨boxes, last, hfirst, hpref.trans (List.prefix_append _ _), rfl⟩

/-- **What `find_box_end` finds.** The loop is done after a round for every 8 bytes. It finds
an end exactly if the data starts with a chain of boxes of which the last one is the first of
the type, and then the end of that chain, also if more bytes follow. -/
theorem findBoxEnd_parses (data boxType : Bytes) :
    (data.length < 2 ^ 63 → ∀ n, data.length / 8 < n →
      findBoxEndRounds data boxType n 0 = some ((findBoxEnd data boxType).map UInt64.ofNat)) ∧
    (∀ e, findBoxEnd data boxType = some e ↔
      ∃ boxes last, EndsWithFirst boxType boxes last ∧ Box.chain (boxes ++ [last]) <+: data ∧
        e = (Box.chain (boxes ++ [last])).length) ∧
    ∀ e rest, findBoxEnd data boxType = some e → findBoxEnd (data ++ rest) boxType = some e :=
  ⟨fun hlen n hn => findBoxEndRounds_eq boxType hlen n 0 (Nat.zero_le _) hn,
    fun _ => findBoxEnd_eq_some, fun _ rest h => findBoxEnd_append h rest⟩

/-- An empty `ftyp` and an empty `moov` box, with the first bytes of another box. -/
theorem findBoxEnd_parses_moov :
    let ftyp : Bytes := [0, 0, 0, 8, 0x66, 0x74, 0x79, 0x70]
    let data : Bytes := ftyp ++ [0, 0, 0, 8] ++ moov ++ [0, 0]
    findBoxEndRounds data moov 3 0 = some (some 16) ∧
      findBoxEnd (data ++ [0, 9]) moov = some 16 := by
  intro ftyp data
  obtain ⟨hrounds, hfinds, hstays⟩ := findBoxEnd_parses data moov
  have hfound : findBoxEnd data moov = some 16 := by
    refine (hfinds 16).mpr ⟨[⟨ftyp, by decide, by decide⟩],
      ⟨[0, 0, 0, 8] ++ moov, by decide, by decide⟩, ⟨?_, by decide⟩, ⟨[0, 0], rfl⟩, rfl⟩
    intro box hbox
    rw [List.mem_singleton.mp hbox]
    decide
  exact ⟨(hrounds (by decide) 3 (by decide)).trans (by rw [hfound]; rfl), hstays 16 _ hfound⟩

end Kodama
