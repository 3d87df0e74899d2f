import Kodama.Capture.H264
import Mathlib.Data.List.Forall2

/-!
# Where the parser's units are in the stream (crates/kodama/src/capture/h264.rs)

A `NalParser` whose buffer would exceed its maximum size drops it, with the bytes just fed, and
goes on wherever the stream is then: in the middle of a unit, or of a start code. What it returns
is still not made up. Whatever the buffer is, it is a stretch of the stream, and what is extracted
from it is between two start codes of that stretch (`extractNals_occur`), so of the stream as
well. A start code of which a reset has taken the first zero is a start code.
-/

namespace Kodama

open Lib

/-- A stretch of a byte stream, up to and without `last`. -/
structure Span where
  first : Nat
  last : Nat
deriving DecidableEq

namespace Span

def bytes (span : Span) (stream : Bytes) : Bytes := (stream.take span.last).drop span.first

def shift (span : Span) (n : Nat) : Span := ⟨n + span.first, n + span.last⟩

end Span

/-- The unit is a stretch of the stream, between two start codes and without one in it. -/
structure OccursAt (stream : Bytes) (nal : NalUnit) (span : Span) : Prop where
  nonempty : span.first < span.last
  inside : span.last ≤ stream.length
  data : nal.data = span.bytes stream
  parse : NalUnit.parse nal.data = some nal
  preceded : [0, 0, 1] <:+ stream.take span.first
  followed : StartsCode (stream.drop span.last)
  no_code : ¬ [0, 0, 1] <:+: nal.data

/-- The units occur one after another, between two positions of the stream. -/
def Occur (stream : Bytes) (lo hi : Nat) (nals : List NalUnit) : Prop :=
  ∃ spans : List Span, List.Forall₂ (OccursAt stream) nals spans ∧
    spans.Pairwise (fun span span' => span.last ≤ span'.first) ∧
    ∀ span ∈ spans, lo ≤ span.first ∧ span.last ≤ hi

section Occur

variable {stream : Bytes} {nal : NalUnit} {span : Span} {lo mid hi : Nat}
  {nals nals' : List NalUnit}

/-- What follows a stretch plays no role for it. -/
theorem OccursAt.extend (h : OccursAt stream nal span) (rest : Bytes) :
    OccursAt (stream ++ rest) nal span where
  nonempty := h.nonempty
  inside := by
    rw [List.length_append]
    exact Nat.le_add_right_of_le h.inside
  data := by
    rw [h.data, Span.bytes, Span.bytes, List.take_append_of_le_length h.inside]
  parse := h.parse
  preceded := by
    rw [List.take_append_of_le_length (h.nonempty.le.trans h.inside)]
    exact h.preceded
  followed := by
    rw [List.drop_append_of_le_length h.inside]
    exact h.followed.append rest
  no_code := h.no_code

/-- What is before it only moves it. -/
theorem OccursAt.shift (h : OccursAt stream nal span) (before : Bytes) :
    OccursAt (before ++ stream) nal (span.shift before.length) where
  nonempty := Nat.add_lt_add_left h.nonempty _
  inside := by
    rw [List.length_append]
    exact Nat.add_le_add_left h.inside _
  data := by
    rw [h.data, Span.bytes, Span.bytes, Span.shift, List.take_length_add_append,
      List.drop_length_add_append]
  parse := h.parse
  preceded := by
    rw [Span.shift, List.take_length_add_append]
    exact h.preceded.trans (List.suffix_append _ _)
  followed := by
    rw [Span.shift, List.drop_length_add_append]
    exact h.followed
  no_code := h.no_code

theorem Occur.nil (stream : Bytes) (lo hi : Nat) : Occur stream lo hi [] :=
  ⟨[], .nil, .nil, fun _ h => absurd h List.not_mem_nil⟩

theorem Occur.singleton (h : OccursAt stream nal span) : Occur stream span.first span.last [nal] :=
  ⟨[span], .cons h .nil, List.pairwise_singleton _ _, fun span' hspan' => by
    rw [List.mem_singleton.mp hspan']
    exact ⟨Nat.le_refl _, Nat.le_refl _⟩⟩

theorem Occur.mono {lo' hi' : Nat} (h : Occur stream lo hi nals) (hlo : lo' ≤ lo) (hhi : hi ≤ hi') :
    Occur stream lo' hi' nals := by
  obtain ⟨spans, hall, hpairwise, hbounds⟩ := h
  exact ⟨spans, hall, hpairwise, fun span hspan =>
    ⟨hlo.trans (hbounds span hspan).1, (hbounds span hspan).2.trans hhi⟩⟩

/-- Units up to a position, and units from there on. -/
theorem Occur.append (h : Occur stream lo mid nals) (h' : Occur stream mid hi nals')
    (hlo : lo ≤ mid) (hhi : mid ≤ hi) : Occur stream lo hi (nals ++ nals') := by
  obtain ⟨spans, hall, hpairwise, hbounds⟩ := h
  obtain ⟨spans', hall', hpairwise', hbounds'⟩ := h'
  refine ⟨spans ++ spans', List.rel_append hall hall', ?_, fun span hspan => ?_⟩
  · refine List.pairwise_append.mpr ⟨hpairwise, hpairwise', fun span hspan span' hspan' => ?_⟩
    exact (hbounds span hspan).2.trans (hbounds' span' hspan').1
  · rcases List.mem_append.mp hspan with hspan | hspan
    · exact ⟨(hbounds span hspan).1, (hbounds span hspan).2.trans hhi⟩
    · exact ⟨hlo.trans (hbounds' span hspan).1, (hbounds' span hspan).2⟩

theorem Occur.extend (h : Occur stream lo hi nals) (rest : Bytes) :
    Occur (stream ++ rest) lo hi nals := by
  obtain ⟨spans, hall, hpairwise, hbounds⟩ := h
  exact ⟨spans, hall.imp fun _ _ hspan => hspan.extend rest, hpairwise, hbounds⟩

theorem Occur.shift (h : Occur stream lo hi nals) (before : Bytes) :
    Occur (before ++ stream) (before.length + lo) (before.length + hi) nals := by
  obtain ⟨spans, hall, hpairwise, hbounds⟩ := h
  refine ⟨spans.map (Span.shift · before.length), ?_, ?_, fun span hspan => ?_⟩
  · exact List.forall₂_map_right_iff.mpr (hall.imp fun _ _ hspan => hspan.shift before)
  · exact List.pairwise_map.mpr (hpairwise.imp fun hle => Nat.add_le_add_left hle _)
  · obtain ⟨span, hmem, rfl⟩ := List.mem_map.mp hspan
    exact ⟨Nat.add_le_add_left (hbounds span hmem).1 _, Nat.add_le_add_left (hbounds span hmem).2 _⟩

end Occur

/-! ## Extraction -/

section Extract

variable {buffer : Bytes} {start nalEnd : Nat}

/-- What is up to the end of a start code ends in one. -/
theorem shortCode_suffix_take (hcode : StartsCode (buffer.drop start)) :
    [0, 0, 1] <:+ buffer.take (start + startCodeLen buffer start) := by
  rw [List.take_add, startCodeLen_eq]
  refine List.IsSuffix.trans ?_ (List.suffix_append _ _)
  split
  · next hlong =>
    have htake : [0, 0, 0, 1] = (buffer.drop start).take 4 := List.prefix_iff_eq_take.mp hlong
    exact htake ▸ List.suffix_append [0] [0, 0, 1]
  · next hlong =>
    have htake : [0, 0, 1] = (buffer.drop start).take 3 :=
      List.prefix_iff_eq_take.mp (hcode.resolve_right hlong)
    exact htake ▸ List.suffix_rfl

/-- A stretch in which the search finds nothing holds no start code. -/
theorem not_infix_of_notFound {first : Nat}
    (hnone : ∀ j, first ≤ j → j < nalEnd → ¬ StartsCode (buffer.drop j)) :
    ¬ [0, 0, 1] <:+: (buffer.take nalEnd).drop first := by
  rintro ⟨front, back, heq⟩
  have hlength := congrArg List.length heq
  simp only [List.length_append, List.length_drop, List.length_take, List.length_cons,
    List.length_nil] at hlength
  refine hnone (first + front.length) (by omega) (by omega) (.inl ?_)
  have hdrop : (buffer.take nalEnd).drop (first + front.length) = [0, 0, 1] ++ back := by
    rw [← List.drop_drop, ← heq, List.append_assoc, List.drop_left]
  exact (hdrop ▸ List.prefix_append _ _).trans ((List.take_prefix _ _).drop _)

/-- The unit between two start codes that the search finds. -/
theorem occur_parse (hcode : StartsCode (buffer.drop start))
    (hend : findStartCode buffer (start + startCodeLen buffer start) = some nalEnd) :
    Occur buffer 0 nalEnd
      (NalUnit.parse ((buffer.take nalEnd).drop (start + startCodeLen buffer start))).toList := by
  obtain ⟨hle, hcode', hfirst⟩ := findStartCode_eq_some.mp hend
  have hinside := hcode'.length
  rw [List.length_drop] at hinside
  cases hdata : (buffer.take nalEnd).drop (start + startCodeLen buffer start) with
  | nil => exact .nil _ _ _
  | cons header rest =>
    have hlength := congrArg List.length hdata
    rw [List.length_drop, List.length_take, Nat.min_eq_left (by omega), List.length_cons] at hlength
    have hlt : start + startCodeLen buffer start < nalEnd := by omega
    have hle' : nalEnd ≤ buffer.length := by omega
    have hoccurs : OccursAt buffer (NalUnit.ofHeader header (header :: rest))
        ⟨start + startCodeLen buffer start, nalEnd⟩ := by
      refine ⟨hlt, hle', hdata.symm, rfl, shortCode_suffix_take hcode, hcode', ?_⟩
      exact hdata ▸ not_infix_of_notFound hfirst
    exact (Occur.singleton hoccurs).mono (Nat.zero_le _) (Nat.le_refl _)

end Extract

/-- Extraction takes bytes off the buffer's front, and the units it returns occur in them. -/
theorem extractNals_occur (buffer : Bytes) : ∃ taken, buffer = taken ++ (extractNals buffer).2 ∧
    Occur buffer 0 taken.length (extractNals buffer).1 := by
  induction hn : buffer.length using Nat.strong_induction_on generalizing buffer with
  | _ n ih =>
    cases hstart : findStartCode buffer 0 with
    | none =>
      rw [extractNals_of_none hstart]
      exact ⟨[], rfl, .nil _ _ _⟩
    | some start =>
      cases hend : findStartCode buffer (start + startCodeLen buffer start) with
      | none =>
        rw [extractNals_of_last hstart hend]
        exact ⟨buffer.take start, (List.take_append_drop _ _).symm, .nil _ _ _⟩
      | some nalEnd =>
        have hcode := (findStartCode_eq_some.mp hstart).2.1
        obtain ⟨hle, hcode', -⟩ := findStartCode_eq_some.mp hend
        have hpos := startCodeLen_pos buffer start
        have hinside := hcode'.length
        rw [List.length_drop] at hinside
        rw [extractNals_of_next hstart hend]
        obtain ⟨taken, htaken, hoccur⟩ :=
          ih (buffer.drop nalEnd).length (by rw [List.length_drop]; omega) (buffer.drop nalEnd) rfl
        refine ⟨buffer.take nalEnd ++ taken, ?_, ?_⟩
        · rw [List.append_assoc, ← htaken, List.take_append_drop]
        · have hrest := hoccur.shift (buffer.take nalEnd)
          have hlength : (buffer.take nalEnd).length = nalEnd := by
            rw [List.length_take, Nat.min_eq_left (by omega)]
          rw [List.take_append_drop, hlength, Nat.add_zero] at hrest
          rw [List.length_append, hlength]
          exact (occur_parse hcode hend).append hrest (Nat.zero_le _) (Nat.le_add_right _ _)

/-! ## The parser -/

namespace NalParser

theorem feed_buffer_le (parser : NalParser) (data : Bytes) :
    (parser.feed data).2.buffer.length ≤ maxNalBufferSize := by
  rw [feed]
  split
  · exact Nat.zero_le _
  · next hfits =>
    exact (extractNals_suffix (parser.buffer ++ data)).length_le.trans (Nat.le_of_not_lt hfits)

theorem feedChunks_occur (parser : NalParser) (chunks : List Bytes) :
    Occur (parser.buffer ++ chunks.flatten) 0 (parser.buffer ++ chunks.flatten).length
      (parser.feedChunks chunks).1 := by
  induction chunks generalizing parser with
  | nil => exact .nil _ _ _
  | cons chunk chunks ih =>
    rw [List.flatten_cons, ← List.append_assoc, feedChunks]
    simp only []
    have hrest := ih (parser.feed chunk).2
    rcases Nat.lt_or_ge maxNalBufferSize (parser.buffer ++ chunk).length with hover | hfits
    · -- the buffer and the chunk are dropped
      have hreset : parser.feed chunk = ([], ⟨[]⟩) := if_pos hover
      rw [hreset] at hrest ⊢
      refine (hrest.shift (parser.buffer ++ chunk)).mono (Nat.zero_le _) (Nat.le_of_eq ?_)
      exact List.length_append.symm
    · rw [feed_of_fits hfits] at hrest ⊢
      obtain ⟨taken, htaken, hoccur⟩ := extractNals_occur (parser.buffer ++ chunk)
      have hstream : parser.buffer ++ chunk ++ chunks.flatten =
          taken ++ ((extractNals (parser.buffer ++ chunk)).2 ++ chunks.flatten) := by
        rw [← List.append_assoc, ← htaken]
      have hshift := hrest.shift taken
      rw [← hstream, Nat.add_zero, ← List.length_append, ← hstream] at hshift
      refine (hoccur.extend chunks.flatten).append hshift (Nat.zero_le _) ?_
      rw [hstream, List.length_append]
      exact Nat.le_add_right _ _

theorem feedChunks_buffer_le {parser : NalParser}
    (h : parser.buffer.length ≤ maxNalBufferSize) (chunks : List Bytes) :
    (parser.feedChunks chunks).2.buffer.length ≤ maxNalBufferSize := by
  induction chunks generalizing parser with
  | nil => exact h
  | cons chunk chunks ih => exact ih (parser.feed_buffer_le chunk)

/-- **Overflow fabricates no units.** Whatever a parser is fed, its buffer stays within its
maximum size, and the units it returns are, in order, nonempty stretches of the stream that do not
overlap, each between two start codes and without one in it. -/
theorem feedChunks_genuine (chunks : List Bytes) :
    (new.feedChunks chunks).2.buffer.length ≤ maxNalBufferSize ∧
      ∃ spans : List Span,
        List.Forall₂ (OccursAt chunks.flatten) (new.feedChunks chunks).1 spans ∧
        spans.Pairwise fun span span' => span.last ≤ span'.first := by
  refine ⟨feedChunks_buffer_le (Nat.zero_le _) chunks, ?_⟩
  obtain ⟨spans, hall, hpairwise, -⟩ := new.feedChunks_occur chunks
  exact ⟨spans, hall, hpairwise⟩

end NalParser

end Kodama
