import Kodama.Core.Frame
import Kodama.Lib.SlidingWindow
import Mathlib.Data.Rat.Defs
import Mathlib.Algebra.Order.Ring.Rat

/-!
# Throughput over a sliding window (capture/throughput.rs)

`ThroughputTracker` keeps, for the calls of `record` within its window, when they were and how
many bytes had been recorded by then. Instants and durations are nanoseconds,
`duration_since` is truncated subtraction, byte totals are 64-bit numbers whose sums wrap, and
the throughput is an exact rational; a subtraction of totals that would go below zero is an
error.

`window_exact` is about any sequence of calls under a clock that does not go back: the samples
are those of the calls in the window ending at the latest one, each with the bytes of all calls
up to it, and the throughput is that of the calls after the oldest of them.
-/

namespace Kodama

open Lib SlidingWindow

/-- Measures throughput over a sliding time window. -/
structure ThroughputTracker where
  samples : List (Nat × UInt64)
  window : Nat
  totalBytes : UInt64

namespace ThroughputTracker

def new (window : Nat) : ThroughputTracker := ⟨[], window, 0⟩

/-- Take samples off the front while they are older than the window. -/
def prune (tracker : ThroughputTracker) (now : Nat) : ThroughputTracker :=
  { tracker with
    samples := tracker.samples.dropWhile fun sample => now - sample.1 > tracker.window }

/-- Record bytes written at an instant. -/
def record (tracker : ThroughputTracker) (now : Nat) (bytes : UInt64) : ThroughputTracker :=
  let totalBytes := tracker.totalBytes + bytes
  { tracker with
    totalBytes
    samples := tracker.samples ++ [(now, totalBytes)] }.prune now

/-- Throughput in bits per second over the window; 0 if there are fewer than two samples, or
if they span less than 100 milliseconds. -/
def bitsPerSecond (tracker : ThroughputTracker) : Result ℚ :=
  if tracker.samples.length < 2 then .ok 0
  else
    match tracker.samples.head?, tracker.samples.getLast? with
    | some (tOld, bOld), some (tNew, bNew) =>
      let elapsed := tNew - tOld
      if elapsed / 1_000_000 < 100 then .ok 0
      else if bNew < bOld then .error "attempt to subtract with overflow"
      else .ok ((bNew - bOld).toNat * 8 / (elapsed / 1_000_000_000))
    | _, _ => .error "called Option::unwrap() on a None value"

/-! ## Calls -/

/-- A call of `record`. -/
structure Call where
  now : Nat
  bytes : UInt64

/-- The tracker after some calls. -/
def recordAll (window : Nat) (calls : List Call) : ThroughputTracker :=
  calls.foldl (fun tracker call => tracker.record call.now call.bytes) (new window)

/-- The bytes of some calls. -/
def bytesOf (calls : List Call) : Nat := (calls.map fun call => call.bytes.toNat).sum

/-- The calls within the window ending at the latest one, with their positions. -/
def retained (window : Nat) (calls : List Call) : List (Call × Nat) :=
  calls.zipIdx.filter fun c => latest Call.now calls - c.1.now ≤ window

/-- The time from the first to the last of some calls. -/
def span (calls : List Call) : Nat :=
  latest Call.now calls - (calls.head?.map Call.now).getD 0

/-- The sample of a call, with the bytes recorded by then. -/
def sample (e : Call × Nat) : Nat × UInt64 := (e.1.now, UInt64.ofNat e.2)

/-- The calls with the bytes recorded by then. -/
def history (calls : List Call) : List (Call × Nat) := totals (fun call => call.bytes.toNat) 0 calls

variable {window : Nat} {calls : List Call}

theorem history_snoc (calls : List Call) (call : Call) :
    history (calls ++ [call]) =
      history calls ++ [(call, bytesOf calls + call.bytes.toNat)] := by
  rw [history, totals_append, Nat.zero_add]
  rfl

theorem bytesOf_snoc (calls : List Call) (call : Call) :
    bytesOf (calls ++ [call]) = bytesOf calls + call.bytes.toNat := by
  rw [bytesOf, List.map_append, List.sum_append, List.map_singleton, List.sum_singleton]
  rfl

theorem bytesOf_take_le (n : Nat) (calls : List Call) :
    bytesOf (calls.take n) ≤ bytesOf calls := by
  have hsplit : bytesOf (calls.take n) + bytesOf (calls.drop n) = bytesOf calls := by
    rw [bytesOf, bytesOf, ← List.sum_append, ← List.map_append, List.take_append_drop]
    rfl
  omega

/-! ## The samples -/

/-- Recording is pushing a call and its total. -/
theorem recordAll_eq (window : Nat) (calls : List Call) :
    recordAll window calls =
      { samples := ((history calls).foldl (push (fun e => e.1.now) window) []).map sample
        window
        totalBytes := UInt64.ofNat (bytesOf calls) } := by
  induction calls using List.reverseRecOn with
  | nil => rfl
  | append_singleton calls call ih =>
    have htotal : UInt64.ofNat (bytesOf calls) + call.bytes =
        UInt64.ofNat (bytesOf calls + call.bytes.toNat) := by
      rw [UInt64.ofNat_add, UInt64.ofNat_toNat]
    rw [history_snoc, bytesOf_snoc, recordAll, List.foldl_append, List.foldl_append]
    show (recordAll window calls).record call.now call.bytes = _
    rw [ih, record, prune]
    simp only [htotal]
    refine congrArg (mk · window _) ?_
    rw [show [(call.now, UInt64.ofNat (bytesOf calls + call.bytes.toNat))] =
      [(call, bytesOf calls + call.bytes.toNat)].map sample from rfl, ← List.map_append,
      List.dropWhile_map]
    rfl

/-- Under a clock that does not go back the samples are those of the recent calls. -/
theorem samples_eq (hclock : Ordered Call.now calls) :
    (recordAll window calls).samples =
      (recent (fun e => e.1.now) window (latest Call.now calls) (history calls)).map sample := by
  have hfst : (history calls).map Prod.fst = calls := map_fst_totals 0 calls
  have hordered : Ordered (fun e : Call × Nat => e.1.now) (history calls) :=
    .of_map (hfst.symm ▸ hclock)
  rw [recordAll_eq, foldl_push hordered, latest_map, hfst]

/-- The recent calls, by their positions. -/
theorem recent_history (window : Nat) (calls : List Call) :
    recent (fun e => e.1.now) window (latest Call.now calls) (history calls) =
      (retained window calls).map fun c => (c.1, bytesOf (calls.take (c.2 + 1))) := by
  rw [history, totals_eq, recent, List.filter_map]
  refine List.map_congr_left fun c _ => ?_
  rw [Nat.zero_add]
  rfl

/-! ## The throughput -/

/-- Bits per second over some calls: what was recorded after the first of them. -/
def rate (calls : List Call) : ℚ :=
  if 2 ≤ calls.length ∧ 100_000_000 ≤ span calls then
    8 * bytesOf calls.tail / (span calls / 1_000_000_000)
  else 0

/-- In a part at the end of the history, the last total is that of all calls, and the first one
is less by what was recorded after it. -/
theorem totals_of_suffix {a b : Call} {m n : Nat} {between : List (Call × Nat)}
    (h : (a, m) :: (between ++ [(b, n)]) <:+ history calls) :
    n = bytesOf calls ∧
      m + bytesOf ((between ++ [(b, n)]).map Prod.fst) = bytesOf calls := by
  constructor
  · have hend : [(b, n)] <:+ history calls :=
      ((List.suffix_append between [(b, n)]).trans (List.suffix_cons _ _)).trans h
    have hsum := add_sum_of_suffix_totals hend
    rwa [List.map_nil, List.sum_nil, Nat.add_zero, Nat.zero_add] at hsum
  · have hsum := add_sum_of_suffix_totals h
    rw [Nat.zero_add] at hsum
    rw [bytesOf, List.map_map]
    exact hsum

/-- Subtracting an earlier total from a later one. -/
theorem sub_totals {m k n : Nat} (hsum : m + k = n) (hn : n < 2 ^ 64) :
    ¬ UInt64.ofNat n < UInt64.ofNat m ∧ (UInt64.ofNat n - UInt64.ofNat m).toNat = k := by
  have hn64 : n < UInt64.size := hn
  have hm64 : m < UInt64.size := Nat.lt_of_le_of_lt (by omega) hn64
  have hnotLess : ¬ UInt64.ofNat n < UInt64.ofNat m := by
    rw [UInt64.ofNat_lt_iff_lt hn64 hm64]
    omega
  refine ⟨hnotLess, ?_⟩
  rw [UInt64.toNat_sub_of_le _ _ (UInt64.not_lt.mp hnotLess), UInt64.toNat_ofNat_of_lt' hn64,
    UInt64.toNat_ofNat_of_lt' hm64]
  omega

/-- From the samples of calls at the end of the history the rate of these calls is computed. -/
theorem bitsPerSecond_eq {tracker : ThroughputTracker} {kept : List (Call × Nat)}
    (hsamples : tracker.samples = kept.map sample) (hkept : kept <:+ history calls)
    (hbytes : bytesOf calls < 2 ^ 64) :
    tracker.bitsPerSecond = .ok (rate (kept.map Prod.fst)) := by
  rw [bitsPerSecond, hsamples]
  match kept, hkept with
  | [], _ => rfl
  | [e], _ => rfl
  | (a, m) :: e :: rest, hkept =>
    obtain ⟨between, ⟨b, n⟩, hlast⟩ : ∃ between last, e :: rest = between ++ [last] :=
      (List.eq_nil_or_concat' (e :: rest)).resolve_left (List.cons_ne_nil _ _)
    rw [hlast] at hkept ⊢
    obtain ⟨rfl, hsum⟩ := totals_of_suffix hkept
    obtain ⟨hnotLess, hdelta⟩ := sub_totals hsum hbytes
    -- the first sample and the last one
    have hsplit : (a, m) :: (between ++ [(b, bytesOf calls)]) =
        ((a, m) :: between) ++ [(b, bytesOf calls)] := rfl
    have hhead : (((a, m) :: (between ++ [(b, bytesOf calls)])).map sample).head? =
        some (a.now, UInt64.ofNat m) := rfl
    have hgetLast : (((a, m) :: (between ++ [(b, bytesOf calls)])).map sample).getLast? =
        some (b.now, UInt64.ofNat (bytesOf calls)) := by
      rw [hsplit, List.map_append, List.map_singleton, List.getLast?_concat]
      rfl
    have hspan : span (((a, m) :: (between ++ [(b, bytesOf calls)])).map Prod.fst) =
        b.now - a.now := by
      rw [hsplit, List.map_append, List.map_singleton, span, latest_snoc]
      rfl
    rw [if_neg (by simp), hhead, hgetLast, rate, hspan]
    dsimp only
    by_cases hshort : (b.now - a.now) / 1_000_000 < 100
    · rw [if_pos hshort, if_neg (by omega)]
    · rw [if_neg hshort, if_neg hnotLess, hdelta, if_pos ⟨by simp, by omega⟩, mul_comm]
      rfl

/-- **The window after any calls.** Under a clock that does not go back and with fewer than
2^64 bytes in all, the samples are those of the calls within the window ending at the latest
one, in their order and each with the bytes of all calls up to it; and the throughput, which
is never an error, is the rate of these calls. -/
theorem window_exact (window : Nat) (calls : List Call)
    (hclock : calls.Pairwise fun call call' => call.now ≤ call'.now)
    (hbytes : bytesOf calls < 2 ^ 64) :
    let tracker := recordAll window calls
    (tracker.samples.map fun s => (s.1, s.2.toNat)) =
      (retained window calls).map (fun c => (c.1.now, bytesOf (calls.take (c.2 + 1)))) ∧
    tracker.bitsPerSecond = .ok (rate ((retained window calls).map Prod.fst)) := by
  intro tracker
  have hsamples : tracker.samples = _ := samples_eq hclock
  have hordered : Ordered (fun e : Call × Nat => e.1.now) (history calls) :=
    .of_map ((map_fst_totals 0 calls).symm ▸ hclock)
  have hsuffix : recent _ window (latest Call.now calls) (history calls) <:+ history calls :=
    recent_suffix hordered _
  rw [recent_history] at hsamples hsuffix
  refine ⟨?_, ?_⟩
  · rw [hsamples, List.map_map, List.map_map]
    refine List.map_congr_left fun c _ => congrArg (Prod.mk _) ?_
    exact UInt64.toNat_ofNat_of_lt' ((bytesOf_take_le _ calls).trans_lt hbytes)
  · rw [bitsPerSecond_eq hsamples hsuffix hbytes, List.map_map]
    rfl

/-- Of three calls two seconds apart a window of three seconds keeps two. -/
theorem window_exact_threeCalls :
    (recordAll 3_000_000_000
        [⟨0, 1000⟩, ⟨2_000_000_000, 500⟩, ⟨4_000_000_000, 250_000⟩]).bitsPerSecond =
      .ok (8 * 250_000 / (2_000_000_000 / 1_000_000_000)) := by
  have hrate := (window_exact 3_000_000_000
    [⟨0, 1000⟩, ⟨2_000_000_000, 500⟩, ⟨4_000_000_000, 250_000⟩]
    (by decide) (by decide)).2
  have hkept : (retained 3_000_000_000
      [⟨0, 1000⟩, ⟨2_000_000_000, 500⟩, ⟨4_000_000_000, 250_000⟩]).map Prod.fst =
      [⟨2_000_000_000, 500⟩, ⟨4_000_000_000, 250_000⟩] := rfl
  rw [hrate, hkept, rate, if_pos (by decide)]
  rfl

end ThroughputTracker

end Kodama
