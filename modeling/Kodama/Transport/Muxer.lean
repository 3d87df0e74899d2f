import Kodama.Core.Frame
import Kodama.Lib.Machine
import Kodama.Lib.Positions
import Mathlib.Data.List.InsertIdx

/-!
# The frame buffer (crates/kodama/src/transport/mux/muxer.rs)

`FrameBuffer` holds what the network has no room for. When it is full, a push drops a frame:
the oldest one that is not a keyframe, of those it holds and the one that comes; if all are
keyframes, the oldest. `push_cases` says this once, for all branches of the source, and every
invariant is derived from it.

- `Indexed`: the index the buffer keeps of its last keyframe is the position of that keyframe.
- `BufferRun`: a new buffer under any pushes and pops. It numbers the frames, so that two
  equal frames are told apart; the numbers change nothing (`replay_run`).
- `Conserved`, `KeyframesKept`: what holds after every push and pop.
- `Evicted`: the frames a step loses.
-/

namespace Kodama

open Lib Lib.Machine

/-- What the buffer asks of a frame: `frame.flags.is_keyframe()`. -/
class KeyframeFlag (φ : Type) where
  isKeyframe : φ → Bool

export KeyframeFlag (isKeyframe)

instance : KeyframeFlag Frame := ⟨fun frame => frame.flags.isKeyframe⟩

/-- Statistics about frame dropping. -/
structure BufferStats where
  framesReceived : UInt64 := 0
  framesDropped : UInt64 := 0
  keyframesReceived : UInt64 := 0
  keyframesDropped : UInt64 := 0
deriving DecidableEq

namespace BufferStats

/-- The counters at the start of `push`. -/
def countReceived (stats : BufferStats) (keyframe : Bool) : BufferStats :=
  { stats with
    framesReceived := stats.framesReceived + 1
    keyframesReceived := if keyframe then stats.keyframesReceived + 1 else stats.keyframesReceived }

/-- The counters in `drop_at` and `drop_oldest`. -/
def countDropped (stats : BufferStats) (keyframe : Bool) : BufferStats :=
  { stats with
    framesDropped := stats.framesDropped + 1
    keyframesDropped := if keyframe then stats.keyframesDropped + 1 else stats.keyframesDropped }

end BufferStats

/-- A frame buffer that handles backpressure by selectively dropping frames. -/
structure FrameBuffer (φ : Type) where
  buffer : List φ := []
  capacity : Nat
  stats : BufferStats := {}
  lastKeyframeIdx : Option Nat := none
deriving DecidableEq

namespace FrameBuffer

variable {φ : Type} {self rest : FrameBuffer φ} {frame e : φ} {before after : List φ}

def new (capacity : Nat) : FrameBuffer φ := { capacity }

/-- Count a frame that comes in. -/
def countReceived (self : FrameBuffer φ) (keyframe : Bool) : FrameBuffer φ :=
  { self with stats := self.stats.countReceived keyframe }

/-- `self.last_keyframe_idx = Some(self.buffer.len())`. -/
def markKeyframe (self : FrameBuffer φ) : FrameBuffer φ :=
  { self with lastKeyframeIdx := some self.buffer.length }

/-- `self.buffer.push_back(frame)`. -/
def pushBack (self : FrameBuffer φ) (frame : φ) : FrameBuffer φ :=
  { self with buffer := self.buffer ++ [frame] }

/-- What `pop` and `drop_oldest` do to the index. -/
def indexAfterFront : Option Nat → Option Nat
  | some 0 => none
  | some (idx + 1) => some idx
  | none => none

/-- Pop the oldest frame. -/
def pop (self : FrameBuffer φ) : Option (φ × FrameBuffer φ) :=
  match self.buffer with
  | frame :: rest =>
    some (frame, { self with
      buffer := rest, lastKeyframeIdx := indexAfterFront self.lastKeyframeIdx })
  | [] => none

@[simp] theorem countReceived_buffer (self : FrameBuffer φ) (keyframe : Bool) :
    (self.countReceived keyframe).buffer = self.buffer := rfl

@[simp] theorem countReceived_capacity (self : FrameBuffer φ) (keyframe : Bool) :
    (self.countReceived keyframe).capacity = self.capacity := rfl

theorem pop_eq_some : self.pop = some (frame, rest) ↔
    self.buffer = frame :: rest.buffer ∧ rest.capacity = self.capacity ∧
      rest.stats = self.stats ∧ rest.lastKeyframeIdx = indexAfterFront self.lastKeyframeIdx := by
  obtain ⟨buffer, capacity, stats, idx⟩ := rest
  unfold pop
  split
  · next first later heq =>
    simp only [heq, Option.some.injEq, Prod.mk.injEq, mk.injEq, List.cons.injEq, eq_comm]
    tauto
  · next heq => simp [heq]

theorem pop_eq_none : self.pop = none ↔ self.buffer = [] := by
  unfold pop
  split
  · next heq => simp [heq]
  · next heq => simp [heq]

variable [KeyframeFlag φ]

/-- A non-keyframe that can be dropped (prefer oldest). -/
def findDroppableNonKeyframe (self : FrameBuffer φ) : Option Nat :=
  self.buffer.findIdx? fun frame => !isKeyframe frame

/-- Drop the frame at an index and update the stats. -/
def dropAt (self : FrameBuffer φ) (idx : Nat) : FrameBuffer φ :=
  match self.buffer[idx]? with
  | some frame =>
    { self with
      buffer := self.buffer.eraseIdx idx
      stats := self.stats.countDropped (isKeyframe frame)
      lastKeyframeIdx :=
        match self.lastKeyframeIdx with
        | some ki => if idx < ki then some (ki - 1) else if idx = ki then none else some ki
        | none => none }
  | none => self

/-- Drop the oldest frame. -/
def dropOldest (self : FrameBuffer φ) : FrameBuffer φ :=
  match self.buffer with
  | frame :: rest =>
    { self with
      buffer := rest
      stats := self.stats.countDropped (isKeyframe frame)
      lastKeyframeIdx := indexAfterFront self.lastKeyframeIdx }
  | [] => self

/-- Push a frame, dropping frames if necessary; `true` if the frame was kept. -/
def push (self : FrameBuffer φ) (frame : φ) : FrameBuffer φ × Bool :=
  let keyframe := isKeyframe frame
  let self := self.countReceived keyframe
  if self.buffer.length < self.capacity then
    let self := if keyframe then self.markKeyframe else self
    (self.pushBack frame, true)
  else if keyframe then
    match self.findDroppableNonKeyframe with
    | some idx => ((self.dropAt idx).markKeyframe.pushBack frame, true)
    | none => (self.dropOldest.markKeyframe.pushBack frame, true)
  else
    match self.findDroppableNonKeyframe with
    | some idx => ((self.dropAt idx).pushBack frame, true)
    | none =>
      ({ self with stats := { self.stats with framesDropped := self.stats.framesDropped + 1 } },
        false)

/-! ## What an operation does -/

theorem dropAt_split (hsplit : self.buffer = before ++ e :: after) :
    (self.dropAt before.length).buffer = before ++ after ∧
      (self.dropAt before.length).stats = self.stats.countDropped (isKeyframe e) ∧
      (self.dropAt before.length).capacity = self.capacity := by
  have hget : self.buffer[before.length]? = some e := by
    rw [hsplit, List.getElem?_append_right (Nat.le_refl _), Nat.sub_self, List.getElem?_cons_zero]
  unfold dropAt
  rw [hget]
  exact ⟨hsplit ▸ eraseIdx_split before e after, rfl, rfl⟩

theorem dropOldest_cons (hbuffer : self.buffer = e :: after) :
    self.dropOldest.buffer = after ∧
      self.dropOldest.stats = self.stats.countDropped (isKeyframe e) ∧
      self.dropOldest.capacity = self.capacity := by
  unfold dropOldest
  rw [hbuffer]
  exact ⟨rfl, rfl, rfl⟩

theorem dropOldest_nil (hbuffer : self.buffer = []) : self.dropOldest = self := by
  unfold dropOldest
  rw [hbuffer]

/-- Which of the frames before, it, and after is dropped: the oldest non-keyframe, or the
oldest frame when all are keyframes. -/
def Victim (before : List φ) (e : φ) (after : List φ) : Prop :=
  (isKeyframe e = false ∧ ∀ b ∈ before, isKeyframe b = true) ∨
    (isKeyframe e = true ∧ before = [] ∧ after ≠ [] ∧ ∀ b ∈ after, isKeyframe b = true)

/-- What `dropAt` drops, before the frame is appended. -/
theorem dropAt_find {idx : Nat} (frame : φ) (hfind : self.findDroppableNonKeyframe = some idx) :
    ∃ before e after, self.buffer ++ [frame] = before ++ e :: after ∧ Victim before e after ∧
      (self.dropAt idx).buffer ++ [frame] = before ++ after ∧
      (self.dropAt idx).stats = self.stats.countDropped (isKeyframe e) ∧ after ≠ [] := by
  obtain ⟨before, e, after, hsplit, rfl, he, hbefore⟩ := exists_split_of_findIdx? hfind
  obtain ⟨hbuffer, hstats, -⟩ := dropAt_split hsplit
  have hvictim : Victim before e (after ++ [frame]) :=
    .inl ⟨by simpa using he, fun b hb => by simpa using hbefore b hb⟩
  refine ⟨before, e, after ++ [frame], ?_, hvictim, ?_, hstats, by simp⟩
  · rw [hsplit, List.append_assoc, List.cons_append]
  · rw [hbuffer, List.append_assoc]

theorem all_keyframes_of_find (hfind : self.findDroppableNonKeyframe = none) :
    ∀ b ∈ self.buffer, isKeyframe b = true := by
  intro b hb
  simpa using List.findIdx?_eq_none_iff.mp hfind b hb

/-- What `dropOldest` drops, before the keyframe is appended. -/
theorem dropOldest_find (hfind : self.findDroppableNonKeyframe = none)
    (hkey : isKeyframe frame = true) (hbuffer : self.buffer = e :: after) :
    Victim [] e (after ++ [frame]) := by
  have hall := all_keyframes_of_find hfind
  rw [hbuffer, List.forall_mem_cons] at hall
  refine .inr ⟨hall.1, rfl, by simp, ?_⟩
  rw [List.forall_mem_append, List.forall_mem_singleton]
  exact ⟨hall.2, hkey⟩

/-- **A push** either appends the frame, or appends it and drops the victim. It returns
`false` if the victim is the frame itself. -/
theorem push_cases (self : FrameBuffer φ) (frame : φ) :
    ((self.buffer.length < self.capacity ∨ self.buffer = [] ∧ isKeyframe frame = true) ∧
      (self.push frame).1.buffer = self.buffer ++ [frame] ∧
      (self.push frame).1.stats = self.stats.countReceived (isKeyframe frame) ∧
      (self.push frame).2 = true) ∨
    (self.capacity ≤ self.buffer.length ∧ ∃ before e after,
      self.buffer ++ [frame] = before ++ e :: after ∧ Victim before e after ∧
      (self.push frame).1.buffer = before ++ after ∧
      (self.push frame).1.stats =
        (self.stats.countReceived (isKeyframe frame)).countDropped (isKeyframe e) ∧
      ((self.push frame).2 = false ↔ after = [])) := by
  unfold push
  by_cases hroom : self.buffer.length < self.capacity
  · left
    simp only [countReceived_buffer, countReceived_capacity, hroom, if_true]
    cases isKeyframe frame <;> exact ⟨.inl trivial, rfl, rfl, trivial⟩
  · simp only [countReceived_buffer, countReceived_capacity, hroom, if_false]
    have hfull : self.capacity ≤ self.buffer.length := Nat.le_of_not_lt hroom
    cases hkey : isKeyframe frame with
    | true =>
      rw [if_pos rfl]
      split
      · next idx hfind =>
        obtain ⟨before, e, after, hsplit, hvictim, hbuffer, hstats, hne⟩ := dropAt_find frame hfind
        exact .inr ⟨hfull, before, e, after, hsplit, hvictim, hbuffer, hstats, by simp [hne]⟩
      · next hfind =>
        cases hbuffer : self.buffer with
        | nil =>
          have hdrop := dropOldest_nil ((countReceived_buffer self true).trans hbuffer)
          refine .inl ⟨.inr ⟨rfl, rfl⟩, ?_, ?_, rfl⟩
          · show (dropOldest _).buffer ++ [frame] = _
            rw [hdrop, countReceived_buffer, hbuffer]
          · show (dropOldest _).stats = _
            rw [hdrop]
            rfl
        | cons e after =>
          obtain ⟨hrest, hstats, -⟩ :=
            dropOldest_cons ((countReceived_buffer self true).trans hbuffer)
          have hvictim : Victim [] e (after ++ [frame]) := dropOldest_find hfind hkey hbuffer
          refine .inr ⟨hbuffer ▸ hfull, [], e, after ++ [frame], rfl, hvictim, ?_, hstats, by simp⟩
          show (dropOldest _).buffer ++ [frame] = _
          rw [hrest, List.nil_append]
    | false =>
      rw [if_neg (by simp)]
      split
      · next idx hfind =>
        obtain ⟨before, e, after, hsplit, hvictim, hbuffer, hstats, hne⟩ := dropAt_find frame hfind
        exact .inr ⟨hfull, before, e, after, hsplit, hvictim, hbuffer, hstats, by simp [hne]⟩
      · next hfind =>
        have hvictim : Victim self.buffer frame [] := .inl ⟨hkey, all_keyframes_of_find hfind⟩
        refine .inr ⟨hfull, self.buffer, frame, [], rfl, hvictim, ?_, ?_, by simp⟩
        · exact (List.append_nil _).symm
        · rw [hkey]
          rfl

/-- A push counts the frame, and what is not in the buffer after it as dropped. -/
theorem push_counts (self : FrameBuffer φ) (frame : φ) :
    (self.push frame).1.stats.framesReceived = self.stats.framesReceived + 1 ∧
      (self.push frame).1.stats.keyframesReceived =
        self.stats.keyframesReceived + UInt64.ofNat ([frame].countP isKeyframe) ∧
      (self.push frame).1.stats.framesDropped + UInt64.ofNat (self.push frame).1.buffer.length =
        self.stats.framesDropped + UInt64.ofNat self.buffer.length + 1 ∧
      (self.push frame).1.stats.keyframesDropped +
          UInt64.ofNat ((self.push frame).1.buffer.countP isKeyframe) =
        self.stats.keyframesDropped + UInt64.ofNat (self.buffer.countP isKeyframe) +
          UInt64.ofNat ([frame].countP isKeyframe) := by
  have hreceived : (self.stats.countReceived (isKeyframe frame)).keyframesReceived =
      self.stats.keyframesReceived + UInt64.ofNat ([frame].countP isKeyframe) := by
    rw [List.countP_singleton]
    cases isKeyframe frame with
    | true => rfl
    | false => exact (UInt64.add_zero _).symm
  obtain ⟨-, hbuffer, hstats, -⟩ | ⟨-, before, e, after, hsplit, -, hbuffer, hstats, -⟩ :=
    push_cases self frame
  · rw [hbuffer, hstats, List.length_append, List.countP_append, UInt64.ofNat_add,
      UInt64.ofNat_add]
    exact ⟨rfl, hreceived, (UInt64.add_assoc _ _ _).symm, (UInt64.add_assoc _ _ _).symm⟩
  · have hlength := congrArg (UInt64.ofNat ∘ List.length) hsplit
    have hcount := congrArg (UInt64.ofNat ∘ List.countP isKeyframe) hsplit
    simp only [Function.comp_apply, List.length_append, List.length_cons, List.length_nil,
      UInt64.ofNat_add] at hlength
    simp only [Function.comp_apply, List.countP_append, List.countP_cons, List.countP_nil,
      UInt64.ofNat_add] at hcount
    rw [hbuffer, hstats, List.length_append, List.countP_append, UInt64.ofNat_add,
      UInt64.ofNat_add]
    refine ⟨rfl, hreceived, ?_, ?_⟩
    · show self.stats.framesDropped + 1 + _ = _
      grind
    · show (if isKeyframe e then self.stats.keyframesDropped + 1 else self.stats.keyframesDropped) +
        _ = _
      cases hkey : isKeyframe e with
      | true =>
        rw [hkey] at hcount
        rw [if_pos rfl]
        grind
      | false =>
        rw [hkey] at hcount
        rw [if_neg (by simp)]
        grind

/-- What a push loses is the victim, and the buffer was full. -/
theorem victim_of_push {b : φ} (hb : b ∈ self.buffer ++ [frame])
    (hgone : b ∉ (self.push frame).1.buffer) : self.capacity ≤ self.buffer.length ∧
      ∃ before after, self.buffer ++ [frame] = before ++ b :: after ∧ Victim before b after := by
  obtain ⟨-, hbuffer, -, -⟩ | ⟨hfull, before, e, after, hsplit, hvictim, hbuffer, -, -⟩ :=
    push_cases self frame
  · exact absurd (hbuffer ▸ hb) hgone
  · rw [hbuffer, List.mem_append, not_or] at hgone
    rw [hsplit, List.mem_append, List.mem_cons] at hb
    obtain rfl : b = e := (hb.resolve_left hgone.1).resolve_right hgone.2
    exact ⟨hfull, before, after, hsplit, hvictim⟩

/-- The order is kept. -/
theorem push_sublist (self : FrameBuffer φ) (frame : φ) :
    (self.push frame).1.buffer.Sublist (self.buffer ++ [frame]) := by
  obtain ⟨-, hbuffer, -, -⟩ | ⟨-, before, e, after, hsplit, -, hbuffer, -, -⟩ :=
    push_cases self frame
  · rw [hbuffer]
  · rw [hbuffer, hsplit]
    exact (List.Sublist.refl before).append (List.sublist_cons_self e after)

/-- A frame is appended to a buffer below its capacity, or to an empty one. -/
theorem push_length_le (h : self.buffer.length ≤ max self.capacity 1) (frame : φ) :
    (self.push frame).1.buffer.length ≤ max self.capacity 1 := by
  obtain ⟨hroom, hbuffer, -, -⟩ | ⟨-, before, e, after, hsplit, -, hbuffer, -, -⟩ :=
    push_cases self frame
  · rw [hbuffer, List.length_append, List.length_singleton]
    rcases hroom with hroom | ⟨hempty, -⟩
    · omega
    · rw [hempty, List.length_nil]
      omega
  · have hlength := congrArg List.length hsplit
    simp only [List.length_append, List.length_cons, List.length_nil] at hlength
    rw [hbuffer, List.length_append]
    omega

/-- The result of a push says whether the frame is in the buffer. -/
theorem push_false_iff (hnew : frame ∉ self.buffer) :
    (self.push frame).2 = false ↔ frame ∉ (self.push frame).1.buffer := by
  obtain ⟨-, hbuffer, -, hres⟩ | ⟨-, before, e, after, hsplit, -, hbuffer, -, hres⟩ :=
    push_cases self frame
  · simp [hbuffer, hres]
  · rw [hres, hbuffer]
    rcases split_snoc hsplit with ⟨hbefore, -, rfl⟩ | ⟨after', -, rfl⟩
    · simp [← hbefore, hnew]
    · simp

@[simp] theorem dropAt_capacity (idx : Nat) : (self.dropAt idx).capacity = self.capacity := by
  unfold dropAt
  split <;> rfl

@[simp] theorem dropOldest_capacity : self.dropOldest.capacity = self.capacity := by
  unfold dropOldest
  split <;> rfl

theorem push_capacity (self : FrameBuffer φ) (frame : φ) :
    (self.push frame).1.capacity = self.capacity := by
  simp only [push, pushBack, markKeyframe]
  split
  · split <;> rfl
  · split
    · split <;> simp
    · split <;> simp

/-! ## The index of the last keyframe -/

/-- The index is the position of the last keyframe. -/
def Indexed (self : FrameBuffer φ) : Prop :=
  self.lastKeyframeIdx = lastIndex isKeyframe self.buffer

theorem Indexed.dropAt (h : self.Indexed) {idx : Nat}
    (hfind : self.findDroppableNonKeyframe = some idx) : (self.dropAt idx).Indexed := by
  obtain ⟨before, e, after, hsplit, rfl, he, -⟩ := exists_split_of_findIdx? hfind
  have he : isKeyframe e = false := by simpa using he
  have hget : self.buffer[before.length]? = some e := by
    rw [hsplit, List.getElem?_append_right (Nat.le_refl _), Nat.sub_self, List.getElem?_cons_zero]
  unfold Indexed FrameBuffer.dropAt
  rw [hget]
  simp only [h.trans (congrArg _ hsplit), hsplit, eraseIdx_split]
  refine Eq.trans ?_ (lastIndex_remove he).symm
  -- the frame at the index is no keyframe, so the branch that clears the index is not taken
  cases hlast : lastIndex isKeyframe (before ++ e :: after) with
  | none => rfl
  | some ki =>
    obtain ⟨before', k, after', hsplit', rfl, hk, -⟩ := lastIndex_eq_some.mp hlast
    have hne : before.length ≠ before'.length := by
      intro hlen
      obtain ⟨-, htail⟩ := List.append_inj hsplit' hlen
      obtain ⟨rfl, -⟩ := List.cons.inj htail
      exact Bool.false_ne_true (he.symm.trans hk)
    simp only [hne, if_false]

theorem indexAfterFront_eq : indexAfterFront (lastIndex isKeyframe (e :: after)) =
    lastIndex isKeyframe after := by
  refine Eq.trans ?_ (lastIndex_tail e).symm
  cases lastIndex isKeyframe (e :: after) with
  | none => rfl
  | some idx => cases idx <;> rfl

theorem Indexed.pop (h : self.Indexed) (hpop : self.pop = some (frame, rest)) : rest.Indexed := by
  obtain ⟨hbuffer, -, -, hidx⟩ := pop_eq_some.mp hpop
  unfold Indexed at h ⊢
  rw [hidx, h, hbuffer, indexAfterFront_eq]

theorem indexed_markKeyframe (self : FrameBuffer φ) (hkey : isKeyframe frame = true) :
    (self.markKeyframe.pushBack frame).Indexed := by
  show some _ = lastIndex isKeyframe (self.buffer ++ [frame])
  rw [lastIndex_snoc, if_pos hkey]

theorem Indexed.pushBack (h : self.Indexed) (hkey : isKeyframe frame = false) :
    (self.pushBack frame).Indexed := by
  show self.lastKeyframeIdx = lastIndex isKeyframe (self.buffer ++ [frame])
  rw [lastIndex_snoc, hkey, h]
  rfl

theorem Indexed.push (h : self.Indexed) (frame : φ) : (self.push frame).1.Indexed := by
  unfold FrameBuffer.push
  cases hkey : isKeyframe frame with
  | true =>
    simp only [if_true]
    split
    · exact indexed_markKeyframe _ hkey
    · split <;> exact indexed_markKeyframe _ hkey
  | false =>
    simp only [Bool.false_eq_true, if_false]
    -- counting the frame leaves the frames and the index as they are
    have hreceived : (self.countReceived false).Indexed := h
    split
    · exact hreceived.pushBack hkey
    · split
      · next hfind => exact (hreceived.dropAt hfind).pushBack hkey
      · exact h

/-! ## Frames with more to them -/

section Map

variable {ψ : Type} [KeyframeFlag ψ] {f : φ → ψ}

/-- A buffer of other frames, at the same places. -/
def map (f : φ → ψ) (self : FrameBuffer φ) : FrameBuffer ψ :=
  ⟨self.buffer.map f, self.capacity, self.stats, self.lastKeyframeIdx⟩

omit [KeyframeFlag φ] [KeyframeFlag ψ] in
theorem length_map : (self.map f).buffer.length = self.buffer.length := List.length_map _

omit [KeyframeFlag φ] [KeyframeFlag ψ] in
theorem capacity_map : (self.map f).capacity = self.capacity := rfl

theorem dropAt_map (hf : ∀ a, isKeyframe (f a) = isKeyframe a) (idx : Nat) :
    (self.map f).dropAt idx = (self.dropAt idx).map f := by
  unfold dropAt map
  rw [List.getElem?_map]
  cases hget : self.buffer[idx]? with
  | none => rfl
  | some frame => simp only [Option.map_some, hf, List.eraseIdx_map]

theorem dropOldest_map (hf : ∀ a, isKeyframe (f a) = isKeyframe a) :
    (self.map f).dropOldest = self.dropOldest.map f := by
  obtain ⟨buffer, capacity, stats, idx⟩ := self
  cases buffer with
  | nil => rfl
  | cons frame rest => simp only [dropOldest, map, List.map_cons, hf]

theorem find_map (hf : ∀ a, isKeyframe (f a) = isKeyframe a) :
    (self.map f).findDroppableNonKeyframe = self.findDroppableNonKeyframe := by
  show (self.buffer.map f).findIdx? _ = _
  rw [List.findIdx?_map]
  simp only [findDroppableNonKeyframe, Function.comp_def, hf]

omit [KeyframeFlag φ] [KeyframeFlag ψ] in
theorem pushBack_map : (self.map f).pushBack (f frame) = (self.pushBack frame).map f := by
  simp [pushBack, map]

omit [KeyframeFlag φ] [KeyframeFlag ψ] in
theorem markKeyframe_map : (self.map f).markKeyframe = self.markKeyframe.map f := by
  simp [markKeyframe, map]

/-- A push looks at no more of a frame than whether it is a keyframe. -/
theorem push_map (hf : ∀ a, isKeyframe (f a) = isKeyframe a) (frame : φ) :
    (self.map f).push (f frame) = ((self.push frame).1.map f, (self.push frame).2) := by
  have hreceived (keyframe : Bool) :
      (self.map f).countReceived keyframe = (self.countReceived keyframe).map f := rfl
  simp only [push, hf, hreceived, length_map, capacity_map]
  generalize self.countReceived (isKeyframe frame) = self
  by_cases hroom : self.buffer.length < self.capacity
  · rw [if_pos hroom, if_pos hroom]
    cases isKeyframe frame <;> simp [markKeyframe_map, pushBack_map]
  · rw [if_neg hroom, if_neg hroom, find_map hf]
    simp only [dropAt_map hf, dropOldest_map hf, markKeyframe_map, pushBack_map]
    cases isKeyframe frame with
    | true => cases self.findDroppableNonKeyframe <;> rfl
    | false => cases self.findDroppableNonKeyframe <;> rfl

omit [KeyframeFlag φ] [KeyframeFlag ψ] in
theorem pop_map : (self.map f).pop = self.pop.map fun r => (f r.1, r.2.map f) := by
  obtain ⟨buffer, capacity, stats, idx⟩ := self
  cases buffer <;> rfl

end Map

end FrameBuffer

/-! ## Runs -/

/-- A frame with its number among the frames handed over. -/
structure Numbered where
  number : Nat
  frame : Frame
deriving DecidableEq

instance : KeyframeFlag Numbered := ⟨fun numbered => isKeyframe numbered.frame⟩

/-- The operations of a buffer. -/
inductive BufferEvent where
  | push (frame : Frame)
  | pop

/-- A buffer, and the frames pushed and popped so far. -/
structure BufferRun where
  buffer : FrameBuffer Numbered
  pushed : List Numbered := []
  popped : List Numbered := []

namespace BufferRun

/-- `FrameBuffer::new`. -/
def start (capacity : Nat) : BufferRun := { buffer := .new capacity }

/-- The next frame pushed. -/
def next (self : BufferRun) (frame : Frame) : Numbered := ⟨self.pushed.length, frame⟩

def step (self : BufferRun) : BufferEvent → Option BufferRun
  | .push frame => some
    { self with
      buffer := (self.buffer.push (self.next frame)).1
      pushed := self.pushed ++ [self.next frame] }
  | .pop =>
    match self.buffer.pop with
    | some (frame, buffer) => some { self with buffer, popped := self.popped ++ [frame] }
    | none => some self

/-- A pop moves the first frame, or nothing if there is none. -/
theorem pop_cases {s t : BufferRun} (hstep : s.step .pop = some t) :
    (s.buffer.pop = none ∧ t = s) ∨ ∃ frame rest, s.buffer.pop = some (frame, rest) ∧
      t = { s with buffer := rest, popped := s.popped ++ [frame] } := by
  simp only [step] at hstep
  split at hstep
  · next frame rest hpop => exact .inr ⟨frame, rest, hpop, (Option.some.inj hstep).symm⟩
  · next hpop => exact .inl ⟨hpop, (Option.some.inj hstep).symm⟩

/-- It keeps the frames popped and buffered, in their order. -/
theorem pop_keeps {s t : BufferRun} (hstep : s.step .pop = some t) :
    t.pushed = s.pushed ∧ t.popped ++ t.buffer.buffer = s.popped ++ s.buffer.buffer := by
  rcases pop_cases hstep with ⟨-, rfl⟩ | ⟨frame, rest, hpop, rfl⟩
  · exact ⟨rfl, rfl⟩
  · obtain ⟨hbuffer, -, -, -⟩ := FrameBuffer.pop_eq_some.mp hpop
    rw [hbuffer, List.append_assoc]
    exact ⟨rfl, rfl⟩

/-! ## A buffer without numbers -/

/-- An operation of a `FrameBuffer<Frame>`. -/
def replayEvent (buffer : FrameBuffer Frame) : BufferEvent → FrameBuffer Frame
  | .push frame => (buffer.push frame).1
  | .pop => (buffer.pop.map Prod.snd).getD buffer

theorem replayEvent_step {s t : BufferRun} {event : BufferEvent} (hstep : step s event = some t) :
    replayEvent (s.buffer.map Numbered.frame) event = t.buffer.map Numbered.frame := by
  cases event with
  | push frame =>
    obtain rfl := Option.some.inj hstep
    have hpush := s.buffer.push_map (f := Numbered.frame) (fun _ => rfl) (s.next frame)
    exact congrArg Prod.fst hpush
  | pop =>
    simp only [replayEvent, FrameBuffer.pop_map]
    rcases pop_cases hstep with ⟨hpop, rfl⟩ | ⟨frame, rest, hpop, rfl⟩
    · rw [hpop]
      rfl
    · rw [hpop]
      rfl

/-- Without the numbers, a run is what the operations do to a buffer of frames. -/
theorem replay_run {s t : BufferRun} {events : List BufferEvent}
    (hrun : run step s events = some t) :
    events.foldl replayEvent (s.buffer.map Numbered.frame) = t.buffer.map Numbered.frame := by
  induction events generalizing s with
  | nil =>
    obtain rfl := Option.some.inj hrun
    rfl
  | cons event events ih =>
    rw [run_cons] at hrun
    obtain ⟨u, hu, hrun⟩ := Option.bind_eq_some_iff.mp hrun
    rw [List.foldl_cons, replayEvent_step hu, ih hrun]

/-! ## Conservation -/

/-- The books of a buffer: what was pushed is popped, in the buffer, or counted as dropped. The
counters are 64-bit. -/
structure Conserved (capacity : Nat) (t : BufferRun) : Prop where
  numbered : t.pushed.map Numbered.number = List.range t.pushed.length
  ordered : (t.popped ++ t.buffer.buffer).Sublist t.pushed
  framesReceived : t.buffer.stats.framesReceived = UInt64.ofNat t.pushed.length
  framesDropped : t.buffer.stats.framesDropped + UInt64.ofNat t.popped.length +
    UInt64.ofNat t.buffer.buffer.length = UInt64.ofNat t.pushed.length
  keyframesReceived :
    t.buffer.stats.keyframesReceived = UInt64.ofNat (t.pushed.countP isKeyframe)
  keyframesDropped : t.buffer.stats.keyframesDropped +
    UInt64.ofNat (t.popped.countP isKeyframe) +
    UInt64.ofNat (t.buffer.buffer.countP isKeyframe) = UInt64.ofNat (t.pushed.countP isKeyframe)
  capacity_eq : t.buffer.capacity = capacity
  bounded : t.buffer.buffer.length ≤ max capacity 1

variable {capacity : Nat} {t u : BufferRun} {event : BufferEvent} {frame : Frame}

theorem conserved_start (capacity : Nat) : Conserved capacity (start capacity) :=
  ⟨rfl, .slnil, rfl, rfl, rfl, rfl, rfl, Nat.zero_le _⟩

theorem Conserved.push (h : Conserved capacity t) (hstep : step t (.push frame) = some u) :
    Conserved capacity u := by
  obtain rfl := Option.some.inj hstep
  obtain ⟨hreceived, hkeyReceived, hdropped, hkeyDropped⟩ := t.buffer.push_counts (t.next frame)
  have hnumbered := h.numbered
  have hlength := h.framesDropped
  have hcount := h.keyframesDropped
  have hbounded := h.bounded
  rw [← h.capacity_eq] at hbounded
  refine ⟨?_, ?_, ?_, ?_, ?_, ?_, (t.buffer.push_capacity _).trans h.capacity_eq, ?_⟩
  · rw [List.map_append, hnumbered, List.length_append, List.length_singleton, List.range_succ]
    rfl
  · have hsub := (List.Sublist.refl t.popped).append (t.buffer.push_sublist (t.next frame))
    rw [← List.append_assoc] at hsub
    exact hsub.trans (h.ordered.append (List.Sublist.refl _))
  · rw [hreceived, h.framesReceived, List.length_append, List.length_singleton, UInt64.ofNat_add]
    rfl
  · rw [List.length_append, List.length_singleton, UInt64.ofNat_add]
    grind
  · rw [hkeyReceived, h.keyframesReceived, List.countP_append, UInt64.ofNat_add]
  · rw [List.countP_append, UInt64.ofNat_add]
    grind
  · rw [← h.capacity_eq]
    exact FrameBuffer.push_length_le hbounded _

theorem Conserved.pop (h : Conserved capacity t) (hstep : step t .pop = some u) :
    Conserved capacity u := by
  have hkeeps := (pop_keeps hstep).2
  rcases pop_cases hstep with ⟨-, rfl⟩ | ⟨first, rest, hpop, rfl⟩
  · exact h
  · obtain ⟨hbuffer, hcapacity, hstats, -⟩ := FrameBuffer.pop_eq_some.mp hpop
    have hlength := h.framesDropped
    have hcount := h.keyframesDropped
    have hbounded := h.bounded
    rw [hbuffer, List.length_cons] at hlength hbounded
    rw [hbuffer, List.countP_cons] at hcount
    refine ⟨h.numbered, hkeeps ▸ h.ordered, ?_, ?_, ?_, ?_, hcapacity.trans h.capacity_eq, ?_⟩
    · rw [hstats, h.framesReceived]
    · simp only [hstats, List.length_append, List.length_singleton, UInt64.ofNat_add] at hlength ⊢
      grind
    · rw [hstats, h.keyframesReceived]
    · simp only [hstats, List.countP_append, List.countP_singleton, UInt64.ofNat_add] at hcount ⊢
      grind
    · show rest.buffer.length ≤ _
      omega

theorem Conserved.step (h : Conserved capacity t) (hstep : step t event = some u) :
    Conserved capacity u := by
  cases event with
  | push frame => exact h.push hstep
  | pop => exact h.pop hstep

theorem always_conserved (capacity : Nat) (events : List BufferEvent) :
    Always BufferRun.step (Conserved capacity) (start capacity) events :=
  always_of_step (conserved_start capacity) (fun _ _ _ => Conserved.step) events

/-- The next frame is a new one. -/
theorem Conserved.next_notMem (h : Conserved capacity t) (frame : Frame) :
    t.next frame ∉ t.pushed := by
  intro hmem
  have hnumber := List.mem_map_of_mem (f := Numbered.number) hmem
  rw [h.numbered, List.mem_range] at hnumber
  exact Nat.lt_irrefl _ hnumber

theorem Conserved.next_notMem_buffer (h : Conserved capacity t) (frame : Frame) :
    t.next frame ∉ t.popped ++ t.buffer.buffer :=
  fun hmem => h.next_notMem frame (h.ordered.subset hmem)

/-- What a push returns: `false` exactly when the frame is not in the buffer after it. -/
def ReportsDrop (t : BufferRun) (event : BufferEvent) (u : BufferRun) : Prop :=
  ∀ frame, event = .push frame →
    ((t.buffer.push (t.next frame)).2 = false ↔ t.next frame ∉ u.popped ++ u.buffer.buffer)

theorem Conserved.reportsDrop (h : Conserved capacity t) (hstep : BufferRun.step t event = some u) :
    ReportsDrop t event u := by
  rintro frame rfl
  obtain rfl := Option.some.inj hstep
  have hnew := h.next_notMem_buffer frame
  rw [List.mem_append, not_or] at hnew ⊢
  rw [FrameBuffer.push_false_iff hnew.2]
  exact ⟨fun hgone => ⟨hnew.1, hgone⟩, fun hgone => hgone.2⟩

/-- **Conservation and order.** After any pushes and pops of a new buffer, what was popped and
what is in the buffer is, in order, a part of what was pushed; the counters say how much; and a
push returns `false` exactly when the frame itself was dropped. -/
theorem conserved_and_reported (capacity : Nat) (events : List BufferEvent) :
    Always BufferRun.step (Conserved capacity) (start capacity) events ∧
      EachStep BufferRun.step ReportsDrop (start capacity) events :=
  ⟨always_conserved capacity events,
    eachStep_of_always (always_conserved capacity events) fun _ _ _ => Conserved.reportsDrop⟩

/-! ## The counters wrap -/

/-- So many pushes of an empty frame. -/
def emptyPushes (n : Nat) : List BufferEvent :=
  .replicate n (.push ⟨⟨[5, 0, 5, 0, 3, 1, 3, 1], rfl⟩, .video, ⟨0⟩, 0, []⟩)

theorem run_emptyPushes (capacity n : Nat) :
    ∃ t, run step (start capacity) (emptyPushes n) = some t ∧ t.pushed.length = n := by
  induction n with
  | zero => exact ⟨_, rfl, rfl⟩
  | succ n ih =>
    obtain ⟨t, hrun, hpushed⟩ := ih
    rw [emptyPushes, List.replicate_succ', run_concat]
    refine ⟨_, by rw [← emptyPushes, hrun]; rfl, ?_⟩
    show (t.pushed ++ [_]).length = _
    rw [List.length_append, hpushed, List.length_singleton]

/-- After 2^64 pushes the counter of frames received is 0. -/
theorem framesReceived_wraps : ¬ ∀ (capacity : Nat) (events : List BufferEvent),
    Always BufferRun.step (fun t => t.buffer.stats.framesReceived.toNat = t.pushed.length)
      (start capacity) events := by
  intro h
  obtain ⟨t, hrun, hpushed⟩ := run_emptyPushes 1 (2 ^ 64)
  have hreceived := (h 1 (emptyPushes (2 ^ 64))).final hrun
  rw [((always_conserved 1 (emptyPushes (2 ^ 64))).final hrun).framesReceived, hpushed] at hreceived
  exact absurd hreceived (by decide)

/-! ## What is dropped -/

/-- What holds of the keyframes: the index is the position of the last one in the buffer, and
the last one pushed is popped or still there. -/
structure KeyframesKept (t : BufferRun) : Prop where
  index : ∀ i, t.buffer.lastKeyframeIdx = some i ↔ ∃ before last after,
    t.buffer.buffer = before ++ last :: after ∧ before.length = i ∧ isKeyframe last = true ∧
      ∀ b ∈ after, isKeyframe b = false
  isSome : t.buffer.lastKeyframeIdx.isSome = true ↔ ∃ b ∈ t.buffer.buffer, isKeyframe b = true
  lastPushed : ∀ last, (t.pushed.filter isKeyframe).getLast? = some last →
    last ∈ t.popped ++ t.buffer.buffer

/-- A frame that a step loses: it was in the buffer, or is pushed by the step, and is neither
popped nor in the buffer after it. -/
def Evicted (t u : BufferRun) (e : Numbered) : Prop :=
  (e ∈ t.buffer.buffer ∨ e ∈ u.pushed ∧ e ∉ t.pushed) ∧ e ∉ u.popped ++ u.buffer.buffer

/-- Frames are lost by pushes to a full buffer only. A keyframe is lost to a keyframe, among
keyframes only, as the oldest; else it is the oldest non-keyframe, or the one pushed. -/
def LastResort (t : BufferRun) (event : BufferEvent) (u : BufferRun) : Prop :=
  ∀ e, Evicted t u e → t.buffer.capacity ≤ t.buffer.buffer.length ∧
    ∃ frame, event = .push frame ∧
      if isKeyframe e then
        isKeyframe frame = true ∧ (∀ b ∈ t.buffer.buffer, isKeyframe b = true) ∧
          t.buffer.buffer.head? = some e
      else
        (∃ before after, t.buffer.buffer = before ++ e :: after ∧
          ∀ b ∈ before, isKeyframe b = true) ∨
        e = t.next frame ∧ ∀ b ∈ t.buffer.buffer, isKeyframe b = true

theorem evicted_push {e : Numbered} (hstep : BufferRun.step t (.push frame) = some u)
    (he : Evicted t u e) : t.buffer.capacity ≤ t.buffer.buffer.length ∧ ∃ before after,
      t.buffer.buffer ++ [t.next frame] = before ++ e :: after ∧
        FrameBuffer.Victim before e after := by
  obtain rfl := Option.some.inj hstep
  obtain ⟨hin, hgone⟩ := he
  rw [List.mem_append, not_or] at hgone
  refine FrameBuffer.victim_of_push ?_ hgone.2
  rcases hin with hin | ⟨hin, hnew⟩
  · exact List.mem_append_left _ hin
  · exact List.mem_append_right _ ((List.mem_append.mp hin).resolve_left hnew)

/-- A pop loses nothing. -/
theorem not_evicted_pop {e : Numbered} (hstep : BufferRun.step t .pop = some u) :
    ¬ Evicted t u e := by
  obtain ⟨hpushed, hkeeps⟩ := pop_keeps hstep
  rintro ⟨hin | ⟨hin, hnew⟩, hgone⟩
  · rw [hkeeps] at hgone
    exact hgone (List.mem_append_right _ hin)
  · rw [hpushed] at hin
    exact hnew hin

theorem lastResort_step (hstep : BufferRun.step t event = some u) : LastResort t event u := by
  intro e he
  cases event with
  | pop => exact absurd he (not_evicted_pop hstep)
  | push frame =>
    obtain ⟨hfull, before, after, hsplit, ⟨hkey, hbefore⟩ | ⟨hkey, rfl, hne, hall⟩⟩ :=
      evicted_push hstep he
    · refine ⟨hfull, frame, rfl, ?_⟩
      rw [hkey, if_neg (by simp)]
      -- the frame dropped is the one pushed, or in the buffer before it
      rcases split_snoc hsplit with ⟨rfl, hnext, -⟩ | ⟨after', hbuffer, -⟩
      · exact .inr ⟨hnext.symm, hbefore⟩
      · exact .inl ⟨before, after', hbuffer, hbefore⟩
    · refine ⟨hfull, frame, rfl, ?_⟩
      rw [hkey, if_pos rfl]
      cases hbuffer : t.buffer.buffer with
      | nil =>
        rw [hbuffer] at hsplit
        exact absurd (List.cons.inj hsplit).2.symm hne
      | cons first later =>
        rw [hbuffer] at hsplit
        obtain ⟨rfl, hafter⟩ := List.cons.inj hsplit
        rw [← hafter, List.append_eq, List.forall_mem_append, List.forall_mem_singleton] at hall
        exact ⟨hall.2, List.forall_mem_cons.mpr ⟨hkey, hall.1⟩, rfl⟩

theorem indexed_step (h : t.buffer.Indexed) (hstep : BufferRun.step t event = some u) :
    u.buffer.Indexed := by
  cases event with
  | push frame =>
    obtain rfl := Option.some.inj hstep
    exact h.push _
  | pop =>
    rcases pop_cases hstep with ⟨-, rfl⟩ | ⟨first, rest, hpop, rfl⟩
    · exact h
    · exact h.pop hpop

/-- The last keyframe pushed is popped or in the buffer. -/
def LastPushedKept (t : BufferRun) : Prop :=
  ∀ last, (t.pushed.filter isKeyframe).getLast? = some last → last ∈ t.popped ++ t.buffer.buffer

theorem LastPushedKept.push (h : LastPushedKept t) (hconserved : Conserved capacity t)
    (hstep : BufferRun.step t (.push frame) = some u) : LastPushedKept u := by
  intro last hlast
  by_contra hgone
  have hpushed : u.pushed = t.pushed ++ [t.next frame] := by
    obtain rfl := Option.some.inj hstep
    rfl
  have hpopped : u.popped = t.popped := by
    obtain rfl := Option.some.inj hstep
    rfl
  have hkey : isKeyframe last = true :=
    (List.mem_filter.mp (List.mem_of_getLast? hlast)).2
  rw [hpushed, getLast?_filter_snoc] at hlast
  -- it is the frame pushed, or was kept until now
  have hevicted : Evicted t u last := by
    refine ⟨?_, hgone⟩
    split at hlast
    · obtain rfl := Option.some.inj hlast
      exact .inr ⟨hpushed ▸ List.mem_append_right _ List.mem_cons_self,
        hconserved.next_notMem frame⟩
    · refine .inl ((List.mem_append.mp (h last hlast)).resolve_left fun hmem => hgone ?_)
      exact List.mem_append_left _ (hpopped ▸ hmem)
  obtain ⟨-, frame', heq, hpolicy⟩ := lastResort_step hstep last hevicted
  obtain rfl := BufferEvent.push.inj heq
  rw [hkey, if_pos rfl] at hpolicy
  obtain ⟨hframe, -, hhead⟩ := hpolicy
  -- only a keyframe pushed makes a keyframe go, and then that is the last one
  rw [if_pos (show isKeyframe (t.next frame) = true from hframe)] at hlast
  obtain rfl := Option.some.inj hlast
  have hmem : t.next frame ∈ t.buffer.buffer := List.mem_of_head? hhead
  exact hconserved.next_notMem_buffer frame (List.mem_append_right _ hmem)

theorem LastPushedKept.pop (h : LastPushedKept t) (hstep : BufferRun.step t .pop = some u) :
    LastPushedKept u := by
  obtain ⟨hpushed, hkeeps⟩ := pop_keeps hstep
  intro last hlast
  rw [hpushed] at hlast
  rw [hkeeps]
  exact h last hlast

theorem always_lastPushedKept (capacity : Nat) (events : List BufferEvent) :
    Always BufferRun.step (fun t => (Conserved capacity t ∧ t.buffer.Indexed) ∧ LastPushedKept t)
      (start capacity) events := by
  refine always_of_step ⟨⟨conserved_start capacity, rfl⟩, fun _ hlast => by cases hlast⟩ ?_ events
  rintro t event u ⟨⟨hconserved, hindexed⟩, hkept⟩ hstep
  refine ⟨⟨hconserved.step hstep, indexed_step hindexed hstep⟩, ?_⟩
  cases event with
  | push frame => exact hkept.push hconserved hstep
  | pop => exact hkept.pop hstep

theorem keyframesKept_of_indexed (hindexed : t.buffer.Indexed) (hkept : LastPushedKept t) :
    KeyframesKept t := by
  unfold FrameBuffer.Indexed at hindexed
  refine ⟨fun i => ?_, ?_, hkept⟩
  · rw [hindexed]
    exact lastIndex_eq_some
  · rw [hindexed, ← Option.ne_none_iff_isSome, ne_eq, lastIndex_eq_none]
    simp

/-- **Keyframes go last.** Under any pushes and pops of a new buffer, the index is that of the
last keyframe, the last keyframe pushed is never lost, and a full buffer loses its oldest
non-keyframe, or the one pushed, unless all there is are keyframes; then it loses the oldest. -/
theorem keyframes_last_resort (capacity : Nat) (events : List BufferEvent) :
    Always BufferRun.step KeyframesKept (start capacity) events ∧
      EachStep BufferRun.step LastResort (start capacity) events := by
  have hinv := always_lastPushedKept capacity events
  refine ⟨hinv.mono fun t h => keyframesKept_of_indexed h.1.2 h.2, ?_⟩
  exact eachStep_of_always hinv fun t event u _ hstep => lastResort_step hstep

end BufferRun

end Kodama
