import Kodama.Transport.Backpressure
import Mathlib.Data.List.Nodup

/-!
# Errors of a sender with backpressure (crates/kodama/src/transport/mux/muxer.rs)

`send` fails when the channel is closed, and its error carries a frame, as that of a channel's
`send` does: the one that was not sent. Here it may be another one: a flush that finds the channel
closed returns the frame it has just taken out of the buffer, and the frame of the call is lost.
And a call that fails on its own frame may have changed the order of the buffer before, where its
flush found the channel full.

`failsCleanly_iff` says when neither happens.
-/

namespace Kodama

open Lib Lib.Machine

namespace FrameBuffer

variable {φ : Type} [KeyframeFlag φ] {self : FrameBuffer φ} {frame : φ}

/-- A buffer without capacity holds keyframes only. -/
def Fits (self : FrameBuffer φ) : Prop :=
  self.capacity = 0 → ∀ b ∈ self.buffer, isKeyframe b = true

theorem Fits.pop (h : self.Fits) {first : φ} {rest : FrameBuffer φ}
    (hpop : self.pop = some (first, rest)) : rest.Fits := by
  obtain ⟨hbuffer, hcapacity, -, -⟩ := pop_eq_some.mp hpop
  intro hzero b hb
  exact h (hcapacity ▸ hzero) b (hbuffer ▸ List.mem_cons_of_mem _ hb)

/-- A non-keyframe is not kept by a buffer without capacity. -/
theorem push_of_fits (h : self.Fits) (hzero : self.capacity = 0) (hkey : isKeyframe frame = false) :
    (self.push frame).1.buffer = self.buffer := by
  have hfind : (self.countReceived (isKeyframe frame)).findDroppableNonKeyframe = none := by
    refine List.findIdx?_eq_none_iff.mpr fun b hb => ?_
    rw [h hzero b hb]
    rfl
  rw [hkey] at hfind
  unfold push
  simp only [hkey, countReceived_buffer, countReceived_capacity, hzero, Nat.not_lt_zero, if_false,
    hfind]
  rfl

theorem Fits.push (h : self.Fits) (frame : φ) : (self.push frame).1.Fits := by
  intro hzero b hb
  rw [push_capacity] at hzero
  cases hkey : isKeyframe frame with
  | true =>
    rcases List.mem_append.mp ((self.push_sublist frame).subset hb) with hold | hnew
    · exact h hzero b hold
    · rw [List.mem_singleton.mp hnew, hkey]
  | false =>
    rw [push_of_fits h hzero hkey] at hb
    exact h hzero b hb

/-- A frame taken out of a buffer is put back where it was if it was alone. -/
theorem putBack_alone (h : self.Fits) {rest : FrameBuffer φ}
    (hpop : self.pop = some (frame, rest)) (halone : rest.buffer = []) :
    (rest.push frame).1.buffer = [frame] := by
  obtain ⟨hbuffer, hcapacity, -, -⟩ := pop_eq_some.mp hpop
  obtain ⟨-, hpush, -, -⟩ | ⟨hfull, before, e, after, hsplit, hvictim, hpush, -, -⟩ :=
    push_cases rest frame
  · rw [hpush, halone]
    rfl
  · rw [halone, List.nil_append] at hsplit
    rw [halone, hcapacity] at hfull
    have hkey := h (Nat.eq_zero_of_le_zero hfull) frame (hbuffer ▸ List.mem_cons_self)
    -- the frame would be its own victim, and it is a keyframe
    have hlength := congrArg List.length hsplit
    simp only [List.length_append, List.length_cons, List.length_nil] at hlength
    obtain rfl : before = [] := List.eq_nil_of_length_eq_zero (by omega)
    obtain rfl : after = [] := List.eq_nil_of_length_eq_zero (by omega)
    obtain rfl : frame = e := List.head_eq_of_cons_eq hsplit
    rcases hvictim with ⟨hnone, -⟩ | ⟨-, -, hne, -⟩
    · rw [hkey] at hnone
      cases hnone
    · exact absurd rfl hne

end FrameBuffer

/-- A sender with what its last call found in the buffer. -/
structure SendCall where
  sender : SenderRun
  /-- the buffer when the call began -/
  before : List Numbered := []
  /-- what had been delivered out of the buffer by then -/
  flushedBefore : List Numbered := []
  /-- its flush has put a frame back behind others -/
  putBehind : Bool := false

namespace SendCall

/-- The next attempt puts a frame back that was not alone in the buffer. -/
def putsBehind (sender : SenderRun) : Bool :=
  sender.phase.isFlushing && !sender.tx.closed && sender.tx.isFull &&
    decide (1 < sender.buffer.buffer.length)

def step (self : SendCall) (event : SenderEvent) : Option SendCall :=
  (self.sender.step event).map fun sender =>
    match event with
    | .send _ =>
      { sender, before := self.sender.buffer.buffer, flushedBefore := self.sender.flushed }
    | .advance => { self with sender, putBehind := self.putBehind || putsBehind self.sender }
    | .receive | .close => { self with sender }

def start (channelCapacity bufferSize : Nat) : SendCall where
  sender := .start channelCapacity bufferSize

variable {t u : SendCall} {event : SenderEvent}

/-- A call that fails returns its own frame, and of the frames that were in the buffer, the first
ones have been delivered and the others are still there, in order. -/
def FailsCleanly (t : SendCall) (_ : SenderEvent) (u : SendCall) : Prop :=
  ∀ frame, t.sender.phase ≠ .idle → u.sender.phase = .idle →
    u.sender.result = some (.error frame) →
    t.sender.phase.inHand = [frame] ∧ ∃ delivered,
      u.sender.flushed = t.flushedBefore ++ delivered ∧
      t.before = delivered ++ u.sender.buffer.buffer

/-- A flush that finds the channel closed has no frame to flush, and the frame of the call finds
it closed only if the flush has not put a frame back behind others. -/
def ClosedAside (t : SendCall) (event : SenderEvent) (_ : SendCall) : Prop :=
  event = .advance → t.sender.tx.closed = true →
    (t.sender.phase.isFlushing = true → t.sender.buffer.buffer = []) ∧
    (t.sender.phase.isSending = true → t.putBehind = false)

/-- The buffer during a call: what was there before it, less what has been delivered, in order
unless a frame was put back behind others. -/
structure Tracked (t : SendCall) : Prop where
  traced : t.sender.Traced
  fits : t.sender.buffer.Fits
  flushing : t.sender.phase.isFlushing = true → t.putBehind = false
  buffer : t.sender.phase ≠ .idle → ∃ delivered,
    t.sender.flushed = t.flushedBefore ++ delivered ∧
    (t.before = delivered ++ t.sender.buffer.buffer ↔ t.putBehind = false)

/-- No frame is at two places. -/
theorem nodup_held {t : SenderRun} (h : t.Traced) : t.held.Nodup := by
  obtain ⟨frames, hperm, hsub⟩ := h.held
  have hsent : t.sent.Nodup := List.Nodup.of_map Numbered.number (h.numbered ▸ List.nodup_range)
  exact hperm.nodup_iff.mp (hsent.sublist hsub)

/-- The frame of the call is not one of those in the buffer. -/
theorem notMem_buffer {t : SenderRun} (h : t.Traced) {frame : Numbered}
    (hhand : t.phase.inHand = [frame]) : frame ∉ t.buffer.buffer := by
  have hnodup := nodup_held h
  rw [SenderRun.held, hhand] at hnodup
  intro hmem
  exact (List.nodup_append.mp hnodup).2.2 frame (List.mem_append_right _ hmem) frame
    List.mem_cons_self rfl

theorem nodup_buffer {t : SenderRun} (h : t.Traced) : t.buffer.buffer.Nodup :=
  (nodup_held h).sublist
    ((List.sublist_append_right _ _).trans (List.sublist_append_left _ t.phase.inHand))

/-- A frame that is put back behind others is not where it was. -/
theorem alone_of_putBack {buffer rest : FrameBuffer Numbered} {first : Numbered}
    (hnodup : buffer.buffer.Nodup) (hpop : buffer.pop = some (first, rest))
    (heq : (rest.push first).1.buffer = buffer.buffer) : rest.buffer = [] := by
  obtain ⟨hbuffer, -, -, -⟩ := FrameBuffer.pop_eq_some.mp hpop
  rw [hbuffer] at heq hnodup
  have hsub := rest.push_sublist first
  rw [heq] at hsub
  have hrotated := hsub.eq_of_length (by simp)
  cases hrest : rest.buffer with
  | nil => rfl
  | cons next later =>
    rw [hrest, List.cons_append] at hrotated
    obtain rfl := List.head_eq_of_cons_eq hrotated
    exact absurd (hrest ▸ List.mem_cons_self) (List.nodup_cons.mp hnodup).1

theorem start_tracked (channelCapacity bufferSize : Nat) :
    Tracked (start channelCapacity bufferSize) where
  traced := SenderRun.traced_start channelCapacity bufferSize
  fits := fun _ _ hb => nomatch hb
  flushing := fun h => nomatch h
  buffer := fun h => absurd rfl h

theorem Tracked.step (h : t.Tracked) (hstep : SendCall.step t event = some u) : u.Tracked := by
  obtain ⟨sender, hsender, rfl⟩ := Option.map_eq_some_iff.mp hstep
  have htraced := h.traced.step hsender
  cases SenderRun.move_of_step hsender with
  | call frame hphase =>
    exact ⟨htraced, h.fits, fun _ => rfl, fun _ => ⟨[], by simp, by simp⟩⟩
  | flushed frame first buffer hphase hpop hopen hroom =>
    have hnotBehind : (t.putBehind || putsBehind t.sender) = false := by
      rw [h.flushing (by rw [hphase]; rfl), putsBehind, hroom]
      simp
    refine ⟨htraced, h.fits.pop hpop, fun _ => hnotBehind, fun _ => ?_⟩
    obtain ⟨delivered, hflushed, hbuffer⟩ := h.buffer (by rw [hphase]; simp)
    have hbefore := hbuffer.mpr (h.flushing (by rw [hphase]; rfl))
    refine ⟨delivered ++ [first], ?_, iff_of_true ?_ hnotBehind⟩
    · rw [← List.append_assoc, ← hflushed]
    · rw [hbefore, (FrameBuffer.pop_eq_some.mp hpop).1, List.append_assoc]
      rfl
  | putBack frame first buffer hphase hpop hopen hfull =>
    refine ⟨htraced, (h.fits.pop hpop).push first, (fun hflushing => nomatch hflushing),
      fun _ => ?_⟩
    obtain ⟨delivered, hflushed, hbuffer⟩ := h.buffer (by rw [hphase]; simp)
    have hnotBehind := h.flushing (by rw [hphase]; rfl)
    refine ⟨delivered, hflushed, ?_⟩
    obtain ⟨hcons, -, -, -⟩ := FrameBuffer.pop_eq_some.mp hpop
    have hbehind : (t.putBehind || putsBehind t.sender) = false ↔ buffer.buffer = [] := by
      rw [hnotBehind, putsBehind, hphase, hopen, hfull, hcons]
      simp [SendPhase.isFlushing]
    rw [hbehind, hbuffer.mpr hnotBehind, List.append_cancel_left_eq]
    constructor
    · exact fun heq => alone_of_putBack (nodup_buffer h.traced) hpop heq.symm
    · intro halone
      rw [FrameBuffer.putBack_alone h.fits hpop halone, hcons, halone]
  | flushClosed frame first buffer hphase hpop hclosed =>
    exact ⟨htraced, h.fits.pop hpop, (fun hflushing => nomatch hflushing),
      fun hidle => absurd rfl hidle⟩
  | flushDone frame hphase hempty =>
    have hbehind : (t.putBehind || putsBehind t.sender) = t.putBehind := by
      rw [putsBehind, FrameBuffer.pop_eq_none.mp hempty]
      simp
    refine ⟨htraced, h.fits, (fun hflushing => nomatch hflushing), fun _ => ?_⟩
    rw [hbehind]
    exact h.buffer (by rw [hphase]; simp)
  | direct | sendClosed =>
    exact ⟨htraced, h.fits, (fun hflushing => nomatch hflushing), fun hidle => absurd rfl hidle⟩
  | buffered frame =>
    exact ⟨htraced, h.fits.push frame, (fun hflushing => nomatch hflushing),
      fun hidle => absurd rfl hidle⟩
  | received | closed => exact ⟨htraced, h.fits, h.flushing, h.buffer⟩

/-- A step fails cleanly exactly if it finds the channel open, or closed with the buffer aside. -/
theorem failsCleanly_step_iff (h : t.Tracked) (hstep : SendCall.step t event = some u) :
    FailsCleanly t event u ↔ ClosedAside t event u := by
  obtain ⟨sender, hsender, rfl⟩ := Option.map_eq_some_iff.mp hstep
  cases SenderRun.move_of_step hsender with
  | call frame hphase =>
    exact iff_of_true (fun _ hbusy => absurd hphase hbusy) (fun hadvance => nomatch hadvance)
  | flushed frame first buffer hphase hpop hopen =>
    refine iff_of_true (fun _ hbusy hidle => absurd hidle hbusy) (fun _ hclosed => ?_)
    exact absurd (hopen.symm.trans hclosed) (by simp)
  | putBack frame first buffer hphase hpop hopen =>
    refine iff_of_true (fun _ _ hidle => nomatch hidle) (fun _ hclosed => ?_)
    exact absurd (hopen.symm.trans hclosed) (by simp)
  | flushClosed frame first buffer hphase hpop hclosed =>
    obtain ⟨hcons, -, -, -⟩ := FrameBuffer.pop_eq_some.mp hpop
    -- the error carries the frame just taken out of the buffer
    refine iff_of_false (fun hclean => ?_) (fun haside => ?_)
    · obtain ⟨hhand, -⟩ := hclean first (by rw [hphase]; simp) rfl rfl
      exact notMem_buffer h.traced hhand (hcons ▸ List.mem_cons_self)
    · have hempty := (haside rfl hclosed).1 (by rw [hphase]; rfl)
      rw [hempty] at hcons
      cases hcons
  | flushDone frame hphase hempty =>
    refine iff_of_true (fun _ _ hidle => nomatch hidle)
      (fun _ _ => ⟨fun _ => ?_, fun hsending => ?_⟩)
    · exact FrameBuffer.pop_eq_none.mp hempty
    · rw [hphase] at hsending
      cases hsending
  | direct frame hphase hopen | buffered frame hphase hopen =>
    refine iff_of_true (fun _ _ _ herror => nomatch herror) (fun _ hclosed => ?_)
    exact absurd (hopen.symm.trans hclosed) (by simp)
  | sendClosed frame hphase hclosed =>
    obtain ⟨delivered, hflushed, hbuffer⟩ := h.buffer (by rw [hphase]; simp)
    constructor
    · intro hclean _ _
      refine ⟨fun hflushing => ?_, fun _ => ?_⟩
      · rw [hphase] at hflushing
        cases hflushing
      · obtain ⟨-, delivered', hflushed', hbefore⟩ := hclean frame (by rw [hphase]; simp) rfl rfl
        obtain rfl := List.append_cancel_left (hflushed.symm.trans hflushed')
        exact hbuffer.mp hbefore
    · intro haside other _ _ herror
      obtain rfl : frame = other := Except.error.inj (Option.some.inj herror)
      refine ⟨by rw [hphase]; rfl, delivered, hflushed, hbuffer.mpr ?_⟩
      exact (haside rfl hclosed).2 (by rw [hphase]; rfl)
  | received | closed =>
    exact iff_of_true (fun _ hbusy hidle => absurd hidle hbusy) (fun hadvance => nomatch hadvance)

/-- **Errors.** Along a schedule every call of `send` that fails returns its own frame, and leaves
the frames that were in the buffer delivered or there in order, if and only if no flush with a
frame to send finds the channel closed, nor does a call's own frame after its flush has put one
back behind others. -/
theorem failsCleanly_iff (channelCapacity bufferSize : Nat) (events : List SenderEvent) :
    EachStep step FailsCleanly (start channelCapacity bufferSize) events ↔
      EachStep step ClosedAside (start channelCapacity bufferSize) events := by
  have htracked : Always step Tracked (start channelCapacity bufferSize) events :=
    always_of_step (start_tracked channelCapacity bufferSize) (fun _ _ _ => Tracked.step) events
  exact eachStep_congr_of_always htracked fun _ _ _ h hstep => failsCleanly_step_iff h hstep

/-- A channel of one is full, a second frame is buffered, and the channel is closed: the third
call returns the second frame. -/
def exampleUnsent : List SenderEvent :=
  SenderRun.exampleCall 2 ++ SenderRun.exampleCall 2 ++ [.close] ++ SenderRun.exampleCall 0

theorem wrong_frame_returned :
    ¬ ∀ (channelCapacity bufferSize : Nat) (events : List SenderEvent),
      EachStep step FailsCleanly (start channelCapacity bufferSize) events := by
  intro h
  have hrun : (run step (start 1 1) exampleUnsent).bind (fun t => (step t .advance).map fun u =>
      (decide (t.sender.phase = .idle), decide (u.sender.phase = .idle),
        t.sender.phase.inHand.map Numbered.number,
        u.sender.result.map (Except.mapError Numbered.number))) =
      some (false, true, [2], some (.error 1)) := by
    decide
  obtain ⟨t, ht, hstep⟩ := Option.bind_eq_some_iff.mp hrun
  obtain ⟨u, hu, heq⟩ := Option.map_eq_some_iff.mp hstep
  simp only [Prod.mk.injEq, decide_eq_false_iff_not, decide_eq_true_eq] at heq
  obtain ⟨hbusy, hidle, hhand, hresult⟩ := heq
  obtain ⟨result, hsome, herror⟩ := Option.map_eq_some_iff.mp hresult
  cases result with
  | ok _ => cases herror
  | error frame =>
    obtain ⟨hframe, -⟩ := h 1 1 (exampleUnsent ++ [.advance]) exampleUnsent .advance t u
      (List.prefix_refl _) ht hu frame hbusy hidle hsome
    have hnumber : frame.number = 1 := Except.error.inj herror
    rw [hframe, List.map_singleton, hnumber] at hhand
    cases hhand

end SendCall

end Kodama
