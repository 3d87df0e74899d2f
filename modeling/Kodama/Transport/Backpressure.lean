import Kodama.Lib.Mpsc
import Kodama.Transport.Muxer
import Mathlib.Data.List.Perm.Subperm

/-!
# A sender with backpressure (crates/kodama/src/transport/mux/muxer.rs)

`BackpressureSender::send` first flushes the frames it has buffered into the channel, as many
as there is room for, then tries its own frame, and buffers that if the channel is full. The
receiver, on another task, may take a frame between any two of these attempts.

A flush pops a frame before it knows that there is room, and *pushes it back* when there is
none. A push appends, so the frame comes back behind all others, and it is counted once more.
And where the receiver makes room right after that, the frame of the call goes first. The order
is kept as long as neither finds other frames in the buffer (`received_in_order`), and the books
are right exactly as long as nothing is put back (`accounted_iff`).
-/

namespace Kodama

open Lib Lib.Machine

/-- Where a call of `send` is. -/
inductive SendPhase where
  | idle
  | flushing (frame : Numbered)
  | sending (frame : Numbered)
deriving DecidableEq

/-- The frame of the call. -/
def SendPhase.inHand : SendPhase → List Numbered
  | idle => []
  | flushing frame => [frame]
  | sending frame => [frame]

def SendPhase.isFlushing : SendPhase → Bool
  | flushing _ => true
  | _ => false

def SendPhase.isSending : SendPhase → Bool
  | sending _ => true
  | _ => false

/-- A `BackpressureSender` and its channel, with the frames that were passed to `send`, that
its own attempt could not deliver, that came out of the buffer, and that were received. -/
structure SenderRun where
  tx : Mpsc Numbered
  buffer : FrameBuffer Numbered
  phase : SendPhase := .idle
  /-- What the last call returned. -/
  result : Option (Except Numbered Bool) := none
  sent : List Numbered := []
  rejected : List Numbered := []
  flushed : List Numbered := []
  received : List Numbered := []

/-- What can happen next: a call, its next attempt, a receive, or the channel is closed. -/
inductive SenderEvent where
  | send (frame : Frame)
  | advance
  | receive
  | close
deriving DecidableEq

namespace SenderRun

/-- `BackpressureSender::new`. -/
def start (channelCapacity bufferSize : Nat) : SenderRun where
  tx := { capacity := channelCapacity }
  buffer := .new bufferSize

/-- One round of the loop of `flush_buffer`. -/
def flush (self : SenderRun) (frame : Numbered) : SenderRun :=
  match self.buffer.pop with
  | some (first, buffer) =>
    match self.tx.trySend first with
    | .ok tx => { self with tx, buffer, flushed := self.flushed ++ [first] }
    -- put it back, the channel is still full
    | .error .full => { self with buffer := (buffer.push first).1, phase := .sending frame }
    | .error .closed => { self with buffer, phase := .idle, result := some (.error first) }
  | none => { self with phase := .sending frame }

/-- The rest of `send`, after the flush. -/
def sendDirectly (self : SenderRun) (frame : Numbered) : SenderRun :=
  match self.tx.trySend frame with
  | .ok tx => { self with tx, phase := .idle, result := some (.ok true) }
  | .error .full =>
    { self with
      buffer := (self.buffer.push frame).1
      phase := .idle
      result := some (.ok (self.buffer.push frame).2)
      rejected := self.rejected ++ [frame] }
  | .error .closed => { self with phase := .idle, result := some (.error frame) }

def step (self : SenderRun) : SenderEvent → Option SenderRun
  | .send frame =>
    match self.phase with
    | .idle =>
      let numbered : Numbered := ⟨self.sent.length, frame⟩
      some { self with sent := self.sent ++ [numbered], phase := .flushing numbered }
    | _ => none
  | .advance =>
    match self.phase with
    | .idle => none
    | .flushing frame => some (self.flush frame)
    | .sending frame => some (self.sendDirectly frame)
  | .receive => self.tx.recv.map fun (first, tx) =>
    { self with tx, received := self.received ++ [first] }
  | .close => some { self with tx := self.tx.close }

/-- Everything a step can do. -/
inductive Move (t : SenderRun) : SenderEvent → SenderRun → Prop where
  | call (frame : Frame) (hphase : t.phase = .idle) : Move t (.send frame)
      { t with
        sent := t.sent ++ [⟨t.sent.length, frame⟩]
        phase := .flushing ⟨t.sent.length, frame⟩ }
  | flushed (frame first : Numbered) (buffer : FrameBuffer Numbered)
      (hphase : t.phase = .flushing frame) (hpop : t.buffer.pop = some (first, buffer))
      (hopen : t.tx.closed = false) (hroom : t.tx.isFull = false) : Move t .advance
      { t with
        tx := { t.tx with queue := t.tx.queue ++ [first] }
        buffer
        flushed := t.flushed ++ [first] }
  | putBack (frame first : Numbered) (buffer : FrameBuffer Numbered)
      (hphase : t.phase = .flushing frame) (hpop : t.buffer.pop = some (first, buffer))
      (hopen : t.tx.closed = false) (hfull : t.tx.isFull = true) : Move t .advance
      { t with buffer := (buffer.push first).1, phase := .sending frame }
  | flushClosed (frame first : Numbered) (buffer : FrameBuffer Numbered)
      (hphase : t.phase = .flushing frame) (hpop : t.buffer.pop = some (first, buffer))
      (hclosed : t.tx.closed = true) : Move t .advance
      { t with buffer, phase := .idle, result := some (.error first) }
  | flushDone (frame : Numbered) (hphase : t.phase = .flushing frame)
      (hempty : t.buffer.pop = none) : Move t .advance { t with phase := .sending frame }
  | direct (frame : Numbered) (hphase : t.phase = .sending frame)
      (hopen : t.tx.closed = false) (hroom : t.tx.isFull = false) : Move t .advance
      { t with
        tx := { t.tx with queue := t.tx.queue ++ [frame] }
        phase := .idle
        result := some (.ok true) }
  | buffered (frame : Numbered) (hphase : t.phase = .sending frame)
      (hopen : t.tx.closed = false) (hfull : t.tx.isFull = true) : Move t .advance
      { t with
        buffer := (t.buffer.push frame).1
        phase := .idle
        result := some (.ok (t.buffer.push frame).2)
        rejected := t.rejected ++ [frame] }
  | sendClosed (frame : Numbered) (hphase : t.phase = .sending frame)
      (hclosed : t.tx.closed = true) :
      Move t .advance { t with phase := .idle, result := some (.error frame) }
  | received (first : Numbered) (tx : Mpsc Numbered) (hrecv : t.tx.recv = some (first, tx)) :
      Move t .receive { t with tx, received := t.received ++ [first] }
  | closed : Move t .close { t with tx := t.tx.close }

variable {t u : SenderRun} {event : SenderEvent} {frame first : Numbered}

theorem move_of_step (hstep : step t event = some u) : Move t event u := by
  cases event with
  | send frame =>
    simp only [step] at hstep
    split at hstep
    · next hphase =>
      obtain rfl := Option.some.inj hstep
      exact .call frame hphase
    · cases hstep
  | advance =>
    simp only [step] at hstep
    split at hstep
    · cases hstep
    · next frame hphase =>
      obtain rfl := Option.some.inj hstep
      unfold flush
      split
      · next first buffer hpop =>
        split
        · next tx hsend =>
          obtain ⟨hopen, hroom, rfl⟩ := Mpsc.trySend_eq_ok hsend
          exact .flushed frame first buffer hphase hpop hopen hroom
        · next hsend =>
          obtain ⟨hopen, hfull⟩ := Mpsc.trySend_eq_full.mp hsend
          exact .putBack frame first buffer hphase hpop hopen hfull
        · next hclosed =>
          exact .flushClosed frame first buffer hphase hpop (Mpsc.trySend_eq_closed.mp hclosed)
      · next hempty => exact .flushDone frame hphase hempty
    · next frame hphase =>
      obtain rfl := Option.some.inj hstep
      unfold sendDirectly
      split
      · next tx hsend =>
        obtain ⟨hopen, hroom, rfl⟩ := Mpsc.trySend_eq_ok hsend
        exact .direct frame hphase hopen hroom
      · next hsend =>
        obtain ⟨hopen, hfull⟩ := Mpsc.trySend_eq_full.mp hsend
        exact .buffered frame hphase hopen hfull
      · next hclosed => exact .sendClosed frame hphase (Mpsc.trySend_eq_closed.mp hclosed)
  | receive =>
    obtain ⟨⟨first, tx⟩, hrecv, rfl⟩ := Option.map_eq_some_iff.mp hstep
    exact .received first tx hrecv
  | close =>
    obtain rfl := Option.some.inj hstep
    exact .closed

/-- A channel that is closed stays closed. -/
theorem open_of_step (hstep : step t event = some u) (hopen : u.tx.closed = false) :
    t.tx.closed = false := by
  cases move_of_step hstep with
  | received first tx hrecv => exact (Mpsc.recv_eq_some hrecv).2 ▸ hopen
  | closed => cases hopen
  | _ => exact hopen

/-- The frames delivered, in the buffer and in hand. -/
def held (t : SenderRun) : List Numbered :=
  t.received ++ t.tx.queue ++ t.buffer.buffer ++ t.phase.inHand

/-! ## Order -/

/-- A step that keeps the order: a flush that meets a full channel has no other frame buffered,
and a frame that goes directly has none before it in the buffer. -/
def KeepsOrder (t : SenderRun) (event : SenderEvent) (_ : SenderRun) : Prop :=
  event = .advance → t.tx.closed = false →
    (t.phase.isFlushing = true → t.tx.isFull = true → t.buffer.buffer.length ≤ 1) ∧
    (t.phase.isSending = true → t.tx.isFull = false → t.buffer.buffer = [])

instance : Decidable (KeepsOrder t event u) :=
  inferInstanceAs (Decidable (event = .advance → t.tx.closed = false →
    (t.phase.isFlushing = true → t.tx.isFull = true → t.buffer.buffer.length ≤ 1) ∧
    (t.phase.isSending = true → t.tx.isFull = false → t.buffer.buffer = [])))

/-- A flush puts a frame back, behind the others that are buffered. -/
structure PutsBack (t u : SenderRun) : Prop where
  isFlushing : t.phase.isFlushing = true
  isFull : t.tx.isFull = true
  held : ∃ first rest, t.buffer.buffer = first :: rest ∧
    u.held.Sublist (t.received ++ t.tx.queue ++ (rest ++ [first]) ++ t.phase.inHand)

/-- A frame goes directly, before those that are buffered. -/
structure Overtakes (t u : SenderRun) : Prop where
  isSending : t.phase.isSending = true
  notFull : t.tx.isFull = false
  held : u.held = t.received ++ t.tx.queue ++ t.phase.inHand ++ t.buffer.buffer

/-- What a step does to the frames held: a call adds its own, a flush may put one back and a send
may overtake others; any other step only leaves some out. -/
theorem held_cases (hmove : Move t event u) :
    (∃ frame, u.sent = t.sent ++ [frame] ∧ u.held = t.held ++ [frame]) ∨
    u.sent = t.sent ∧ (u.held.Sublist t.held ∨
      event = .advance ∧ t.tx.closed = false ∧ (PutsBack t u ∨ Overtakes t u)) := by
  cases hmove with
  | call frame hphase =>
    refine .inl ⟨_, rfl, ?_⟩
    simp [held, hphase, SendPhase.inHand]
  | flushed frame first buffer hphase hpop hopen hroom =>
    obtain ⟨hbuffer, -, -, -⟩ := FrameBuffer.pop_eq_some.mp hpop
    refine .inr ⟨rfl, .inl ?_⟩
    simp [held, hphase, hbuffer, SendPhase.inHand]
  | putBack frame first buffer hphase hpop hopen hfull =>
    obtain ⟨hbuffer, -, -, -⟩ := FrameBuffer.pop_eq_some.mp hpop
    refine .inr ⟨rfl, .inr ⟨rfl, hopen, .inl ⟨by rw [hphase]; rfl, hfull, first, _, hbuffer, ?_⟩⟩⟩
    rw [held, hphase]
    exact ((List.Sublist.refl _).append (buffer.push_sublist first)).append (List.Sublist.refl _)
  | flushClosed frame first buffer hphase hpop hclosed =>
    obtain ⟨hbuffer, -, -, -⟩ := FrameBuffer.pop_eq_some.mp hpop
    refine .inr ⟨rfl, .inl ?_⟩
    rw [held, held, hbuffer]
    exact ((List.Sublist.refl _).append (List.sublist_cons_self _ _)).append (List.nil_sublist _)
  | flushDone frame hphase hempty =>
    refine .inr ⟨rfl, .inl ?_⟩
    simp [held, hphase, SendPhase.inHand]
  | direct frame hphase hopen hroom =>
    refine .inr ⟨rfl, .inr ⟨rfl, hopen, .inr ⟨by rw [hphase]; rfl, hroom, ?_⟩⟩⟩
    simp [held, hphase, SendPhase.inHand]
  | buffered frame hphase hopen hfull =>
    refine .inr ⟨rfl, .inl ?_⟩
    rw [held, held, hphase]
    show (t.received ++ t.tx.queue ++ (t.buffer.push frame).1.buffer ++ []).Sublist
      (t.received ++ t.tx.queue ++ t.buffer.buffer ++ [frame])
    rw [List.append_nil, List.append_assoc _ t.buffer.buffer]
    exact (List.Sublist.refl _).append (t.buffer.push_sublist frame)
  | sendClosed frame hphase hclosed =>
    refine .inr ⟨rfl, .inl ?_⟩
    rw [held, held]
    exact (List.Sublist.refl _).append (List.nil_sublist _)
  | received first tx hrecv =>
    obtain ⟨hqueue, -⟩ := Mpsc.recv_eq_some hrecv
    refine .inr ⟨rfl, .inl ?_⟩
    simp [held, hqueue]
  | closed => exact .inr ⟨rfl, .inl (List.Sublist.refl _)⟩

theorem held_sublist_step (h : t.held.Sublist t.sent) (hkeeps : KeepsOrder t event u)
    (hstep : step t event = some u) : u.held.Sublist u.sent := by
  obtain ⟨frame, hsent, hheld⟩ | ⟨hsent, hsub | ⟨hadvance, hopen, hback | hover⟩⟩ :=
    held_cases (move_of_step hstep)
  · rw [hsent, hheld]
    exact h.append (List.Sublist.refl _)
  · exact hsent ▸ hsub.trans h
  · -- the frame put back is the only one
    obtain ⟨first, rest, hbuffer, hsub⟩ := hback.held
    have hlength := (hkeeps hadvance hopen).1 hback.isFlushing hback.isFull
    rw [hbuffer, List.length_cons] at hlength
    obtain rfl : rest = [] := List.eq_nil_of_length_eq_zero (by omega)
    rw [held, hbuffer] at h
    exact hsent ▸ hsub.trans h
  · have hempty := (hkeeps hadvance hopen).2 hover.isSending hover.notFull
    rw [held, hempty] at h
    rw [hsent, hover.held, hempty, List.append_nil]
    simpa using h

/-- **Order.** As long as a flush puts back no frame behind another one, and no frame goes
before one in the buffer, what is received is, in order, a part of what was sent. -/
theorem received_in_order (channelCapacity bufferSize : Nat) (events : List SenderEvent)
    (hkeeps : EachStep step KeepsOrder (start channelCapacity bufferSize) events) :
    Always step (fun t => t.received.Sublist t.sent) (start channelCapacity bufferSize) events := by
  have hstart : (start channelCapacity bufferSize).held.Sublist [] := .slnil
  have hheld : Always step (fun t => t.held.Sublist t.sent) _ events :=
    always_of_eachStep hstart (fun _ _ _ => held_sublist_step) hkeeps
  refine hheld.mono fun t h => List.Sublist.trans ?_ h
  rw [held, List.append_assoc, List.append_assoc]
  exact List.sublist_append_left _ _

/-- A call of `send` that makes so many attempts. -/
def exampleCall (attempts : Nat) : List SenderEvent :=
  .send (.video ⟨[4, 6, 6, 9, 2, 0, 1, 6], rfl⟩ [0x41] false) :: .replicate attempts .advance

/-- Two frames go directly, one through the buffer, alone in it. -/
def exampleOrdered : List SenderEvent :=
  exampleCall 2 ++ exampleCall 2 ++ [.receive] ++ exampleCall 3

theorem received_in_order_ordered :
    Always step (fun t => t.received.Sublist t.sent) (start 1 1) exampleOrdered :=
  received_in_order 1 1 exampleOrdered (by decide +kernel)

/-- A channel of two is full when frames 2, 3 and 4 are sent: frame 2 is put back behind frame 3,
and when there is room, frame 3 goes first. -/
def exampleRotation : List SenderEvent :=
  exampleCall 2 ++ exampleCall 2 ++ exampleCall 2 ++ exampleCall 2 ++ exampleCall 2 ++
    [.receive, .receive] ++ exampleCall 4 ++ [.receive, .receive]

theorem received_reordered : ¬ ∀ (channelCapacity bufferSize : Nat) (events : List SenderEvent),
    Always step (fun t => t.received.Sublist t.sent) (start channelCapacity bufferSize) events := by
  intro h
  have hreceived : (run step (start 2 3) exampleRotation).map
      (fun t => decide (t.received.Sublist t.sent)) = some false := by decide +kernel
  obtain ⟨t, hsublist, hdecide⟩ := (h 2 3 exampleRotation).observed hreceived
  exact of_decide_eq_false hdecide hsublist

/-! ## Accounting -/

/-- The books for the frames that satisfy `p`, with their two 64-bit counters: what was sent is
held or dropped, and what could not go directly is dropped, in the buffer, or delivered out of
it. -/
structure Balanced (p : Numbered → Bool) (framesReceived framesDropped : UInt64)
    (t : SenderRun) : Prop where
  sent : framesDropped + UInt64.ofNat (t.held.countP p) = UInt64.ofNat (t.sent.countP p)
  rejected : framesReceived = UInt64.ofNat (t.rejected.countP p)
  outOfBuffer : framesReceived = framesDropped + UInt64.ofNat (t.buffer.buffer.countP p) +
    UInt64.ofNat (t.flushed.countP p)

/-- No frame is held twice, and none that was not sent; nor is one rejected twice. -/
structure Traced (t : SenderRun) : Prop where
  numbered : t.sent.map Numbered.number = List.range t.sent.length
  held : t.held.Subperm t.sent
  rejected : (t.rejected ++ t.phase.inHand).Sublist t.sent

/-- The books of a sender: every frame sent is delivered, in the buffer or in hand, or counted
once as dropped, and the buffer has received what could not be delivered directly, once. -/
structure Accounted (t : SenderRun) : Prop extends Traced t where
  frames : Balanced (fun _ => true) t.buffer.stats.framesReceived t.buffer.stats.framesDropped t
  keyframes :
    Balanced isKeyframe t.buffer.stats.keyframesReceived t.buffer.stats.keyframesDropped t

/-- A flush that has a frame to send finds room for it. -/
def PutsNothingBack (t : SenderRun) (event : SenderEvent) (_ : SenderRun) : Prop :=
  event = .advance → t.tx.closed = false → t.phase.isFlushing = true → t.tx.isFull = true →
    t.buffer.buffer = []

theorem traced_start (channelCapacity bufferSize : Nat) :
    Traced (start channelCapacity bufferSize) :=
  ⟨rfl, List.Subperm.refl _, .slnil⟩

theorem held_subperm_move (h : t.held.Subperm t.sent) (hmove : Move t event u) :
    u.held.Subperm u.sent := by
  obtain ⟨frame, hsent, hheld⟩ | ⟨hsent, hsub | ⟨-, -, hback | hover⟩⟩ := held_cases hmove
  · rw [hsent, hheld]
    exact h.append (List.Subperm.refl _)
  · exact hsent ▸ hsub.subperm.trans h
  · obtain ⟨first, rest, hbuffer, hsub⟩ := hback.held
    refine hsent ▸ hsub.subperm.trans (List.Subperm.trans (List.Perm.subperm ?_) h)
    rw [held, hbuffer]
    exact ((List.perm_append_singleton first rest).append_left _).append_right _
  · refine hsent ▸ List.Subperm.trans (List.Perm.subperm ?_) h
    rw [hover.held, held, List.append_assoc _ t.phase.inHand, List.append_assoc _ t.buffer.buffer]
    exact List.perm_append_comm.append_left _

theorem Traced.step (h : Traced t) (hstep : SenderRun.step t event = some u) : Traced u := by
  have hmove := move_of_step hstep
  have hheld := held_subperm_move h.held hmove
  obtain ⟨hnumbered, -, hrejected⟩ := h
  cases hmove with
  | call frame hphase =>
    rw [hphase, SendPhase.inHand, List.append_nil] at hrejected
    refine ⟨?_, hheld, hrejected.append (List.Sublist.refl _)⟩
    rw [List.map_append, hnumbered, List.length_append, List.length_singleton, List.range_succ]
    rfl
  | flushed => exact ⟨hnumbered, hheld, hrejected⟩
  | putBack frame first buffer hphase =>
    rw [hphase] at hrejected
    exact ⟨hnumbered, hheld, hrejected⟩
  | flushDone frame hphase =>
    rw [hphase] at hrejected
    exact ⟨hnumbered, hheld, hrejected⟩
  | buffered frame hphase =>
    rw [hphase] at hrejected
    exact ⟨hnumbered, hheld, (List.append_nil (t.rejected ++ [frame])).symm ▸ hrejected⟩
  | received => exact ⟨hnumbered, hheld, hrejected⟩
  | closed => exact ⟨hnumbered, hheld, hrejected⟩
  | _ =>
    refine ⟨hnumbered, hheld, List.Sublist.trans ?_ hrejected⟩
    exact (List.Sublist.refl _).append (List.nil_sublist _)

theorem countP_held (p : Numbered → Bool) (t : SenderRun) : t.held.countP p =
    t.received.countP p + t.tx.queue.countP p + t.buffer.buffer.countP p +
      t.phase.inHand.countP p := by
  simp only [held, List.countP_append]

section Balanced

variable {p : Numbered → Bool} {r d : UInt64}

theorem Balanced.call (h : Balanced p r d t) (hphase : t.phase = .idle) (frame : Numbered) :
    Balanced p r d { t with sent := t.sent ++ [frame], phase := .flushing frame } := by
  obtain ⟨hsent, hrejected, hout⟩ := h
  rw [countP_held, hphase] at hsent
  refine ⟨?_, hrejected, hout⟩
  simp only [countP_held, SendPhase.inHand, List.countP_append, List.countP_nil, Nat.add_zero,
    UInt64.ofNat_add] at hsent ⊢
  grind

theorem Balanced.flushed (h : Balanced p r d t) {rest : FrameBuffer Numbered}
    (hpop : t.buffer.pop = some (first, rest)) : Balanced p r d { t with
      tx := { t.tx with queue := t.tx.queue ++ [first] }, buffer := rest,
      flushed := t.flushed ++ [first] } := by
  obtain ⟨hsent, hrejected, hout⟩ := h
  obtain ⟨hbuffer, -, -, -⟩ := FrameBuffer.pop_eq_some.mp hpop
  rw [countP_held] at hsent
  rw [hbuffer, List.countP_cons] at hsent hout
  refine ⟨?_, hrejected, ?_⟩
  · simp only [countP_held, List.countP_append, List.countP_singleton, UInt64.ofNat_add] at hsent ⊢
    grind
  · simp only [List.countP_append, List.countP_singleton, UInt64.ofNat_add] at hout ⊢
    grind

theorem Balanced.flushDone (h : Balanced p r d t) (hphase : t.phase = .flushing frame) :
    Balanced p r d { t with phase := .sending frame } := by
  refine ⟨?_, h.rejected, h.outOfBuffer⟩
  have hsent := h.sent
  rw [countP_held, hphase] at hsent
  rw [countP_held]
  exact hsent

theorem Balanced.direct (h : Balanced p r d t) (hphase : t.phase = .sending frame)
    (result : Option (Except Numbered Bool)) : Balanced p r d { t with
      tx := { t.tx with queue := t.tx.queue ++ [frame] }, phase := .idle, result } := by
  refine ⟨?_, h.rejected, h.outOfBuffer⟩
  have hsent := h.sent
  rw [countP_held, hphase] at hsent
  simp only [countP_held, SendPhase.inHand, List.countP_append, List.countP_nil, Nat.add_zero,
    UInt64.ofNat_add] at hsent ⊢
  grind

theorem Balanced.buffered {r' d' : UInt64} (h : Balanced p r d t)
    (hphase : t.phase = .sending frame) (result : Option (Except Numbered Bool))
    (hreceived : r' = r + UInt64.ofNat ([frame].countP p))
    (hdropped : d' + UInt64.ofNat ((t.buffer.push frame).1.buffer.countP p) =
      d + UInt64.ofNat (t.buffer.buffer.countP p) + UInt64.ofNat ([frame].countP p)) :
    Balanced p r' d' { t with
      buffer := (t.buffer.push frame).1, phase := .idle, result,
      rejected := t.rejected ++ [frame] } := by
  obtain ⟨hsent, hrejected, hout⟩ := h
  rw [countP_held, hphase] at hsent
  refine ⟨?_, ?_, ?_⟩
  · simp only [countP_held, SendPhase.inHand, List.countP_nil, Nat.add_zero, UInt64.ofNat_add]
      at hsent ⊢
    grind
  · rw [hreceived, hrejected, List.countP_append, UInt64.ofNat_add]
  · show r' = d' + UInt64.ofNat ((t.buffer.push frame).1.buffer.countP p) +
      UInt64.ofNat (t.flushed.countP p)
    grind

theorem Balanced.received (h : Balanced p r d t) {tx : Mpsc Numbered}
    (hrecv : t.tx.recv = some (first, tx)) :
    Balanced p r d { t with tx, received := t.received ++ [first] } := by
  refine ⟨?_, h.rejected, h.outOfBuffer⟩
  have hsent := h.sent
  obtain ⟨hqueue, -⟩ := Mpsc.recv_eq_some hrecv
  rw [countP_held, hqueue, List.countP_cons] at hsent
  simp only [countP_held, List.countP_append, List.countP_singleton, UInt64.ofNat_add] at hsent ⊢
  grind

end Balanced

/-- With the channel open, the steps that put nothing back keep the books. -/
theorem Accounted.step (h : Accounted t) (hback : PutsNothingBack t event u)
    (hstep : SenderRun.step t event = some u) (hopen : u.tx.closed = false) : Accounted u := by
  have htraced := h.toTraced.step hstep
  cases move_of_step hstep with
  | call frame hphase => exact ⟨htraced, h.frames.call hphase _, h.keyframes.call hphase _⟩
  | flushed frame first buffer hphase hpop =>
    obtain ⟨-, -, hstats, -⟩ := FrameBuffer.pop_eq_some.mp hpop
    have hframes := h.frames.flushed hpop
    have hkeyframes := h.keyframes.flushed hpop
    rw [← hstats] at hframes hkeyframes
    exact ⟨htraced, hframes, hkeyframes⟩
  | putBack frame first buffer hphase hpop hopen hfull =>
    obtain ⟨hbuffer, -, -, -⟩ := FrameBuffer.pop_eq_some.mp hpop
    have hempty := hback rfl hopen (by rw [hphase]; rfl) hfull
    rw [hempty] at hbuffer
    cases hbuffer
  | flushClosed frame first buffer hphase hpop hclosed =>
    exact absurd (hclosed.symm.trans hopen) (by simp)
  | flushDone frame hphase =>
    exact ⟨htraced, h.frames.flushDone hphase, h.keyframes.flushDone hphase⟩
  | direct frame hphase =>
    exact ⟨htraced, h.frames.direct hphase _, h.keyframes.direct hphase _⟩
  | buffered frame hphase =>
    obtain ⟨hreceived, hkeyReceived, hdropped, hkeyDropped⟩ := t.buffer.push_counts frame
    refine ⟨htraced, h.frames.buffered hphase _ hreceived ?_,
      h.keyframes.buffered hphase _ hkeyReceived hkeyDropped⟩
    rw [List.countP_true]
    exact hdropped
  | sendClosed frame hphase hclosed => exact absurd (hclosed.symm.trans hopen) (by simp)
  | received first tx hrecv => exact ⟨htraced, h.frames.received hrecv, h.keyframes.received hrecv⟩
  | closed => cases hopen

/-- A frame put back is counted once more, though it could not go directly once only. -/
theorem not_accounted_of_putBack (h : Accounted t) (hstep : SenderRun.step t .advance = some u)
    (hopen : t.tx.closed = false) (hflushing : t.phase.isFlushing = true)
    (hfull : t.tx.isFull = true) (hne : t.buffer.buffer ≠ []) :
    u.tx.closed = false ∧ ¬ Accounted u := by
  cases move_of_step hstep with
  | flushed frame first buffer hphase hpop hopen hroom =>
    exact absurd (hroom.symm.trans hfull) (by simp)
  | putBack frame first buffer hphase hpop =>
    obtain ⟨-, -, hstats, -⟩ := FrameBuffer.pop_eq_some.mp hpop
    refine ⟨hopen, fun hafter => ?_⟩
    have hbefore := h.frames.rejected
    have hafter : (buffer.push first).1.stats.framesReceived = UInt64.ofNat (t.rejected.countP _) :=
      hafter.frames.rejected
    rw [(buffer.push_counts first).1, hstats, ← hbefore] at hafter
    grind
  | flushClosed frame first buffer hphase hpop hclosed =>
    exact absurd (hclosed.symm.trans hopen) (by simp)
  | flushDone frame hphase hempty => exact absurd (FrameBuffer.pop_eq_none.mp hempty) hne
  | direct frame hphase | buffered frame hphase | sendClosed frame hphase =>
    rw [hphase] at hflushing
    cases hflushing

/-- **Accounting.** While the channel is open the books are right in every state reached, if and
only if no flush ever puts a frame back. -/
theorem accounted_iff (channelCapacity bufferSize : Nat) (events : List SenderEvent) :
    Always step (fun t => t.tx.closed = false → Accounted t) (start channelCapacity bufferSize)
      events ↔ EachStep step PutsNothingBack (start channelCapacity bufferSize) events := by
  refine always_iff_eachStep (J := fun _ => True) trivial (fun _ _ _ _ _ => trivial) ?_ ?_
  · exact fun _ => ⟨traced_start _ _, ⟨rfl, rfl, rfl⟩, ⟨rfl, rfl, rfl⟩⟩
  · intro t event u _ h hstep
    constructor
    · rintro hafter rfl hopen hflushing hfull
      by_contra hne
      obtain ⟨hopen', hnot⟩ := not_accounted_of_putBack (h hopen) hstep hopen hflushing hfull hne
      exact hnot (hafter hopen')
    · intro hback hopen
      exact (h (open_of_step hstep hopen)).step hback hstep hopen

/-- A channel of one is full when the second and third frames are sent, so the second is put
back, and counted once more. -/
def examplePutBack : List SenderEvent := exampleCall 2 ++ exampleCall 2 ++ exampleCall 2

theorem counted_twice : ¬ ∀ (channelCapacity bufferSize : Nat) (events : List SenderEvent),
    Always step (fun t => t.tx.closed = false → Accounted t) (start channelCapacity bufferSize)
      events := by
  intro h
  have hstats : (run step (start 1 2) examplePutBack).map (fun t =>
      (t.tx.closed, t.buffer.stats.framesReceived, t.rejected.length)) = some (false, 3, 2) := by
    decide +kernel
  obtain ⟨t, haccounted, heq⟩ := (h 1 2 examplePutBack).observed hstats
  obtain ⟨hopen, hrest⟩ := Prod.mk.inj heq
  obtain ⟨hreceived, hrejected⟩ := Prod.mk.inj hrest
  have hframes := (haccounted hopen).frames.rejected
  rw [List.countP_true, hreceived, hrejected] at hframes
  cases hframes

end SenderRun

end Kodama
