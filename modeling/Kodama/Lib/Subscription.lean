import Kodama.Lib.Broadcast

/-!
# Receivers of a broadcast channel and what they get

A receiver with its history: where it subscribed, what it has got, and how many messages it
was told it missed. Whatever the order of sends and receives, it gets a part of what was sent
since it subscribed, in order, and every message it has passed was got or counted as missed
(`Subscription.Ok`); one that missed nothing got all of them (`Ok.got_eq`).

A channel does not take what it is offered while nobody is subscribed. To a receiver this makes
no difference (`Sees`): as long as it is subscribed, what was offered is what was sent.
-/

namespace Lib

open scoped List

universe u

variable {α : Type u}

/-- A receiver, and what has come of it. -/
structure Subscription (α : Type u) where
  start : Nat
  next : Nat
  got : List α := []
  missed : Nat := 0

namespace Subscription

/-- A new receiver of a channel. -/
def new (ch : Broadcast α) : Subscription α where
  start := ch.subscribe
  next := ch.subscribe

/-- `recv`. -/
def recv (ch : Broadcast α) (s : Subscription α) : Option (Received α × Subscription α) :=
  match ch.recv s.next with
  | some (.message m, next) => some (.message m, { s with next, got := s.got ++ [m] })
  | some (.lagged n, next) => some (.lagged n, { s with next, missed := s.missed + n })
  | none => none

/-- What was sent from the subscription up to the message that is read next. -/
def passed (ch : Broadcast α) (s : Subscription α) : List α :=
  (ch.sent.drop s.start).take (s.next - s.start)

/-- What holds of every receiver. -/
structure Ok (ch : Broadcast α) (s : Subscription α) : Prop where
  start_le : s.start ≤ s.next
  next_le : s.next ≤ ch.sent.length
  got : s.got <+ s.passed ch
  count : s.got.length + s.missed = s.next - s.start

variable {ch : Broadcast α} {s s' : Subscription α} {m : α}

theorem ok_new (ch : Broadcast α) : (new ch).Ok ch where
  start_le := Nat.le_refl _
  next_le := Nat.le_refl _
  got := List.nil_sublist _
  count := (Nat.sub_self _).symm

theorem length_passed (h : s.Ok ch) : (s.passed ch).length = s.next - s.start := by
  rw [passed, List.length_take, List.length_drop]
  exact Nat.min_eq_left (Nat.sub_le_sub_right h.next_le _)

theorem passed_isPrefix (s : Subscription α) (ch : Broadcast α) :
    s.passed ch <+: ch.sent.drop s.start :=
  List.take_prefix _ _

/-- A receiver that has missed nothing has got all it has passed. -/
theorem Ok.got_eq (h : s.Ok ch) (hmissed : s.missed = 0) : s.got = s.passed ch := by
  refine h.got.eq_of_length ?_
  rw [length_passed h, ← h.count, hmissed, Nat.add_zero]

/-- A receiver gets part of what was sent since it subscribed, in order. -/
theorem Ok.got_sublist (h : s.Ok ch) : s.got <+ ch.sent.drop s.start :=
  h.got.trans (passed_isPrefix s ch).sublist

theorem passed_send (h : s.Ok ch) (m : α) : s.passed (ch.send m) = s.passed ch := by
  have hstart := Nat.le_trans h.start_le h.next_le
  rw [passed, Broadcast.send, List.drop_append_of_le_length hstart,
    List.take_append_of_le_length]
  · rfl
  · rw [List.length_drop]
    exact Nat.sub_le_sub_right h.next_le _

theorem Ok.send (h : s.Ok ch) (m : α) : s.Ok (ch.send m) where
  start_le := h.start_le
  next_le := by
    rw [Broadcast.send, List.length_append]
    exact Nat.le_add_right_of_le h.next_le
  got := passed_send h m ▸ h.got
  count := h.count

theorem recv_eq_message (h : s.recv ch = some (.message m, s')) :
    ∃ next, ch.recv s.next = some (.message m, next) ∧
      s' = { s with next, got := s.got ++ [m] } := by
  rw [recv] at h
  split at h
  · next heq =>
    obtain ⟨hm, rfl⟩ := Prod.mk.inj (Option.some.inj h)
    obtain rfl := Received.message.inj hm
    exact ⟨_, heq, rfl⟩
  · cases h
  · cases h

theorem recv_eq_lagged {n : Nat} (h : s.recv ch = some (.lagged n, s')) :
    ∃ next, ch.recv s.next = some (.lagged n, next) ∧
      s' = { s with next, missed := s.missed + n } := by
  rw [recv] at h
  split at h
  · cases h
  · next heq =>
    obtain ⟨hn, rfl⟩ := Prod.mk.inj (Option.some.inj h)
    obtain rfl := Received.lagged.inj hn
    exact ⟨_, heq, rfl⟩
  · cases h

/-- A message is the next one sent. -/
theorem Ok.recv_message (h : s.Ok ch) (hrecv : s.recv ch = some (.message m, s')) : s'.Ok ch := by
  obtain ⟨next, hnext, rfl⟩ := recv_eq_message hrecv
  obtain ⟨rfl, hunread, hle⟩ := Broadcast.recv_message hnext
  have hpassed : ({ s with next := s.next + 1, got := s.got ++ [m] } : Subscription α).passed ch =
      s.passed ch ++ [m] := by
    have hget : (ch.sent.drop s.start)[s.next - s.start]? = some m := by
      have hhead : (ch.sent.drop s.next)[0]? = some m := by
        rw [show ch.sent.drop s.next = m :: ch.unread (s.next + 1) from hunread]
        rfl
      rw [List.getElem?_drop, Nat.add_zero] at hhead
      rw [List.getElem?_drop, Nat.add_sub_cancel' h.start_le, hhead]
    rw [passed, Nat.sub_add_comm h.start_le, List.take_add_one, hget]
    rfl
  exact
    { start_le := Nat.le_succ_of_le h.start_le
      next_le := hle
      got := hpassed ▸ h.got.append (List.Sublist.refl _)
      count := by
        have := h.count
        have := h.start_le
        simp only [List.length_append, List.length_singleton]
        omega }

/-- The messages that were skipped are counted. -/
theorem Ok.recv_lagged {n : Nat} (h : s.Ok ch) (hrecv : s.recv ch = some (.lagged n, s')) :
    s'.Ok ch := by
  obtain ⟨next, hnext, rfl⟩ := recv_eq_lagged hrecv
  obtain rfl := Broadcast.recv_skips hnext
  have hgrow : s.passed ch <+: (ch.sent.drop s.start).take (s.next + n - s.start) :=
    List.take_prefix_take_left (Nat.sub_le_sub_right (Nat.le_add_right _ _) _)
  exact
    { start_le := Nat.le_add_right_of_le h.start_le
      next_le := Broadcast.recv_lagged hnext
      got := h.got.trans hgrow.sublist
      count := by
        have := h.count
        have := h.start_le
        show s.got.length + (s.missed + n) = s.next + n - s.start
        omega }

/-- Whatever is received. -/
theorem Ok.recv {r : Received α} (h : s.Ok ch) (hrecv : s.recv ch = some (r, s')) :
    s'.Ok ch ∧ s'.start = s.start := by
  cases r with
  | message m =>
    have hok := h.recv_message hrecv
    obtain ⟨next, -, rfl⟩ := recv_eq_message hrecv
    exact ⟨hok, rfl⟩
  | lagged n =>
    have hok := h.recv_lagged hrecv
    obtain ⟨next, -, rfl⟩ := recv_eq_lagged hrecv
    exact ⟨hok, rfl⟩

/-! ## What was offered -/

/-- A receiver that subscribed when `since` messages had been `offered` to the channel sees all
that are offered from there on; one that has `ended` had seen the beginning of them. -/
structure Sees (s : Subscription α) (ch : Broadcast α) (offered : List α) (since : Nat)
    (ended : Bool) : Prop where
  ok : s.Ok ch
  since_le : since ≤ offered.length
  live : ended = false → ch.sent.drop s.start = offered.drop since
  passed : s.passed ch <+: offered.drop since

variable {offered : List α} {since receivers : Nat} {ended : Bool}

theorem sees_new (ch : Broadcast α) (offered : List α) :
    (new ch).Sees ch offered offered.length false where
  ok := ok_new ch
  since_le := Nat.le_refl _
  live _ := by
    rw [Subscription.new, Broadcast.subscribe, List.drop_length, List.drop_length]
  passed := by
    rw [passed, Subscription.new, Nat.sub_self, List.take_zero]
    exact List.nil_prefix

/-- A receiver that goes on, or ends. -/
theorem Sees.of_live (h : s.Sees ch offered since false) (hok : s'.Ok ch)
    (hstart : s'.start = s.start) : s'.Sees ch offered since ended where
  ok := hok
  since_le := h.since_le
  live _ := hstart ▸ h.live rfl
  passed := by
    have hpassed := passed_isPrefix s' ch
    rwa [hstart, h.live rfl] at hpassed

/-- What the channel takes is seen by every receiver. -/
theorem Sees.send (h : s.Sees ch offered since ended) (m : α) :
    s.Sees (ch.send m) (offered ++ [m]) since ended where
  ok := h.ok.send m
  since_le := by
    rw [List.length_append]
    exact Nat.le_add_right_of_le h.since_le
  live hover := by
    rw [Broadcast.send, List.drop_append_of_le_length (h.ok.start_le.trans h.ok.next_le),
      h.live hover, List.drop_append_of_le_length h.since_le]
  passed := by
    rw [passed_send h.ok, List.drop_append_of_le_length h.since_le]
    exact h.passed.trans (List.prefix_append _ _)

/-- What the channel does not take is missed by those who were subscribed only. -/
theorem Sees.unsent (h : s.Sees ch offered since true) (m : α) :
    s.Sees ch (offered ++ [m]) since true where
  ok := h.ok
  since_le := by
    rw [List.length_append]
    exact Nat.le_add_right_of_le h.since_le
  live := nofun
  passed := by
    rw [List.drop_append_of_le_length h.since_le]
    exact h.passed.trans (List.prefix_append _ _)

/-- A message is offered while this receiver, if it has not ended, is one of the `receivers`. -/
theorem Sees.offer (h : s.Sees ch offered since ended) (m : α)
    (hlive : receivers = 0 → ended = true) :
    s.Sees (ch.offer receivers m) (offered ++ [m]) since ended := by
  rw [Broadcast.offer]
  split
  · next hnone =>
    rw [hlive hnone] at h ⊢
    exact h.unsent m
  · exact h.send m

/-- What a receiver has got was offered since it subscribed. -/
theorem Sees.got_sublist (h : s.Sees ch offered since ended) : s.got <+ offered.drop since :=
  h.ok.got.trans h.passed.sublist

theorem Sees.got_prefix (h : s.Sees ch offered since ended) (hmissed : s.missed = 0) :
    s.got <+: offered.drop since :=
  h.ok.got_eq hmissed ▸ h.passed

/-- While a receiver is subscribed, the channel takes what is offered. -/
theorem Sees.length_eq (h : s.Sees ch offered since false) :
    ch.sent.length - s.start = offered.length - since := by
  rw [← List.length_drop, h.live rfl, List.length_drop]

end Subscription

end Lib
