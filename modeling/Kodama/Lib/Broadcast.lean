import Mathlib.Algebra.GroupWithZero.Nat
import Mathlib.Data.List.Basic
import Mathlib.Data.Nat.Log

/-!
# Broadcast channels

A bounded broadcast channel as `tokio::sync::broadcast` has them: what is sent goes to every
receiver, in order, and only the last `capacity` messages are retained. A receiver is the
position of the message it reads next. One that is too far behind is told so once, and goes
on with the oldest message retained. A message that is offered while there is no receiver is
not taken.

`unread` is what a receiver would get if it did not fall behind; sending appends to it and
receiving takes its head.
-/

namespace Lib

open scoped List

universe u

/-- The messages sent so far, and how many of them are retained. -/
structure Broadcast (α : Type u) where
  capacity : Nat
  sent : List α := []

/-- What `recv` returns. -/
inductive Received (α : Type u) where
  | message (m : α)
  | lagged (missed : Nat)

namespace Broadcast

variable {α : Type u} {ch : Broadcast α} {next : Nat} {m : α}

/-- `channel`, which rounds its capacity up to a power of two. It panics at 0. -/
def channel (capacity : Nat) : Broadcast α where
  capacity := 2 ^ Nat.clog 2 capacity

/-- `send`, while there is a receiver. -/
def send (ch : Broadcast α) (m : α) : Broadcast α := { ch with sent := ch.sent ++ [m] }

/-- `send`, which fails without a receiver. -/
def offer (ch : Broadcast α) (receivers : Nat) (m : α) : Broadcast α :=
  if receivers = 0 then ch else ch.send m

/-- The position of a new receiver. -/
def subscribe (ch : Broadcast α) : Nat := ch.sent.length

/-- `recv`, and the receiver's position after it; `none` while it has to wait. -/
def recv (ch : Broadcast α) (next : Nat) : Option (Received α × Nat) :=
  if next + ch.capacity < ch.sent.length then
    some (.lagged (ch.sent.length - ch.capacity - next), ch.sent.length - ch.capacity)
  else ch.sent[next]?.map fun m => (.message m, next + 1)

/-- What a receiver has still to read. -/
def unread (ch : Broadcast α) (next : Nat) : List α := ch.sent.drop next

theorem unread_send (h : next ≤ ch.sent.length) (m : α) :
    (ch.send m).unread next = ch.unread next ++ [m] :=
  List.drop_append_of_le_length h

theorem offer_sublist {offered : List α} (h : ch.sent <+ offered) (receivers : Nat) (m : α) :
    (ch.offer receivers m).sent <+ offered ++ [m] := by
  rw [offer]
  split
  · exact h.trans (List.sublist_append_left _ _)
  · exact h.append (List.Sublist.refl _)

/-- A message received is the first one unread. -/
theorem recv_message {next' : Nat} (h : ch.recv next = some (.message m, next')) :
    next' = next + 1 ∧ ch.unread next = m :: ch.unread next' ∧ next' ≤ ch.sent.length := by
  rw [recv] at h
  split at h
  · cases h
  · obtain ⟨m', hm, heq⟩ := Option.map_eq_some_iff.mp h
    obtain ⟨hmessage, rfl⟩ := Prod.mk.inj heq
    obtain rfl := Received.message.inj hmessage
    obtain ⟨hlt, hget⟩ := List.getElem?_eq_some_iff.mp hm
    exact ⟨rfl, hget ▸ List.drop_eq_getElem_cons hlt, hlt⟩

theorem recv_lagged {next' missed : Nat} (h : ch.recv next = some (.lagged missed, next')) :
    next' ≤ ch.sent.length := by
  rw [recv] at h
  split at h
  · rw [← (Prod.mk.inj (Option.some.inj h)).2]
    exact Nat.sub_le _ _
  · obtain ⟨m', -, heq⟩ := Option.map_eq_some_iff.mp h
    cases (Prod.mk.inj heq).1

/-- The messages that are skipped are those that were missed. -/
theorem recv_skips {next' missed : Nat} (h : ch.recv next = some (.lagged missed, next')) :
    next' = next + missed := by
  rw [recv] at h
  split at h
  · next hbehind =>
    obtain ⟨hmissed, rfl⟩ := Prod.mk.inj (Option.some.inj h)
    obtain rfl := Received.lagged.inj hmissed
    omega
  · obtain ⟨m', -, heq⟩ := Option.map_eq_some_iff.mp h
    cases (Prod.mk.inj heq).1

end Broadcast

end Lib
