import Mathlib.Data.List.Basic

/-!
# Bounded channels

A bounded multi-producer channel as `tokio::sync::mpsc` has them: what is sent is received
once, in order; `try_send` fails when `capacity` messages are waiting, and from when the
receiver closes the channel.
-/

namespace Lib

universe u

structure Mpsc (α : Type u) where
  capacity : Nat
  queue : List α := []
  closed : Bool := false
deriving DecidableEq

/-- Why `try_send` fails. -/
inductive TrySendError where
  | full
  | closed
deriving DecidableEq

namespace Mpsc

variable {α : Type u} {ch ch' : Mpsc α} {m : α}

def isFull (ch : Mpsc α) : Bool := ch.capacity ≤ ch.queue.length

/-- `try_send`: the channel with the message, or why it is not sent. -/
def trySend (ch : Mpsc α) (m : α) : Except TrySendError (Mpsc α) :=
  if ch.closed then .error .closed
  else if ch.isFull then .error .full
  else .ok { ch with queue := ch.queue ++ [m] }

/-- `recv`; `none` while there is nothing to receive. -/
def recv (ch : Mpsc α) : Option (α × Mpsc α) :=
  match ch.queue with
  | m :: rest => some (m, { ch with queue := rest })
  | [] => none

/-- The receiver closes the channel; it can still receive what is waiting. -/
def close (ch : Mpsc α) : Mpsc α := { ch with closed := true }

theorem trySend_eq_ok (h : ch.trySend m = .ok ch') : ch.closed = false ∧ ch.isFull = false ∧
    ch' = { ch with queue := ch.queue ++ [m] } := by
  unfold trySend at h
  split at h
  · cases h
  · next hopen =>
    split at h
    · cases h
    · next hroom => exact ⟨by simpa using hopen, by simpa using hroom, (Except.ok.inj h).symm⟩

theorem trySend_eq_full :
    ch.trySend m = .error .full ↔ ch.closed = false ∧ ch.isFull = true := by
  unfold trySend
  cases ch.closed <;> cases ch.isFull <;> simp

theorem trySend_eq_closed : ch.trySend m = .error .closed ↔ ch.closed = true := by
  unfold trySend
  cases ch.closed <;> cases ch.isFull <;> simp

theorem recv_eq_some : ch.recv = some (m, ch') →
    ch.queue = m :: ch'.queue ∧ ch'.closed = ch.closed := by
  unfold recv
  split
  · next first rest heq =>
    rintro ⟨⟩
    exact ⟨heq, rfl⟩
  · rintro ⟨⟩

theorem recv_capacity (h : ch.recv = some (m, ch')) : ch'.capacity = ch.capacity := by
  unfold recv at h
  split at h
  · cases h
    rfl
  · cases h

end Mpsc

end Lib
