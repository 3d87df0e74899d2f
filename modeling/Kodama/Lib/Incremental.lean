import Mathlib.Init

/-!
# Incremental extraction

A streaming parser keeps a buffer. Every feed appends to it and takes what is complete off
its front: `extract buffer` is what was taken and what stays. `Incremental extract` is the
one law such a parser needs: extracting from a longer buffer is extracting from the shorter
one first, and then from what stayed with the rest appended. Under it the way a stream is
cut into feeds does not matter (`feedAll_eq`, `feedAll_congr`).
-/

namespace Lib

universe u v

variable {α : Type u} {β : Type v} {extract : List α → List β × List α}

/-- Feed some chunks, collecting what is extracted. -/
def feedAll (extract : List α → List β × List α) : List α → List (List α) → List β × List α
  | buffer, [] => ([], buffer)
  | buffer, chunk :: chunks =>
    let r := extract (buffer ++ chunk)
    let rs := feedAll extract r.2 chunks
    (r.1 ++ rs.1, rs.2)

/-- Extracting early does not change what is extracted. -/
def Incremental (extract : List α → List β × List α) : Prop :=
  ∀ xs ys, extract (xs ++ ys) =
    ((extract xs).1 ++ (extract ((extract xs).2 ++ ys)).1, (extract ((extract xs).2 ++ ys)).2)

/-- Nothing can be taken off this buffer. -/
def Settled (extract : List α → List β × List α) (buffer : List α) : Prop :=
  extract buffer = ([], buffer)

/-- What an extraction leaves is settled. -/
theorem Incremental.settled (h : Incremental extract) (xs : List α) :
    Settled extract (extract xs).2 := by
  have hlaw := h xs []
  rw [List.append_nil, List.append_nil] at hlaw
  have hfst : (extract xs).1 ++ (extract (extract xs).2).1 = (extract xs).1 ++ [] := by
    rw [List.append_nil]
    exact (congrArg Prod.fst hlaw).symm
  exact Prod.ext (List.append_cancel_left hfst) (congrArg Prod.snd hlaw).symm

/-- Feeding chunks is extracting from all of them at once. -/
theorem Incremental.feedAll_eq (h : Incremental extract) {buffer : List α}
    (hsettled : Settled extract buffer) (chunks : List (List α)) :
    feedAll extract buffer chunks = extract (buffer ++ chunks.flatten) := by
  induction chunks generalizing buffer with
  | nil => rw [List.flatten_nil, List.append_nil, hsettled, feedAll]
  | cons chunk chunks ih =>
    rw [feedAll, ih (h.settled _), List.flatten_cons, ← List.append_assoc, h (buffer ++ chunk)]

/-- However a stream is cut into chunks, the same is extracted and the same stays. -/
theorem Incremental.feedAll_congr (h : Incremental extract) {buffer : List α}
    (hsettled : Settled extract buffer) {chunks chunks' : List (List α)}
    (hflatten : chunks.flatten = chunks'.flatten) :
    feedAll extract buffer chunks = feedAll extract buffer chunks' := by
  rw [h.feedAll_eq hsettled, h.feedAll_eq hsettled, hflatten]

end Lib
