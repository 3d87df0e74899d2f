import Kodama.Lib.Incremental
import Mathlib.Tactic.Common

/-!
# Pieces of a fixed length

`cut n` takes pieces of `n` elements off the front of a list, as long as there are that many, and
leaves the rest. Cutting is incremental, so it does not matter in what parts the list comes
(`incremental_cut`), and a list of whole pieces leaves no rest (`cut_rest_of_dvd`). `chunks n` are
the pieces with what is left over as a last, shorter one.
-/

namespace Lib

universe u

variable {α : Type u} {n : Nat} {xs ys : List α}

/-- The pieces of a list, and the rest. Nothing is taken off in pieces of no elements. -/
def cut (n : Nat) (xs : List α) : List (List α) × List α :=
  if 0 < n ∧ n ≤ xs.length then
    let r := cut n (xs.drop n)
    (xs.take n :: r.1, r.2)
  else ([], xs)
termination_by xs.length
decreasing_by
  rw [List.length_drop]
  omega

theorem cut_of_lt (h : xs.length < n) : cut n xs = ([], xs) := by
  rw [cut, if_neg]
  omega

theorem cut_of_le (hn : 0 < n) (h : n ≤ xs.length) :
    cut n xs = (xs.take n :: (cut n (xs.drop n)).1, (cut n (xs.drop n)).2) := by
  rw [cut, if_pos ⟨hn, h⟩]

@[simp] theorem cut_nil (n : Nat) : cut n ([] : List α) = ([], []) := by
  rw [cut, if_neg]
  rw [List.length_nil]
  omega

/-- It does not matter in what parts a list comes. -/
theorem incremental_cut (n : Nat) : Incremental (cut n : List α → _) := by
  intro xs ys
  induction xs using cut.induct n with
  | case1 xs h ih =>
    have hlong : n ≤ (xs ++ ys).length := by
      rw [List.length_append]
      omega
    rw [cut_of_le h.1 hlong, cut_of_le h.1 h.2, List.take_append_of_le_length h.2,
      List.drop_append_of_le_length h.2, ih]
    rfl
  | case2 xs h =>
    rw [show cut n xs = ([], xs) by rw [cut, if_neg h]]
    rfl

/-- A list that is cut into pieces alone is cut where its parts meet. -/
theorem cut_append_of_rest (h : (cut n xs).2 = []) :
    cut n (xs ++ ys) = ((cut n xs).1 ++ (cut n ys).1, (cut n ys).2) := by
  rw [incremental_cut n xs ys, h, List.nil_append]

theorem cut_rest_of_dvd (hn : 0 < n) (h : n ∣ xs.length) : (cut n xs).2 = [] := by
  induction xs using cut.induct n with
  | case1 xs hle ih =>
    rw [cut, if_pos hle]
    refine ih ?_
    rw [List.length_drop]
    exact Nat.dvd_sub h (Nat.dvd_refl n)
  | case2 xs hlt =>
    rw [cut, if_neg hlt]
    have hzero : xs.length = 0 := Nat.eq_zero_of_dvd_of_lt h (by omega)
    exact List.eq_nil_of_length_eq_zero hzero

/-- The pieces, and a last one that is shorter if something is left. -/
def chunks (n : Nat) (xs : List α) : List (List α) :=
  (cut n xs).1 ++ if (cut n xs).2.isEmpty then [] else [(cut n xs).2]

/-- Parts of whole pieces can be cut one by one. -/
theorem chunks_append (hn : 0 < n) (h : n ∣ xs.length) :
    chunks n (xs ++ ys) = chunks n xs ++ chunks n ys := by
  have hrest := cut_rest_of_dvd hn h
  rw [chunks, chunks, chunks, cut_append_of_rest hrest, hrest]
  simp

end Lib
