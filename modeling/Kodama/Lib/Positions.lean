import Mathlib.Data.List.Nodup

/-!
# Positions in lists

The first element of a list with a property, with what is before and after it; what stays when
the elements at some positions are erased one by one; and the position of the last element with
a property, which a queue can keep while elements are appended, taken from the front, and
removed from the middle.
-/

namespace Lib

universe u

variable {α : Type u} {p : α → Bool} {a : α} {as bs : List α} {i : Nat}

/-- Where `findIdx?` finds an element, the list splits. -/
theorem exists_split_of_findIdx? (h : as.findIdx? p = some i) :
    ∃ before a after, as = before ++ a :: after ∧ before.length = i ∧ p a = true ∧
      ∀ b ∈ before, p b = false := by
  induction as generalizing i with
  | nil => cases h
  | cons a as ih =>
    rw [List.findIdx?_cons] at h
    split at h
    · next ha =>
      obtain rfl := Option.some.inj h
      exact ⟨[], a, as, rfl, rfl, ha, fun _ hb => by cases hb⟩
    · next ha =>
      obtain ⟨j, hj, rfl⟩ := Option.map_eq_some_iff.mp h
      obtain ⟨before, b, after, rfl, rfl, hb, hbefore⟩ := ih hj
      refine ⟨a :: before, b, after, rfl, rfl, hb, ?_⟩
      exact List.forall_mem_cons.mpr ⟨Bool.eq_false_iff.mpr ha, hbefore⟩

/-- Removing the element at which a list splits. -/
theorem eraseIdx_split (before : List α) (a : α) (after : List α) :
    (before ++ a :: after).eraseIdx before.length = before ++ after := by
  rw [List.eraseIdx_append_of_length_le (Nat.le_refl _), Nat.sub_self, List.eraseIdx_cons_zero]

/-- Positions behind the first element stay behind it. -/
theorem foldr_eraseIdx_succ (positions : List Nat) (a : α) (l : List α) :
    (positions.map (· + 1)).foldr (fun i l => l.eraseIdx i) (a :: l) =
      a :: positions.foldr (fun i l => l.eraseIdx i) l := by
  induction positions with
  | nil => rfl
  | cons i positions ih =>
    rw [List.map_cons, List.foldr_cons, ih]
    rfl

/-- The elements of a list that a predicate on elements and their positions does not pick. -/
def unpicked (p : α → Nat → Bool) (l : List α) : List α :=
  (l.zipIdx.filter fun e => !p e.1 e.2).map Prod.fst

theorem unpicked_sublist (p : α → Nat → Bool) (l : List α) : (unpicked p l).Sublist l := by
  have hfilter := (List.filter_sublist (p := fun e : α × Nat => !p e.1 e.2)
    (l := l.zipIdx)).map Prod.fst
  rwa [List.zipIdx_map_fst] at hfilter

/-- Erasing the positions of some elements, last first, leaves the others. -/
theorem foldr_eraseIdx_filter (l : List α) :
    ∀ p : α → Nat → Bool,
      ((l.zipIdx.filter fun e => p e.1 e.2).map Prod.snd).foldr (fun i l => l.eraseIdx i) l =
        unpicked p l := by
  induction l with
  | nil => exact fun _ => rfl
  | cons a l ih =>
    intro p
    have htail := ih fun a i => p a (i + 1)
    have hpositions : ((l.zipIdx 1).filter fun e => p e.1 e.2).map Prod.snd =
        ((l.zipIdx.filter fun e => p e.1 (e.2 + 1)).map Prod.snd).map (· + 1) := by
      rw [List.zipIdx_succ, List.filter_map, List.map_map, List.map_map]
      rfl
    have hkept : ((l.zipIdx 1).filter fun e => !p e.1 e.2).map Prod.fst =
        (l.zipIdx.filter fun e => !p e.1 (e.2 + 1)).map Prod.fst := by
      rw [List.zipIdx_succ, List.filter_map, List.map_map]
      rfl
    rw [unpicked] at htail ⊢
    rw [List.zipIdx_cons, List.filter_cons, List.filter_cons]
    cases hp : p a 0 with
    | true =>
      simp only [if_true, Bool.not_true, Bool.false_eq_true, if_false]
      rw [List.map_cons, List.foldr_cons, hpositions, foldr_eraseIdx_succ, htail, hkept]
      rfl
    | false =>
      simp only [Bool.false_eq_true, if_false, Bool.not_false, if_true]
      rw [hpositions, foldr_eraseIdx_succ, htail, List.map_cons, hkept]

/-- A part of a list without duplicates, in the list's order, is what the list has of it. -/
theorem filter_mem_of_sublist [DecidableEq α] (h : as.Sublist bs) (hnodup : bs.Nodup) :
    bs.filter (fun b => b ∈ as) = as := by
  have hself : as.filter (fun b => b ∈ as) = as :=
    List.filter_eq_self.mpr fun _ hb => decide_eq_true hb
  have hsub := h.filter fun b => decide (b ∈ as)
  rw [hself] at hsub
  have hperm : as.Perm (bs.filter fun b => b ∈ as) := by
    refine (List.perm_ext_iff_of_nodup (hnodup.sublist h) (hnodup.filter _)).mpr fun b => ?_
    rw [List.mem_filter, decide_eq_true_eq]
    exact ⟨fun hb => ⟨h.subset hb, hb⟩, And.right⟩
  exact (hsub.eq_of_length hperm.length_eq).symm

/-- An element of a list with one more at the end is that one, or was there before. -/
theorem split_snoc {before after : List α} {b : α} (h : as ++ [a] = before ++ b :: after) :
    as = before ∧ a = b ∧ after = [] ∨
      ∃ after', as = before ++ b :: after' ∧ after = after' ++ [a] := by
  rcases List.eq_nil_or_concat' after with rfl | ⟨after', last, rfl⟩
  · obtain ⟨hbefore, hb⟩ := List.append_inj' h rfl
    exact .inl ⟨hbefore, List.singleton_inj.mp hb, rfl⟩
  · rw [← List.cons_append, ← List.append_assoc] at h
    obtain ⟨has, hlast⟩ := List.append_inj' h rfl
    exact .inr ⟨after', has, hlast ▸ rfl⟩

/-- What holds of every element and those before it, when one more comes. -/
theorem forall_split_snoc {P : List α → α → Prop} (h : ∀ before b after,
    as = before ++ b :: after → P before b) (ha : P as a) :
    ∀ before b after, as ++ [a] = before ++ b :: after → P before b := by
  intro before b after hsplit
  rcases split_snoc hsplit with ⟨rfl, rfl, -⟩ | ⟨after', has, -⟩
  · exact ha
  · exact h before b after' has

/-- The position of the last element with the property. -/
def lastIndex (p : α → Bool) : List α → Option Nat
  | [] => none
  | a :: as =>
    match lastIndex p as with
    | some i => some (i + 1)
    | none => if p a then some 0 else none

@[simp] theorem lastIndex_nil : lastIndex p [] = none := rfl

theorem lastIndex_eq_none : lastIndex p as = none ↔ ∀ a ∈ as, p a = false := by
  induction as with
  | nil => simp
  | cons a as ih =>
    rw [List.forall_mem_cons, ← ih, lastIndex]
    cases lastIndex p as with
    | some i => simp
    | none => simp

/-- The element at the last index has the property, and none after it has. -/
theorem lastIndex_eq_some : lastIndex p as = some i ↔
    ∃ before a after, as = before ++ a :: after ∧ before.length = i ∧ p a = true ∧
      ∀ b ∈ after, p b = false := by
  induction as generalizing i with
  | nil => simp
  | cons a as ih =>
    rw [lastIndex]
    constructor
    · intro h
      cases hlast : lastIndex p as with
      | some j =>
        rw [hlast] at h
        obtain rfl := Option.some.inj h
        obtain ⟨before, b, after, rfl, rfl, hb, hafter⟩ := ih.mp hlast
        exact ⟨a :: before, b, after, rfl, rfl, hb, hafter⟩
      | none =>
        simp only [hlast] at h
        split at h
        · next ha =>
          obtain rfl := Option.some.inj h
          exact ⟨[], a, as, rfl, rfl, ha, lastIndex_eq_none.mp hlast⟩
        · cases h
    · rintro ⟨before, b, after, heq, rfl, hb, hafter⟩
      cases before with
      | nil =>
        obtain ⟨rfl, rfl⟩ := List.cons.inj heq
        simp only [lastIndex_eq_none.mpr hafter, if_pos hb]
        rfl
      | cons c before =>
        obtain ⟨rfl, rfl⟩ := List.cons.inj heq
        simp only [ih.mpr ⟨before, b, after, rfl, rfl, hb, hafter⟩, List.length_cons]

theorem lastIndex_lt (h : lastIndex p as = some i) : i < as.length := by
  obtain ⟨before, a, after, rfl, rfl, -, -⟩ := lastIndex_eq_some.mp h
  rw [List.length_append, List.length_cons]
  omega

/-- The later part of a list decides, if it has such an element. -/
theorem lastIndex_append : lastIndex p (as ++ bs) =
    match lastIndex p bs with
    | some i => some (as.length + i)
    | none => lastIndex p as := by
  induction as with
  | nil =>
    rw [List.nil_append]
    cases lastIndex p bs <;> simp
  | cons a as ih =>
    rw [List.cons_append, lastIndex, ih]
    cases lastIndex p bs with
    | some i =>
      rw [List.length_cons]
      exact congrArg some (by omega)
    | none => rfl

theorem lastIndex_snoc (a : α) : lastIndex p (as ++ [a]) =
    if p a then some as.length else lastIndex p as := by
  rw [lastIndex_append, lastIndex]
  cases hp : p a <;> rfl

theorem getLast?_filter_snoc (a : α) :
    ((as ++ [a]).filter p).getLast? = if p a then some a else (as.filter p).getLast? := by
  rw [List.filter_append]
  cases hp : p a <;> simp [hp]

/-- Without its first element, positions go down by one. -/
theorem lastIndex_tail (a : α) : lastIndex p as =
    match lastIndex p (a :: as) with
    | some (i + 1) => some i
    | _ => none := by
  rw [lastIndex]
  cases lastIndex p as with
  | some i => rfl
  | none => cases p a <;> rfl

/-- Removing an element without the property moves the positions after it. -/
theorem lastIndex_remove (ha : p a = false) : lastIndex p (as ++ bs) =
    match lastIndex p (as ++ a :: bs) with
    | some i => if as.length < i then some (i - 1) else some i
    | none => none := by
  have hcons : lastIndex p (a :: bs) = (lastIndex p bs).map (· + 1) := by
    rw [lastIndex]
    cases lastIndex p bs with
    | some i => rfl
    | none => simp [ha]
  rw [lastIndex_append, lastIndex_append, hcons]
  cases lastIndex p bs with
  | some i =>
    show some (as.length + i) =
      if as.length < as.length + (i + 1) then some (as.length + (i + 1) - 1)
      else some (as.length + (i + 1))
    rw [if_pos (by omega)]
    exact congrArg some (by omega)
  | none =>
    show lastIndex p as = match lastIndex p as with
      | some i => if as.length < i then some (i - 1) else some i
      | none => none
    cases hlast : lastIndex p as with
    | some i =>
      have hlt := lastIndex_lt hlast
      show some i = if as.length < i then some (i - 1) else some i
      rw [if_neg (by omega)]
    | none => rfl

end Lib
