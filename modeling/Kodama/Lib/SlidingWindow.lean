import Mathlib.Algebra.GroupWithZero.Nat
import Mathlib.Data.List.Basic
import Mathlib.Data.List.Induction

/-!
# Sliding windows and running totals

A window keeps the items that are no older than its width at the latest one: an item that
arrives is appended, and what is too old then is taken off the front. Taking off the front is
enough as long as the items arrive in the order of their times (`foldl_push`).

`totals` goes with each item the sum of the weights up to and including it. In a part at the end
of it, such as a window, the difference of two totals is the sum of the weights between them
(`add_sum_of_suffix_totals`).
-/

namespace Lib.SlidingWindow

universe u v

variable {α : Type u} {β : Type v}

/-! ## Windows -/

section Window

variable (time : α → Nat) (width : Nat)

/-- The items no older than `width` at an instant. -/
def recent (now : Nat) (items : List α) : List α := items.filter fun a => now - time a ≤ width

/-- An item arrives. -/
def push (items : List α) (a : α) : List α :=
  (items ++ [a]).dropWhile fun b => width < time a - time b

/-- The time of the latest item. -/
def latest (items : List α) : Nat := (items.getLast?.map time).getD 0

/-- The items arrive in the order of their times. -/
def Ordered (items : List α) : Prop := items.Pairwise fun a b => time a ≤ time b

variable {time width} {items : List α} {a : α} {now : Nat}

theorem latest_snoc : latest time (items ++ [a]) = time a := by
  rw [latest, List.getLast?_concat]
  rfl

/-- Times can be read off any image of the items that has them. -/
theorem latest_map {f : β → α} (items : List β) :
    latest (fun b => time (f b)) items = latest time (items.map f) := by
  rw [latest, latest, List.getLast?_map, Option.map_map]
  rfl

theorem Ordered.of_map {f : β → α} {items : List β} (h : Ordered time (items.map f)) :
    Ordered (fun b => time (f b)) items := by
  rwa [Ordered, List.pairwise_map] at h

theorem Ordered.of_snoc (h : Ordered time (items ++ [a])) :
    Ordered time items ∧ ∀ b ∈ items, time b ≤ time a := by
  obtain ⟨hitems, -, hlast⟩ := List.pairwise_append.mp h
  exact ⟨hitems, fun b hb => hlast b hb a List.mem_cons_self⟩

/-- What is too old is at the front. -/
theorem dropWhile_eq_recent (h : Ordered time items) (now : Nat) :
    items.dropWhile (fun b => width < now - time b) = recent time width now items := by
  induction items with
  | nil => rfl
  | cons b items ih =>
    obtain ⟨hfirst, hrest⟩ := List.pairwise_cons.mp h
    rw [recent, List.dropWhile_cons, List.filter_cons]
    by_cases hold : width < now - time b
    · have hgone : ¬ now - time b ≤ width := Nat.not_le.mpr hold
      rw [if_pos (decide_eq_true hold), decide_eq_false hgone, if_neg Bool.false_ne_true]
      exact ih hrest
    · -- the items behind are not older
      have hall : items.filter (fun c => decide (now - time c ≤ width)) = items := by
        refine List.filter_eq_self.mpr fun c hc => decide_eq_true ?_
        have := hfirst c hc
        omega
      have hstays : now - time b ≤ width := Nat.not_lt.mp hold
      rw [decide_eq_false hold, if_neg Bool.false_ne_true, if_pos (decide_eq_true hstays), hall]

theorem recent_suffix (h : Ordered time items) (now : Nat) :
    recent time width now items <:+ items :=
  dropWhile_eq_recent h now ▸ List.dropWhile_suffix _

/-- Pushing an item on what was recent leaves what is. -/
theorem push_recent (h : Ordered time (items ++ [a])) (hnow : now ≤ time a) :
    push time width (recent time width now items) a =
      recent time width (time a) (items ++ [a]) := by
  have hordered : Ordered time (recent time width now items ++ [a]) :=
    h.sublist (List.filter_sublist.append_right [a])
  rw [push, dropWhile_eq_recent hordered, recent, List.filter_append, recent,
    List.filter_filter, recent, List.filter_append]
  refine congrArg (· ++ _) (List.filter_congr fun b _ => ?_)
  rw [Bool.eq_iff_iff, Bool.and_eq_true, decide_eq_true_eq, decide_eq_true_eq]
  omega

/-- **What a window keeps.** -/
theorem foldl_push (h : Ordered time items) :
    items.foldl (push time width) [] = recent time width (latest time items) items := by
  induction items using List.reverseRecOn with
  | nil => rfl
  | append_singleton items a ih =>
    obtain ⟨hitems, hlast⟩ := h.of_snoc
    rw [List.foldl_append, ih hitems, latest_snoc]
    refine push_recent h ?_
    rcases List.eq_nil_or_concat' items with rfl | ⟨items', b, rfl⟩
    · exact Nat.zero_le _
    · rw [latest_snoc]
      exact hlast b List.mem_concat_self

end Window

/-! ## Running totals -/

variable (weight : α → Nat)

/-- Each item with the weight so far, its own included. -/
def totals : Nat → List α → List (α × Nat)
  | _, [] => []
  | n, a :: items => (a, n + weight a) :: totals (n + weight a) items

variable {weight}

theorem totals_append (n : Nat) (items items' : List α) :
    totals weight n (items ++ items') =
      totals weight n items ++ totals weight (n + (items.map weight).sum) items' := by
  induction items generalizing n with
  | nil => rfl
  | cons a items ih =>
    rw [List.cons_append, totals, ih, totals, List.map_cons, List.sum_cons, Nat.add_assoc]
    rfl

theorem map_fst_totals (n : Nat) (items : List α) :
    (totals weight n items).map Prod.fst = items := by
  induction items generalizing n with
  | nil => rfl
  | cons a items ih => rw [totals, List.map_cons, ih]

/-- By positions. -/
theorem totals_eq (n : Nat) (items : List α) :
    totals weight n items =
      items.zipIdx.map fun e => (e.1, n + ((items.take (e.2 + 1)).map weight).sum) := by
  induction items generalizing n with
  | nil => rfl
  | cons a items ih =>
    rw [totals, ih, List.zipIdx_cons, List.map_cons, List.zipIdx_succ, List.map_map]
    refine congrArg₂ List.cons ?_ (List.map_congr_left fun e _ => ?_)
    · simp
    · simp [Nat.add_assoc]

/-- From the first total in a part at the end to the sum of all. -/
theorem add_sum_of_suffix_totals {n m : Nat} {items : List α} {a : α} {rest : List (α × Nat)}
    (h : (a, m) :: rest <:+ totals weight n items) :
    m + (rest.map fun e => weight e.1).sum = n + (items.map weight).sum := by
  induction items generalizing n with
  | nil => cases List.suffix_nil.mp h
  | cons b items ih =>
    rw [List.map_cons, List.sum_cons, ← Nat.add_assoc]
    rcases List.suffix_cons_iff.mp h with heq | htail
    · obtain ⟨hfirst, rfl⟩ := List.cons.inj heq
      obtain ⟨-, rfl⟩ := Prod.mk.inj hfirst
      have hweights : (totals weight (n + weight b) items).map (fun e => weight e.1) =
          items.map weight := by
        show (totals weight (n + weight b) items).map (weight ∘ Prod.fst) = _
        rw [← List.map_map, map_fst_totals]
      rw [hweights]
    · exact ih htail

end Lib.SlidingWindow
