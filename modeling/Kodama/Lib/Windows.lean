import Mathlib.Data.List.Basic

/-!
# Fixed-window counters

A fixed-window counter lets at most `limit` items pass from the start of a window until one
arrives `width` or more later, which starts the next window. Windows start when items arrive,
so they need not be adjacent, but they never overlap; so an interval of length `width` meets
at most two of them, and at most `2 * limit` of the items in it have passed
(`Bounded.countP_le`).

`Windows` says how the items counted so far lie around the start of the current window,
`Bounded` how many of them passed; both come with the two steps of a counter, to extend the
current window and to start a new one.
-/

namespace Lib

universe u

variable {α : Type u} {time : α → Nat} {width limit start : Nat} {earlier cur : List α}
  {passed : α → Bool}

/-- The items of the current window lie within `width` of its start, the earlier ones not
after it. -/
structure Windows (time : α → Nat) (width start : Nat) (earlier cur : List α) : Prop where
  earlier_le : ∀ a ∈ earlier, time a ≤ start
  cur_ge : ∀ a ∈ cur, start ≤ time a
  cur_lt : ∀ a ∈ cur, time a < start + width

namespace Windows

theorem nil : Windows time width start [] [] := ⟨nofun, nofun, nofun⟩

/-- An item arrives within the current window. -/
theorem extend (h : Windows time width start earlier cur) {a : α} (hge : start ≤ time a)
    (hlt : time a < start + width) : Windows time width start earlier (cur ++ [a]) where
  earlier_le := h.earlier_le
  cur_ge b hb := by
    rcases List.mem_append.mp hb with hb | hb
    · exact h.cur_ge b hb
    · rwa [List.mem_singleton.mp hb]
  cur_lt b hb := by
    rcases List.mem_append.mp hb with hb | hb
    · exact h.cur_lt b hb
    · rwa [List.mem_singleton.mp hb]

/-- An item arrives after the current window and starts the next one. -/
theorem reset (h : Windows time width start earlier cur) {a : α} (hwidth : 0 < width)
    (hlate : start + width ≤ time a) : Windows time width (time a) (earlier ++ cur) [a] where
  earlier_le b hb := by
    rcases List.mem_append.mp hb with hb | hb
    · have := h.earlier_le b hb
      omega
    · have := h.cur_lt b hb
      omega
  cur_ge b hb := Nat.le_of_eq (congrArg time (List.mem_singleton.mp hb)).symm
  cur_lt b hb := by
    rw [List.mem_singleton.mp hb]
    omega

end Windows

/-- An item that passed within the interval of length `width` from `t`. -/
def passedIn (time : α → Nat) (width : Nat) (passed : α → Bool) (t : Nat) (a : α) : Bool :=
  passed a && (decide (t ≤ time a) && decide (time a < t + width))

/-- At most `limit` items of the current window passed, at most `limit` of those less than
`width` before its start, and at most `2 * limit` in any interval before. -/
structure Bounded (time : α → Nat) (width start limit : Nat) (passed : α → Bool)
    (earlier cur : List α) : Prop where
  current : cur.countP passed ≤ limit
  recent : earlier.countP (fun a => passed a && decide (start < time a + width)) ≤ limit
  before : ∀ t, earlier.countP (passedIn time width passed t) ≤ 2 * limit

namespace Bounded

theorem nil : Bounded time width start limit passed [] [] :=
  ⟨Nat.zero_le _, Nat.zero_le _, fun _ => Nat.zero_le _⟩

/-- **Any interval of one width.** It meets the current window and the one before it, or
neither the current window. -/
theorem countP_le (hb : Bounded time width start limit passed earlier cur)
    (hw : Windows time width start earlier cur) (t : Nat) :
    (earlier ++ cur).countP (passedIn time width passed t) ≤ 2 * limit := by
  rw [List.countP_append]
  by_cases hreach : t + width ≤ start
  · have hnone : cur.countP (passedIn time width passed t) = 0 := by
      refine List.countP_eq_zero.mpr fun a ha hin => ?_
      have := hw.cur_ge a ha
      simp only [passedIn, Bool.and_eq_true, decide_eq_true_eq] at hin
      omega
    rw [hnone]
    exact hb.before t
  · have hcur : cur.countP (passedIn time width passed t) ≤ cur.countP passed :=
      List.countP_mono_left fun a _ hin => (Bool.and_eq_true _ _ ▸ hin : _ ∧ _).1
    have hrecent : earlier.countP (passedIn time width passed t) ≤
        earlier.countP (fun a => passed a && decide (start < time a + width)) := by
      refine List.countP_mono_left fun a _ hin => ?_
      simp only [passedIn, Bool.and_eq_true, decide_eq_true_eq] at hin ⊢
      exact ⟨hin.1, by omega⟩
    have := hb.current
    have := hb.recent
    omega

theorem extend (hb : Bounded time width start limit passed earlier cur) {a : α}
    (hpass : passed a = true → cur.length < limit) :
    Bounded time width start limit passed earlier (cur ++ [a]) where
  current := by
    rw [List.countP_append, List.countP_singleton]
    split
    · next h =>
      have := hpass h
      have := List.countP_le_length (p := passed) (l := cur)
      omega
    · exact hb.current
  recent := hb.recent
  before := hb.before

theorem reset (hb : Bounded time width start limit passed earlier cur)
    (hw : Windows time width start earlier cur) {a : α} (hlate : start + width ≤ time a)
    (hpass : passed a = true → 0 < limit) :
    Bounded time width (time a) limit passed (earlier ++ cur) [a] where
  current := by
    rw [List.countP_singleton]
    split
    · next h => exact hpass h
    · exact Nat.zero_le _
  recent := by
    -- what lies before the current window is a whole width away
    have hold : earlier.countP (fun b => passed b && decide (time a < time b + width)) = 0 := by
      refine List.countP_eq_zero.mpr fun b hb' hin => ?_
      have := hw.earlier_le b hb'
      simp only [Bool.and_eq_true, decide_eq_true_eq] at hin
      omega
    have hcur : cur.countP (fun b => passed b && decide (time a < time b + width)) ≤
        cur.countP passed :=
      List.countP_mono_left fun b _ hin => (Bool.and_eq_true _ _ ▸ hin : _ ∧ _).1
    rw [List.countP_append, hold, Nat.zero_add]
    exact Nat.le_trans hcur hb.current
  before := hb.countP_le hw

end Bounded

end Lib
