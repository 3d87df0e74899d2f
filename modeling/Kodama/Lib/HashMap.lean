import Mathlib.Algebra.GroupWithZero.Nat
import Mathlib.Data.List.AList

/-!
# Finite maps

`HashMap κ ν` is Mathlib's `AList` at a constant family: a list of entries without
duplicate keys, so a map can be looked up, counted and enumerated. The enumeration order
is an artefact of the representation; nothing here depends on it.

This module adds what `AList` has no lemma for: lookups after an update as one `if`, the sum
of a measure over the entries (`sumOver`) and the number of entries whose value satisfies a
predicate (`countWhere`), which an insertion or a removal changes only by what the key held, and
what an iteration that gives every key a new value makes of a map (`lookup_foldl_entries`).
-/

namespace Lib

universe u v

/-- A finite map from keys to values. -/
abbrev HashMap (κ : Type u) (ν : Type v) := AList fun _ : κ => ν

namespace HashMap

variable {κ : Type u} {ν : Type v} [DecidableEq κ]

theorem lookup_insert_ite (m : HashMap κ ν) (a k : κ) (b : ν) :
    (m.insert a b).lookup k = if k = a then some b else m.lookup k := by
  by_cases h : k = a
  · subst h
    rw [if_pos rfl, AList.lookup_insert]
  · rw [if_neg h, AList.lookup_insert_ne h]

theorem lookup_insert_eq_some {m : HashMap κ ν} {a k : κ} {b v : ν} :
    (m.insert a b).lookup k = some v ↔ k = a ∧ v = b ∨ k ≠ a ∧ m.lookup k = some v := by
  rw [lookup_insert_ite]
  split
  · next h =>
    rw [Option.some.injEq]
    exact ⟨fun hv => .inl ⟨h, hv.symm⟩, fun hv => (hv.resolve_right fun hne => hne.1 h).2.symm⟩
  · next h =>
    exact ⟨fun hv => .inr ⟨h, hv⟩, fun hv => (hv.resolve_left fun heq => h heq.1).2⟩

theorem isSome_lookup_insert {m : HashMap κ ν} {a k : κ} {b : ν} :
    ((m.insert a b).lookup k).isSome ↔ k = a ∨ (m.lookup k).isSome := by
  rw [AList.lookup_isSome, AList.lookup_isSome, AList.mem_insert]

theorem lookup_erase_ite (m : HashMap κ ν) (a k : κ) :
    (m.erase a).lookup k = if k = a then none else m.lookup k := by
  by_cases h : k = a
  · subst h
    rw [if_pos rfl, AList.lookup_erase]
  · rw [if_neg h, AList.lookup_erase_ne h]

/-- What holds of every entry after an insertion: the new entry, and the old ones of the
other keys. -/
theorem forall_lookup_insert {P : κ → ν → Prop} {m : HashMap κ ν} {a : κ} {b : ν}
    (hnew : P a b) (hold : ∀ k v, k ≠ a → m.lookup k = some v → P k v) :
    ∀ k v, (m.insert a b).lookup k = some v → P k v := by
  intro k v hlook
  rw [lookup_insert_ite] at hlook
  by_cases hk : k = a
  · rw [if_pos hk] at hlook
    obtain rfl := Option.some.inj hlook
    rw [hk]
    exact hnew
  · rw [if_neg hk] at hlook
    exact hold k v hk hlook

/-- Updating a key that is present: every entry of the new map comes from the entry of the
same key in the old one. -/
theorem lookup_update_back {R : ν → ν → Prop} (hrefl : ∀ v, R v v) {m : HashMap κ ν} {a : κ}
    {b : ν} (ha : m.lookup a = some b) (b' : ν) (hR : R b b') :
    ∀ k v, (m.insert a b').lookup k = some v → ∃ v', m.lookup k = some v' ∧ R v' v :=
  forall_lookup_insert ⟨b, ha, hR⟩ fun _ v _ hk => ⟨v, hk, hrefl v⟩

theorem mem_entries_iff {m : HashMap κ ν} {a : κ} {b : ν} :
    ⟨a, b⟩ ∈ m.entries ↔ m.lookup a = some b :=
  AList.mem_lookup_iff.symm

/-- The entries as pairs, in the order of an iteration. -/
theorem mem_map_entries_iff {m : HashMap κ ν} {a : κ} {b : ν} :
    (a, b) ∈ (m.entries.map fun e => (e.1, e.2)) ↔ m.lookup a = some b := by
  rw [List.mem_map, ← mem_entries_iff]
  constructor
  · rintro ⟨e, he, heq⟩
    obtain ⟨rfl, rfl⟩ := Prod.mk.inj heq
    exact he
  · exact fun hmem => ⟨⟨a, b⟩, hmem, rfl⟩

omit [DecidableEq κ] in
theorem map_entries_fst (m : HashMap κ ν) :
    (m.entries.map fun e => (e.1, e.2)).map Prod.fst = m.keys := by
  rw [List.map_map]
  rfl

/-- Keep the entries that satisfy a predicate. -/
def retain (p : κ → ν → Bool) (m : HashMap κ ν) : HashMap κ ν where
  entries := m.entries.filter fun e => p e.1 e.2
  nodupKeys := m.nodupKeys.sublist List.filter_sublist

theorem lookup_retain_eq_some {p : κ → ν → Bool} {m : HashMap κ ν} {a : κ} {b : ν} :
    (m.retain p).lookup a = some b ↔ m.lookup a = some b ∧ p a b = true := by
  rw [← mem_entries_iff, ← mem_entries_iff, retain, List.mem_filter]

theorem mem_keys_iff {m : HashMap κ ν} {a : κ} : a ∈ m.keys ↔ ∃ b, m.lookup a = some b := by
  rw [← AList.mem_keys, ← AList.lookup_isSome, Option.isSome_iff_exists]

/-! ## Iterations -/

/-- What an iteration did to the entries of a map, it did to every lookup. -/
theorem lookup_of_entries {m m' : HashMap κ ν} {f : κ → ν → ν}
    (hentries : ∀ e ∈ m.entries.map fun e => (e.1, e.2), m'.lookup e.1 = some (f e.1 e.2))
    (hother : ∀ k, k ∉ (m.entries.map fun e => (e.1, e.2)).map Prod.fst →
      m'.lookup k = m.lookup k) (k : κ) : m'.lookup k = (m.lookup k).map (f k) := by
  cases hk : m.lookup k with
  | none =>
    rw [map_entries_fst] at hother
    rw [hother k fun hmem => AList.lookup_eq_none.mp hk (AList.mem_keys.mpr hmem), hk]
    rfl
  | some v => exact hentries (k, v) (mem_map_entries_iff.mpr hk)

/-- Going through some entries, with a state that is carried along: `I` is what holds of it and
of the entries that are still to come. -/
theorem foldl_entries {σ : Type*} {step : σ × HashMap κ ν → κ × ν → σ × HashMap κ ν}
    {f : κ → ν → ν} {I : σ → List (κ × ν) → Prop}
    (hstep : ∀ acc e es, I acc.1 (e :: es) →
      (step acc e).2 = acc.2.insert e.1 (f e.1 e.2) ∧ I (step acc e).1 es) (es : List (κ × ν)) :
    ∀ acc, I acc.1 es → (es.map Prod.fst).Nodup →
      (∀ e ∈ es, (es.foldl step acc).2.lookup e.1 = some (f e.1 e.2)) ∧
        (∀ k, k ∉ es.map Prod.fst → (es.foldl step acc).2.lookup k = acc.2.lookup k) ∧
          I (es.foldl step acc).1 [] := by
  induction es with
  | nil => exact fun acc hI _ => ⟨fun _ he => absurd he List.not_mem_nil, fun _ _ => rfl, hI⟩
  | cons e es ih =>
    intro acc hI hkeys
    obtain ⟨hkey, hkeys⟩ := List.nodup_cons.mp hkeys
    obtain ⟨hinsert, hI⟩ := hstep acc e es hI
    obtain ⟨hentries, hother, hend⟩ := ih (step acc e) hI hkeys
    rw [List.foldl_cons]
    refine ⟨List.forall_mem_cons.mpr ⟨?_, hentries⟩, fun k hk => ?_, hend⟩
    · rw [hother e.1 hkey, hinsert, AList.lookup_insert]
    · rw [hother k fun hmem => hk (List.mem_cons_of_mem _ hmem), hinsert]
      exact AList.lookup_insert_ne fun heq => hk (heq ▸ List.mem_cons_self)

/-- An iteration over a map that gives every key a new value. -/
theorem lookup_foldl_entries {σ : Type*} {step : σ × HashMap κ ν → κ × ν → σ × HashMap κ ν}
    {f : κ → ν → ν} {I : σ → List (κ × ν) → Prop}
    (hstep : ∀ acc e es, I acc.1 (e :: es) →
      (step acc e).2 = acc.2.insert e.1 (f e.1 e.2) ∧ I (step acc e).1 es)
    (m : HashMap κ ν) {s : σ} (hI : I s (m.entries.map fun e => (e.1, e.2))) :
    (∀ k, ((m.entries.map fun e => (e.1, e.2)).foldl step (s, m)).2.lookup k =
      (m.lookup k).map (f k)) ∧
        I ((m.entries.map fun e => (e.1, e.2)).foldl step (s, m)).1 [] := by
  have hkeys : ((m.entries.map fun e => (e.1, e.2)).map Prod.fst).Nodup := by
    rw [map_entries_fst]
    exact AList.keys_nodup m
  obtain ⟨hentries, hother, hend⟩ := foldl_entries hstep _ (s, m) hI hkeys
  exact ⟨lookup_of_entries hentries hother, hend⟩

/-! ## Sums over the entries -/

/-- The sum of a measure over the entries. -/
def sumOver (g : κ → ν → Nat) (m : HashMap κ ν) : Nat :=
  (m.entries.map fun e => g e.1 e.2).sum

/-- What the entry of one key, if any, contributes to `sumOver`. -/
def sumAt (g : κ → ν → Nat) (m : HashMap κ ν) (k : κ) : Nat :=
  match m.lookup k with
  | some b => g k b
  | none => 0

variable {g g' : κ → ν → Nat} {m m' : HashMap κ ν} {a : κ} {b : ν}

theorem sumAt_of_lookup (h : m.lookup a = some b) : sumAt g m a = g a b := by
  rw [sumAt, h]

theorem sumAt_of_lookup_none (h : m.lookup a = none) : sumAt g m a = 0 := by
  rw [sumAt, h]

/-- Removing a key takes away exactly what its entry contributed. -/
theorem sumOver_erase (g : κ → ν → Nat) (m : HashMap κ ν) (a : κ) :
    sumOver g (m.erase a) + sumAt g m a = sumOver g m := by
  cases hlook : m.lookup a with
  | none =>
    have hkeys : a ∉ m.entries.keys := AList.lookup_eq_none.mp hlook
    show ((m.entries.kerase a).map _).sum + sumAt g m a = _
    rw [List.kerase_of_notMem_keys hkeys, sumAt_of_lookup_none hlook]
    rfl
  | some b =>
    obtain ⟨b', l₁, l₂, -, hsplit, hk⟩ :=
      List.exists_of_kerase (AList.mem_keys.mp (AList.lookup_isSome.mp (by rw [hlook]; rfl)))
    have hb : m.lookup a = some b' := mem_entries_iff.mp (hsplit ▸ by simp)
    obtain rfl : b = b' := Option.some.inj (hlook.symm.trans hb)
    show ((m.entries.kerase a).map _).sum + sumAt g m a = (m.entries.map _).sum
    rw [sumAt_of_lookup hlook, hk, hsplit, List.map_append, List.map_append, List.map_cons,
      List.sum_append, List.sum_append, List.sum_cons, Nat.add_assoc, Nat.add_comm _ (g a b)]

/-- Inserting replaces what the key contributed by what the new value contributes. -/
theorem sumOver_insert (g : κ → ν → Nat) (m : HashMap κ ν) (a : κ) (b : ν) :
    sumOver g (m.insert a b) + sumAt g m a = sumOver g m + g a b := by
  have herase := sumOver_erase g m a
  have hinsert : sumOver g (m.insert a b) = g a b + sumOver g (m.erase a) := by
    show (List.map _ (⟨a, b⟩ :: m.entries.kerase a)).sum = _
    rw [List.map_cons, List.sum_cons]
    rfl
  omega

theorem sumOver_congr (h : ∀ k v, m.lookup k = some v → g k v = g' k v) :
    sumOver g m = sumOver g' m :=
  congrArg List.sum (List.map_congr_left fun e he => h e.1 e.2 (mem_entries_iff.mp he))

/-- Measures that differ at one key only differ in the sum by what they say of it. -/
theorem sumOver_add_sumAt (h : ∀ k v, k ≠ a → m.lookup k = some v → g k v = g' k v) :
    sumOver g m + sumAt g' m a = sumOver g' m + sumAt g m a := by
  have hrest : sumOver g (m.erase a) = sumOver g' (m.erase a) := by
    refine sumOver_congr fun k v hk => ?_
    rw [lookup_erase_ite] at hk
    split at hk
    · cases hk
    · next hne => exact h k v hne hk
  rw [← sumOver_erase g m a, ← sumOver_erase g' m a, hrest]
  omega

theorem sumOver_eq_zero (h : ∀ k v, m.lookup k = some v → g k v = 0) : sumOver g m = 0 :=
  List.sum_eq_zero_iff_forall_eq_nat.mpr
    (List.forall_mem_map.mpr fun e he => h e.1 e.2 (mem_entries_iff.mp he))

theorem sumOver_mono (h : ∀ k v, m.lookup k = some v → g k v ≤ g' k v) :
    sumOver g m ≤ sumOver g' m := by
  have hsum : ∀ es : List (Sigma fun _ : κ => ν), (∀ e ∈ es, g e.1 e.2 ≤ g' e.1 e.2) →
      (es.map fun e => g e.1 e.2).sum ≤ (es.map fun e => g' e.1 e.2).sum := by
    intro es
    induction es with
    | nil => exact fun _ => Nat.le_refl _
    | cons e es ih =>
      intro hes
      rw [List.map_cons, List.map_cons, List.sum_cons, List.sum_cons]
      exact Nat.add_le_add (hes e List.mem_cons_self)
        (ih fun e he => hes e (List.mem_cons_of_mem _ he))
  exact hsum m.entries fun e he => h e.1 e.2 (mem_entries_iff.mp he)

/-- A smaller term at one key makes the sum smaller. -/
theorem sumOver_lt (h : ∀ k v, m.lookup k = some v → g k v ≤ g' k v) (ha : m.lookup a = some b)
    (hlt : g a b < g' a b) : sumOver g m < sumOver g' m := by
  have hrest : sumOver g (m.erase a) ≤ sumOver g' (m.erase a) := by
    refine sumOver_mono fun k v hk => h k v ?_
    rw [lookup_erase_ite] at hk
    split at hk
    · cases hk
    · exact hk
  rw [← sumOver_erase g m a, ← sumOver_erase g' m a, sumAt_of_lookup ha, sumAt_of_lookup ha]
  omega

theorem sumAt_le (g : κ → ν → Nat) (m : HashMap κ ν) (a : κ) : sumAt g m a ≤ sumOver g m :=
  Nat.le.intro ((Nat.add_comm _ _).trans (sumOver_erase g m a))

/-- The sum depends on the lookups only. -/
theorem sumOver_ext (h : ∀ k, m.lookup k = m'.lookup k) : sumOver g m = sumOver g m' := by
  refine List.Perm.sum_nat (List.Perm.map _ (List.lookup_ext m.nodupKeys m'.nodupKeys ?_))
  intro k v
  exact iff_of_eq (congrArg (v ∈ ·) (h k))

/-- A map that looks like one after an insertion, or after a removal. -/
theorem sumOver_of_lookup_insert (h : ∀ k, m'.lookup k = if k = a then some b else m.lookup k) :
    sumOver g m' + sumAt g m a = sumOver g m + g a b := by
  rw [sumOver_ext fun k => (h k).trans (lookup_insert_ite m a k b).symm, sumOver_insert]

theorem sumOver_of_lookup_erase (h : ∀ k, m'.lookup k = if k = a then none else m.lookup k) :
    sumOver g m' + sumAt g m a = sumOver g m := by
  rw [sumOver_ext fun k => (h k).trans (lookup_erase_ite m a k).symm, sumOver_erase]

/-- A sum over the entries, as one over the keys in any order. -/
theorem sumOver_eq_sum_keys {keys : List κ} (h : keys.Perm m.keys) :
    sumOver g m = (keys.map (sumAt g m)).sum := by
  have hentries : m.entries.map (fun e => g e.1 e.2) = m.keys.map (sumAt g m) := by
    show _ = (m.entries.map Sigma.fst).map _
    rw [List.map_map]
    exact List.map_congr_left fun e he => (sumAt_of_lookup (mem_entries_iff.mp he)).symm
  rw [sumOver, hentries, (h.map _).sum_nat]

/-! ## Counting entries -/

/-- The number of entries whose value satisfies `p`. -/
def countWhere (p : ν → Bool) (m : HashMap κ ν) : Nat :=
  m.entries.countP fun e => p e.2

/-- What the entry of one key, if any, contributes to `countWhere`. -/
def countAt (p : ν → Bool) (m : HashMap κ ν) (k : κ) : Nat :=
  match m.lookup k with
  | some b => if p b then 1 else 0
  | none => 0

theorem countAt_of_lookup {p : ν → Bool} {m : HashMap κ ν} {a : κ} {b : ν}
    (h : m.lookup a = some b) : countAt p m a = if p b then 1 else 0 := by
  rw [countAt, h]

theorem countAt_of_lookup_none {p : ν → Bool} {m : HashMap κ ν} {a : κ}
    (h : m.lookup a = none) : countAt p m a = 0 := by
  rw [countAt, h]

omit [DecidableEq κ] in
theorem countWhere_eq_sumOver (p : ν → Bool) (m : HashMap κ ν) :
    countWhere p m = sumOver (fun _ v => if p v then 1 else 0) m := by
  rw [countWhere, sumOver]
  induction m.entries with
  | nil => rfl
  | cons e es ih => rw [List.countP_cons, List.map_cons, List.sum_cons, ih, Nat.add_comm]

/-- Removing a key takes away exactly what its entry contributed. -/
theorem countWhere_erase (p : ν → Bool) (m : HashMap κ ν) (a : κ) :
    countWhere p (m.erase a) + countAt p m a = countWhere p m := by
  rw [countWhere_eq_sumOver, countWhere_eq_sumOver]
  exact sumOver_erase _ m a

/-- Inserting replaces what the key contributed by what the new value contributes. -/
theorem countWhere_insert (p : ν → Bool) (m : HashMap κ ν) (a : κ) (b : ν) :
    countWhere p (m.insert a b) + countAt p m a = countWhere p m + if p b then 1 else 0 := by
  rw [countWhere_eq_sumOver, countWhere_eq_sumOver]
  exact sumOver_insert _ m a b

theorem countAt_le (p : ν → Bool) (m : HashMap κ ν) (a : κ) :
    countAt p m a ≤ countWhere p m := by
  have := countWhere_erase p m a
  omega

/-- Where none is counted, no value satisfies `p`. -/
theorem eq_false_of_countWhere_eq_zero {p : ν → Bool} {m : HashMap κ ν} {a : κ} {b : ν}
    (hzero : countWhere p m = 0) (h : m.lookup a = some b) : p b = false := by
  have hle := countAt_le p m a
  rw [countAt_of_lookup h, hzero] at hle
  by_contra hp
  rw [Bool.not_eq_false] at hp
  rw [if_pos hp] at hle
  omega

end HashMap

end Lib
