import Mathlib.Data.List.Induction

/-!
# Machines driven by schedules

A component is a partial step function `step : σ → α → Option σ`: an event of type `α`
either is not enabled in a state, or leads to exactly one next state. All nondeterminism
(the scheduler, the environment, failing calls) is in the schedule, a list of events.

- `run`: the state a schedule leads to.
- `Always P`: `P` holds in every state a schedule passes through.
- `EachStep G`: every step a schedule takes satisfies `G`.

The rules derive `Always` from `EachStep` (`always_of_eachStep`), and state when a condition
on single steps is *exactly* what a whole-run property needs
(`always_iff_eachStep_of_invariant`, `always_iff_eachStep`).
-/

namespace Lib.Machine

universe u v w

variable {σ : Type u} {α : Type v} {step : σ → α → Option σ}

/-- The state a schedule leads to; `none` if some event was not enabled. -/
def run (step : σ → α → Option σ) (s : σ) (as : List α) : Option σ :=
  as.foldlM step s

@[simp] theorem run_nil (s : σ) : run step s [] = some s := rfl

theorem run_cons (s : σ) (a : α) (as : List α) :
    run step s (a :: as) = (step s a).bind fun t => run step t as := by
  show List.foldlM step s (a :: as) = _
  rw [List.foldlM_cons]
  rfl

theorem run_append (s : σ) (as bs : List α) :
    run step s (as ++ bs) = (run step s as).bind fun t => run step t bs := by
  show List.foldlM step s (as ++ bs) = _
  rw [List.foldlM_append]
  rfl

theorem run_concat (s : σ) (as : List α) (a : α) :
    run step s (as ++ [a]) = (run step s as).bind fun t => step t a := by
  rw [run_append]
  cases run step s as with
  | none => rfl
  | some t =>
    show run step t [a] = step t a
    rw [run_cons]
    cases step t a <;> rfl

theorem run_append_eq_some {s u : σ} {as bs : List α} :
    run step s (as ++ bs) = some u ↔ ∃ t, run step s as = some t ∧ run step t bs = some u := by
  rw [run_append, Option.bind_eq_some_iff]

/-- Splitting off the last step of a run. -/
theorem run_concat_eq_some {s u : σ} {as : List α} {a : α} :
    run step s (as ++ [a]) = some u ↔ ∃ t, run step s as = some t ∧ step t a = some u := by
  rw [run_concat, Option.bind_eq_some_iff]

/-- A list that every step extends by what it emits is extended by a run by what its steps
emit, in their order. -/
theorem run_appends {β : Type w} (out : σ → List β) (emit : α → Option β)
    (hstep : ∀ s a t, step s a = some t → out t = out s ++ (emit a).toList) {s t : σ}
    {as : List α} (hrun : run step s as = some t) : out t = out s ++ as.filterMap emit := by
  induction as generalizing s with
  | nil =>
    obtain rfl := Option.some.inj hrun
    exact (List.append_nil _).symm
  | cons a as ih =>
    rw [run_cons] at hrun
    obtain ⟨u, hu, hrun⟩ := Option.bind_eq_some_iff.mp hrun
    rw [ih hrun, hstep s a u hu, List.append_assoc, List.filterMap_cons]
    cases emit a <;> rfl

/-- Every state reached by a prefix of the schedule satisfies `P`. -/
def Always (step : σ → α → Option σ) (P : σ → Prop) (s : σ) (as : List α) : Prop :=
  ∀ pre t, pre <+: as → run step s pre = some t → P t

/-- Every step taken along the schedule satisfies `G` (state before, event, state after). -/
def EachStep (step : σ → α → Option σ) (G : σ → α → σ → Prop) (s : σ) (as : List α) : Prop :=
  ∀ pre a t u, pre ++ [a] <+: as → run step s pre = some t → step t a = some u → G t a u

variable {P I J : σ → Prop} {G H : σ → α → σ → Prop} {s : σ} {as : List α}

/-! ## Both modalities, from the empty schedule and one event at a time -/

theorem always_nil : Always step P s [] ↔ P s := by
  constructor
  · intro h
    exact h [] s (List.prefix_refl _) rfl
  · intro h pre t hpre hrun
    rw [List.prefix_nil.mp hpre, run_nil] at hrun
    exact Option.some.inj hrun ▸ h

theorem always_concat {a : α} :
    Always step P s (as ++ [a]) ↔
      Always step P s as ∧ ∀ u, run step s (as ++ [a]) = some u → P u := by
  constructor
  · intro h
    exact ⟨fun pre t hpre => h pre t (hpre.trans (List.prefix_append _ _)),
      fun u hu => h _ u (List.prefix_refl _) hu⟩
  · rintro ⟨h₁, h₂⟩ pre t hpre hrun
    rcases List.prefix_concat_iff.mp hpre with rfl | hpre
    · exact h₂ t hrun
    · exact h₁ pre t hpre hrun

theorem eachStep_nil : EachStep step G s [] := by
  intro pre a t u hpre
  exact absurd (List.prefix_nil.mp hpre) (by simp)

theorem eachStep_concat {a : α} :
    EachStep step G s (as ++ [a]) ↔
      EachStep step G s as ∧
        ∀ t u, run step s as = some t → step t a = some u → G t a u := by
  constructor
  · intro h
    exact ⟨fun pre b t u hpre => h pre b t u (hpre.trans (List.prefix_append _ _)),
      fun t u => h as a t u (List.prefix_refl _)⟩
  · rintro ⟨h₁, h₂⟩ pre b t u hpre hrun hstep
    rcases List.prefix_concat_iff.mp hpre with heq | hpre
    · obtain ⟨rfl, rfl⟩ := List.append_inj' heq rfl |>.imp id (fun h => by simpa using h)
      exact h₂ t u hrun hstep
    · exact h₁ pre b t u hpre hrun hstep

theorem eachStep_cons {a : α} :
    EachStep step G s (a :: as) ↔ ∀ u, step s a = some u → G s a u ∧ EachStep step G u as := by
  constructor
  · intro h u hu
    refine ⟨h [] a s u (List.prefix_append _ _) rfl hu, fun pre b t v hpre hrun => ?_⟩
    refine h (a :: pre) b t v (List.cons_prefix_cons.mpr ⟨rfl, hpre⟩) ?_
    rw [run_cons, hu]
    exact hrun
  · intro h pre b t v hpre hrun hstep
    cases pre with
    | nil =>
      obtain ⟨rfl, -⟩ := List.cons_prefix_cons.mp hpre
      obtain rfl := Option.some.inj hrun
      exact (h v hstep).1
    | cons a' pre =>
      obtain ⟨rfl, hpre'⟩ := List.cons_prefix_cons.mp hpre
      rw [run_cons] at hrun
      obtain ⟨u, hu, hrun⟩ := Option.bind_eq_some_iff.mp hrun
      exact (h u hu).2 pre b t v hpre' hrun hstep

theorem always_cons {a : α} :
    Always step P s (a :: as) ↔ P s ∧ ∀ u, step s a = some u → Always step P u as := by
  constructor
  · intro h
    refine ⟨h [] s (List.nil_prefix) rfl, fun u hu pre t hpre hrun => ?_⟩
    refine h (a :: pre) t (List.cons_prefix_cons.mpr ⟨rfl, hpre⟩) ?_
    rw [run_cons, hu]
    exact hrun
  · rintro ⟨hs, h⟩ pre t hpre hrun
    cases pre with
    | nil => exact Option.some.inj hrun ▸ hs
    | cons a' pre =>
      obtain ⟨rfl, hpre'⟩ := List.cons_prefix_cons.mp hpre
      rw [run_cons] at hrun
      obtain ⟨u, hu, hrun⟩ := Option.bind_eq_some_iff.mp hrun
      exact h u hu pre t hpre' hrun

theorem always_append {bs : List α} : Always step P s (as ++ bs) ↔
    Always step P s as ∧ ∀ t, run step s as = some t → Always step P t bs := by
  induction as generalizing s with
  | nil =>
    rw [List.nil_append, always_nil]
    constructor
    · intro h
      exact ⟨h [] s List.nil_prefix rfl, fun t ht => Option.some.inj ht ▸ h⟩
    · exact fun h => h.2 s rfl
  | cons a as ih =>
    rw [List.cons_append, always_cons, always_cons, and_assoc]
    simp only [ih, run_cons, Option.bind_eq_some_iff]
    exact and_congr_right fun _ =>
      ⟨fun h => ⟨fun u hu => (h u hu).1, fun t ⟨u, hu, ht⟩ => (h u hu).2 t ht⟩,
        fun h u hu => ⟨h.1 u hu, fun t ht => h.2 t ⟨u, hu, ht⟩⟩⟩

/-- A decidable step condition can be checked along a schedule. -/
instance decidableEachStep [∀ t a u, Decidable (G t a u)] :
    ∀ (as : List α) (s : σ), Decidable (EachStep step G s as)
  | [], _ => isTrue eachStep_nil
  | a :: as, s =>
    match hu : step s a with
    | none => isTrue (eachStep_cons.mpr fun u h => absurd (hu.symm.trans h) (by simp))
    | some u =>
      have := decidableEachStep as u
      decidable_of_iff (G s a u ∧ EachStep step G u as) <| by
        rw [eachStep_cons, hu]
        constructor
        · rintro h _ ⟨⟩
          exact h
        · intro h
          exact h u rfl

theorem Always.final (h : Always step P s as) {t : σ} (hrun : run step s as = some t) : P t :=
  h as t (List.prefix_refl _) hrun

/-- What is observed of the state a schedule leads to is observed of a state satisfying `P`. -/
theorem Always.observed {β : Type w} {f : σ → β} {b : β} (h : Always step P s as)
    (hrun : (run step s as).map f = some b) : ∃ t, P t ∧ f t = b := by
  obtain ⟨t, ht, hf⟩ := Option.map_eq_some_iff.mp hrun
  exact ⟨t, h.final ht, hf⟩

/-- The steps of a schedule lead to states where `P` holds. -/
theorem Always.eachStep (h : Always step P s as) : EachStep step (fun _ _ u => P u) s as :=
  fun pre a t u hpre hrun hta => h (pre ++ [a]) u hpre (run_concat_eq_some.mpr ⟨t, hrun, hta⟩)

theorem EachStep.and (hG : EachStep step G s as) (hH : EachStep step H s as) :
    EachStep step (fun t a u => G t a u ∧ H t a u) s as :=
  fun pre a t u hpre hrun hta => ⟨hG pre a t u hpre hrun hta, hH pre a t u hpre hrun hta⟩

theorem EachStep.restrict {pre : List α} (hG : EachStep step G s as) (hpre : pre <+: as) :
    EachStep step G s pre :=
  fun pre' a t u hpre' => hG pre' a t u (hpre'.trans hpre)

theorem Always.mono (himp : ∀ t, P t → I t) (h : Always step P s as) : Always step I s as :=
  fun pre t hpre hrun => himp t (h pre t hpre hrun)

/-! ## Rules -/

/-- The guarded invariant rule: if every step that satisfies `G` preserves `I`, then `I`
holds along every schedule whose steps all satisfy `G`. By induction on the schedule from
its end, so the last step starts in a state where `I` is already known. -/
theorem always_of_eachStep (h₀ : I s)
    (hstep : ∀ t a u, I t → G t a u → step t a = some u → I u)
    (hG : EachStep step G s as) : Always step I s as := by
  induction as using List.reverseRecOn with
  | nil => exact always_nil.mpr h₀
  | append_singleton as a ih =>
    obtain ⟨hG', hlast⟩ := eachStep_concat.mp hG
    refine always_concat.mpr ⟨ih hG', fun u hu => ?_⟩
    obtain ⟨t, hrun, hta⟩ := run_concat_eq_some.mp hu
    exact hstep t a u ((ih hG').final hrun) (hlast t u hrun hta) hta

/-- The invariant rule. -/
theorem always_of_step (h₀ : I s) (hstep : ∀ t a u, I t → step t a = some u → I u)
    (as : List α) : Always step I s as :=
  always_of_eachStep (G := fun _ _ _ => True) h₀ (fun t a u hi _ => hstep t a u hi)
    (fun _ _ _ _ _ _ _ => trivial)

/-- What the steps preserve backwards holds all along a schedule at whose end it holds. -/
theorem always_of_final {t : σ} (hI : Always step I s as)
    (hback : ∀ t a u, I t → step t a = some u → P u → P t) (hrun : run step s as = some t)
    (ht : P t) : Always step P s as := by
  induction as using List.reverseRecOn generalizing t with
  | nil =>
    obtain rfl := Option.some.inj hrun
    exact always_nil.mpr ht
  | append_singleton as a ih =>
    obtain ⟨u, hu, hta⟩ := run_concat_eq_some.mp hrun
    obtain ⟨hbefore, -⟩ := always_concat.mp hI
    refine always_concat.mpr ⟨ih hbefore hu (hback u a t (hbefore.final hu) hta ht), ?_⟩
    intro t' ht'
    obtain rfl := Option.some.inj (hrun.symm.trans ht')
    exact ht

/-- A condition that every step from a state satisfying `I` meets is met along every
schedule on which `I` always holds. -/
theorem eachStep_of_always (hI : Always step I s as)
    (hstep : ∀ t a u, I t → step t a = some u → G t a u) : EachStep step G s as :=
  fun pre a t u hpre hrun hta =>
    hstep t a u (hI pre t ((List.prefix_append _ _).trans hpre) hrun) hta

/-- Step conditions can be weakened in the states where an invariant holds. -/
theorem EachStep.mono (hI : Always step I s as)
    (himp : ∀ t a u, I t → step t a = some u → G t a u → H t a u)
    (hG : EachStep step G s as) : EachStep step H s as :=
  fun pre a t u hpre hrun hta =>
    himp t a u (hI pre t ((List.prefix_append _ _).trans hpre) hrun) hta
      (hG pre a t u hpre hrun hta)

/-- Step conditions that agree on every step from a state where an invariant holds are met by the
same schedules. -/
theorem eachStep_congr_of_always (hI : Always step I s as)
    (h : ∀ t a u, I t → step t a = some u → (G t a u ↔ H t a u)) :
    EachStep step G s as ↔ EachStep step H s as := by
  constructor
  · exact EachStep.mono hI fun t a u hi hta => (h t a u hi hta).mp
  · exact EachStep.mono hI fun t a u hi hta => (h t a u hi hta).mpr

/-- Step conditions that agree on every step are met by the same schedules. -/
theorem eachStep_congr (h : ∀ t a u, step t a = some u → (G t a u ↔ H t a u)) :
    EachStep step G s as ↔ EachStep step H s as :=
  eachStep_congr_of_always (I := fun _ => True) (fun _ _ _ _ => trivial) fun t a u _ => h t a u

/-- **When a step condition is exact.** If `I` is kept by the steps that satisfy `G` and
implies `P`, and no step from a state satisfying `I` reaches `P` without `G`, then `P` holds
along a schedule if and only if all its steps satisfy `G`. -/
theorem always_iff_eachStep_of_invariant (h₀ : I s) (hIP : ∀ t, I t → P t)
    (hstep : ∀ t a u, I t → G t a u → step t a = some u → I u)
    (hG : ∀ t a u, I t → step t a = some u → P u → G t a u) :
    Always step P s as ↔ EachStep step G s as := by
  constructor
  · induction as using List.reverseRecOn with
    | nil => exact fun _ => eachStep_nil
    | append_singleton as a ih =>
      intro hP
      -- the steps before the last satisfy `G`, so the last one starts in a state with `I`
      obtain ⟨hbefore, hlast⟩ := always_concat.mp hP
      have hI : Always step I s as := always_of_eachStep h₀ hstep (ih hbefore)
      refine eachStep_concat.mpr ⟨ih hbefore, fun t u hrun hta => ?_⟩
      exact hG t a u (hI.final hrun) hta (hlast u (run_concat_eq_some.mpr ⟨t, hrun, hta⟩))
  · exact fun hG => (always_of_eachStep h₀ hstep hG).mono hIP

/-- The same with `P` as part of the invariant: in states satisfying the unconditional
invariant `J`, a step preserves `P` if and only if it satisfies `G`. -/
theorem always_iff_eachStep (hJ₀ : J s) (hJ : ∀ t a u, J t → step t a = some u → J u)
    (h₀ : P s) (hstep : ∀ t a u, J t → P t → step t a = some u → (P u ↔ G t a u)) :
    Always step P s as ↔ EachStep step G s as :=
  always_iff_eachStep_of_invariant (I := fun t => J t ∧ P t) ⟨hJ₀, h₀⟩ (fun _ h => h.2)
    (fun t a u h hg hta => ⟨hJ t a u h.1 hta, (hstep t a u h.1 h.2 hta).mpr hg⟩)
    fun t a u h hta hu => (hstep t a u h.1 h.2 hta).mp hu

end Lib.Machine
