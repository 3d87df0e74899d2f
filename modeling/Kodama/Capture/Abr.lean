import Mathlib.Data.Rat.Defs
import Mathlib.Algebra.Order.Ring.Rat
import Mathlib.Order.Basic
import Mathlib.Tactic.Linarith

/-!
# The adaptive bitrate controller (capture/abr.rs)

`AbrController.evaluate` with its two pressure timers, its cooldown and its tier ends.
Instants and durations are nanoseconds, `duration_since` is truncated subtraction, and
throughputs are exact rationals.

The module doc of the source promises hysteresis with an upgrade threshold of 80% of the
*next* tier's bitrate (`upgradeThresholdBps`); `evaluate` compares with 90% of the *current*
one instead, which for every tier lies below the next tier's downgrade threshold
(`upgrade_below_next_downgrade`). In that gap, the `OscillationBand`, the controller
neither settles at the tier nor at the next one.

- `evaluate_cases`: everything one evaluation can do.
- `no_downgrade`, `no_upgrade`: outside the band, the side of the current tier's
  downgrade threshold the throughput is on decides the direction of all later changes.
- `monotone_iff_notMem_band`: runs under a constant throughput are monotone, for every
  evaluation schedule, exactly when that throughput is outside the band.
-/

namespace Kodama

/-- Quality tiers for 720p @ 30fps encoding. -/
inductive QualityTier where
  | minimum
  | low
  | medium
  | high
deriving DecidableEq

namespace QualityTier

/-- Encoding bitrate of a tier in bits per second. -/
def bitrateBps : QualityTier → Nat
  | high => 4000000
  | medium => 2000000
  | low => 1000000
  | minimum => 500000

/-- Throughput below this means the network can't keep up (bitrate * 0.5). -/
def downgradeThresholdBps (tier : QualityTier) : ℚ := tier.bitrateBps * (5 / 10)

/-- Throughput above this for the *next* tier means we can safely upgrade (bitrate * 0.8).
The source defines it and `evaluate` does not use it. -/
def upgradeThresholdBps (tier : QualityTier) : ℚ := tier.bitrateBps * (8 / 10)

/-- The threshold `evaluate` upgrades at: 90% of the current tier's bitrate. -/
def upgradeThresh (tier : QualityTier) : ℚ := tier.bitrateBps * (9 / 10)

/-- Next tier up, if any. -/
def higher : QualityTier → Option QualityTier
  | minimum => some low
  | low => some medium
  | medium => some high
  | high => none

/-- Next tier down, if any. -/
def lower : QualityTier → Option QualityTier
  | high => some medium
  | medium => some low
  | low => some minimum
  | minimum => none

/-- The derived order of the enum, lowest quality first. -/
def rank : QualityTier → Nat
  | minimum => 0
  | low => 1
  | medium => 2
  | high => 3

instance : LT QualityTier := ⟨fun s t => s.rank < t.rank⟩

instance : LE QualityTier := ⟨fun s t => s.rank ≤ t.rank⟩

instance (s t : QualityTier) : Decidable (s < t) := inferInstanceAs (Decidable (s.rank < t.rank))

instance (s t : QualityTier) : Decidable (s ≤ t) := inferInstanceAs (Decidable (s.rank ≤ t.rank))

theorem lt_of_higher {s t : QualityTier} (h : s.higher = some t) : s < t := by
  cases s <;> cases h <;> decide

theorem lt_of_lower {s t : QualityTier} (h : s.lower = some t) : t < s := by
  cases s <;> cases h <;> decide

theorem higher_of_lower {s t : QualityTier} (h : s.lower = some t) : t.higher = some s := by
  cases s <;> cases h <;> rfl

theorem lower_of_higher {s t : QualityTier} (h : s.higher = some t) : t.lower = some s := by
  cases s <;> cases h <;> rfl

/-- Climbing from below a tier does not overshoot it. -/
theorem le_of_higher_of_lt {s t u : QualityTier} (h : s.higher = some u) (hlt : s < t) :
    u ≤ t := by
  cases s <;> cases t <;> cases h <;> revert hlt <;> decide

/-- Descending from above a tier does not overshoot it. -/
theorem le_of_lower_of_lt {s t u : QualityTier} (h : s.lower = some u) (hlt : t < s) :
    t ≤ u := by
  cases s <;> cases t <;> cases h <;> revert hlt <;> decide

theorem exists_higher_of_lt {s t : QualityTier} (h : s < t) : ∃ u, s.higher = some u := by
  cases s <;> cases t <;> first | exact ⟨_, rfl⟩ | exact absurd h (by decide)

theorem exists_lower_of_lt {s t : QualityTier} (h : t < s) : ∃ u, s.lower = some u := by
  cases s <;> cases t <;> first | exact ⟨_, rfl⟩ | exact absurd h (by decide)

theorem eq_of_le_of_not_lt {s t : QualityTier} (h : s ≤ t) (hlt : ¬ s < t) : s = t := by
  cases s <;> cases t <;> first | rfl | exact absurd h (by decide) | exact absurd (by decide) hlt

/-! ### The thresholds against each other -/

theorem downgradeThresholdBps_mono {s t : QualityTier} (h : s ≤ t) :
    s.downgradeThresholdBps ≤ t.downgradeThresholdBps := by
  cases s <;> cases t <;>
    first
    | exact absurd h (by decide)
    | norm_num [downgradeThresholdBps, bitrateBps]

theorem upgradeThresh_mono {s t : QualityTier} (h : s ≤ t) : s.upgradeThresh ≤ t.upgradeThresh := by
  cases s <;> cases t <;>
    first
    | exact absurd h (by decide)
    | norm_num [upgradeThresh, bitrateBps]

theorem downgrade_lt_upgrade (t : QualityTier) : t.downgradeThresholdBps < t.upgradeThresh := by
  cases t <;> norm_num [downgradeThresholdBps, upgradeThresh, bitrateBps]

/-- The threshold in use does not provide the hysteresis the documentation asks for … -/
theorem upgrade_below_next_downgrade {s t : QualityTier} (h : s.higher = some t) :
    s.upgradeThresh < t.downgradeThresholdBps := by
  cases s <;> cases h <;> norm_num [downgradeThresholdBps, upgradeThresh, bitrateBps]

/-- … and the documented one would. -/
theorem next_downgrade_below_documented_upgrade (t : QualityTier) :
    t.downgradeThresholdBps < t.upgradeThresholdBps := by
  cases t <;> norm_num [downgradeThresholdBps, upgradeThresholdBps, bitrateBps]

end QualityTier

/-! ## The controller -/

/-- ABR configuration parameters (durations in nanoseconds). -/
structure AbrConfig where
  downgradeAfter : Nat
  upgradeAfter : Nat
  cooldown : Nat
deriving DecidableEq

/-- `AbrConfig::default`: 3 s, 15 s, 5 s. -/
def AbrConfig.default : AbrConfig := ⟨3000000000, 15000000000, 5000000000⟩

/-- Decision returned by the ABR controller. -/
inductive AbrDecision where
  | hold
  | changeTo (tier : QualityTier)
deriving DecidableEq

/-- ABR decision engine (instants in nanoseconds). -/
structure AbrController where
  currentTier : QualityTier
  downgradePressureSince : Option Nat
  upgradePressureSince : Option Nat
  lastChange : Nat
  config : AbrConfig
deriving DecidableEq

namespace AbrController

/-- `AbrController::new_at` at time `now`. -/
def newAt (config : AbrConfig) (tier : QualityTier) (now : Nat) : AbrController :=
  ⟨tier, none, none, now, config⟩

/-- `AbrController::evaluate` at time `now`. -/
def evaluate (abr : AbrController) (now : Nat) (throughputBps : ℚ) :
    AbrDecision × AbrController :=
  if now - abr.lastChange < abr.config.cooldown then
    (.hold, abr)
  else if throughputBps < abr.currentTier.downgradeThresholdBps then
    let pressureStart := abr.downgradePressureSince.getD now
    let abr := { abr with
      upgradePressureSince := none, downgradePressureSince := some pressureStart }
    if abr.config.downgradeAfter ≤ now - pressureStart then
      match abr.currentTier.lower with
      | some lower => (.changeTo lower,
          { abr with currentTier := lower, lastChange := now, downgradePressureSince := none })
      | none => (.hold, abr)
    else (.hold, abr)
  else
    let abr := { abr with downgradePressureSince := none }
    match abr.currentTier.higher with
    | some higher =>
      if abr.currentTier.upgradeThresh ≤ throughputBps then
        let pressureStart := abr.upgradePressureSince.getD now
        let abr := { abr with upgradePressureSince := some pressureStart }
        if abr.config.upgradeAfter ≤ now - pressureStart then
          (.changeTo higher,
            { abr with currentTier := higher, lastChange := now, upgradePressureSince := none })
        else (.hold, abr)
      else (.hold, { abr with upgradePressureSince := none })
    | none => (.hold, abr)

/-- Everything one evaluation can do: keep the tier, or move to the tier below with the
throughput under the downgrade threshold, or to the tier above with the throughput at or
over both thresholds. -/
theorem evaluate_cases (abr : AbrController) (now : Nat) (x : ℚ) :
    ((abr.evaluate now x).1 = .hold ∧ (abr.evaluate now x).2.currentTier = abr.currentTier) ∨
    (∃ lower, abr.currentTier.lower = some lower ∧ x < abr.currentTier.downgradeThresholdBps ∧
      (abr.evaluate now x).1 = .changeTo lower ∧
      (abr.evaluate now x).2.currentTier = lower) ∨
    (∃ higher, abr.currentTier.higher = some higher ∧
      abr.currentTier.downgradeThresholdBps ≤ x ∧ abr.currentTier.upgradeThresh ≤ x ∧
      (abr.evaluate now x).1 = .changeTo higher ∧
      (abr.evaluate now x).2.currentTier = higher) := by
  rw [evaluate]
  split
  · -- still cooling down
    exact .inl ⟨rfl, rfl⟩
  · split
    · next hlow =>
      dsimp only
      split
      · split
        · next lower hlower => exact .inr (.inl ⟨lower, hlower, hlow, rfl, rfl⟩)
        · exact .inl ⟨rfl, rfl⟩
      · exact .inl ⟨rfl, rfl⟩
    · next hlow =>
      dsimp only
      split
      · next higher hhigher =>
        split
        · next hup =>
          split
          · exact .inr (.inr ⟨higher, hhigher, not_lt.mp hlow, hup, rfl, rfl⟩)
          · exact .inl ⟨rfl, rfl⟩
        · exact .inl ⟨rfl, rfl⟩
      · exact .inl ⟨rfl, rfl⟩

/-- The decisions of successive evaluations, each with the tier it was taken at. -/
def decisions : AbrController → List (Nat × ℚ) → List (QualityTier × AbrDecision)
  | _, [] => []
  | abr, (now, x) :: rest =>
    (abr.currentTier, (abr.evaluate now x).1) :: decisions (abr.evaluate now x).2 rest

/-- The controller after successive evaluations. -/
def after : AbrController → List (Nat × ℚ) → AbrController
  | abr, [] => abr
  | abr, (now, x) :: rest => after (abr.evaluate now x).2 rest

theorem decisions_append (abr : AbrController) (as bs : List (Nat × ℚ)) :
    decisions abr (as ++ bs) = decisions abr as ++ decisions (after abr as) bs := by
  induction as generalizing abr with
  | nil => rfl
  | cons a as ih => exact congrArg _ (ih _)

theorem after_append (abr : AbrController) (as bs : List (Nat × ℚ)) :
    after abr (as ++ bs) = after (after abr as) bs := by
  induction as generalizing abr with
  | nil => rfl
  | cons a as ih => exact ih _

end AbrController

open AbrController

/-- A decision that raises the tier it was taken at. -/
def IsUpgrade (d : QualityTier × AbrDecision) : Prop := ∃ tier, d.2 = .changeTo tier ∧ d.1 < tier

/-- A decision that lowers the tier it was taken at. -/
def IsDowngrade (d : QualityTier × AbrDecision) : Prop := ∃ tier, d.2 = .changeTo tier ∧ tier < d.1

/-- A sequence of decisions that does not contain both an upgrade and a downgrade. -/
def MonotoneDecisions (ds : List (QualityTier × AbrDecision)) : Prop :=
  (∀ d ∈ ds, ¬ IsUpgrade d) ∨ (∀ d ∈ ds, ¬ IsDowngrade d)

/-- Evaluation times in order, none before `start`. -/
def Nondecreasing (start : Nat) (times : List Nat) : Prop :=
  (start :: times).Pairwise (· ≤ ·)

/-- The decisions of a new controller evaluated at the given times under a constant
throughput. -/
def constantRun (config : AbrConfig) (tier : QualityTier) (start : Nat) (x : ℚ)
    (times : List Nat) : List (QualityTier × AbrDecision) :=
  decisions (newAt config tier start) (times.map fun t => (t, x))

/-- Throughputs enough to leave some tier upwards and too little for the tier above it. -/
def OscillationBand (x : ℚ) : Prop :=
  ∃ tier higher : QualityTier, tier.higher = some higher ∧
    tier.upgradeThresh ≤ x ∧ x < higher.downgradeThresholdBps

/-- The band in numbers. -/
theorem oscillationBand_iff {x : ℚ} :
    OscillationBand x ↔ (450000 ≤ x ∧ x < 500000) ∨ (900000 ≤ x ∧ x < 1000000) ∨
      (1800000 ≤ x ∧ x < 2000000) := by
  constructor
  · rintro ⟨tier, higher, hhigher, hlo, hhi⟩
    cases tier <;> cases hhigher <;>
      norm_num [QualityTier.upgradeThresh, QualityTier.downgradeThresholdBps,
        QualityTier.bitrateBps] at hlo hhi
    · exact .inl ⟨hlo, hhi⟩
    · exact .inr (.inl ⟨hlo, hhi⟩)
    · exact .inr (.inr ⟨hlo, hhi⟩)
  · rintro (⟨hlo, hhi⟩ | ⟨hlo, hhi⟩ | ⟨hlo, hhi⟩)
    · exact ⟨.minimum, .low, rfl,
        by norm_num [QualityTier.upgradeThresh, QualityTier.bitrateBps, hlo],
        by norm_num [QualityTier.downgradeThresholdBps, QualityTier.bitrateBps, hhi]⟩
    · exact ⟨.low, .medium, rfl,
        by norm_num [QualityTier.upgradeThresh, QualityTier.bitrateBps, hlo],
        by norm_num [QualityTier.downgradeThresholdBps, QualityTier.bitrateBps, hhi]⟩
    · exact ⟨.medium, .high, rfl,
        by norm_num [QualityTier.upgradeThresh, QualityTier.bitrateBps, hlo],
        by norm_num [QualityTier.downgradeThresholdBps, QualityTier.bitrateBps, hhi]⟩

/-! ## Outside the band every run is monotone -/

/-- Once the throughput holds the current tier, no downgrade follows. -/
theorem no_downgrade {x : ℚ} (hband : ¬ OscillationBand x) {abr : AbrController}
    (h : abr.currentTier.downgradeThresholdBps ≤ x) (times : List Nat) :
    ∀ d ∈ decisions abr (times.map fun t => (t, x)), ¬ IsDowngrade d := by
  induction times generalizing abr with
  | nil =>
    intro d hd
    cases hd
  | cons now times ih =>
    refine List.forall_mem_cons.mpr ?_
    rcases evaluate_cases abr now x with ⟨hdec, htier⟩ | ⟨lower, -, hlt, -, -⟩ |
      ⟨higher, hhigher, -, hup, hdec, htier⟩
    · refine ⟨?_, ih (htier ▸ h)⟩
      rintro ⟨tier, heq, -⟩
      rw [hdec] at heq
      cases heq
    · exact absurd hlt (not_lt.mpr h)
    · -- outside the band the throughput holds the next tier too
      have hnext : higher.downgradeThresholdBps ≤ x := by
        by_contra hlt
        exact hband ⟨_, higher, hhigher, hup, not_le.mp hlt⟩
      refine ⟨?_, ih (htier ▸ hnext)⟩
      rintro ⟨tier, heq, hlt⟩
      rw [hdec] at heq
      cases heq
      exact Nat.lt_asymm hlt (QualityTier.lt_of_higher hhigher)

/-- While the throughput is short of the current tier's upgrade threshold, no upgrade
follows: a downgrade only moves to a tier whose upgrade threshold is out of reach too. -/
theorem no_upgrade {x : ℚ} (hband : ¬ OscillationBand x) {abr : AbrController}
    (h : x < abr.currentTier.upgradeThresh) (times : List Nat) :
    ∀ d ∈ decisions abr (times.map fun t => (t, x)), ¬ IsUpgrade d := by
  induction times generalizing abr with
  | nil =>
    intro d hd
    cases hd
  | cons now times ih =>
    refine List.forall_mem_cons.mpr ?_
    rcases evaluate_cases abr now x with ⟨hdec, htier⟩ | ⟨lower, hlower, hlt, hdec, htier⟩ |
      ⟨higher, -, -, hup, -, -⟩
    · refine ⟨?_, ih (htier ▸ h)⟩
      rintro ⟨tier, heq, -⟩
      rw [hdec] at heq
      cases heq
    · -- outside the band it is short of the lower tier's threshold too
      have hnext : x < lower.upgradeThresh := by
        by_contra hle
        exact hband ⟨lower, _, QualityTier.higher_of_lower hlower, not_lt.mp hle, hlt⟩
      refine ⟨?_, ih (htier ▸ hnext)⟩
      rintro ⟨tier, heq, hgt⟩
      rw [hdec] at heq
      cases heq
      exact Nat.lt_asymm hgt (QualityTier.lt_of_lower hlower)
    · exact absurd h (not_lt.mpr hup)

/-! ## Inside the band every controller can be made to turn around -/

/-- A controller with no pressure timer running: what construction and every tier change
leave behind. -/
structure AbrController.Fresh (abr : AbrController) : Prop where
  downgrade : abr.downgradePressureSince = none
  upgrade : abr.upgradePressureSince = none

/-- `b` is reached from `a` by evaluations under throughput `x`, at times in order between
their last changes, with decisions `ds`. -/
structure Drives (x : ℚ) (a b : AbrController) (ds : List (QualityTier × AbrDecision)) :
    Prop where
  exists_times : ∃ times : List Nat, Nondecreasing a.lastChange times ∧
    (∀ t ∈ a.lastChange :: times, t ≤ b.lastChange) ∧
    decisions a (times.map fun t => (t, x)) = ds ∧ after a (times.map fun t => (t, x)) = b

theorem Drives.refl (x : ℚ) (a : AbrController) : Drives x a a [] :=
  ⟨[], List.pairwise_singleton _ _, by simp, rfl, rfl⟩

theorem Drives.trans {x : ℚ} {a b c : AbrController}
    {ds es : List (QualityTier × AbrDecision)} (hab : Drives x a b ds) (hbc : Drives x b c es) :
    Drives x a c (ds ++ es) := by
  obtain ⟨ts, hts, htsb, rfl, hb⟩ := hab
  obtain ⟨us, hus, husc, rfl, hc⟩ := hbc
  have hbc : b.lastChange ≤ c.lastChange := husc _ List.mem_cons_self
  refine ⟨ts ++ us, ?_, ?_, ?_, ?_⟩
  · show ((a.lastChange :: ts) ++ us).Pairwise (· ≤ ·)
    refine List.pairwise_append.mpr ⟨hts, (List.pairwise_cons.mp hus).2, ?_⟩
    intro t ht u hu
    exact (htsb t ht).trans ((List.pairwise_cons.mp hus).1 u hu)
  · intro t ht
    rcases List.mem_append.mp (show t ∈ (a.lastChange :: ts) ++ us from ht) with ht | ht
    · exact (htsb t ht).trans hbc
    · exact husc t (List.mem_cons_of_mem _ ht)
  · rw [List.map_append, decisions_append, hb]
  · rw [List.map_append, after_append, hb, hc]

/-- A single evaluation that changes the tier. -/
theorem drives_single {x : ℚ} {a b : AbrController} {now : Nat} {d : AbrDecision}
    (hle : a.lastChange ≤ now) (heval : a.evaluate now x = (d, b)) (hlast : b.lastChange = now) :
    Drives x a b [(a.currentTier, d)] := by
  refine ⟨[now], ?_, ?_, ?_, ?_⟩
  · exact List.pairwise_pair.mpr hle
  · intro t ht
    rw [hlast]
    rcases List.mem_cons.mp ht with rfl | ht
    · exact hle
    · exact Nat.le_of_eq (List.mem_singleton.mp ht)
  · simp only [List.map_cons, List.map_nil, decisions, heval]
  · simp only [List.map_cons, List.map_nil, after, heval]

/-- An evaluation that starts a pressure timer, and one that changes the tier. -/
theorem drives_pair {x : ℚ} {a w b : AbrController} {t₁ t₂ : Nat} {d₁ d₂ : AbrDecision}
    (hle₁ : a.lastChange ≤ t₁) (hle₂ : t₁ ≤ t₂) (heval₁ : a.evaluate t₁ x = (d₁, w))
    (heval₂ : w.evaluate t₂ x = (d₂, b)) (hlast : b.lastChange = t₂) :
    Drives x a b [(a.currentTier, d₁), (w.currentTier, d₂)] := by
  refine ⟨[t₁, t₂], ?_, ?_, ?_, ?_⟩
  · refine List.pairwise_cons.mpr ⟨fun t ht => ?_, List.pairwise_pair.mpr hle₂⟩
    rcases List.mem_cons.mp ht with rfl | ht
    · exact hle₁
    · exact List.mem_singleton.mp ht ▸ hle₁.trans hle₂
  · intro t ht
    rw [hlast]
    rcases List.mem_cons.mp ht with rfl | ht
    · exact hle₁.trans hle₂
    · rcases List.mem_cons.mp ht with rfl | ht
      · exact hle₂
      · exact Nat.le_of_eq (List.mem_singleton.mp ht)
  · simp only [List.map_cons, List.map_nil, decisions, heval₁, heval₂]
  · simp only [List.map_cons, List.map_nil, after, heval₁, heval₂]

/-- Under the downgrade threshold, a fresh controller can be driven one tier down. -/
theorem drives_down {x : ℚ} {a : AbrController} {lower : QualityTier} (hfresh : a.Fresh)
    (hlower : a.currentTier.lower = some lower) (hx : x < a.currentTier.downgradeThresholdBps) :
    ∃ b ds, Drives x a b ds ∧ b.Fresh ∧ b.currentTier = lower ∧
      (a.currentTier, .changeTo lower) ∈ ds := by
  obtain ⟨hdown, -⟩ := hfresh
  have hcool : ¬ a.lastChange + a.config.cooldown - a.lastChange < a.config.cooldown := by omega
  by_cases hzero : a.config.downgradeAfter = 0
  · have heval : a.evaluate (a.lastChange + a.config.cooldown) x = (.changeTo lower,
        { a with
          currentTier := lower, downgradePressureSince := none, upgradePressureSince := none
          lastChange := a.lastChange + a.config.cooldown }) := by
      simp only [evaluate, if_neg hcool, if_pos hx, hdown, Option.getD_none, hzero,
        Nat.zero_le, if_true, hlower]
    exact ⟨_, _, drives_single (Nat.le_add_right _ _) heval rfl, ⟨rfl, rfl⟩, rfl,
      List.mem_singleton_self _⟩
  · -- one evaluation starts the timer, a second one finds it expired
    have hwait : a.evaluate (a.lastChange + a.config.cooldown) x = (.hold,
        { a with
          downgradePressureSince := some (a.lastChange + a.config.cooldown)
          upgradePressureSince := none }) := by
      have hshort : ¬ a.config.downgradeAfter ≤ 0 := by omega
      simp only [evaluate, if_neg hcool, if_pos hx, hdown, Option.getD_none, Nat.sub_self,
        if_neg hshort]
    have hfire : evaluate { a with
          downgradePressureSince := some (a.lastChange + a.config.cooldown)
          upgradePressureSince := none }
        (a.lastChange + a.config.cooldown + a.config.downgradeAfter) x = (.changeTo lower,
        { a with
          currentTier := lower, downgradePressureSince := none, upgradePressureSince := none
          lastChange := a.lastChange + a.config.cooldown + a.config.downgradeAfter }) := by
      have hcool' : ¬ a.lastChange + a.config.cooldown + a.config.downgradeAfter - a.lastChange <
          a.config.cooldown := by omega
      simp only [evaluate, if_neg hcool', if_pos hx, Option.getD_some, Nat.add_sub_cancel_left,
        Nat.le_refl, if_true, hlower]
    exact ⟨_, _, drives_pair (Nat.le_add_right _ _) (Nat.le_add_right _ _) hwait hfire rfl,
      ⟨rfl, rfl⟩, rfl, List.mem_cons_of_mem _ (List.mem_singleton_self _)⟩

/-- At or over both thresholds, a fresh controller can be driven one tier up. -/
theorem drives_up {x : ℚ} {a : AbrController} {higher : QualityTier} (hfresh : a.Fresh)
    (hhigher : a.currentTier.higher = some higher) (hx : a.currentTier.upgradeThresh ≤ x) :
    ∃ b ds, Drives x a b ds ∧ b.Fresh ∧ b.currentTier = higher ∧
      (a.currentTier, .changeTo higher) ∈ ds := by
  obtain ⟨-, hup⟩ := hfresh
  have hhold : ¬ x < a.currentTier.downgradeThresholdBps :=
    not_lt.mpr ((QualityTier.downgrade_lt_upgrade _).le.trans hx)
  have hcool : ¬ a.lastChange + a.config.cooldown - a.lastChange < a.config.cooldown := by omega
  by_cases hzero : a.config.upgradeAfter = 0
  · have heval : a.evaluate (a.lastChange + a.config.cooldown) x = (.changeTo higher,
        { a with
          currentTier := higher, downgradePressureSince := none, upgradePressureSince := none
          lastChange := a.lastChange + a.config.cooldown }) := by
      simp only [evaluate, if_neg hcool, if_neg hhold, hhigher, if_pos hx, hup,
        Option.getD_none, hzero, Nat.zero_le, if_true]
    exact ⟨_, _, drives_single (Nat.le_add_right _ _) heval rfl, ⟨rfl, rfl⟩, rfl,
      List.mem_singleton_self _⟩
  · -- one evaluation starts the timer, a second one finds it expired
    have hwait : a.evaluate (a.lastChange + a.config.cooldown) x = (.hold,
        { a with
          downgradePressureSince := none
          upgradePressureSince := some (a.lastChange + a.config.cooldown) }) := by
      have hshort : ¬ a.config.upgradeAfter ≤ 0 := by omega
      simp only [evaluate, if_neg hcool, if_neg hhold, hhigher, if_pos hx, hup,
        Option.getD_none, Nat.sub_self, if_neg hshort]
    have hfire : evaluate { a with
          downgradePressureSince := none
          upgradePressureSince := some (a.lastChange + a.config.cooldown) }
        (a.lastChange + a.config.cooldown + a.config.upgradeAfter) x = (.changeTo higher,
        { a with
          currentTier := higher, downgradePressureSince := none, upgradePressureSince := none
          lastChange := a.lastChange + a.config.cooldown + a.config.upgradeAfter }) := by
      have hcool' : ¬ a.lastChange + a.config.cooldown + a.config.upgradeAfter - a.lastChange <
          a.config.cooldown := by omega
      simp only [evaluate, if_neg hcool', if_neg hhold, hhigher, if_pos hx, Option.getD_some,
        Nat.add_sub_cancel_left, Nat.le_refl, if_true]
    exact ⟨_, _, drives_pair (Nat.le_add_right _ _) (Nat.le_add_right _ _) hwait hfire rfl,
      ⟨rfl, rfl⟩, rfl, List.mem_cons_of_mem _ (List.mem_singleton_self _)⟩

/-- From below, a fresh controller can be driven up to any tier it has the throughput for.
By induction on the number of tiers still to climb. -/
theorem drives_up_to {x : ℚ} {tier : QualityTier} (hx : tier.upgradeThresh ≤ x) :
    ∀ (n : Nat) {a : AbrController}, a.Fresh → a.currentTier ≤ tier →
      tier.rank - a.currentTier.rank ≤ n → ∃ b ds, Drives x a b ds ∧ b.Fresh ∧ b.currentTier = tier
  | n, a, hfresh, hle, hn => by
    by_cases hlt : a.currentTier < tier
    · obtain ⟨higher, hhigher⟩ := QualityTier.exists_higher_of_lt hlt
      obtain ⟨b, ds, hab, hb, hbt, -⟩ := drives_up hfresh hhigher
        ((QualityTier.upgradeThresh_mono hle).trans hx)
      have hstep : a.currentTier.rank < b.currentTier.rank :=
        hbt ▸ QualityTier.lt_of_higher hhigher
      have hpos : a.currentTier.rank < tier.rank := hlt
      cases n with
      | zero => omega
      | succ n =>
        obtain ⟨c, es, hbc, hc, hct⟩ := drives_up_to hx n hb
          (hbt ▸ QualityTier.le_of_higher_of_lt hhigher hlt) (by omega)
        exact ⟨c, _, hab.trans hbc, hc, hct⟩
    · exact ⟨a, [], Drives.refl x a, hfresh, QualityTier.eq_of_le_of_not_lt hle hlt⟩

/-- From above, a fresh controller can be driven down to any tier whose downgrade threshold
is out of reach. -/
theorem drives_down_to {x : ℚ} {tier : QualityTier} (hx : x < tier.downgradeThresholdBps) :
    ∀ (n : Nat) {a : AbrController}, a.Fresh → tier ≤ a.currentTier →
      a.currentTier.rank - tier.rank ≤ n → ∃ b ds, Drives x a b ds ∧ b.Fresh ∧ b.currentTier = tier
  | n, a, hfresh, hle, hn => by
    by_cases hlt : tier < a.currentTier
    · obtain ⟨lower, hlower⟩ := QualityTier.exists_lower_of_lt hlt
      obtain ⟨b, ds, hab, hb, hbt, -⟩ := drives_down hfresh hlower
        (hx.trans_le (QualityTier.downgradeThresholdBps_mono hle))
      have hstep : b.currentTier.rank < a.currentTier.rank :=
        hbt ▸ QualityTier.lt_of_lower hlower
      have hpos : tier.rank < a.currentTier.rank := hlt
      cases n with
      | zero => omega
      | succ n =>
        obtain ⟨c, es, hbc, hc, hct⟩ := drives_down_to hx n hb
          (hbt ▸ QualityTier.le_of_lower_of_lt hlower hlt) (by omega)
        exact ⟨c, _, hab.trans hbc, hc, hct⟩
    · exact ⟨a, [], Drives.refl x a, hfresh, (QualityTier.eq_of_le_of_not_lt hle hlt).symm⟩

/-- In the band, every fresh controller can be driven through both an upgrade and a
downgrade: up to the tier below the gap and down again, or the other way round. -/
theorem exists_turnaround {x : ℚ} (hband : OscillationBand x) {a : AbrController}
    (hfresh : a.Fresh) :
    ∃ b ds, Drives x a b ds ∧ (∃ d ∈ ds, IsUpgrade d) ∧ (∃ d ∈ ds, IsDowngrade d) := by
  obtain ⟨tier, higher, hhigher, hlo, hhi⟩ := hband
  have hlower := QualityTier.lower_of_higher hhigher
  have hup : IsUpgrade (tier, .changeTo higher) := ⟨higher, rfl, QualityTier.lt_of_higher hhigher⟩
  have hdown : IsDowngrade (higher, .changeTo tier) :=
    ⟨tier, rfl, QualityTier.lt_of_lower hlower⟩
  by_cases hle : a.currentTier ≤ tier
  · obtain ⟨b, ds, hab, hb, rfl⟩ := drives_up_to hlo _ hfresh hle (Nat.le_refl _)
    obtain ⟨c, es, hbc, hc, rfl, hmem⟩ := drives_up hb hhigher hlo
    obtain ⟨e, fs, hce, -, -, hmem'⟩ := drives_down hc hlower hhi
    refine ⟨e, _, (hab.trans hbc).trans hce, ⟨_, ?_, hup⟩, ⟨_, ?_, hdown⟩⟩
    · exact List.mem_append_left _ (List.mem_append_right _ hmem)
    · exact List.mem_append_right _ hmem'
  · have hge : higher ≤ a.currentTier :=
      QualityTier.le_of_higher_of_lt hhigher (Nat.lt_of_not_le hle)
    obtain ⟨b, ds, hab, hb, rfl⟩ := drives_down_to hhi _ hfresh hge (Nat.le_refl _)
    obtain ⟨c, es, hbc, hc, rfl, hmem⟩ := drives_down hb hlower hhi
    obtain ⟨e, fs, hce, -, -, hmem'⟩ := drives_up hc hhigher hlo
    refine ⟨e, _, (hab.trans hbc).trans hce, ⟨_, ?_, hup⟩, ⟨_, ?_, hdown⟩⟩
    · exact List.mem_append_right _ hmem'
    · exact List.mem_append_left _ (List.mem_append_right _ hmem)

/-! ## Hysteresis -/

/-- **When the controller settles.** For every configuration and starting tier, runs under
the constant throughput `x` are monotone, whatever the evaluation times, exactly when `x`
is outside the band. -/
theorem monotone_iff_notMem_band (config : AbrConfig) (tier : QualityTier) (start : Nat)
    (x : ℚ) :
    (∀ times, Nondecreasing start times →
      MonotoneDecisions (constantRun config tier start x times)) ↔ ¬ OscillationBand x := by
  constructor
  · intro hmono hband
    obtain ⟨b, ds, ⟨times, htimes, -, rfl, -⟩, ⟨d, hd, hup⟩, ⟨d', hd', hdown⟩⟩ :=
      exists_turnaround hband (a := newAt config tier start) ⟨rfl, rfl⟩
    rcases hmono times htimes with h | h
    · exact h d hd hup
    · exact h d' hd' hdown
  · intro hband times _
    by_cases h : x < tier.downgradeThresholdBps
    · left
      have hshort : x < (newAt config tier start).currentTier.upgradeThresh :=
        h.trans (QualityTier.downgrade_lt_upgrade tier)
      exact no_upgrade hband hshort times
    · right
      have hholds : (newAt config tier start).currentTier.downgradeThresholdBps ≤ x :=
        not_lt.mp h
      exact no_downgrade hband hholds times

/-- With the default configuration, 950 kbps makes a controller starting at `low` upgrade
and, 8 s later, downgrade again. -/
theorem constantRun_oscillates :
    Nondecreasing 0 [5000000000, 20000000000, 25000000000, 28000000000] ∧
      ¬ MonotoneDecisions (constantRun AbrConfig.default .low 0 950000
        [5000000000, 20000000000, 25000000000, 28000000000]) := by
  have hrun : constantRun AbrConfig.default .low 0 950000
      [5000000000, 20000000000, 25000000000, 28000000000] =
      [(.low, .hold), (.low, .changeTo .medium), (.medium, .hold), (.medium, .changeTo .low)] := by
    decide +kernel
  refine ⟨by unfold Nondecreasing; decide, ?_⟩
  rw [hrun]
  rintro (h | h)
  · exact h (.low, .changeTo .medium) (by decide) ⟨.medium, rfl, by decide⟩
  · exact h (.medium, .changeTo .low) (by decide) ⟨.low, rfl, by decide⟩

end Kodama
