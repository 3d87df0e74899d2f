import Kodama.Capture.Abr
import Kodama.Lib.Machine
import Kodama.Lib.Positions

/-!
# Tier changes need sustained pressure (crates/kodama/src/capture/abr.rs)

A run of the controller keeps what each call found and decided. A pressure timer that is set
is the time of a call from which on all calls were outside the cooldown, at the same tier and
on the same side of its threshold (`Timed`): a recovery, the cooldown and a tier change all
leave no timer behind. So every change of a run is `Justified`.
-/

namespace Kodama

open Lib Lib.Machine

/-- A call of `evaluate`: the controller it found, its time, its argument and its decision. -/
structure AbrCall where
  found : AbrController
  now : Nat
  throughputBps : ℚ
  decision : AbrDecision

namespace AbrCall

/-- The cooldown after the last change was over. -/
def OutsideCooldown (call : AbrCall) : Prop :=
  call.found.config.cooldown ≤ call.now - call.found.lastChange

/-- Outside the cooldown, at the tier, with a throughput of the kind. -/
def Pressed (tier : QualityTier) (kind : ℚ → Prop) (call : AbrCall) : Prop :=
  call.found.currentTier = tier ∧ call.OutsideCooldown ∧ kind call.throughputBps

end AbrCall

/-- The time of the last change, or else of the construction. -/
def lastChangeIn (start : Nat) (calls : List AbrCall) : Nat :=
  ((calls.filter fun call => decide (call.decision ≠ .hold)).getLast?.map AbrCall.now).getD start

/-- All calls from one at a time on, up to the last one, were pressed. -/
def Sustained (calls : List AbrCall) (tier : QualityTier) (kind : ℚ → Prop) (since : Nat) : Prop :=
  ∃ earlier first rest, calls = earlier ++ first :: rest ∧ first.now = since ∧
    ∀ call ∈ first :: rest, call.Pressed tier kind

/-- What a call may do after the calls before it: a change comes at least the cooldown after
every earlier one, moves by one tier, and only under pressure that was sustained for as long as
the configuration asks. -/
structure Justified (config : AbrConfig) (start : Nat) (earlier : List AbrCall) (call : AbrCall) :
    Prop where
  config_eq : call.found.config = config
  lastChange : call.found.lastChange = lastChangeIn start earlier
  apart : ∀ tier, call.decision = .changeTo tier → start + config.cooldown ≤ call.now ∧
    ∀ other ∈ earlier, other.decision ≠ .hold → other.now + config.cooldown ≤ call.now
  pressed : ∀ tier, call.decision = .changeTo tier →
    (call.found.currentTier.lower = some tier ∧ ∃ since, since + config.downgradeAfter ≤ call.now ∧
      Sustained (earlier ++ [call]) call.found.currentTier
        (· < call.found.currentTier.downgradeThresholdBps) since) ∨
    (call.found.currentTier.higher = some tier ∧ ∃ since, since + config.upgradeAfter ≤ call.now ∧
      Sustained (earlier ++ [call]) call.found.currentTier
        (call.found.currentTier.upgradeThresh ≤ ·) since)

/-- A controller with the time of its last call and all calls so far. -/
structure AbrRun where
  abr : AbrController
  clock : Nat
  calls : List AbrCall := []

namespace AbrRun

/-- `AbrController::new_at`. -/
def start (config : AbrConfig) (tier : QualityTier) (now : Nat) : AbrRun where
  abr := .newAt config tier now
  clock := now

/-- A call of `evaluate` with a throughput, at a time that is not before the last one. -/
def step (self : AbrRun) (event : Nat × ℚ) : Option AbrRun :=
  if event.1 < self.clock then none
  else some
    { abr := (self.abr.evaluate event.1 event.2).2
      clock := event.1
      calls := self.calls ++ [⟨self.abr, event.1, event.2, (self.abr.evaluate event.1 event.2).1⟩] }

end AbrRun

namespace AbrController

/-- Everything one evaluation can do, with the timers. -/
inductive Outcome (abr : AbrController) (now : Nat) (x : ℚ) : AbrDecision × AbrController → Prop
  | cooldown (hcool : now - abr.lastChange < abr.config.cooldown) : Outcome abr now x (.hold, abr)
  | holdLow (hout : abr.config.cooldown ≤ now - abr.lastChange)
      (hlow : x < abr.currentTier.downgradeThresholdBps) : Outcome abr now x
      (.hold, { abr with
        upgradePressureSince := none
        downgradePressureSince := some (abr.downgradePressureSince.getD now) })
  | downgrade (lower : QualityTier) (hout : abr.config.cooldown ≤ now - abr.lastChange)
      (hlow : x < abr.currentTier.downgradeThresholdBps)
      (hlower : abr.currentTier.lower = some lower)
      (hlong : abr.config.downgradeAfter ≤ now - abr.downgradePressureSince.getD now) :
      Outcome abr now x (.changeTo lower, { abr with
        currentTier := lower, lastChange := now
        upgradePressureSince := none, downgradePressureSince := none })
  | holdTop (hout : abr.config.cooldown ≤ now - abr.lastChange)
      (htop : abr.currentTier.higher = none) :
      Outcome abr now x (.hold, { abr with downgradePressureSince := none })
  | holdHigh (higher : QualityTier) (hout : abr.config.cooldown ≤ now - abr.lastChange)
      (hhigh : abr.currentTier.upgradeThresh ≤ x) (hhigher : abr.currentTier.higher = some higher) :
      Outcome abr now x (.hold, { abr with
        downgradePressureSince := none
        upgradePressureSince := some (abr.upgradePressureSince.getD now) })
  | upgrade (higher : QualityTier) (hout : abr.config.cooldown ≤ now - abr.lastChange)
      (hhigh : abr.currentTier.upgradeThresh ≤ x) (hhigher : abr.currentTier.higher = some higher)
      (hlong : abr.config.upgradeAfter ≤ now - abr.upgradePressureSince.getD now) :
      Outcome abr now x (.changeTo higher, { abr with
        currentTier := higher, lastChange := now
        downgradePressureSince := none, upgradePressureSince := none })
  | holdBetween (hout : abr.config.cooldown ≤ now - abr.lastChange) : Outcome abr now x
      (.hold, { abr with downgradePressureSince := none, upgradePressureSince := none })

theorem evaluate_outcome (abr : AbrController) (now : Nat) (x : ℚ) :
    Outcome abr now x (abr.evaluate now x) := by
  unfold evaluate
  split
  · next hcool => exact .cooldown hcool
  · next hcool =>
    have hout := Nat.le_of_not_lt hcool
    split
    · next hlow =>
      dsimp only
      split
      · next hlong =>
        split
        · next lower hlower => exact .downgrade lower hout hlow hlower hlong
        · exact .holdLow hout hlow
      · exact .holdLow hout hlow
    · dsimp only
      split
      · next higher hhigher =>
        split
        · next hhigh =>
          split
          · next hlong => exact .upgrade higher hout hhigh hhigher hlong
          · exact .holdHigh higher hout hhigh hhigher
        · exact .holdBetween hout
      · next htop => exact .holdTop hout htop

end AbrController

namespace AbrRun

variable {config : AbrConfig} {start : Nat} {t u : AbrRun} {event : Nat × ℚ}
  {calls : List AbrCall} {call : AbrCall} {tier : QualityTier} {kind : ℚ → Prop} {since : Nat}

/-! ## Sustained pressure -/

/-- A call under pressure starts a timer that is not set, and goes on with one that is. -/
theorem sustained_getD {timer : Option Nat}
    (h : ∀ since, timer = some since → Sustained calls tier kind since)
    (hcall : call.Pressed tier kind) :
    Sustained (calls ++ [call]) tier kind (timer.getD call.now) := by
  cases timer with
  | none =>
    refine ⟨calls, call, [], rfl, rfl, fun c hc => ?_⟩
    rw [List.mem_singleton.mp hc]
    exact hcall
  | some since =>
    obtain ⟨earlier, first, rest, rfl, hfirst, hpressed⟩ := h since rfl
    refine ⟨earlier, first, rest ++ [call], ?_, hfirst, ?_⟩
    · rw [List.append_assoc, List.cons_append]
    · rw [← List.cons_append, List.forall_mem_append]
      exact ⟨hpressed, fun c hc => List.mem_singleton.mp hc ▸ hcall⟩

/-- A timer was set at a call. -/
theorem exists_call_of_sustained (h : Sustained calls tier kind since) :
    ∃ call ∈ calls, call.now = since := by
  obtain ⟨earlier, first, rest, rfl, hfirst, -⟩ := h
  exact ⟨first, List.mem_append_right _ List.mem_cons_self, hfirst⟩

theorem lastChangeIn_snoc : lastChangeIn start (calls ++ [call]) =
    if call.decision = .hold then lastChangeIn start calls else call.now := by
  rw [lastChangeIn, getLast?_filter_snoc]
  by_cases hhold : call.decision = .hold
  · simp [hhold, lastChangeIn]
  · simp [hhold]

/-! ## The invariant -/

/-- The last change, and the calls before it. -/
structure Clocked (config : AbrConfig) (start : Nat) (t : AbrRun) : Prop where
  config_eq : t.abr.config = config
  lastChange : t.abr.lastChange = lastChangeIn start t.calls
  start_le : start ≤ t.abr.lastChange
  changes : ∀ call ∈ t.calls, call.decision ≠ .hold → call.now ≤ t.abr.lastChange
  lastChange_le : t.abr.lastChange ≤ t.clock
  clock : ∀ call ∈ t.calls, call.now ≤ t.clock

/-- What a timer that is set says. -/
structure Timed (t : AbrRun) : Prop where
  outside : t.abr.downgradePressureSince ≠ none ∨ t.abr.upgradePressureSince ≠ none →
    t.abr.config.cooldown ≤ t.clock - t.abr.lastChange
  top : t.abr.currentTier.higher = none → t.abr.upgradePressureSince = none
  down : ∀ since, t.abr.downgradePressureSince = some since →
    Sustained t.calls t.abr.currentTier (· < t.abr.currentTier.downgradeThresholdBps) since
  up : ∀ since, t.abr.upgradePressureSince = some since →
    Sustained t.calls t.abr.currentTier (t.abr.currentTier.upgradeThresh ≤ ·) since

/-- No timer is set: after the construction and every change, and in the cooldown. -/
theorem timed_of_none (hdown : t.abr.downgradePressureSince = none)
    (hup : t.abr.upgradePressureSince = none) : Timed t := by
  refine ⟨fun h => ?_, fun _ => hup, fun since h => ?_, fun since h => ?_⟩
  · rw [hdown, hup] at h
    simp at h
  · rw [hdown] at h
    cases h
  · rw [hup] at h
    cases h

theorem step_eq_some (hstep : step t event = some u) : t.clock ≤ event.1 ∧
    u = ⟨(t.abr.evaluate event.1 event.2).2, event.1,
      t.calls ++ [⟨t.abr, event.1, event.2, (t.abr.evaluate event.1 event.2).1⟩]⟩ := by
  unfold step at hstep
  split at hstep
  · cases hstep
  · next h => exact ⟨Nat.le_of_not_lt h, (Option.some.inj hstep).symm⟩

/-- An evaluation holds, or makes this the time of the last change. -/
theorem lastChange_evaluate (abr : AbrController) (now : Nat) (x : ℚ) :
    (abr.evaluate now x).2.config = abr.config ∧
    (((abr.evaluate now x).1 = .hold ∧ (abr.evaluate now x).2.lastChange = abr.lastChange) ∨
      ((abr.evaluate now x).1 ≠ .hold ∧ (abr.evaluate now x).2.lastChange = now)) := by
  have houtcome := abr.evaluate_outcome now x
  generalize abr.evaluate now x = result at houtcome
  cases houtcome with
  | downgrade => exact ⟨rfl, .inr ⟨by simp, rfl⟩⟩
  | upgrade => exact ⟨rfl, .inr ⟨by simp, rfl⟩⟩
  | _ => exact ⟨rfl, .inl ⟨rfl, rfl⟩⟩

theorem Clocked.step (h : Clocked config start t) (hstep : AbrRun.step t event = some u) :
    Clocked config start u := by
  obtain ⟨hclock, rfl⟩ := step_eq_some hstep
  obtain ⟨hconfig, hchange⟩ := lastChange_evaluate t.abr event.1 event.2
  have hclocks : ∀ call ∈ t.calls, call.now ≤ event.1 :=
    fun call hcall => Nat.le_trans (h.clock call hcall) hclock
  have hlastLe := Nat.le_trans h.lastChange_le hclock
  rcases hchange with ⟨hhold, hlast⟩ | ⟨hhold, hlast⟩
  · refine ⟨hconfig.trans h.config_eq, ?_, ?_, ?_, ?_, ?_⟩
    · rw [lastChangeIn_snoc, if_pos hhold, hlast, h.lastChange]
    · exact h.start_le.trans_eq hlast.symm
    · rw [List.forall_mem_append, List.forall_mem_singleton, hlast]
      exact ⟨h.changes, fun hne => absurd hhold hne⟩
    · exact hlast.trans_le hlastLe
    · rw [List.forall_mem_append, List.forall_mem_singleton]
      exact ⟨hclocks, Nat.le_refl _⟩
  · refine ⟨hconfig.trans h.config_eq, ?_, ?_, ?_, Nat.le_of_eq hlast, ?_⟩
    · rw [lastChangeIn_snoc, if_neg hhold, hlast]
    · exact (Nat.le_trans h.start_le hlastLe).trans_eq hlast.symm
    · rw [List.forall_mem_append, List.forall_mem_singleton, hlast]
      exact ⟨fun call hcall _ => hclocks call hcall, fun _ => Nat.le_refl _⟩
    · rw [List.forall_mem_append, List.forall_mem_singleton]
      exact ⟨hclocks, Nat.le_refl _⟩

/-- A recovery, the cooldown and a change leave no timer of the other side, or none at all. -/
theorem Timed.step (h : Timed t) (hstep : AbrRun.step t event = some u) : Timed u := by
  obtain ⟨hclock, rfl⟩ := step_eq_some hstep
  obtain ⟨now, x⟩ := event
  have houtcome := t.abr.evaluate_outcome now x
  dsimp only at houtcome hclock ⊢
  generalize t.abr.evaluate now x = result at houtcome ⊢
  cases houtcome with
  | cooldown hcool =>
    -- a timer that is set would say that the cooldown is over
    have hnone : ¬ (t.abr.downgradePressureSince ≠ none ∨ t.abr.upgradePressureSince ≠ none) := by
      intro hset
      have houtside := h.outside hset
      omega
    rw [not_or, not_not, not_not] at hnone
    exact timed_of_none hnone.1 hnone.2
  | holdLow hout hlow =>
    refine ⟨fun _ => hout, fun _ => rfl, ?_, fun since hsince => (by cases hsince)⟩
    rintro since ⟨⟩
    exact sustained_getD h.down ⟨rfl, hout, hlow⟩
  | downgrade lower hout hlow hlower hlong => exact timed_of_none rfl rfl
  | holdTop hout htop => exact timed_of_none rfl (h.top htop)
  | holdHigh higher hout hhigh hhigher =>
    refine ⟨fun _ => hout, fun htop => ?_, fun since hsince => (by cases hsince), ?_⟩
    · exact absurd (hhigher.symm.trans htop) (by simp)
    · rintro since ⟨⟩
      exact sustained_getD h.up ⟨rfl, hout, hhigh⟩
  | upgrade higher hout hhigh hhigher hlong => exact timed_of_none rfl rfl
  | holdBetween hout => exact timed_of_none rfl rfl

/-- A timer does not run ahead of the clock. -/
theorem getD_le_clock {timer : Option Nat} {now : Nat} (hclocked : Clocked config start t)
    (hclock : t.clock ≤ now) (h : ∀ since, timer = some since → Sustained t.calls tier kind since) :
    timer.getD now ≤ now := by
  cases timer with
  | none => exact Nat.le_refl _
  | some since =>
    obtain ⟨call, hcall, rfl⟩ := exists_call_of_sustained (h since rfl)
    exact Nat.le_trans (hclocked.clock call hcall) hclock

theorem justified_step (hclocked : Clocked config start t) (htimed : Timed t)
    {now : Nat} {x : ℚ} (hclock : t.clock ≤ now) :
    Justified config start t.calls ⟨t.abr, now, x, (t.abr.evaluate now x).1⟩ := by
  have hlastLe := Nat.le_trans hclocked.lastChange_le hclock
  have hstart := hclocked.start_le
  have hconfig := hclocked.config_eq
  have hapart (hout : t.abr.config.cooldown ≤ now - t.abr.lastChange) :
      start + config.cooldown ≤ now ∧
        ∀ other ∈ t.calls, other.decision ≠ .hold → other.now + config.cooldown ≤ now := by
    rw [hconfig] at hout
    refine ⟨by omega, fun other hother hne => ?_⟩
    have hchange := hclocked.changes other hother hne
    omega
  have houtcome := t.abr.evaluate_outcome now x
  generalize t.abr.evaluate now x = result at houtcome
  cases houtcome with
  | downgrade lower hout hlow hlower hlong =>
    refine ⟨hconfig, hclocked.lastChange, fun _ _ => hapart hout, ?_⟩
    rintro tier ⟨⟩
    have hle := getD_le_clock hclocked hclock htimed.down
    rw [hconfig] at hlong
    have hlong : t.abr.downgradePressureSince.getD now + config.downgradeAfter ≤ now := by omega
    exact .inl ⟨hlower, _, hlong, sustained_getD htimed.down ⟨rfl, hout, hlow⟩⟩
  | upgrade higher hout hhigh hhigher hlong =>
    refine ⟨hconfig, hclocked.lastChange, fun _ _ => hapart hout, ?_⟩
    rintro tier ⟨⟩
    have hle := getD_le_clock hclocked hclock htimed.up
    rw [hconfig] at hlong
    have hlong : t.abr.upgradePressureSince.getD now + config.upgradeAfter ≤ now := by omega
    exact .inr ⟨hhigher, _, hlong, sustained_getD htimed.up ⟨rfl, hout, hhigh⟩⟩
  | _ =>
    exact ⟨hconfig, hclocked.lastChange, fun _ h => (by cases h), fun _ h => (by cases h)⟩

theorem clocked_start (config : AbrConfig) (tier : QualityTier) (now : Nat) :
    Clocked config now (AbrRun.start config tier now) :=
  ⟨rfl, rfl, Nat.le_refl _, fun _ h => (by cases h), Nat.le_refl _, fun _ h => (by cases h)⟩

/-- Every call so far was justified by those before it. -/
def AllJustified (config : AbrConfig) (start : Nat) (t : AbrRun) : Prop :=
  ∀ earlier call later, t.calls = earlier ++ call :: later → Justified config start earlier call

/-- **Tier changes need sustained pressure.** In every run of a new controller, every change is
justified by the calls up to it. -/
theorem changes_justified (config : AbrConfig) (tier : QualityTier) (now : Nat)
    (events : List (Nat × ℚ)) :
    Always AbrRun.step (AllJustified config now) (AbrRun.start config tier now) events := by
  have hstart : AllJustified config now (AbrRun.start config tier now) := by
    intro earlier call later h
    cases earlier <;> cases h
  have hinv : Always AbrRun.step
      (fun t => (Clocked config now t ∧ Timed t) ∧ AllJustified config now t)
      (AbrRun.start config tier now) events := by
    refine always_of_step ⟨⟨clocked_start config tier now, timed_of_none rfl rfl⟩, hstart⟩ ?_ events
    rintro t event u ⟨⟨hclocked, htimed⟩, hjustified⟩ hstep
    refine ⟨⟨hclocked.step hstep, htimed.step hstep⟩, ?_⟩
    obtain ⟨hclock, rfl⟩ := step_eq_some hstep
    exact forall_split_snoc hjustified (justified_step hclocked htimed hclock)
  exact hinv.mono fun _ h => h.2

end AbrRun

end Kodama
