import Kodama.Server.CameraLoop

/-!
# The memory budget of a camera connection (server/rate_limit.rs, server/router.rs)

A limiter adds the size of a frame that it allows to its outstanding bytes, and `frame_sent`
takes it off again. The sum for the check saturates, the addition and the subtraction wrap, and
the guard behind the subtraction compares as signed numbers what are unsigned ones. With a budget
below `2 ^ 63` none of this shows, as long as only what was allowed is released, and only once:
the outstanding bytes are the sum of the sizes of the frames that have not been released, which
is within the budget (`BudgetRun.Accounts`).

The camera loop releases a frame before it receives the next one. So it never has outstanding
bytes when it checks a frame.
-/

namespace Kodama

open Lib Lib.Machine

/-- With one more frame the window of its channel is within the limit. -/
def ConnectionRateLimiter.WithinLimit (l : ConnectionRateLimiter) (nowMs : UInt64)
    (channel : Channel) : Prop :=
  ((l.windows (windowIndex channel)).record nowMs).1 ≤ (l.config.fpsForChannel channel).toUInt64

/-- A limiter with the sizes of the frames that it has allowed and that have not been released. -/
structure BudgetRun where
  limiter : ConnectionRateLimiter
  unreleased : List UInt64 := []

namespace BudgetRun

def start (config : RateLimitConfig) : BudgetRun := ⟨.new config, []⟩

/-- A call; `frame_sent` is called for an allowed frame that has not been released. -/
def step (self : BudgetRun) : LimiterCall → Option BudgetRun
  | .checkFrame nowMs channel payloadLen =>
    let (result, limiter) := self.limiter.checkFrame nowMs channel payloadLen
    some ⟨limiter, match result with
      | .allowed => self.unreleased ++ [payloadLen]
      | .dropped => self.unreleased⟩
  | .frameSent payloadLen =>
    if payloadLen ∈ self.unreleased then
      some ⟨self.limiter.frameSent payloadLen, self.unreleased.erase payloadLen⟩
    else none
  | .tickAbuseCheck nowMs => some { self with limiter := (self.limiter.tickAbuseCheck nowMs).2 }
  | .shouldLogDrop nowMs => some { self with limiter := (self.limiter.shouldLogDrop nowMs).2 }

theorem step_checkFrame (self : BudgetRun) (nowMs n : UInt64) (channel : Channel) :
    self.step (.checkFrame nowMs channel n) =
      some ⟨(self.limiter.checkFrame nowMs channel n).2,
        match (self.limiter.checkFrame nowMs channel n).1 with
        | .allowed => self.unreleased ++ [n]
        | .dropped => self.unreleased⟩ := rfl

/-- The size of what has not been released. -/
def total (sizes : List UInt64) : Nat := (sizes.map UInt64.toNat).sum

/-- The outstanding bytes are what has not been released, within the budget. -/
structure Accounts (config : RateLimitConfig) (t : BudgetRun) : Prop where
  config_eq : t.limiter.config = config
  outstanding : t.limiter.bytesOutstanding.toNat = total t.unreleased
  withinBudget : t.limiter.bytesOutstanding ≤ config.memoryBudget

/-- Neither the addition nor the subtraction wraps, and the guard does not fire. -/
def Exact (t : BudgetRun) : LimiterCall → BudgetRun → Prop
  | .checkFrame nowMs channel payloadLen, u =>
    (t.limiter.checkFrame nowMs channel payloadLen).1 = .allowed →
      u.limiter.bytesOutstanding.toNat = t.limiter.bytesOutstanding.toNat + payloadLen.toNat
  | .frameSent payloadLen, u =>
    ¬ t.limiter.bytesOutstanding.toInt64 < payloadLen.toInt64 ∧
      u.limiter.bytesOutstanding.toNat + payloadLen.toNat = t.limiter.bytesOutstanding.toNat
  | _, u => u.limiter.bytesOutstanding = t.limiter.bytesOutstanding

variable {config : RateLimitConfig} {t u : BudgetRun} {sizes : List UInt64} {n : UInt64}

@[simp] theorem total_append (sizes sizes' : List UInt64) :
    total (sizes ++ sizes') = total sizes + total sizes' := by
  rw [total, List.map_append, List.sum_append]
  rfl

@[simp] theorem total_singleton (n : UInt64) : total [n] = n.toNat := by
  rw [total, List.map_singleton, List.sum_singleton]

theorem total_erase (h : n ∈ sizes) : total (sizes.erase n) + n.toNat = total sizes := by
  have hperm := (List.perm_cons_erase h).map UInt64.toNat
  rw [total, total, hperm.sum_nat, List.map_cons, List.sum_cons, Nat.add_comm]

/-- What the budget has room for is added without wrapping. -/
theorem add_of_fits {a b m : UInt64} (h : ¬ saturatingAdd a b > m) (hm : m.toNat < 2 ^ 63) :
    (a + b).toNat = a.toNat + b.toNat ∧ a.toNat + b.toNat ≤ m.toNat := by
  have hle := UInt64.le_iff_toNat_le.mp (UInt64.not_lt.mp h)
  rw [saturatingAdd] at hle
  split at hle
  · next hsmall =>
    have hadd : (a + b).toNat = a.toNat + b.toNat := by
      rw [UInt64.toNat_add, Nat.mod_eq_of_lt hsmall]
    exact ⟨hadd, hadd ▸ hle⟩
  · -- a saturated sum is beyond the budget
    rw [show (UInt64.ofNat (2 ^ 64 - 1)).toNat = 2 ^ 64 - 1 from rfl] at hle
    omega

theorem toInt64_toInt {a : UInt64} (h : a.toNat < 2 ^ 63) : a.toInt64.toInt = a.toNat :=
  BitVec.toInt_eq_toNat_of_lt (x := a.toBitVec) (by rw [UInt64.toNat_toBitVec]; omega)

/-- Below `2 ^ 63` the signed comparison is the unsigned one. -/
theorem toInt64_lt_iff {a b : UInt64} (ha : a.toNat < 2 ^ 63) (hb : b.toNat < 2 ^ 63) :
    a.toInt64 < b.toInt64 ↔ a.toNat < b.toNat := by
  rw [Int64.lt_iff_toInt_lt, toInt64_toInt ha, toInt64_toInt hb, Int.ofNat_lt]

/-! ## The operations -/

/-- Only an allowed frame changes the outstanding bytes, and it fits the budget. A frame is dropped
where the sum exceeds the budget, or the count of its channel's window the limit. -/
theorem checkFrame_outstanding (l : ConnectionRateLimiter) (nowMs : UInt64) (channel : Channel)
    (n : UInt64) :
    ((l.checkFrame nowMs channel n).1 = .allowed ∧
      ¬ saturatingAdd l.bytesOutstanding n > l.config.memoryBudget ∧
      (l.checkFrame nowMs channel n).2.bytesOutstanding = l.bytesOutstanding + n) ∨
    ((l.checkFrame nowMs channel n).1 = .dropped ∧
      (saturatingAdd l.bytesOutstanding n > l.config.memoryBudget ∨
        ¬ l.WithinLimit nowMs channel) ∧
      (l.checkFrame nowMs channel n).2.bytesOutstanding = l.bytesOutstanding) := by
  rw [ConnectionRateLimiter.checkFrame]
  split
  · next hover => exact .inr ⟨rfl, .inl hover, rfl⟩
  · next hfits =>
    dsimp only
    split
    · next hcount => exact .inr ⟨rfl, .inr (UInt64.not_le.mpr hcount), rfl⟩
    · exact .inl ⟨rfl, hfits, rfl⟩

/-- Releasing no more than is outstanding. -/
theorem frameSent_outstanding {l : ConnectionRateLimiter} (hle : n ≤ l.bytesOutstanding)
    (hsmall : l.bytesOutstanding.toNat < 2 ^ 63) :
    ¬ l.bytesOutstanding.toInt64 < n.toInt64 ∧
      (l.frameSent n).bytesOutstanding.toNat + n.toNat = l.bytesOutstanding.toNat := by
  have hle' := UInt64.le_iff_toNat_le.mp hle
  have hguard : ¬ l.bytesOutstanding.toInt64 < n.toInt64 := by
    rw [toInt64_lt_iff hsmall (by omega)]
    omega
  refine ⟨hguard, ?_⟩
  rw [ConnectionRateLimiter.frameSent, if_neg hguard]
  show (l.bytesOutstanding - n).toNat + n.toNat = _
  rw [UInt64.toNat_sub_of_le _ _ hle]
  omega

@[simp] theorem tickAbuseCheck_outstanding (l : ConnectionRateLimiter) (nowMs : UInt64) :
    (l.tickAbuseCheck nowMs).2.bytesOutstanding = l.bytesOutstanding := by
  rw [ConnectionRateLimiter.tickAbuseCheck]
  dsimp only
  split <;> rfl

@[simp] theorem shouldLogDrop_outstanding (l : ConnectionRateLimiter) (nowMs : UInt64) :
    (l.shouldLogDrop nowMs).2.bytesOutstanding = l.bytesOutstanding := by
  rw [ConnectionRateLimiter.shouldLogDrop]
  split <;> rfl

/-! ## The invariant -/

namespace Accounts

theorem start (config : RateLimitConfig) : Accounts config (start config) where
  config_eq := rfl
  outstanding := rfl
  withinBudget := UInt64.le_iff_toNat_le.mpr (Nat.zero_le _)

/-- A limiter with the same outstanding bytes. -/
theorem same (h : Accounts config t) {limiter : ConnectionRateLimiter}
    (hconfig : limiter.config = t.limiter.config)
    (hbytes : limiter.bytesOutstanding = t.limiter.bytesOutstanding) :
    Accounts config { t with limiter } :=
  ⟨hconfig.trans h.config_eq, hbytes ▸ h.outstanding, hbytes ▸ h.withinBudget⟩

theorem lt_of_budget (h : Accounts config t) (hbudget : config.memoryBudget.toNat < 2 ^ 63) :
    t.limiter.bytesOutstanding.toNat < 2 ^ 63 :=
  (UInt64.le_iff_toNat_le.mp h.withinBudget).trans_lt hbudget

/-- The outstanding bytes include every frame that has not been released. -/
theorem le_of_mem (h : Accounts config t) (hmem : n ∈ t.unreleased) :
    n ≤ t.limiter.bytesOutstanding := by
  have := total_erase hmem
  rw [UInt64.le_iff_toNat_le, h.outstanding]
  omega

/-- An allowed frame. -/
theorem allowed (h : Accounts config t) (hbudget : config.memoryBudget.toNat < 2 ^ 63)
    {limiter : ConnectionRateLimiter} (hconfig : limiter.config = t.limiter.config)
    (hfits : ¬ saturatingAdd t.limiter.bytesOutstanding n > t.limiter.config.memoryBudget)
    (hbytes : limiter.bytesOutstanding = t.limiter.bytesOutstanding + n) :
    Accounts config ⟨limiter, t.unreleased ++ [n]⟩ := by
  rw [h.config_eq] at hfits
  obtain ⟨hadd, hle⟩ := add_of_fits hfits hbudget
  rw [← hbytes] at hadd
  refine ⟨hconfig.trans h.config_eq, ?_, ?_⟩
  · show limiter.bytesOutstanding.toNat = total (t.unreleased ++ [n])
    rw [total_append, total_singleton, hadd, h.outstanding]
  · rw [UInt64.le_iff_toNat_le]
    show limiter.bytesOutstanding.toNat ≤ _
    omega

/-- A release. -/
theorem release (h : Accounts config t) (hbudget : config.memoryBudget.toNat < 2 ^ 63)
    (hmem : n ∈ t.unreleased) :
    Accounts config ⟨t.limiter.frameSent n, t.unreleased.erase n⟩ := by
  obtain ⟨-, hsub⟩ := frameSent_outstanding (h.le_of_mem hmem) (h.lt_of_budget hbudget)
  have htotal := total_erase hmem
  have houtstanding := h.outstanding
  have hle := UInt64.le_iff_toNat_le.mp h.withinBudget
  refine ⟨ConnectionRateLimiter.frameSent_config.trans h.config_eq, ?_, ?_⟩
  · show (t.limiter.frameSent n).bytesOutstanding.toNat = total (t.unreleased.erase n)
    omega
  · rw [UInt64.le_iff_toNat_le]
    show (t.limiter.frameSent n).bytesOutstanding.toNat ≤ _
    omega

theorem step {call : LimiterCall} (hbudget : config.memoryBudget.toNat < 2 ^ 63)
    (h : Accounts config t) (hstep : BudgetRun.step t call = some u) :
    Accounts config u ∧ Exact t call u := by
  cases call with
  | checkFrame nowMs channel n =>
    rw [step_checkFrame] at hstep
    obtain rfl := Option.some.inj hstep
    obtain ⟨hallowed, hfits, hbytes⟩ | ⟨hdropped, -, hbytes⟩ :=
      checkFrame_outstanding t.limiter nowMs channel n
    · have haccounts := h.allowed hbudget ConnectionRateLimiter.checkFrame_config hfits hbytes
      rw [hallowed]
      refine ⟨haccounts, fun _ => ?_⟩
      rw [h.config_eq] at hfits
      show (t.limiter.checkFrame nowMs channel n).2.bytesOutstanding.toNat = _
      rw [hbytes, (add_of_fits hfits hbudget).1]
    · rw [hdropped]
      refine ⟨h.same ConnectionRateLimiter.checkFrame_config hbytes, fun hallowed => ?_⟩
      rw [hdropped] at hallowed
      cases hallowed
  | frameSent n =>
    simp only [BudgetRun.step] at hstep
    split at hstep
    · next hmem =>
      obtain rfl := Option.some.inj hstep
      exact ⟨h.release hbudget hmem,
        frameSent_outstanding (h.le_of_mem hmem) (h.lt_of_budget hbudget)⟩
    · cases hstep
  | tickAbuseCheck nowMs =>
    obtain rfl := Option.some.inj hstep
    exact ⟨h.same ConnectionRateLimiter.tickAbuseCheck_config (tickAbuseCheck_outstanding _ _),
      tickAbuseCheck_outstanding _ _⟩
  | shouldLogDrop nowMs =>
    obtain rfl := Option.some.inj hstep
    exact ⟨h.same ConnectionRateLimiter.shouldLogDrop_config (shouldLogDrop_outstanding _ _),
      shouldLogDrop_outstanding _ _⟩

/-- With everything released, nothing is outstanding. -/
theorem zero_of_released (h : Accounts config t) (hnil : t.unreleased = []) :
    t.limiter.bytesOutstanding = 0 := by
  have houtstanding := h.outstanding
  rw [hnil] at houtstanding
  exact UInt64.toNat_inj.mp houtstanding

end Accounts

end BudgetRun

/-! ## The camera loop -/

namespace CameraLoop

/-- A frame that is dropped though the window of its channel is within its limit, that is, for
memory, exceeds the budget alone. -/
def DropsOversized (config : RateLimitConfig) (t : CameraLoop) : Event → CameraLoop → Prop
  | .frame frame checkMs _, _ =>
    (t.limiter.checkFrame checkMs frame.channel (UInt64.ofNat frame.payload.length)).1 =
        .dropped → t.limiter.WithinLimit checkMs frame.channel →
      config.memoryBudget.toNat < frame.payload.length
  | _, _ => True

open BudgetRun

variable {config : RateLimitConfig} {t u : CameraLoop} {event : Event}

/-- What a frame adds to the outstanding bytes is released before the next one. -/
theorem afterFrame_accounts (hbudget : config.memoryBudget.toNat < 2 ^ 63)
    {limiter : ConnectionRateLimiter} (h : Accounts config ⟨limiter, []⟩) (frame : Frame)
    (checkMs logMs : UInt64) : Accounts config ⟨afterFrame limiter frame checkMs logMs, []⟩ := by
  have hcheck := (h.step hbudget (step_checkFrame _ checkMs (UInt64.ofNat frame.payload.length)
    frame.channel)).1
  simp only [afterFrame]
  split
  · next hdropped =>
    rw [hdropped] at hcheck
    exact hcheck.same ConnectionRateLimiter.shouldLogDrop_config (shouldLogDrop_outstanding _ _)
  · next hallowed =>
    rw [hallowed] at hcheck
    have hrelease := hcheck.release hbudget List.mem_cons_self
    rwa [List.nil_append, List.erase_cons_head] at hrelease

theorem step_accounts (hbudget : config.memoryBudget.toNat < 2 ^ 63)
    (h : Accounts config ⟨t.limiter, []⟩) (hstep : t.step event = some u) :
    Accounts config ⟨u.limiter, []⟩ := by
  cases move_of_step hstep with
  | frame frame checkMs logMs u hlimiter =>
    rw [hlimiter]
    exact afterFrame_accounts hbudget h frame checkMs logMs
  | tick nowMs =>
    have htick : Accounts config ⟨(t.limiter.tickAbuseCheck nowMs).2, []⟩ :=
      h.same ConnectionRateLimiter.tickAbuseCheck_config (tickAbuseCheck_outstanding _ _)
    split <;> exact htick
  | closed | error => exact h

/-- Without outstanding bytes only the frame itself can exceed the budget. -/
theorem dropsOversized_of_accounts (h : Accounts config ⟨t.limiter, []⟩) :
    DropsOversized config t event u := by
  cases event with
  | frame frame checkMs logMs =>
    intro hdropped hlimit
    have hzero : t.limiter.bytesOutstanding = 0 := h.zero_of_released rfl
    have hconfig : t.limiter.config = config := h.config_eq
    obtain ⟨hallowed, -⟩ | ⟨-, hover | hcount, -⟩ := checkFrame_outstanding t.limiter checkMs
      frame.channel (UInt64.ofNat frame.payload.length)
    · cases hallowed.symm.trans hdropped
    · by_contra hle
      rw [hzero, hconfig] at hover
      refine UInt64.not_lt.mpr (saturatingAdd_le ?_) hover
      have hmod := Nat.mod_le frame.payload.length (2 ^ 64)
      rw [UInt64.toNat_ofNat']
      show 0 + _ ≤ _
      omega
    · exact absurd hlimit hcount
  | tick | closed | error => trivial

end CameraLoop

namespace BudgetRun

/-- **Memory budget accounting.** With a budget below `2 ^ 63`, in every state of every run of a
limiter in which each release is that of an allowed frame, and no frame is released twice, the
outstanding bytes are the sum of the sizes not yet released, within the budget, and zero if
everything has been released; no step wraps, and the guard never fires. And in every run of the
camera loop a frame is dropped for memory only if it exceeds the budget alone. -/
theorem memoryBudget_accounts (config : RateLimitConfig)
    (hbudget : config.memoryBudget.toNat < 2 ^ 63) (calls : List LimiterCall)
    (events : List CameraLoop.Event) :
    Always step (fun t => Accounts config t ∧
      (t.unreleased = [] → t.limiter.bytesOutstanding = 0)) (start config) calls ∧
    EachStep step Exact (start config) calls ∧
    EachStep CameraLoop.step (CameraLoop.DropsOversized config) (.start config) events := by
  have haccounts : Always step (Accounts config) (start config) calls :=
    always_of_step (.start config) (fun _ _ _ h hstep => (h.step hbudget hstep).1) calls
  have hloop : Always CameraLoop.step (fun t => Accounts config ⟨t.limiter, []⟩) (.start config)
      events :=
    always_of_step (.start config) (fun _ _ _ h => CameraLoop.step_accounts hbudget h) events
  refine ⟨haccounts.mono fun _ h => ⟨h, h.zero_of_released⟩, ?_, ?_⟩
  · exact eachStep_of_always haccounts fun _ _ _ h hstep => (h.step hbudget hstep).2
  · exact eachStep_of_always hloop fun _ _ _ h _ => CameraLoop.dropsOversized_of_accounts h

/-- A budget of 1024 bytes: a frame of 1000, one of 100 that is dropped, a release, and the frame
of 100 again. -/
theorem memoryBudget_accounts_enforcement :
    let config := { RateLimitConfig.default with memoryBudget := 1024 }
    let calls := [.checkFrame 0 .video 1000, .checkFrame 1 .video 100, .frameSent 1000,
      .checkFrame 2 .video 100]
    (run step (start config) calls).map (fun t => (t.limiter.totalDropped,
        t.limiter.bytesOutstanding)) = some (1, 100) ∧
      Always step (fun t => Accounts config t ∧
        (t.unreleased = [] → t.limiter.bytesOutstanding = 0)) (start config) calls :=
  ⟨by decide, (memoryBudget_accounts _ (by decide) _ []).1⟩

end BudgetRun

end Kodama
