import Kodama.Core.Frame
import Kodama.Lib.Windows
import Mathlib.Algebra.Group.Nat.Defs
import Mathlib.Data.List.Induction
import Mathlib.Logic.Function.Basic

/-!
# Rate limiting of a camera connection (server/rate_limit.rs)

Each camera connection has its own limiter: a fixed-window frame counter for each of the
three known channels and one that all unknown channels share, a budget of outstanding
bytes, and the bookkeeping of drops behind the abuse check. Only the connection's own task
calls it, so no compare-and-swap fails. The readings of its clock, in milliseconds since
its creation, are arguments here.

- `rateGuarantee`: for a clock that does not run backwards, in any 1000 ms at most twice
  the limit of a class is allowed (as long as its 64-bit counter does not wrap within a
  window), and nothing of a class that keeps to its limit and the budget is dropped.
- `wrappedCount_allows`: with a limit of zero, the frame that wraps the counter is allowed.
-/

namespace Kodama

open Lib

/-- `u64::saturating_add`. -/
def saturatingAdd (a b : UInt64) : UInt64 :=
  if a.toNat + b.toNat < 2 ^ 64 then a + b else UInt64.ofNat (2 ^ 64 - 1)

/-- `u64::saturating_sub`. -/
def saturatingSub (a b : UInt64) : UInt64 := if b ≤ a then a - b else 0

/-- Per-channel FPS limits, memory budget, and abuse threshold. -/
structure RateLimitConfig where
  videoFps : UInt32
  audioFps : UInt32
  telemetryFps : UInt32
  unknownFps : UInt32
  /-- Max outstanding bytes across all channels before dropping. -/
  memoryBudget : UInt64
  /-- Seconds of sustained abuse before recommending disconnect. -/
  abuseThresholdSecs : UInt64

/-- `RateLimitConfig::default`. -/
def RateLimitConfig.default : RateLimitConfig where
  videoFps := 120
  audioFps := 100
  telemetryFps := 10
  unknownFps := 10
  memoryBudget := 32 * 1024 * 1024
  abuseThresholdSecs := 10

def RateLimitConfig.fpsForChannel (config : RateLimitConfig) : Channel → UInt32
  | .video => config.videoFps
  | .audio => config.audioFps
  | .telemetry => config.telemetryFps
  | .unknown _ => config.unknownFps

/-- Frame counter for a single channel. -/
structure ChannelWindow where
  count : UInt64 := 0
  windowStartMs : UInt64 := 0

/-- Record a frame arrival; returns the frame count in the current window. -/
def ChannelWindow.record (w : ChannelWindow) (nowMs : UInt64) : UInt64 × ChannelWindow :=
  if saturatingSub nowMs w.windowStartMs ≥ 1000 then (1, ⟨1, nowMs⟩)
  else (w.count + 1, { w with count := w.count + 1 })

/-- Result of a rate-limit check. -/
inductive RateCheck where
  | allowed
  | dropped
deriving DecidableEq

/-- Per-camera-connection rate limiter. -/
structure ConnectionRateLimiter where
  config : RateLimitConfig
  windows : Fin 4 → ChannelWindow
  bytesOutstanding : UInt64
  totalDropped : UInt64
  abuseSeconds : UInt64
  lastDropSecond : UInt64
  lastLogSecond : UInt64

namespace ConnectionRateLimiter

def new (config : RateLimitConfig) : ConnectionRateLimiter where
  config
  windows _ := {}
  bytesOutstanding := 0
  totalDropped := 0
  abuseSeconds := 0
  lastDropSecond := UInt64.ofNat (2 ^ 64 - 1)
  lastLogSecond := UInt64.ofNat (2 ^ 64 - 1)

def windowIndex : Channel → Fin 4
  | .video => 0
  | .audio => 1
  | .telemetry => 2
  | .unknown _ => 3

def recordDrop (l : ConnectionRateLimiter) (nowMs : UInt64) : ConnectionRateLimiter :=
  { l with totalDropped := l.totalDropped + 1, lastDropSecond := nowMs / 1000 }

/-- Check whether a frame should be allowed or dropped: the memory budget first, then the
frame count of its channel. -/
def checkFrame (l : ConnectionRateLimiter) (nowMs : UInt64) (channel : Channel)
    (payloadLen : UInt64) : RateCheck × ConnectionRateLimiter :=
  if saturatingAdd l.bytesOutstanding payloadLen > l.config.memoryBudget then
    (.dropped, l.recordDrop nowMs)
  else
    let limit := l.config.fpsForChannel channel
    let idx := windowIndex channel
    let (count, window) := (l.windows idx).record nowMs
    let l := { l with windows := Function.update l.windows idx window }
    if count > limit.toUInt64 then (.dropped, l.recordDrop nowMs)
    else (.allowed, { l with bytesOutstanding := l.bytesOutstanding + payloadLen })

/-- Called after a frame has been broadcast. The comparison of the source is a signed one. -/
def frameSent (l : ConnectionRateLimiter) (payloadLen : UInt64) : ConnectionRateLimiter :=
  if l.bytesOutstanding.toInt64 < payloadLen.toInt64 then { l with bytesOutstanding := 0 }
  else { l with bytesOutstanding := l.bytesOutstanding - payloadLen }

/-- Check for sustained abuse: `true` if the connection should be disconnected. -/
def tickAbuseCheck (l : ConnectionRateLimiter) (nowMs : UInt64) : Bool × ConnectionRateLimiter :=
  let currentSecond := nowMs / 1000
  if l.lastDropSecond = currentSecond ∨ l.lastDropSecond = saturatingSub currentSecond 1 then
    let secs := l.abuseSeconds + 1
    (decide (secs ≥ l.config.abuseThresholdSecs), { l with abuseSeconds := secs })
  else (false, { l with abuseSeconds := 0 })

/-- Whether a drop warning should be logged now (at most 1/sec). -/
def shouldLogDrop (l : ConnectionRateLimiter) (nowMs : UInt64) : Bool × ConnectionRateLimiter :=
  let currentSecond := nowMs / 1000
  if currentSecond ≠ l.lastLogSecond then (true, { l with lastLogSecond := currentSecond })
  else (false, l)

/-- Total frames dropped on this connection. -/
def framesDropped (l : ConnectionRateLimiter) : UInt64 := l.totalDropped

/-! ## What a check does -/

variable {l : ConnectionRateLimiter} {nowMs payloadLen : UInt64} {channel : Channel}

/-- A frame beyond the budget is dropped unseen by the windows. -/
theorem checkFrame_overBudget (nowMs : UInt64) (channel : Channel)
    (h : saturatingAdd l.bytesOutstanding payloadLen > l.config.memoryBudget) :
    l.checkFrame nowMs channel payloadLen = (.dropped, l.recordDrop nowMs) := by
  rw [checkFrame, if_pos h]

/-- A frame within the budget is counted in the window of its channel, and passes exactly
if the count is within the limit. -/
theorem checkFrame_withinBudget (nowMs : UInt64) (channel : Channel)
    (h : ¬ saturatingAdd l.bytesOutstanding payloadLen > l.config.memoryBudget) :
    (l.checkFrame nowMs channel payloadLen).2.windows =
        Function.update l.windows (windowIndex channel)
          ((l.windows (windowIndex channel)).record nowMs).2 ∧
      ((l.checkFrame nowMs channel payloadLen).1 = .allowed ↔
        ((l.windows (windowIndex channel)).record nowMs).1.toNat ≤
          (l.config.fpsForChannel channel).toNat) := by
  have hlimit : (l.config.fpsForChannel channel).toUInt64.toNat =
      (l.config.fpsForChannel channel).toNat := UInt32.toNat_toUInt64 _
  rw [checkFrame, if_neg h]
  dsimp only
  split
  · next hgt =>
    rw [gt_iff_lt, UInt64.lt_iff_toNat_lt, hlimit] at hgt
    exact ⟨rfl, iff_of_false (by simp) (by omega)⟩
  · next hle =>
    rw [gt_iff_lt, UInt64.lt_iff_toNat_lt, hlimit] at hle
    exact ⟨rfl, iff_of_true rfl (by omega)⟩

@[simp] theorem checkFrame_config :
    (l.checkFrame nowMs channel payloadLen).2.config = l.config := by
  rw [checkFrame]
  split
  · rfl
  · dsimp only
    split <;> rfl

@[simp] theorem frameSent_config : (l.frameSent payloadLen).config = l.config := by
  rw [frameSent]
  split <;> rfl

@[simp] theorem frameSent_windows : (l.frameSent payloadLen).windows = l.windows := by
  rw [frameSent]
  split <;> rfl

@[simp] theorem tickAbuseCheck_config : (l.tickAbuseCheck nowMs).2.config = l.config := by
  rw [tickAbuseCheck]
  dsimp only
  split <;> rfl

@[simp] theorem tickAbuseCheck_windows : (l.tickAbuseCheck nowMs).2.windows = l.windows := by
  rw [tickAbuseCheck]
  dsimp only
  split <;> rfl

@[simp] theorem shouldLogDrop_config : (l.shouldLogDrop nowMs).2.config = l.config := by
  rw [shouldLogDrop]
  split <;> rfl

@[simp] theorem shouldLogDrop_windows : (l.shouldLogDrop nowMs).2.windows = l.windows := by
  rw [shouldLogDrop]
  split <;> rfl

end ConnectionRateLimiter

/-! ## Runs of a limiter -/

/-- A call of the connection's task; with the reading of the clock where it reads one. -/
inductive LimiterCall where
  | checkFrame (nowMs : UInt64) (channel : Channel) (payloadLen : UInt64)
  | frameSent (payloadLen : UInt64)
  | tickAbuseCheck (nowMs : UInt64)
  | shouldLogDrop (nowMs : UInt64)

def LimiterCall.nowMs : LimiterCall → Option UInt64
  | checkFrame nowMs _ _ => some nowMs
  | frameSent _ => none
  | tickAbuseCheck nowMs => some nowMs
  | shouldLogDrop nowMs => some nowMs

/-- The clock does not run backwards. -/
def NondecreasingClock (calls : List LimiterCall) : Prop :=
  (calls.filterMap LimiterCall.nowMs).Pairwise (· ≤ ·)

instance : DecidablePred NondecreasingClock :=
  fun calls => inferInstanceAs (Decidable ((calls.filterMap _).Pairwise _))

/-- A `check_frame` call of a run: its arguments, the outstanding bytes it found and what it
returned. -/
structure Check where
  nowMs : UInt64
  channel : Channel
  payloadLen : UInt64
  outstanding : UInt64
  result : RateCheck

/-- A limiter with the checks it has made. -/
structure Limited where
  limiter : ConnectionRateLimiter
  checks : List Check

namespace Limited

def call (s : Limited) : LimiterCall → Limited
  | .checkFrame nowMs channel payloadLen =>
    let (result, limiter) := s.limiter.checkFrame nowMs channel payloadLen
    ⟨limiter, s.checks ++ [⟨nowMs, channel, payloadLen, s.limiter.bytesOutstanding, result⟩]⟩
  | .frameSent payloadLen => { s with limiter := s.limiter.frameSent payloadLen }
  | .tickAbuseCheck nowMs => { s with limiter := (s.limiter.tickAbuseCheck nowMs).2 }
  | .shouldLogDrop nowMs => { s with limiter := (s.limiter.shouldLogDrop nowMs).2 }

theorem call_checkFrame (s : Limited) (nowMs payloadLen : UInt64) (channel : Channel) :
    s.call (.checkFrame nowMs channel payloadLen) =
      ⟨(s.limiter.checkFrame nowMs channel payloadLen).2, s.checks ++
        [⟨nowMs, channel, payloadLen, s.limiter.bytesOutstanding,
          (s.limiter.checkFrame nowMs channel payloadLen).1⟩]⟩ := rfl

/-- A connection makes the given calls on its new limiter. -/
def after (config : RateLimitConfig) (calls : List LimiterCall) : Limited :=
  calls.foldl call ⟨.new config, []⟩

theorem after_concat (config : RateLimitConfig) (calls : List LimiterCall) (c : LimiterCall) :
    after config (calls ++ [c]) = (after config calls).call c := by
  rw [after, List.foldl_concat]
  rfl

end Limited

/-- The checks of the connection's run. -/
def checks (config : RateLimitConfig) (calls : List LimiterCall) : List Check :=
  (Limited.after config calls).checks

namespace Check

/-- Frames of the limiter class of `channel`: all unknown channels are one class. -/
def ofClass (channel : Channel) (c : Check) : Bool :=
  ConnectionRateLimiter.windowIndex c.channel = ConnectionRateLimiter.windowIndex channel

/-- Frames that arrive in `[t, t + 1000)`. -/
def within (t : Nat) (c : Check) : Bool :=
  decide (t ≤ c.nowMs.toNat) && decide (c.nowMs.toNat < t + 1000)

def isAllowed (c : Check) : Bool := c.result = .allowed

/-- The frame fits the memory budget together with the outstanding bytes. -/
def FitsBudget (config : RateLimitConfig) (c : Check) : Prop :=
  c.outstanding.toNat + c.payloadLen.toNat ≤ config.memoryBudget.toNat

/-- The frame reached the window of its class. -/
def counted (config : RateLimitConfig) (channel : Channel) (c : Check) : Bool :=
  c.ofClass channel && !decide (saturatingAdd c.outstanding c.payloadLen > config.memoryBudget)

end Check

/-- How many frames of a class arrive in `[t, t + 1000)`. -/
def arrivals (channel : Channel) (t : Nat) (checks : List Check) : Nat :=
  checks.countP fun c => c.ofClass channel && c.within t

/-- How many frames of a class are allowed in `[t, t + 1000)`. -/
def allowedFrames (channel : Channel) (t : Nat) (checks : List Check) : Nat :=
  checks.countP fun c => c.ofClass channel && (c.isAllowed && c.within t)

/-! ## A window and the frames it counted -/

/-- How the window of a class stands to the frames it counted: those since its start, as
many as its count says, and those before. -/
structure WindowCounts (limit : Nat) (w : ChannelWindow) (earlier cur : List Check) : Prop where
  windows : Windows (fun c : Check => c.nowMs.toNat) 1000 w.windowStartMs.toNat earlier cur
  bounded : Bounded (fun c : Check => c.nowMs.toNat) 1000 w.windowStartMs.toNat limit
    Check.isAllowed earlier cur
  count_eq : w.count = UInt64.ofNat cur.length
  /-- The window starts with the limiter, or with a frame. -/
  start_le : w.windowStartMs = 0 ∨ ∃ c ∈ cur, c.nowMs = w.windowStartMs

theorem le_saturatingSub_iff {a b : UInt64} {k : UInt64} (hle : b ≤ a) :
    saturatingSub a b ≥ k ↔ b.toNat + k.toNat ≤ a.toNat := by
  rw [saturatingSub, if_pos hle, ge_iff_le, UInt64.le_iff_toNat_le,
    UInt64.toNat_sub_of_le _ _ hle]
  rw [UInt64.le_iff_toNat_le] at hle
  omega

/-- **One frame.** The window extends to it or starts over with it; its count is the number
of counted frames within the 1000 ms from the window's start. -/
theorem WindowCounts.record {limit : Nat} {w : ChannelWindow} {earlier cur : List Check}
    (h : WindowCounts limit w earlier cur) {c : Check}
    (hclock : ∀ b ∈ cur, b.nowMs ≤ c.nowMs)
    (hroom : ∀ t, (earlier ++ cur ++ [c]).countP (Check.within t) < 2 ^ 64)
    (hresult : c.result = .allowed ↔ (w.record c.nowMs).1.toNat ≤ limit) :
    ∃ earlier' cur', earlier' ++ cur' = earlier ++ cur ++ [c] ∧
      WindowCounts limit (w.record c.nowMs).2 earlier' cur' ∧
      (w.record c.nowMs).1.toNat ≤
        (earlier ++ cur ++ [c]).countP (Check.within (w.record c.nowMs).2.windowStartMs.toNat) := by
  have hstart : w.windowStartMs ≤ c.nowMs := by
    rcases h.start_le with hzero | ⟨b, hb, heq⟩
    · rw [hzero, UInt64.le_iff_toNat_le]
      exact Nat.zero_le _
    · exact heq ▸ hclock b hb
  have hallowed : c.isAllowed = true ↔ (w.record c.nowMs).1.toNat ≤ limit := by
    rw [← hresult, Check.isAllowed, decide_eq_true_eq]
  by_cases hlate : saturatingSub c.nowMs w.windowStartMs ≥ 1000
  · -- the window has expired: the frame is the first of the next one
    have hrecord : w.record c.nowMs = (1, ⟨1, c.nowMs⟩) := by
      rw [ChannelWindow.record, if_pos hlate]
    have hlate : w.windowStartMs.toNat + 1000 ≤ c.nowMs.toNat :=
      (le_saturatingSub_iff hstart).mp hlate
    rw [hrecord] at hallowed ⊢
    refine ⟨earlier ++ cur, [c], rfl, ⟨h.windows.reset (by decide) hlate,
      h.bounded.reset h.windows hlate hallowed.mp, rfl,
      .inr ⟨c, List.mem_singleton_self c, rfl⟩⟩, ?_⟩
    rw [List.countP_append, List.countP_singleton, if_pos (by simp [Check.within])]
    exact Nat.le_add_left 1 _
  · have hrecord : w.record c.nowMs = (w.count + 1, { w with count := w.count + 1 }) := by
      rw [ChannelWindow.record, if_neg hlate]
    have hwithin : c.nowMs.toNat < w.windowStartMs.toNat + 1000 :=
      Nat.not_le.mp fun hle => hlate ((le_saturatingSub_iff hstart).mpr hle)
    have hwindows := h.windows.extend (UInt64.le_iff_toNat_le.mp hstart) hwithin
    -- all frames of the window lie within 1000 ms, so there are fewer than `2 ^ 64`
    have hlength : (cur ++ [c]).length ≤
        (earlier ++ (cur ++ [c])).countP (Check.within w.windowStartMs.toNat) := by
      have hall : (cur ++ [c]).countP (Check.within w.windowStartMs.toNat) =
          (cur ++ [c]).length := by
        refine List.countP_eq_length.mpr fun b hb => ?_
        simp only [Check.within, Bool.and_eq_true, decide_eq_true_eq]
        exact ⟨hwindows.cur_ge b hb, hwindows.cur_lt b hb⟩
      rw [List.countP_append, hall]
      exact Nat.le_add_left _ _
    rw [← List.append_assoc] at hlength
    have hcount : w.count + 1 = UInt64.ofNat (cur ++ [c]).length := by
      rw [h.count_eq, List.length_append, List.length_singleton, UInt64.ofNat_add]
      rfl
    have hcountNat : (w.count + 1).toNat = (cur ++ [c]).length := by
      rw [hcount]
      exact UInt64.toNat_ofNat_of_lt' (Nat.lt_of_le_of_lt hlength (hroom _))
    rw [hrecord] at hallowed ⊢
    dsimp only at hallowed ⊢
    rw [hcountNat] at hallowed ⊢
    refine ⟨earlier, cur ++ [c], (List.append_assoc _ _ _).symm, ⟨hwindows,
      h.bounded.extend fun hpass => ?_, hcount, ?_⟩, hlength⟩
    · have := hallowed.mp hpass
      rw [List.length_append, List.length_singleton] at this
      omega
    · exact h.start_le.imp_right fun ⟨b, hb, heq⟩ => ⟨b, List.mem_append_left _ hb, heq⟩

/-! ## A whole run -/

/-- The limit of the class of `channel`. -/
def classLimit (config : RateLimitConfig) (channel : Channel) : Nat :=
  (config.fpsForChannel channel).toNat

theorem classLimit_congr (config : RateLimitConfig) {channel channel' : Channel}
    (h : ConnectionRateLimiter.windowIndex channel' = ConnectionRateLimiter.windowIndex channel) :
    classLimit config channel' = classLimit config channel := by
  cases channel <;> cases channel' <;> first | rfl | cases h

/-- What holds of the limiter and of the checks of one class after a run. -/
structure ClassRun (config : RateLimitConfig) (channel : Channel) (s : Limited) : Prop where
  config_eq : s.limiter.config = config
  counts : ∃ earlier cur, earlier ++ cur = s.checks.filter (Check.counted config channel) ∧
    WindowCounts (classLimit config channel)
      (s.limiter.windows (ConnectionRateLimiter.windowIndex channel)) earlier cur
  /-- What is allowed was counted. -/
  counted : ∀ c ∈ s.checks, c.ofClass channel = true → c.isAllowed = true →
    c.counted config channel = true
  /-- A class that keeps to its limit is allowed what is counted. -/
  keeps : (∀ t, arrivals channel t s.checks ≤ classLimit config channel) →
    ∀ c ∈ s.checks, c.counted config channel = true → c.isAllowed = true

theorem arrivals_mono (channel : Channel) (t : Nat) (cs cs' : List Check) :
    arrivals channel t cs ≤ arrivals channel t (cs ++ cs') := by
  rw [arrivals, arrivals, List.countP_append]
  exact Nat.le_add_right _ _

/-- Counted frames are frames of the class. -/
theorem countP_counted_le (config : RateLimitConfig) (channel : Channel) (t : Nat)
    (cs : List Check) :
    (cs.filter (Check.counted config channel)).countP (Check.within t) ≤
      arrivals channel t cs := by
  rw [List.countP_filter, arrivals]
  refine List.countP_mono_left fun c _ h => ?_
  simp only [Check.counted, Bool.and_eq_true] at h ⊢
  exact ⟨h.2.1, h.1⟩

theorem nowMs_mem_clock (config : RateLimitConfig) (calls : List LimiterCall) :
    ∀ c ∈ checks config calls, c.nowMs ∈ calls.filterMap LimiterCall.nowMs := by
  induction calls using List.reverseRecOn with
  | nil => exact nofun
  | append_singleton calls call ih =>
    intro c hc
    rw [checks, Limited.after_concat] at hc
    rw [List.filterMap_append, List.mem_append]
    cases call with
    | checkFrame nowMs channel payloadLen =>
      rcases List.mem_append.mp hc with hc | hc
      · exact .inl (ih c hc)
      · obtain rfl := List.mem_singleton.mp hc
        exact .inr (List.mem_singleton_self _)
    | frameSent payloadLen => exact .inl (ih c hc)
    | tickAbuseCheck nowMs => exact .inl (ih c hc)
    | shouldLogDrop nowMs => exact .inl (ih c hc)

namespace ClassRun

variable {config : RateLimitConfig} {channel : Channel} {s : Limited}

theorem new : ClassRun config channel ⟨.new config, []⟩ where
  config_eq := rfl
  counts := ⟨[], [], rfl, .nil, .nil, rfl, .inl rfl⟩
  counted := nofun
  keeps := nofun

/-- A call that neither checks a frame nor touches the windows. -/
theorem other (h : ClassRun config channel s) {l : ConnectionRateLimiter}
    (hconfig : l.config = s.limiter.config) (hwindows : l.windows = s.limiter.windows) :
    ClassRun config channel { s with limiter := l } where
  config_eq := hconfig.trans h.config_eq
  counts := hwindows ▸ h.counts
  counted := h.counted
  keeps := h.keeps

/-- A check that the window of the class does not count: of another class, or beyond the
budget. -/
theorem uncounted (h : ClassRun config channel s) {l : ConnectionRateLimiter} {c : Check}
    (hconfig : l.config = s.limiter.config)
    (hwindow : l.windows (ConnectionRateLimiter.windowIndex channel) =
      s.limiter.windows (ConnectionRateLimiter.windowIndex channel))
    (hcounted : c.counted config channel = false)
    (hdropped : c.ofClass channel = true → c.isAllowed = false) :
    ClassRun config channel ⟨l, s.checks ++ [c]⟩ where
  config_eq := hconfig.trans h.config_eq
  counts := by
    obtain ⟨earlier, cur, heq, hcounts⟩ := h.counts
    refine ⟨earlier, cur, ?_, hwindow ▸ hcounts⟩
    rw [heq, List.filter_append, List.filter_singleton, hcounted]
    exact (List.append_nil _).symm
  counted b hb hclass hallowed := by
    rcases List.mem_append.mp hb with hb | hb
    · exact h.counted b hb hclass hallowed
    · obtain rfl := List.mem_singleton.mp hb
      exact absurd hallowed (by simp [hdropped hclass])
  keeps hlimit b hb hb' := by
    rcases List.mem_append.mp hb with hb | hb
    · exact h.keeps (fun t => Nat.le_trans (arrivals_mono _ _ _ _) (hlimit t)) b hb hb'
    · obtain rfl := List.mem_singleton.mp hb
      exact absurd hb' (by simp [hcounted])

/-- A check that the window of the class counts. -/
theorem record (h : ClassRun config channel s) {l : ConnectionRateLimiter} {c : Check}
    (hconfig : l.config = s.limiter.config)
    (hwindow : l.windows (ConnectionRateLimiter.windowIndex channel) =
      ((s.limiter.windows (ConnectionRateLimiter.windowIndex channel)).record c.nowMs).2)
    (hcounted : c.counted config channel = true)
    (hresult : c.result = .allowed ↔
      ((s.limiter.windows (ConnectionRateLimiter.windowIndex channel)).record c.nowMs).1.toNat ≤
        classLimit config channel)
    (hclock : ∀ b ∈ s.checks, b.nowMs ≤ c.nowMs)
    (hroom : ∀ t, arrivals channel t (s.checks ++ [c]) < 2 ^ 64) :
    ClassRun config channel ⟨l, s.checks ++ [c]⟩ := by
  obtain ⟨earlier, cur, heq, hcounts⟩ := h.counts
  have hfilter : (s.checks ++ [c]).filter (Check.counted config channel) =
      earlier ++ cur ++ [c] := by
    rw [List.filter_append, List.filter_singleton, hcounted, ← heq]
    rfl
  have harrivals : ∀ t, (earlier ++ cur ++ [c]).countP (Check.within t) ≤
      arrivals channel t (s.checks ++ [c]) :=
    fun t => hfilter ▸ countP_counted_le config channel t _
  -- the frames of the window are among the earlier checks
  have hcur : ∀ b ∈ cur, b.nowMs ≤ c.nowMs := by
    intro b hb
    have hmem : b ∈ s.checks.filter (Check.counted config channel) :=
      heq ▸ List.mem_append_right _ hb
    exact hclock b (List.mem_filter.mp hmem).1
  obtain ⟨earlier', cur', heq', hcounts', hcount⟩ :=
    hcounts.record hcur (fun t => Nat.lt_of_le_of_lt (harrivals t) (hroom t)) hresult
  refine ⟨hconfig.trans h.config_eq, ⟨earlier', cur', heq'.trans hfilter.symm, hwindow ▸ hcounts'⟩,
    fun b hb hclass hallowed => ?_, fun hlimit b hb hb' => ?_⟩
  · rcases List.mem_append.mp hb with hb | hb
    · exact h.counted b hb hclass hallowed
    · exact List.mem_singleton.mp hb ▸ hcounted
  · rcases List.mem_append.mp hb with hb | hb
    · exact h.keeps (fun t => Nat.le_trans (arrivals_mono _ _ _ _) (hlimit t)) b hb hb'
    · obtain rfl := List.mem_singleton.mp hb
      rw [Check.isAllowed, decide_eq_true_eq]
      exact hresult.mpr (Nat.le_trans hcount (Nat.le_trans (harrivals _) (hlimit _)))

/-- **One check.** It belongs to another class, is beyond the budget, or is counted. -/
theorem checkFrame (h : ClassRun config channel s) {nowMs payloadLen : UInt64}
    {channel' : Channel} (hclock : ∀ b ∈ s.checks, b.nowMs ≤ nowMs)
    (hroom : ∀ t, arrivals channel t (s.call (.checkFrame nowMs channel' payloadLen)).checks <
      2 ^ 64) :
    ClassRun config channel (s.call (.checkFrame nowMs channel' payloadLen)) := by
  obtain ⟨l, checks⟩ := s
  obtain rfl : l.config = config := h.config_eq
  rw [Limited.call_checkFrame] at hroom ⊢
  dsimp only at hclock hroom ⊢
  by_cases hover : saturatingAdd l.bytesOutstanding payloadLen > l.config.memoryBudget
  · -- beyond the budget the windows do not see the frame
    have hcheck := l.checkFrame_overBudget nowMs channel' hover
    refine h.uncounted (congrArg (·.2.config) hcheck)
      (congrArg (·.2.windows (ConnectionRateLimiter.windowIndex channel)) hcheck) ?_ fun _ => ?_
    · simp [Check.counted, hover]
    · simp [Check.isAllowed, hcheck]
  · obtain ⟨hwindows, hresult⟩ :=
      l.checkFrame_withinBudget nowMs channel' hover
    by_cases hclass : ConnectionRateLimiter.windowIndex channel' =
        ConnectionRateLimiter.windowIndex channel
    · -- a frame of the class, or of one that shares its window
      have hlimit := classLimit_congr l.config hclass
      rw [hclass] at hwindows hresult
      refine h.record l.checkFrame_config ((congrFun hwindows _).trans (Function.update_self _ _ _))
        ?_ (hlimit ▸ hresult) hclock hroom
      simp [Check.counted, Check.ofClass, hclass, hover]
    · refine h.uncounted l.checkFrame_config
        ((congrFun hwindows _).trans (Function.update_of_ne (Ne.symm hclass) _ _)) ?_ fun h => ?_
      · simp [Check.counted, Check.ofClass, hclass]
      · exact absurd (decide_eq_true_eq.mp h) hclass

/-- **A whole run**, on a clock that does not run backwards. -/
theorem after (config : RateLimitConfig) (channel : Channel) (calls : List LimiterCall)
    (hclock : NondecreasingClock calls)
    (hroom : ∀ t, arrivals channel t (checks config calls) < 2 ^ 64) :
    ClassRun config channel (Limited.after config calls) := by
  induction calls using List.reverseRecOn with
  | nil => exact new
  | append_singleton calls call ih =>
    rw [NondecreasingClock, List.filterMap_append, List.pairwise_append] at hclock
    obtain ⟨hbefore, -, hlast⟩ := hclock
    rw [checks, Limited.after_concat] at hroom
    -- fewer frames have arrived before the last call
    have hprefix : ∀ t, arrivals channel t (checks config calls) < 2 ^ 64 := by
      intro t
      refine Nat.lt_of_le_of_lt ?_ (hroom t)
      cases call with
      | checkFrame => exact arrivals_mono _ _ _ _
      | _ => exact Nat.le_refl _
    have hrun := ih hbefore hprefix
    rw [Limited.after_concat]
    cases call with
    | checkFrame nowMs channel' payloadLen =>
      exact hrun.checkFrame (fun b hb =>
        hlast _ (nowMs_mem_clock config calls b hb) _ (List.mem_singleton_self _)) hroom
    | frameSent payloadLen =>
      exact hrun.other (by simp) (by simp)
    | tickAbuseCheck nowMs =>
      exact hrun.other (by simp) (by simp)
    | shouldLogDrop nowMs =>
      exact hrun.other (by simp) (by simp)

end ClassRun

/-- A sum within the budget does not saturate. -/
theorem saturatingAdd_le {a b m : UInt64} (h : a.toNat + b.toNat ≤ m.toNat) :
    saturatingAdd a b ≤ m := by
  have hsmall : a.toNat + b.toNat < 2 ^ 64 := Nat.lt_of_le_of_lt h m.toNat_lt
  rw [saturatingAdd, if_pos hsmall, UInt64.le_iff_toNat_le, UInt64.toNat_add,
    Nat.mod_eq_of_lt hsmall]
  exact h

/-- **Rate guarantee.** On a clock that does not run backwards, for every class: in any
1000 ms at most twice its limit is allowed, as long as fewer than `2 ^ 64` of its frames
arrive in any 1000 ms; and if in any 1000 ms at most as many arrive as the limit says, all
that fit the budget, none is dropped. -/
theorem rateGuarantee (config : RateLimitConfig) (calls : List LimiterCall)
    (hclock : NondecreasingClock calls) (channel : Channel) :
    ((∀ t, arrivals channel t (checks config calls) < 2 ^ 64) →
      ∀ t, allowedFrames channel t (checks config calls) ≤ 2 * classLimit config channel) ∧
    ((∀ t, arrivals channel t (checks config calls) ≤ classLimit config channel) →
      (∀ c ∈ checks config calls, c.ofClass channel = true → c.FitsBudget config) →
      ∀ c ∈ checks config calls, c.ofClass channel = true → c.result ≠ .dropped) := by
  constructor
  · intro hroom t
    have hrun := ClassRun.after config channel calls hclock hroom
    obtain ⟨earlier, cur, heq, hcounts⟩ := hrun.counts
    -- the allowed frames are among the counted ones
    have hle : allowedFrames channel t (checks config calls) ≤
        ((checks config calls).filter (Check.counted config channel)).countP
          (passedIn (fun c => c.nowMs.toNat) 1000 Check.isAllowed t) := by
      rw [List.countP_filter, allowedFrames]
      refine List.countP_mono_left fun c hc h => ?_
      rw [Bool.and_eq_true, Bool.and_eq_true] at h
      rw [Bool.and_eq_true, passedIn, Bool.and_eq_true]
      exact ⟨h.2, hrun.counted c hc h.1 h.2.1⟩
    refine Nat.le_trans hle ?_
    rw [checks, ← heq]
    exact hcounts.bounded.countP_le hcounts.windows t
  · intro hlimit hfits c hc hclass hdropped
    have hsmall : classLimit config channel < 2 ^ 64 :=
      Nat.lt_trans (UInt32.toNat_lt _) (by decide)
    have hrun := ClassRun.after config channel calls hclock
      fun t => Nat.lt_of_le_of_lt (hlimit t) hsmall
    have hcounted : c.counted config channel = true := by
      have hbudget := saturatingAdd_le (hfits c hc hclass)
      simp [Check.counted, hclass, UInt64.not_lt.mpr hbudget]
    have := hrun.keeps hlimit c hc hcounted
    simp [Check.isAllowed, hdropped] at this

/-- The bound is met: two frames at the end of one window, two at the start of the next. -/
theorem rateGuarantee_boundary :
    let config := { RateLimitConfig.default with videoFps := 2 }
    let calls := [998, 999, 1000, 1001].map fun nowMs => LimiterCall.checkFrame nowMs .video 1
    allowedFrames .video 998 (checks config calls) = 4 ∧
      ∀ t, allowedFrames .video t (checks config calls) ≤ 4 := by
  intro config calls
  refine ⟨by decide, (rateGuarantee config calls (by decide) .video).1 fun t => ?_⟩
  exact Nat.lt_of_le_of_lt List.countP_le_length (by decide)

/-- `n` empty video frames within the first millisecond. -/
def flood (n : Nat) : List LimiterCall := List.replicate n (.checkFrame 0 .video 0)

theorem flood_succ (n : Nat) : flood (n + 1) = flood n ++ [.checkFrame 0 .video 0] :=
  List.replicate_succ'

/-- An empty frame is counted like any other and leaves the outstanding bytes alone. -/
theorem ConnectionRateLimiter.checkFrame_empty {l : ConnectionRateLimiter}
    (hbytes : l.bytesOutstanding = 0) (count : UInt64) (hwindow : l.windows 0 = ⟨count, 0⟩) :
    (l.checkFrame 0 .video 0).2.bytesOutstanding = 0 ∧
      (l.checkFrame 0 .video 0).2.windows 0 = ⟨count + 1, 0⟩ ∧
      ((l.checkFrame 0 .video 0).1 = .allowed ↔ (count + 1).toNat ≤ l.config.videoFps.toNat) := by
  have hbudget : ¬ saturatingAdd l.bytesOutstanding 0 > l.config.memoryBudget := by
    rw [hbytes]
    exact UInt64.not_lt.mpr (saturatingAdd_le (Nat.zero_le _))
  have hrecord : (l.windows 0).record 0 = (count + 1, ⟨count + 1, 0⟩) := by
    have hopen : ¬ saturatingSub 0 0 ≥ 1000 := by decide
    rw [hwindow, ChannelWindow.record, if_neg hopen]
  obtain ⟨hwindows, hresult⟩ :=
    l.checkFrame_withinBudget 0 .video hbudget
  rw [ConnectionRateLimiter.windowIndex, hrecord] at hwindows hresult
  refine ⟨?_, (congrFun hwindows 0).trans (Function.update_self _ _ _), hresult⟩
  rw [ConnectionRateLimiter.checkFrame, if_neg hbudget]
  dsimp only
  split
  · exact hbytes
  · show l.bytesOutstanding + 0 = 0
    rw [hbytes]
    rfl

/-- Allowed or dropped, each frame of the flood is counted, modulo `2 ^ 64`. -/
theorem after_flood (config : RateLimitConfig) (n : Nat) :
    (Limited.after config (flood n)).limiter.bytesOutstanding = 0 ∧
      (Limited.after config (flood n)).limiter.windows 0 = ⟨UInt64.ofNat n, 0⟩ ∧
      (Limited.after config (flood n)).limiter.config = config := by
  induction n with
  | zero => exact ⟨rfl, rfl, rfl⟩
  | succ n ih =>
    obtain ⟨hbytes, hwindow, hconfig⟩ := ih
    obtain ⟨hbytes', hwindow', -⟩ := ConnectionRateLimiter.checkFrame_empty hbytes _ hwindow
    rw [flood_succ, Limited.after_concat, Limited.call_checkFrame, UInt64.ofNat_add]
    exact ⟨hbytes', hwindow', ConnectionRateLimiter.checkFrame_config.trans hconfig⟩

/-- With a limit of zero for video, the frame with which the 64-bit count of its window wraps
to zero is allowed. -/
theorem wrappedCount_allows :
    let config := { RateLimitConfig.default with videoFps := 0 }
    NondecreasingClock (flood (2 ^ 64)) ∧
      ¬ allowedFrames .video 0 (checks config (flood (2 ^ 64))) ≤ 2 * classLimit config .video := by
  intro config
  constructor
  · have hclock : (flood (2 ^ 64)).filterMap LimiterCall.nowMs = List.replicate (2 ^ 64) 0 :=
      List.filterMap_replicate_of_some rfl
    rw [NondecreasingClock, hclock, List.pairwise_replicate]
    exact .inr (UInt64.le_refl 0)
  · obtain ⟨hbytes, hwindow, hconfig⟩ := after_flood config (2 ^ 64 - 1)
    obtain ⟨-, -, hresult⟩ := ConnectionRateLimiter.checkFrame_empty hbytes _ hwindow
    rw [hconfig] at hresult
    have hlast : flood (2 ^ 64) = flood (2 ^ 64 - 1) ++ [.checkFrame 0 .video 0] := flood_succ _
    rw [checks, hlast, Limited.after_concat, Limited.call_checkFrame, hresult.mpr (by decide),
      allowedFrames, List.countP_append]
    exact Nat.not_le.mpr (Nat.lt_of_lt_of_le Nat.one_pos (Nat.le_add_left _ _))

end Kodama
