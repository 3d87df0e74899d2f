import Kodama.Lib.Machine
import Kodama.Server.RateLimit
import Mathlib.Data.Finset.Card
import Mathlib.Data.Finset.Dedup

/-!
# The camera loop (server/router.rs, `handle_camera` and `handle_camera_with_receiver`)

Both handlers receive the frames of a camera in the same loop: each frame is checked by the
connection's limiter and broadcast if it is allowed, and after every 30 frames the limiter
is asked whether drops have gone on for too long, which ends the loop. The abuse check means
to be called once per second; here it is called as often as 30 frames arrive, and each
call that finds a drop in the current or the previous second counts one more second.

- `sustainedAbuse_of_countsNewSecond`: where no check counts a second of drops twice, the
  loop ends for abuse only after drops in as many seconds as the threshold says.
- `burst_disconnects`: with the default configuration, 420 frames within one millisecond
  end the loop for ten seconds of abuse.
-/

namespace Kodama

open Lib

/-- Why the loop was left. -/
inductive LoopExit where
  /-- Sustained rate limit abuse. -/
  | abuse
  /-- The stream was closed (`Ok(None)`). -/
  | closed
  /-- The stream failed (`Err`). -/
  | error
deriving DecidableEq

/-- Where the loop stands. -/
inductive CameraLoop where
  | receiving (limiter : ConnectionRateLimiter) (framesSinceAbuseCheck : UInt32)
  /-- 30 frames have been received since the last abuse check. -/
  | checkingAbuse (limiter : ConnectionRateLimiter)
  | exited (limiter : ConnectionRateLimiter) (reason : LoopExit)

namespace CameraLoop

/-- What the receiver and the clock do to the loop. -/
inductive Event where
  /-- A frame arrives; with the clock at its check and at the decision to log a drop. -/
  | frame (frame : Frame) (checkMs logMs : UInt64)
  | tick (nowMs : UInt64)
  | closed
  | error

/-- The loop as it is entered. -/
def start (config : RateLimitConfig) : CameraLoop := receiving (.new config) 0

/-- What the limiter goes through for one frame: a dropped one may be logged, an allowed one
is broadcast and released. -/
def afterFrame (limiter : ConnectionRateLimiter) (frame : Frame) (checkMs logMs : UInt64) :
    ConnectionRateLimiter :=
  let payloadLen := UInt64.ofNat frame.payload.length
  let (result, limiter) := limiter.checkFrame checkMs frame.channel payloadLen
  match result with
  | .dropped => (limiter.shouldLogDrop logMs).2
  | .allowed => limiter.frameSent payloadLen

def step : CameraLoop → Event → Option CameraLoop
  | receiving limiter framesSinceAbuseCheck, .frame frame checkMs logMs =>
    let limiter := afterFrame limiter frame checkMs logMs
    let framesSinceAbuseCheck := framesSinceAbuseCheck + 1
    if framesSinceAbuseCheck ≥ 30 then some (checkingAbuse limiter)
    else some (receiving limiter framesSinceAbuseCheck)
  | receiving limiter _, .closed => some (exited limiter .closed)
  | receiving limiter _, .error => some (exited limiter .error)
  | checkingAbuse limiter, .tick nowMs =>
    let (abuse, limiter) := limiter.tickAbuseCheck nowMs
    some (if abuse then exited limiter .abuse else receiving limiter 0)
  | _, _ => none

def limiter : CameraLoop → ConnectionRateLimiter
  | receiving limiter _ => limiter
  | checkingAbuse limiter => limiter
  | exited limiter _ => limiter

/-- Why the loop was left, if it was. -/
def exitReason : CameraLoop → Option LoopExit
  | exited _ reason => some reason
  | _ => none

/-- Everything a step can do: the limiter goes through a frame, the stream ends, or an abuse check
decides whether the loop goes on. -/
inductive Move (t : CameraLoop) : Event → CameraLoop → Prop where
  | frame (frame : Frame) (checkMs logMs : UInt64) (u : CameraLoop)
      (hlimiter : u.limiter = afterFrame t.limiter frame checkMs logMs)
      (hstays : u.exitReason = none) : Move t (.frame frame checkMs logMs) u
  | tick (nowMs : UInt64) : Move t (.tick nowMs)
      (if (t.limiter.tickAbuseCheck nowMs).1 then exited (t.limiter.tickAbuseCheck nowMs).2 .abuse
        else receiving (t.limiter.tickAbuseCheck nowMs).2 0)
  | closed : Move t .closed (exited t.limiter .closed)
  | error : Move t .error (exited t.limiter .error)

theorem move_of_step {t u : CameraLoop} {event : Event} (hstep : t.step event = some u) :
    Move t event u := by
  cases t with
  | receiving limiter framesSinceAbuseCheck =>
    cases event with
    | frame frame checkMs logMs =>
      simp only [step] at hstep
      split at hstep
      · obtain rfl := Option.some.inj hstep
        exact .frame frame checkMs logMs _ rfl rfl
      · obtain rfl := Option.some.inj hstep
        exact .frame frame checkMs logMs _ rfl rfl
    | tick nowMs => cases hstep
    | closed => exact Option.some.inj hstep ▸ .closed
    | error => exact Option.some.inj hstep ▸ .error
  | checkingAbuse limiter =>
    cases event with
    | tick nowMs => exact Option.some.inj hstep ▸ .tick nowMs
    | frame frame checkMs logMs => cases hstep
    | closed => cases hstep
    | error => cases hstep
  | exited limiter reason => cases event <;> cases hstep

end CameraLoop

/-! ## The seconds with drops -/

/-- A loop with the seconds in which its limiter recorded drops, and the one that the last
abuse check counted, unless it counted none. -/
structure WatchedLoop where
  loop : CameraLoop
  dropSeconds : List UInt64
  counted : Option UInt64

namespace WatchedLoop

def start (config : RateLimitConfig) : WatchedLoop := ⟨.start config, [], none⟩

/-- The second of the drop recorded for a frame, if it is dropped. -/
def dropOf (limiter : ConnectionRateLimiter) : CameraLoop.Event → List UInt64
  | .frame frame checkMs _ =>
    match (limiter.checkFrame checkMs frame.channel (UInt64.ofNat frame.payload.length)).1 with
    | .dropped => [checkMs / 1000]
    | .allowed => []
  | _ => []

/-- A check at `nowMs` finds a drop in the current or the previous second. -/
def DroppedRecently (limiter : ConnectionRateLimiter) (nowMs : UInt64) : Prop :=
  limiter.lastDropSecond = nowMs / 1000 ∨
    limiter.lastDropSecond = saturatingSub (nowMs / 1000) 1

instance (limiter : ConnectionRateLimiter) (nowMs : UInt64) :
    Decidable (DroppedRecently limiter nowMs) :=
  inferInstanceAs (Decidable (_ ∨ _))

/-- The second that a step counts, or keeps counted. -/
def countedBy (s : WatchedLoop) : CameraLoop.Event → Option UInt64
  | .tick nowMs =>
    if DroppedRecently s.loop.limiter nowMs then some s.loop.limiter.lastDropSecond else none
  | _ => s.counted

def step (s : WatchedLoop) (event : CameraLoop.Event) : Option WatchedLoop :=
  (s.loop.step event).map fun loop =>
    ⟨loop, s.dropSeconds ++ dropOf s.loop.limiter event, s.countedBy event⟩

/-- If the loop was left for abuse, drops were recorded in as many distinct seconds as the
threshold says. -/
def SustainedAbuse (config : RateLimitConfig) (s : WatchedLoop) : Prop :=
  s.loop.exitReason = some .abuse →
    config.abuseThresholdSecs.toNat ≤ s.dropSeconds.toFinset.card

/-- An abuse check that finds a recent drop finds it in a later second than the one that the
check before it counted, if that counted any. -/
def CountsNewSecond (s : WatchedLoop) : CameraLoop.Event → WatchedLoop → Prop
  | .tick nowMs, _ => DroppedRecently s.loop.limiter nowMs →
      ∀ second ∈ s.counted, second < s.loop.limiter.lastDropSecond
  | _, _ => True

instance : ∀ s event s', Decidable (CountsNewSecond s event s')
  | s, .tick nowMs, _ =>
    have : Decidable (∀ second ∈ s.counted, second < s.loop.limiter.lastDropSecond) :=
      Option.decidableForallMem s.counted
    inferInstanceAs (Decidable (DroppedRecently _ nowMs → _))
  | _, .frame _ _ _, _ => isTrue trivial
  | _, .closed, _ => isTrue trivial
  | _, .error, _ => isTrue trivial

end WatchedLoop

/-! ## What the loop does to the bookkeeping of drops -/

/-- The bookkeeping of drops of a limiter. -/
def Bookkeeping (l l' : ConnectionRateLimiter) : Prop :=
  l'.config = l.config ∧ l'.abuseSeconds = l.abuseSeconds ∧ l'.lastDropSecond = l.lastDropSecond

section Bookkeeping

variable {limiter : ConnectionRateLimiter} {nowMs : UInt64}

theorem frameSent_bookkeeping (l : ConnectionRateLimiter) (payloadLen : UInt64) :
    Bookkeeping l (l.frameSent payloadLen) := by
  rw [ConnectionRateLimiter.frameSent]
  split <;> exact ⟨rfl, rfl, rfl⟩

theorem shouldLogDrop_bookkeeping (l : ConnectionRateLimiter) (nowMs : UInt64) :
    Bookkeeping l (l.shouldLogDrop nowMs).2 := by
  rw [ConnectionRateLimiter.shouldLogDrop]
  split <;> exact ⟨rfl, rfl, rfl⟩

/-- An allowed frame leaves the bookkeeping alone, a dropped one enters its second. -/
theorem checkFrame_bookkeeping (l : ConnectionRateLimiter) (nowMs : UInt64) (channel : Channel)
    (payloadLen : UInt64) :
    (l.checkFrame nowMs channel payloadLen).2.config = l.config ∧
    (l.checkFrame nowMs channel payloadLen).2.abuseSeconds = l.abuseSeconds ∧
    (l.checkFrame nowMs channel payloadLen).2.lastDropSecond =
      match (l.checkFrame nowMs channel payloadLen).1 with
      | .dropped => nowMs / 1000
      | .allowed => l.lastDropSecond := by
  rw [ConnectionRateLimiter.checkFrame]
  split
  · exact ⟨rfl, rfl, rfl⟩
  · dsimp only
    split <;> exact ⟨rfl, rfl, rfl⟩

/-- One frame enters the seconds of drops exactly as the watched loop sees it. -/
theorem afterFrame_bookkeeping (limiter : ConnectionRateLimiter) (frame : Frame)
    (checkMs logMs : UInt64) :
    (CameraLoop.afterFrame limiter frame checkMs logMs).config = limiter.config ∧
    (CameraLoop.afterFrame limiter frame checkMs logMs).abuseSeconds = limiter.abuseSeconds ∧
    ((CameraLoop.afterFrame limiter frame checkMs logMs).lastDropSecond = limiter.lastDropSecond ∨
      (CameraLoop.afterFrame limiter frame checkMs logMs).lastDropSecond ∈
        WatchedLoop.dropOf limiter (.frame frame checkMs logMs)) := by
  obtain ⟨hconfig, habuse, hlast⟩ := checkFrame_bookkeeping limiter checkMs
    frame.channel (UInt64.ofNat frame.payload.length)
  simp only [CameraLoop.afterFrame, WatchedLoop.dropOf]
  split
  · next hdropped =>
    obtain ⟨hconfig', habuse', hlast'⟩ := shouldLogDrop_bookkeeping
      (limiter.checkFrame checkMs frame.channel (UInt64.ofNat frame.payload.length)).2 logMs
    rw [hdropped] at hlast
    exact ⟨hconfig'.trans hconfig, habuse'.trans habuse,
      .inr (List.mem_singleton.mpr (hlast'.trans hlast))⟩
  · next hallowed =>
    obtain ⟨hconfig', habuse', hlast'⟩ := frameSent_bookkeeping
      (limiter.checkFrame checkMs frame.channel (UInt64.ofNat frame.payload.length)).2
      (UInt64.ofNat frame.payload.length)
    rw [hallowed] at hlast
    exact ⟨hconfig'.trans hconfig, habuse'.trans habuse, .inl (hlast'.trans hlast)⟩

/-- An abuse check that finds a recent drop counts one more second. -/
theorem tickAbuseCheck_of_recent (h : WatchedLoop.DroppedRecently limiter nowMs) :
    limiter.tickAbuseCheck nowMs =
      (decide (limiter.abuseSeconds + 1 ≥ limiter.config.abuseThresholdSecs),
        { limiter with abuseSeconds := limiter.abuseSeconds + 1 }) := by
  rw [ConnectionRateLimiter.tickAbuseCheck]
  exact if_pos h

theorem tickAbuseCheck_of_not_recent (h : ¬ WatchedLoop.DroppedRecently limiter nowMs) :
    limiter.tickAbuseCheck nowMs = (false, { limiter with abuseSeconds := 0 }) := by
  rw [ConnectionRateLimiter.tickAbuseCheck]
  exact if_neg h

/-- The second that stands for "no drop yet" is no second of the clock. -/
theorem ne_max_of_recent (h : WatchedLoop.DroppedRecently limiter nowMs) :
    limiter.lastDropSecond ≠ UInt64.ofNat (2 ^ 64 - 1) := by
  have hsecond : (nowMs / 1000).toNat = nowMs.toNat / 1000 := UInt64.toNat_div _ _
  have hmax : (UInt64.ofNat (2 ^ 64 - 1)).toNat = 2 ^ 64 - 1 := rfl
  have hnow := nowMs.toNat_lt
  intro heq
  have hlast : limiter.lastDropSecond.toNat = 2 ^ 64 - 1 := heq ▸ hmax
  rcases h with h | h
  · rw [h, hsecond] at hlast
    omega
  · rw [h, saturatingSub] at hlast
    split at hlast
    · next hle =>
      rw [UInt64.toNat_sub_of_le _ _ hle, hsecond] at hlast
      omega
    · exact absurd hlast (by decide)

end Bookkeeping

namespace WatchedLoop

/-! ## The invariant -/

/-- The distinct seconds with drops up to the one counted last. -/
def countedSeconds (s : WatchedLoop) : Finset UInt64 :=
  match s.counted with
  | some second => s.dropSeconds.toFinset.filter (· ≤ second)
  | none => ∅

/-- What holds before and after every step that counts a new second. -/
structure CountsSeconds (config : RateLimitConfig) (s : WatchedLoop) : Prop where
  config_eq : s.loop.limiter.config = config
  lastDrop : s.loop.limiter.lastDropSecond = UInt64.ofNat (2 ^ 64 - 1) ∨
    s.loop.limiter.lastDropSecond ∈ s.dropSeconds
  abuse_le : s.loop.limiter.abuseSeconds.toNat ≤ s.countedSeconds.card
  sustained : SustainedAbuse config s

/-- A later second with drops, and those up to it are at least one more. -/
theorem countedSeconds_lt {s : WatchedLoop} {second : UInt64} (hmem : second ∈ s.dropSeconds)
    (hlater : ∀ second' ∈ s.counted, second' < second) :
    s.countedSeconds.card + 1 ≤ (s.dropSeconds.toFinset.filter (· ≤ second)).card := by
  have hnot : second ∉ s.countedSeconds := by
    rw [countedSeconds]
    split
    · next second' heq =>
      intro h
      exact UInt64.not_le.mpr (hlater second' heq) (Finset.mem_filter.mp h).2
    · exact Finset.notMem_empty _
  rw [← Finset.card_insert_of_notMem hnot]
  refine Finset.card_le_card fun b hb => ?_
  rcases Finset.mem_insert.mp hb with rfl | hb
  · exact Finset.mem_filter.mpr ⟨List.mem_toFinset.mpr hmem, UInt64.le_refl b⟩
  · rw [countedSeconds] at hb
    split at hb
    · next second' heq =>
      obtain ⟨hb, hle⟩ := Finset.mem_filter.mp hb
      exact Finset.mem_filter.mpr ⟨hb, UInt64.le_trans hle (UInt64.le_of_lt (hlater second' heq))⟩
    · exact absurd hb (Finset.notMem_empty _)

/-- Frames only add seconds with drops. -/
theorem countedSeconds_mono {s : WatchedLoop} (loop : CameraLoop) (seconds : List UInt64) :
    s.countedSeconds.card ≤
      (WatchedLoop.mk loop (s.dropSeconds ++ seconds) s.counted).countedSeconds.card := by
  refine Finset.card_le_card ?_
  rw [countedSeconds, countedSeconds]
  dsimp only
  split
  · refine Finset.filter_subset_filter _ fun b hb => ?_
    exact List.mem_toFinset.mpr (List.mem_append_left _ (List.mem_toFinset.mp hb))
  · exact Finset.Subset.refl _

namespace CountsSeconds

variable {config : RateLimitConfig} {s s' : WatchedLoop}

theorem start (config : RateLimitConfig) : CountsSeconds config (.start config) where
  config_eq := rfl
  lastDrop := .inl rfl
  abuse_le := Nat.le_refl _
  sustained := nofun

/-- A frame. -/
theorem afterFrame (h : CountsSeconds config s) {frame : Frame} {checkMs logMs : UInt64}
    {loop : CameraLoop}
    (hlimiter : loop.limiter = CameraLoop.afterFrame s.loop.limiter frame checkMs logMs)
    (hstays : loop.exitReason ≠ some .abuse) :
    CountsSeconds config
      ⟨loop, s.dropSeconds ++ dropOf s.loop.limiter (.frame frame checkMs logMs), s.counted⟩ := by
  obtain ⟨hconfig, habuse, hlast⟩ := afterFrame_bookkeeping s.loop.limiter frame checkMs
    logMs
  rw [← hlimiter] at hconfig habuse hlast
  refine ⟨hconfig.trans h.config_eq, ?_, ?_, fun hexit => absurd hexit hstays⟩
  · rcases hlast with hlast | hlast
    · rw [hlast]
      exact h.lastDrop.imp_right fun hmem => List.mem_append_left _ hmem
    · exact .inr (List.mem_append_right _ hlast)
  · rw [habuse]
    exact Nat.le_trans h.abuse_le (countedSeconds_mono _ _)

/-- The stream ends. -/
theorem exit (h : CountsSeconds config s) {reason : LoopExit} (hreason : reason ≠ .abuse) :
    CountsSeconds config ⟨.exited s.loop.limiter reason, s.dropSeconds ++ [], s.counted⟩ := by
  rw [List.append_nil]
  exact ⟨h.config_eq, h.lastDrop, h.abuse_le, fun hexit => absurd (Option.some.inj hexit) hreason⟩

/-- An abuse check that counts a new second. -/
theorem tick (h : CountsSeconds config s) {nowMs : UInt64}
    (hnew : DroppedRecently s.loop.limiter nowMs →
      ∀ second ∈ s.counted, second < s.loop.limiter.lastDropSecond) :
    CountsSeconds config
      ⟨if (s.loop.limiter.tickAbuseCheck nowMs).1
        then .exited (s.loop.limiter.tickAbuseCheck nowMs).2 .abuse
        else .receiving (s.loop.limiter.tickAbuseCheck nowMs).2 0,
        s.dropSeconds ++ [], s.countedBy (.tick nowMs)⟩ := by
  rw [List.append_nil, countedBy]
  by_cases hrecent : DroppedRecently s.loop.limiter nowMs
  · -- the second found has drops, and was not counted before
    have hmem := h.lastDrop.resolve_left (ne_max_of_recent hrecent)
    have hsecs : (s.loop.limiter.abuseSeconds + 1).toNat ≤
        (s.dropSeconds.toFinset.filter (· ≤ s.loop.limiter.lastDropSecond)).card := by
      refine Nat.le_trans ?_ (countedSeconds_lt hmem (hnew hrecent))
      rw [UInt64.toNat_add]
      exact Nat.le_trans (Nat.mod_le _ _) (Nat.succ_le_succ h.abuse_le)
    rw [tickAbuseCheck_of_recent hrecent, if_pos hrecent]
    split
    · next habuse =>
      refine ⟨h.config_eq, .inr hmem, hsecs, fun _ => ?_⟩
      have hthreshold := UInt64.le_iff_toNat_le.mp (decide_eq_true_eq.mp habuse)
      rw [h.config_eq] at hthreshold
      exact Nat.le_trans hthreshold (Nat.le_trans hsecs
        (Finset.card_le_card (Finset.filter_subset _ _)))
    · exact ⟨h.config_eq, .inr hmem, hsecs, nofun⟩
  · rw [tickAbuseCheck_of_not_recent hrecent, if_neg hrecent]
    exact ⟨h.config_eq, h.lastDrop, Nat.zero_le _, nofun⟩

theorem step (h : CountsSeconds config s) {event : CameraLoop.Event}
    (hnew : CountsNewSecond s event s') (hstep : s.step event = some s') :
    CountsSeconds config s' := by
  obtain ⟨loop, hloop, rfl⟩ := Option.map_eq_some_iff.mp hstep
  cases CameraLoop.move_of_step hloop with
  | frame frame checkMs logMs loop hlimiter hstays =>
    refine h.afterFrame hlimiter ?_
    rw [hstays]
    exact nofun
  | tick nowMs => exact h.tick hnew
  | closed => exact h.exit (by decide)
  | error => exact h.exit (by decide)

end CountsSeconds

/-- **Sustained abuse.** In every run of the loop in which no abuse check counts a second of
drops that the check before it has counted, the loop is left for abuse only after drops in
at least as many distinct seconds as the threshold says. -/
theorem sustainedAbuse_of_countsNewSecond (config : RateLimitConfig)
    (events : List CameraLoop.Event)
    (hnew : Machine.EachStep step CountsNewSecond (start config) events) :
    Machine.Always step (SustainedAbuse config) (start config) events :=
  Machine.Always.mono (fun _ h => CountsSeconds.sustained h)
    (Machine.always_of_eachStep (CountsSeconds.start config)
      (fun _ _ _ h hnew hstep => h.step hnew hstep) hnew)

/-- An empty video frame at a given millisecond. -/
def frameAt (nowMs : UInt64) : CameraLoop.Event :=
  .frame (.video ⟨[1, 7, 4, 7, 1, 7, 4, 7], rfl⟩ [] false) nowMs nowMs

/-- A camera that sends 30 frames in each of two seconds, all above its limit of zero, is
disconnected with a threshold of two seconds. -/
theorem sustainedAbuse_twoSeconds :
    let config := { RateLimitConfig.default with videoFps := 0, abuseThresholdSecs := 2 }
    let events := List.replicate 30 (frameAt 500) ++ [.tick 500] ++
      List.replicate 30 (frameAt 1500) ++ [.tick 1500]
    (Machine.run step (start config) events).map (fun s => (s.dropSeconds.toFinset.card,
        s.loop.exitReason)) = some (2, some .abuse) ∧
      Machine.Always step (SustainedAbuse config) (start config) events := by
  intro config events
  refine ⟨by decide +kernel, sustainedAbuse_of_countsNewSecond config events ?_⟩
  decide +kernel

/-- The frames of one burst, with the abuse check after every 30 of them. -/
def burst (checks : Nat) : List CameraLoop.Event :=
  (List.replicate checks (List.replicate 30 (frameAt 0) ++ [.tick 0])).flatten

/-- With the default configuration, 420 frames within the first millisecond end the loop:
120 of them are allowed, and each of the ten checks after the first drop counts the same
second. -/
theorem burst_disconnects :
    (Machine.run step (start .default) (burst 14)).map (fun s => (s.dropSeconds.toFinset.card,
        s.loop.exitReason)) = some (1, some .abuse) ∧
      ¬ Machine.Always step (SustainedAbuse .default) (start .default) (burst 14) := by
  have hrun : (Machine.run step (start .default) (burst 14)).map
      (fun s => (s.dropSeconds.toFinset.card, s.loop.exitReason)) = some (1, some .abuse) := by
    decide +kernel
  refine ⟨hrun, fun h => ?_⟩
  obtain ⟨s, hsustained, hobserved⟩ := h.observed hrun
  obtain ⟨hcard, hexit⟩ := Prod.mk.inj hobserved
  have hten := hsustained hexit
  rw [hcard] at hten
  exact absurd hten (by decide)

end WatchedLoop

end Kodama
