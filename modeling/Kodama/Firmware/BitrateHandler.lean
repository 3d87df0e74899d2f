import Kodama.Capture.Abr
import Kodama.Capture.VideoCapture
import Kodama.Lib.Mpsc

/-!
# The bitrate handler (apps/kodama-firmware/src/camera.rs)

The send loop of `run_async` has an ABR controller for each connection, and offers the bitrate
of its tier to a task that restarts the capture with it: the lowest one when it connects, and
that of the new tier at every change. The offers go through a channel of four, and one that
finds the channel full is dropped.

`target` is the bitrate the capture will have when all commands that wait are applied. It is
that of the controller's tier, as long as no offer is dropped that is not the same as the last
command that waits (`follows_tier`); after one that is, the capture stays at another bitrate
(`tier_not_followed`).
-/

namespace Kodama

open Lib Lib.Machine

/-- The bitrate of a tier, as `bitrate_bps` returns it. -/
def QualityTier.bitrateU32 (tier : QualityTier) : UInt32 := tier.bitrateBps.toUInt32

/-- The send loop's controller, the channel to the handler, and what the handler has. -/
structure BitrateLoop where
  /-- none before the first connection -/
  abr : Option AbrController := none
  commands : Mpsc UInt32 := { capacity := 4 }
  /-- the command the handler is applying -/
  applying : Option UInt32 := none
  capture : VideoCapture

inductive BitrateEvent where
  /-- the send loop connects -/
  | connect (now : Nat)
  /-- the send loop evaluates a throughput -/
  | evaluate (now : Nat) (throughput : ℚ)
  /-- the handler receives a command -/
  | recv
  /-- `update_bitrate` returns -/
  | apply (spawning : Spawning)

namespace BitrateLoop

/-- `cmd_tx.try_send`, the result of which is ignored. -/
def offer (self : BitrateLoop) (bitrate : UInt32) : BitrateLoop :=
  match self.commands.trySend bitrate with
  | .ok commands => { self with commands }
  | .error _ => self

/-- The tier whose bitrate an event offers. -/
def offers (self : BitrateLoop) : BitrateEvent → Option QualityTier
  | .connect _ => some .minimum
  | .evaluate now throughput =>
    self.abr.bind fun abr =>
      match (abr.evaluate now throughput).1 with
      | .changeTo tier => some tier
      | .hold => none
  | .recv | .apply _ => none

def step (self : BitrateLoop) : BitrateEvent → Option BitrateLoop
  | .connect now =>
    -- start ABR at the lowest tier
    let abr := AbrController.newAt .default .minimum now
    some ({ self with abr := some abr }.offer QualityTier.minimum.bitrateU32)
  | .evaluate now throughput =>
    self.abr.map fun abr =>
      let (decision, abr) := abr.evaluate now throughput
      let self := { self with abr := some abr }
      match decision with
      | .changeTo tier => self.offer tier.bitrateU32
      | .hold => self
  | .recv =>
    match self.applying with
    | some _ => none
    | none => self.commands.recv.map fun (bitrate, commands) =>
      { self with applying := some bitrate, commands }
  | .apply spawning =>
    self.applying.map fun bitrate =>
      { self with applying := none, capture := (self.capture.updateBitrate bitrate spawning).2 }

/-- What `run_async` has when its capture is started, at the highest tier. -/
def start (config : VideoCaptureConfig) (rpicam : Bool) : BitrateLoop where
  capture :=
    (VideoCapture.startProcess ⟨none, { config with bitrate := QualityTier.high.bitrateU32 }⟩
      ⟨rpicam, true⟩).2

/-- The bitrate the capture will have when no command waits any more. -/
def target (self : BitrateLoop) : UInt32 :=
  self.commands.queue.getLast?.getD (self.applying.getD self.capture.config.bitrate)

/-- The commands lead to the controller's tier. -/
structure Follows (t : BitrateLoop) : Prop where
  opened : t.commands.closed = false
  target_eq : ∀ abr, t.abr = some abr → t.target = abr.currentTier.bitrateU32

/-- An offer that finds the channel full is the same as the last command that waits. -/
def NoneLost (t : BitrateLoop) (event : BitrateEvent) (_ : BitrateLoop) : Prop :=
  ∀ tier, t.offers event = some tier → t.commands.isFull = true →
    t.commands.queue.getLast? = some tier.bitrateU32

variable {t u : BitrateLoop} {event : BitrateEvent} {tier : QualityTier} {bitrate : UInt32}

/-- A command that is sent, and one that is dropped but waits already, is the target. -/
theorem target_offer (hopen : t.commands.closed = false)
    (hlost : t.commands.isFull = true → t.commands.queue.getLast? = some bitrate) :
    (t.offer bitrate).commands.closed = false ∧ (t.offer bitrate).target = bitrate := by
  unfold offer
  split
  · next commands hsent =>
    obtain ⟨-, -, rfl⟩ := Mpsc.trySend_eq_ok hsent
    exact ⟨hopen, by simp [target]⟩
  · next error hfailed =>
    cases error with
    | full =>
      obtain ⟨-, hfull⟩ := Mpsc.trySend_eq_full.mp hfailed
      exact ⟨hopen, by simp [target, hlost hfull]⟩
    | closed =>
      exact absurd (hopen.symm.trans (Mpsc.trySend_eq_closed.mp hfailed)) (by simp)

@[simp] theorem offer_abr (t : BitrateLoop) (bitrate : UInt32) : (t.offer bitrate).abr = t.abr := by
  unfold offer
  split <;> rfl

theorem Follows.offer (hopen : t.commands.closed = false)
    (hlost : t.commands.isFull = true → t.commands.queue.getLast? = some bitrate)
    (htier : ∀ abr, t.abr = some abr → bitrate = abr.currentTier.bitrateU32) :
    (t.offer bitrate).Follows := by
  obtain ⟨hopen', htarget⟩ := target_offer hopen hlost
  refine ⟨hopen', fun abr habr => ?_⟩
  rw [offer_abr] at habr
  exact htarget.trans (htier abr habr)

/-- What an evaluation offers is the controller's tier, and without an offer the tier stays. -/
theorem evaluate_tier (abr : AbrController) (now : Nat) (throughput : ℚ) :
    ((abr.evaluate now throughput).1 = .hold ∧
      (abr.evaluate now throughput).2.currentTier = abr.currentTier) ∨
    ∃ tier, (abr.evaluate now throughput).1 = .changeTo tier ∧
      (abr.evaluate now throughput).2.currentTier = tier := by
  obtain hhold | ⟨lower, -, -, hdecision, htier⟩ | ⟨higher, -, -, -, hdecision, htier⟩ :=
    abr.evaluate_cases now throughput
  · exact .inl hhold
  · exact .inr ⟨lower, hdecision, htier⟩
  · exact .inr ⟨higher, hdecision, htier⟩

theorem Follows.evaluate (h : t.Follows) (now : Nat) (throughput : ℚ)
    (hlost : NoneLost t (.evaluate now throughput) u)
    (hstep : BitrateLoop.step t (.evaluate now throughput) = some u) : u.Follows := by
  obtain ⟨abr, habr, rfl⟩ := Option.map_eq_some_iff.mp hstep
  dsimp only
  rcases evaluate_tier abr now throughput with ⟨hhold, htier⟩ | ⟨tier, hchange, htier⟩
  · rw [hhold]
    refine ⟨h.opened, ?_⟩
    rintro _ ⟨⟩
    rw [htier]
    exact h.target_eq abr habr
  · rw [hchange]
    have hoffers : t.offers (.evaluate now throughput) = some tier := by
      simp [offers, habr, hchange]
    refine Follows.offer h.opened (hlost tier hoffers) ?_
    rintro _ ⟨⟩
    rw [htier]

theorem Follows.step (h : t.Follows) (hlost : NoneLost t event u)
    (hstep : BitrateLoop.step t event = some u) : u.Follows := by
  cases event with
  | connect now =>
    obtain rfl := Option.some.inj hstep
    refine Follows.offer h.opened (hlost .minimum rfl) ?_
    rintro _ ⟨⟩
    rfl
  | evaluate now throughput => exact h.evaluate now throughput hlost hstep
  | recv =>
    simp only [BitrateLoop.step] at hstep
    split at hstep
    · cases hstep
    · next hidle =>
      obtain ⟨⟨bitrate, commands⟩, hrecv, rfl⟩ := Option.map_eq_some_iff.mp hstep
      obtain ⟨hqueue, hclosed⟩ := Mpsc.recv_eq_some hrecv
      refine ⟨hclosed.trans h.opened, fun abr habr => ?_⟩
      rw [← h.target_eq abr habr]
      -- the command received was the last one, or the last one still waits
      cases hrest : commands.queue with
      | nil => simp [target, hqueue, hrest]
      | cons next rest => simp [target, hqueue, hrest, List.getLast?_cons]
  | apply spawning =>
    obtain ⟨bitrate, happlying, rfl⟩ := Option.map_eq_some_iff.mp hstep
    refine ⟨h.opened, fun abr habr => ?_⟩
    rw [← h.target_eq abr habr]
    simp [target, happlying, t.capture.updateBitrate_config bitrate spawning]

/-- When no command waits, the capture's bitrate is that of the controller's tier. -/
def EncoderFollows (t : BitrateLoop) : Prop :=
  t.commands.queue = [] → t.applying = none →
    ∀ abr, t.abr = some abr → t.capture.config.bitrate.toNat = abr.currentTier.bitrateBps

theorem toNat_bitrateU32 (tier : QualityTier) : tier.bitrateU32.toNat = tier.bitrateBps := by
  cases tier <;> rfl

theorem Follows.encoder (h : t.Follows) : t.EncoderFollows := by
  intro hempty hidle abr habr
  have htarget := h.target_eq abr habr
  rw [target, hempty, hidle] at htarget
  rw [show t.capture.config.bitrate = abr.currentTier.bitrateU32 from htarget, toNat_bitrateU32]

/-- **The encoder follows the tier**, in every run in which no offer is lost that is not the same
as the last command that waits. -/
theorem follows_tier (config : VideoCaptureConfig) (rpicam : Bool) (events : List BitrateEvent)
    (hlost : EachStep step NoneLost (start config rpicam) events) :
    Always step EncoderFollows (start config rpicam) events := by
  have hstart : (start config rpicam).Follows := ⟨rfl, fun _ habr => (by cases habr)⟩
  have hfollows : Always step Follows (start config rpicam) events :=
    always_of_eachStep hstart (fun _ _ _ h hlost hstep => h.step hlost hstep) hlost
  exact hfollows.mono fun _ h => h.encoder

/-! ### Two runs -/

instance : Decidable (NoneLost t event u) :=
  match h : t.offers event with
  | none => isTrue fun tier htier => absurd (h.symm.trans htier) (by simp)
  | some tier => decidable_of_iff (t.commands.isFull = true →
      t.commands.queue.getLast? = some tier.bitrateU32) <| by simp [NoneLost, h]

/-- A connection, the restart for it, and an upgrade (times in nanoseconds). -/
def exampleFollowed : List BitrateEvent :=
  [.connect 0, .recv, .apply ⟨true, true⟩, .evaluate 5000000000 600000,
    .evaluate 20000000000 600000, .recv, .apply ⟨true, true⟩]

theorem follows_tier_upgrade :
    Always step EncoderFollows (start {} true) exampleFollowed :=
  follows_tier {} true exampleFollowed (by decide +kernel)

/-- Five connections during one restart fill the channel, and the upgrade of the last one is
dropped. -/
def exampleDropped : List BitrateEvent :=
  [.connect 0, .recv, .connect 2000000000, .connect 4000000000, .connect 6000000000,
    .connect 8000000000, .evaluate 13000000000 600000, .evaluate 28000000000 600000,
    .apply ⟨true, true⟩, .recv, .apply ⟨true, true⟩, .recv, .apply ⟨true, true⟩, .recv,
    .apply ⟨true, true⟩, .recv, .apply ⟨true, true⟩]

/-- All restarts succeed, and still the capture is left at another bitrate. -/
theorem tier_not_followed : ¬ ∀ (config : VideoCaptureConfig) (rpicam : Bool)
    (events : List BitrateEvent), (∀ spawning, .apply spawning ∈ events → spawning.spawned = true) →
      Always step EncoderFollows (start config rpicam) events := by
  intro h
  have hrestarts : ∀ spawning, .apply spawning ∈ exampleDropped → spawning.spawned = true := by
    simp [exampleDropped]
  have hrun : (run step (start {} true) exampleDropped).map (fun t =>
      (decide (t.commands.queue = [] ∧ t.applying = none ∧ t.capture.config.bitrate.toNat = 500000),
        t.abr.map (·.currentTier))) = some (true, some .low) := by decide +kernel
  obtain ⟨t, hfollows, heq⟩ := (h {} true exampleDropped hrestarts).observed hrun
  obtain ⟨hstate, habr⟩ := Prod.mk.inj heq
  obtain ⟨hempty, hidle, hbitrate⟩ := of_decide_eq_true hstate
  obtain ⟨abr, habr, htier⟩ := Option.map_eq_some_iff.mp habr
  have hlow := hfollows hempty hidle abr habr
  rw [hbitrate, htier] at hlow
  exact absurd hlow (by decide)

end BitrateLoop

end Kodama
