import Kodama.Server.CommandChannel

/-!
# Ready signals and request ids (crates/kodama/src/server/router.rs)

A camera opens its command stream with a response of id 0, and the dispatch loop ignores every
response of that id. Ids start at 1, but the counter wraps: after `2^32 - 1` calls a call draws
the id 0, and its response is taken for a ready signal.

That is the only way in which the response to a pending call is not handed to it
(`handed_iff`), and it takes `2^32 - 1` earlier calls (`handed_of_few`), which need not be
outstanding at once (`response_swallowed`).
-/

namespace Kodama

open Lib Lib.Machine

namespace CameraCommandState

variable {γ ρ : Type} {t u ch : CameraCommandState γ ρ} {event : ChannelEvent γ ρ}

/-- A response with the id of a pending call fills that call's oneshot, and the id leaves the
pending map. -/
def Handed (t : CameraCommandState γ ρ) (event : ChannelEvent γ ρ)
    (u : CameraCommandState γ ρ) : Prop :=
  ∀ resp c, event = .recv (.response resp) → t.pending.lookup resp.id = some c →
    (∃ call, u.calls.lookup c = some call ∧ call.received = some (t.log.length, resp)) ∧
      u.pending.lookup resp.id = none

/-- No call with the id of a ready signal is pending when one comes. -/
def ReadyUnused (t : CameraCommandState γ ρ) (event : ChannelEvent γ ρ)
    (_ : CameraCommandState γ ρ) : Prop :=
  ∀ resp, event = .recv (.response resp) → resp.id = 0 → t.pending.lookup 0 = none

theorem handed_step (hinv : t.Inv) (hstep : step t event = some u) :
    Handed t event u ↔ ReadyUnused t event u := by
  constructor
  · rintro h resp rfl hzero
    obtain rfl := Option.some.inj hstep
    cases hpending : t.pending.lookup 0 with
    | none => rfl
    | some c =>
      -- the message is ignored, so the call is still pending
      obtain ⟨-, hgone⟩ := h resp c rfl (hzero ▸ hpending)
      have hkept : (t.recv (.response resp)).pending = t.pending := by
        simp only [recv, if_pos hzero]
      rw [hkept, hzero, hpending] at hgone
      cases hgone
  · rintro h resp c rfl hpending
    obtain rfl := Option.some.inj hstep
    have hne : resp.id ≠ 0 := by
      intro hzero
      rw [hzero, h resp rfl hzero] at hpending
      cases hpending
    obtain ⟨call, hcall, -⟩ := hinv.pending _ _ hpending
    simp only [recv, if_neg hne, hpending, hcall, setCall]
    exact ⟨⟨_, AList.lookup_insert _, rfl⟩, AList.lookup_erase _ _⟩

theorem always_inv (events : List (ChannelEvent γ ρ)) : Always step Inv new events :=
  always_of_step inv_new (fun _ _ _ h hstep => inv_step h hstep) events

/-- **No response is swallowed** in a run if and only if no ready signal, or other response with
its id, comes while a call with that id is pending. -/
theorem handed_iff (events : List (ChannelEvent γ ρ)) :
    EachStep step Handed new events ↔ EachStep step ReadyUnused new events :=
  eachStep_congr_of_always (always_inv events) fun _ _ _ h hstep => handed_step h hstep

/-- The id 0 is not drawn before the counter wraps. -/
theorem lookup_zero_of_few (hinv : ch.Inv) (hfew : ch.issued < 2 ^ 32) :
    ch.pending.lookup 0 = none := by
  cases hpending : ch.pending.lookup 0 with
  | none => rfl
  | some c =>
    obtain ⟨call, hcall, hid, -, henlisted⟩ := hinv.pending _ _ hpending
    obtain ⟨hlt, hnumber⟩ :=
      (hinv.calls c call hcall).number (CallPhase.started_of_enlisted henlisted)
    have hwrapped : (call.ordinal + 1) % 2 ^ 32 = 0 := by
      rw [← UInt32.toNat_ofNat', ← hnumber, hid]
      rfl
    omega

/-- Fewer than `2^32` calls have started. -/
def Few (ch : CameraCommandState γ ρ) : Prop := ch.issued < 2 ^ 32

theorem handed_of_few {events : List (ChannelEvent γ ρ)} (hfew : Always step Few new events) :
    EachStep step Handed new events := by
  rw [handed_iff]
  intro pre event t u hpre hrun hstep resp _ _
  have hpre' := (List.prefix_append _ _).trans hpre
  exact lookup_zero_of_few (always_inv events pre t hpre' hrun) (hfew pre t hpre' hrun)

/-! ### A run that wraps -/

/-- Fewer than `2^32` calls are outstanding. -/
def FewOutstanding (ch : CameraCommandState γ ρ) : Prop :=
  ch.calls.countWhere (fun call => call.phase.active) < 2 ^ 32

/-- The call `c` until its request is to be sent. -/
def startCall (c : Nat) : List (ChannelEvent Unit Unit) :=
  [.clone c () "30s", .call c .fetchId, .call c .insertPending]

/-- A call whose request cannot be sent. -/
def failedCall (c : Nat) : List (ChannelEvent Unit Unit) :=
  startCall c ++ [.call c (.sendErr "stream closed"), .call c .removeFailed]

/-- `n` calls have come and gone. -/
structure Idle (n : Nat) (ch : CameraCommandState Unit Unit) : Prop where
  pending : ∀ id, ch.pending.lookup id = none
  nextId : ch.nextId = UInt32.ofNat (n + 1)
  calls : ∀ c, n ≤ c → ch.calls.lookup c = none
  outstanding : ch.calls.countWhere (fun call => call.phase.active) = 0

variable {n : Nat} {idle t' : CameraCommandState Unit Unit}

/-- The call that has registered its sender. -/
def registeredCall (idle : CameraCommandState Unit Unit) : Call Unit Unit where
  command := ()
  timeout := "30s"
  phase := .registered
  id := idle.nextId
  ordinal := idle.issued

/-- The channel with the sender of the call `n`. -/
def registered (idle : CameraCommandState Unit Unit) (n : Nat) : CameraCommandState Unit Unit :=
  { idle with
    nextId := idle.nextId + 1
    issued := idle.issued + 1
    pending := idle.pending.insert idle.nextId n }

/-- Beside one call, none is outstanding. -/
theorem Idle.countWhere_insert (h : Idle n idle) (call : Call Unit Unit) :
    HashMap.countWhere (fun call => call.phase.active) (idle.calls.insert n call) =
      if call.phase.active then 1 else 0 := by
  have hcount := HashMap.countWhere_insert (fun call : Call Unit Unit => call.phase.active)
    idle.calls n call
  rw [h.outstanding, HashMap.countAt_of_lookup_none (h.calls n (Nat.le_refl n))] at hcount
  omega

theorem Idle.fewOutstanding (h : Idle n idle) (hcalls : t'.calls = idle.calls)
    (call : Call Unit Unit) : (t'.setCall n call).FewOutstanding := by
  simp only [FewOutstanding, setCall, hcalls, h.countWhere_insert]
  split <;> decide

theorem run_startCall (h : Idle n idle) : Always step FewOutstanding idle (startCall n) ∧
    run step idle (startCall n) = some ((registered idle n).setCall n (registeredCall idle)) := by
  have hnone := h.calls n (Nat.le_refl n)
  have hfew : FewOutstanding idle := by
    rw [FewOutstanding, h.outstanding]
    decide
  let cloned : Call Unit Unit := { command := (), timeout := "30s" }
  let numbered : Call Unit Unit := { registeredCall idle with phase := .numbered }
  let drawn := { idle with nextId := idle.nextId + 1, issued := idle.issued + 1 }
  have hclone : step idle (.clone n () "30s") = some (idle.setCall n cloned) := by
    simp only [step, clone, hnone, if_true, cloned]
  have hfetch : step (idle.setCall n cloned) (.call n .fetchId) =
      some (drawn.setCall n numbered) := by
    simp [step, callStep, fetchId, setCall, cloned, numbered, drawn, registeredCall]
  have hinsert : step (drawn.setCall n numbered) (.call n .insertPending) =
      some ((registered idle n).setCall n (registeredCall idle)) := by
    simp [step, callStep, insertPending, setCall, numbered, drawn, registered, registeredCall]
  constructor
  · simp only [startCall, always_cons, always_nil, hclone, hfetch, hinsert, Option.some.injEq,
      forall_eq']
    exact ⟨hfew, h.fewOutstanding rfl _, h.fewOutstanding rfl _, h.fewOutstanding rfl _⟩
  · simp only [startCall, run_cons, run_nil, hclone, hfetch, hinsert, Option.bind_some]

theorem run_failedCall (h : Idle n idle) : Always step FewOutstanding idle (failedCall n) ∧
    ∃ t, run step idle (failedCall n) = some t ∧ Idle (n + 1) t := by
  obtain ⟨hfew, hrun⟩ := run_startCall h
  let failed : Call Unit Unit :=
    { registeredCall idle with phase := .sendFailed "stream closed" }
  let returned : Call Unit Unit := { registeredCall idle with
    phase := .returned (.error "stream closed"), returnedAt := idle.issued + 1 }
  let ended := { registered idle n with
    pending := (registered idle n).pending.erase idle.nextId }
  have hsend : step ((registered idle n).setCall n (registeredCall idle))
      (.call n (.sendErr "stream closed")) = some ((registered idle n).setCall n failed) := by
    simp [step, callStep, setCall, registeredCall, failed]
  have hremove : step ((registered idle n).setCall n failed) (.call n .removeFailed) =
      some (ended.setCall n returned) := by
    simp [step, callStep, removeAndReturn, setCall, registered, registeredCall, failed, returned,
      ended]
  constructor
  · refine always_append.mpr ⟨hfew, fun t ht => ?_⟩
    obtain rfl := Option.some.inj (hrun.symm.trans ht)
    simp only [always_cons, always_nil, hsend, hremove, Option.some.injEq, forall_eq']
    exact ⟨h.fewOutstanding rfl _, h.fewOutstanding rfl _, h.fewOutstanding rfl _⟩
  · refine ⟨ended.setCall n returned, ?_, fun id => ?_, ?_, fun c hc => ?_, ?_⟩
    · refine run_append_eq_some.mpr ⟨_, hrun, ?_⟩
      simp only [run_cons, run_nil, hsend, hremove, Option.bind_some]
    · show ((idle.pending.insert idle.nextId n).erase idle.nextId).lookup id = none
      rw [HashMap.lookup_erase_ite, HashMap.lookup_insert_ite]
      split
      · rfl
      · exact h.pending id
    · show idle.nextId + 1 = _
      rw [h.nextId, UInt32.ofNat_add (n + 1) 1]
      rfl
    · show (idle.calls.insert n returned).lookup c = none
      rw [HashMap.lookup_insert_ite, if_neg (by omega)]
      exact h.calls c (by omega)
    · exact h.countWhere_insert returned

/-- So many calls, one after the other. -/
def failedCalls (n : Nat) : List (ChannelEvent Unit Unit) := (List.range n).flatMap failedCall

theorem run_failedCalls (n : Nat) : Always step FewOutstanding new (failedCalls n) ∧
    ∃ t, run step new (failedCalls n) = some t ∧ Idle n t := by
  induction n with
  | zero =>
    have hfew : FewOutstanding (new : CameraCommandState Unit Unit) :=
      show 0 < 2 ^ 32 by decide
    exact ⟨always_nil.mpr hfew, new, rfl, fun id => AList.lookup_empty id, rfl,
      fun c _ => AList.lookup_empty c, rfl⟩
  | succ n ih =>
    obtain ⟨hfew, t, hrun, hidle⟩ := ih
    obtain ⟨hfew', u, hrun', hidle'⟩ := run_failedCall hidle
    rw [failedCalls, List.range_succ, List.flatMap_append, List.flatMap_singleton]
    refine ⟨always_append.mpr ⟨hfew, fun t' ht' => ?_⟩, u, ?_, hidle'⟩
    · obtain rfl := Option.some.inj (hrun.symm.trans ht')
      exact hfew'
    · exact run_append_eq_some.mpr ⟨t, hrun, hrun'⟩

/-- The call when its request is out. -/
def sentCall (idle : CameraCommandState Unit Unit) : Call Unit Unit :=
  { registeredCall idle with phase := .waiting, sent := some ⟨idle.nextId, ()⟩ }

/-- A call that is sent. -/
def sendCall (c : Nat) : List (ChannelEvent Unit Unit) := startCall c ++ [.call c .sendOk]

theorem run_sendCall (h : Idle n idle) : Always step FewOutstanding idle (sendCall n) ∧
    run step idle (sendCall n) = some ((registered idle n).setCall n (sentCall idle)) := by
  obtain ⟨hfew, hrun⟩ := run_startCall h
  have hsend : step ((registered idle n).setCall n (registeredCall idle)) (.call n .sendOk) =
      some ((registered idle n).setCall n (sentCall idle)) := by
    simp [step, callStep, setCall, registeredCall, sentCall]
  constructor
  · refine always_append.mpr ⟨hfew, fun t ht => ?_⟩
    obtain rfl := Option.some.inj (hrun.symm.trans ht)
    simp only [always_cons, always_nil, hsend, Option.some.injEq, forall_eq']
    exact ⟨h.fewOutstanding rfl _, h.fewOutstanding rfl _⟩
  · refine run_append_eq_some.mpr ⟨_, hrun, ?_⟩
    simp only [run_cons, run_nil, hsend, Option.bind_some]

/-- The response to a call with the id 0. -/
def zeroResponse : ChannelEvent Unit Unit := .recv (.response ⟨0, ()⟩)

/-- After `2^32 - 1` calls, one at a time, the next one has the id 0, and its response is
ignored. -/
theorem response_swallowed : ¬ ∀ (γ ρ : Type) (events : List (ChannelEvent γ ρ)),
    Always step FewOutstanding new events → EachStep step Handed new events := by
  intro h
  obtain ⟨n, hn⟩ : ∃ n, n + 1 = 2 ^ 32 := ⟨2 ^ 32 - 1, by decide⟩
  obtain ⟨hfew, idle, hrun, hidle⟩ := run_failedCalls n
  obtain ⟨hfew', hrun'⟩ := run_sendCall hidle
  have hzero : idle.nextId = 0 := by
    rw [hidle.nextId, hn]
    rfl
  have hreply : step ((registered idle n).setCall n (sentCall idle)) zeroResponse =
      some (((registered idle n).setCall n (sentCall idle)).recv (.response ⟨0, ()⟩)) := rfl
  have hlast : Always step FewOutstanding idle (sendCall n ++ [zeroResponse]) := by
    refine always_append.mpr ⟨hfew', fun t ht => ?_⟩
    obtain rfl := Option.some.inj (hrun'.symm.trans ht)
    simp only [always_cons, always_nil, hreply, Option.some.injEq, forall_eq']
    exact ⟨hidle.fewOutstanding rfl _, hidle.fewOutstanding rfl _⟩
  have hall : Always step FewOutstanding new
      (failedCalls n ++ (sendCall n ++ [zeroResponse])) := by
    refine always_append.mpr ⟨hfew, fun t ht => ?_⟩
    obtain rfl := Option.some.inj (hrun.symm.trans ht)
    exact hlast
  have hpending : (registered idle n).pending.lookup 0 = some n := hzero ▸ AList.lookup_insert _
  rw [← List.append_assoc] at hall
  obtain ⟨-, hgone⟩ := h Unit Unit _ hall _ zeroResponse _ _ (List.prefix_refl _)
    (run_append_eq_some.mpr ⟨idle, hrun, hrun'⟩) hreply ⟨0, ()⟩ n rfl hpending
  exact absurd (hpending.symm.trans hgone) (by simp)

end CameraCommandState

end Kodama
