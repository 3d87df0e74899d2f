import Kodama.Lib.Machine
import Kodama.Lib.HashMap
import Kodama.Core.Frame

/-!
# One camera command channel (server/router.rs, `CameraCommandState`)

The state behind one command stream to a camera: the map of pending oneshot senders by
request id, the id counter, and the `send_command` calls that hold a clone of the state.
The steps of those calls and the messages the reader task handles interleave freely:

- a call draws an id, puts its sender into the pending map, sends its request, and then
  either takes the response, finds its sender dropped, or times out;
- a failed send and a timeout are followed by a separate step that removes the id;
- a message removes the sender of its id from the map and completes that call, whichever
  call it is; id 0 and unknown ids are ignored.

- `channel_correlates`: while fewer than `2^32` calls start during any one call's lifetime,
  a call is answered only by a message that carries the id of its request, a message
  answers at most one call, and a call that returns leaves its id out of the pending map.

The id counter wraps at its machine width. Commands and results are parameters.
-/

namespace Kodama

open Lib

/-- A command request with correlation ID. -/
structure CommandRequest (γ : Type) where
  id : UInt32
  command : γ

/-- A command response matched to a request by ID. -/
structure CommandResponse (ρ : Type) where
  id : UInt32
  result : ρ

/-- Wire envelope: either a request or a response. -/
inductive CommandMessage (γ ρ : Type) where
  | request (request : CommandRequest γ)
  | response (response : CommandResponse ρ)

/-- The error of a call whose oneshot sender was dropped. -/
def disconnected : String := "Camera disconnected while waiting for response"

/-- The error of a call that ran into its timeout (in `Duration`'s debug form). -/
def timedOut (timeout : String) : String := s!"Command timed out after {timeout}"

/-- Where a `send_command` call stands. -/
inductive CallPhase (ρ : Type) where
  /-- It holds a clone of the channel's state. -/
  | cloned
  /-- It has drawn its id. -/
  | numbered
  /-- Its sender is in the pending map; the request is not out yet. -/
  | registered
  /-- The send failed; the id is still to be removed. -/
  | sendFailed (error : String)
  | waiting
  /-- The timeout has passed; the id is still to be removed. -/
  | timedOut
  | returned (result : Result (CommandResponse ρ))

namespace CallPhase

variable {ρ : Type}

/-- The call has drawn its id. -/
def started : CallPhase ρ → Bool
  | .cloned => false
  | _ => true

/-- The call has registered its sender and has not returned. -/
def enlisted : CallPhase ρ → Bool
  | .registered | .sendFailed _ | .waiting | .timedOut => true
  | _ => false

/-- The call has returned. -/
def done : CallPhase ρ → Bool
  | .returned _ => true
  | _ => false

/-- The call has drawn its id and has not returned. -/
def active (phase : CallPhase ρ) : Bool := phase.started && !phase.done

variable {phase : CallPhase ρ}

theorem started_of_enlisted (h : phase.enlisted = true) : phase.started = true := by
  cases phase <;> first | rfl | cases h

theorem not_done_of_enlisted (h : phase.enlisted = true) : phase.done = false := by
  cases phase <;> first | rfl | cases h

theorem active_of_enlisted (h : phase.enlisted = true) : phase.active = true := by
  rw [active, started_of_enlisted h, not_done_of_enlisted h]
  rfl

theorem started_of_active (h : phase.active = true) : phase.started = true :=
  (Bool.and_eq_true _ _ ▸ h).1

theorem not_done_of_active (h : phase.active = true) : phase.done = false := by
  cases phase <;> first | rfl | cases h

end CallPhase

/-- A `send_command` call. Beside what the code keeps, it records when it started
(`ordinal`, its place in the order of id draws), how many calls had started when it
returned, the request that went out, and which message filled its oneshot. -/
structure Call (γ ρ : Type) where
  command : γ
  timeout : String
  phase : CallPhase ρ := .cloned
  id : UInt32 := 0
  received : Option (Nat × CommandResponse ρ) := none
  ordinal : Nat := 0
  returnedAt : Nat := 0
  sent : Option (CommandRequest γ) := none

/-- `CameraCommandState`, with the calls that hold a clone of it. Calls have names only to
tell them apart: a pending oneshot sender is the name of the call that waits on it.
`issued` counts the id draws and `log` is what the reader has received. -/
structure CameraCommandState (γ ρ : Type) where
  pending : HashMap UInt32 Nat
  nextId : UInt32
  calls : HashMap Nat (Call γ ρ)
  issued : Nat
  log : List (CommandMessage γ ρ)

/-- The steps of one `send_command` call after it has cloned the state. -/
inductive CallStep where
  | fetchId
  | insertPending
  | sendOk
  | sendErr (error : String)
  | removeFailed
  | resolve
  | timeout
  | removeTimedOut
deriving DecidableEq

/-- What can happen on a channel. -/
inductive ChannelEvent (γ ρ : Type) where
  /-- The reader handles a message from the camera. -/
  | recv (message : CommandMessage γ ρ)
  /-- A new call clones the state. -/
  | clone (c : Nat) (command : γ) (timeout : String)
  | call (c : Nat) (step : CallStep)

variable {γ ρ : Type}

namespace CameraCommandState

/-- The state `register_camera_commands` builds: ids start at 1. -/
def new : CameraCommandState γ ρ := ⟨∅, 1, ∅, 0, []⟩

/-- Replace the record of one call. -/
def setCall (ch : CameraCommandState γ ρ) (c : Nat) (call : Call γ ρ) : CameraCommandState γ ρ :=
  { ch with calls := ch.calls.insert c call }

/-- Dispatch one message of the camera. Ready signals (id 0), unknown ids and requests are
ignored; otherwise the pending sender is removed and handed the response. -/
def recv (ch : CameraCommandState γ ρ) (message : CommandMessage γ ρ) : CameraCommandState γ ρ :=
  let logged := { ch with log := ch.log ++ [message] }
  match message with
  | .request _ => logged
  | .response resp =>
    if resp.id = 0 then logged
    else
      match ch.pending.lookup resp.id with
      | none => logged
      | some c =>
        let removed := { logged with pending := ch.pending.erase resp.id }
        match ch.calls.lookup c with
        | none => removed
        | some call => removed.setCall c { call with received := some (ch.log.length, resp) }

/-- `next_id.fetch_add(1)`. -/
def fetchId (ch : CameraCommandState γ ρ) (c : Nat) (call : Call γ ρ) : CameraCommandState γ ρ :=
  { ch with nextId := ch.nextId + 1, issued := ch.issued + 1 }.setCall c
    { call with phase := .numbered, id := ch.nextId, ordinal := ch.issued }

/-- `pending.insert(id, tx)`: a sender that was there under the same id is dropped. -/
def insertPending (ch : CameraCommandState γ ρ) (c : Nat) (call : Call γ ρ) :
    CameraCommandState γ ρ :=
  { ch with pending := ch.pending.insert call.id c }.setCall c { call with phase := .registered }

/-- `pending.remove(id)`, and return an error. -/
def removeAndReturn (ch : CameraCommandState γ ρ) (c : Nat) (call : Call γ ρ) (error : String) :
    CameraCommandState γ ρ :=
  { ch with pending := ch.pending.erase call.id }.setCall c
    { call with phase := .returned (.error error), returnedAt := ch.issued }

/-- What awaiting the oneshot receiver gives: the response that was sent, an error when the
sender is gone, nothing while the pending map holds it. (The map itself lives as long as
anyone holds the state, and a waiting call does.) -/
def resolution (ch : CameraCommandState γ ρ) (c : Nat) (call : Call γ ρ) :
    Option (Result (CommandResponse ρ)) :=
  match call.received with
  | some (_, resp) => some (.ok resp)
  | none => if ch.pending.lookup call.id = some c then none else some (.error disconnected)

/-- One step of the call `c`. -/
def callStep (ch : CameraCommandState γ ρ) (c : Nat) (call : Call γ ρ) (step : CallStep) :
    Option (CameraCommandState γ ρ) :=
  match step, call.phase with
  | .fetchId, .cloned => some (ch.fetchId c call)
  | .insertPending, .numbered => some (ch.insertPending c call)
  | .sendOk, .registered =>
    some (ch.setCall c { call with phase := .waiting, sent := some ⟨call.id, call.command⟩ })
  | .sendErr error, .registered => some (ch.setCall c { call with phase := .sendFailed error })
  | .removeFailed, .sendFailed error => some (ch.removeAndReturn c call error)
  | .resolve, .waiting =>
    (ch.resolution c call).map fun result =>
      ch.setCall c { call with phase := .returned result, returnedAt := ch.issued }
  | .timeout, .waiting =>
    if (ch.resolution c call).isNone then some (ch.setCall c { call with phase := .timedOut })
    else none
  | .removeTimedOut, .timedOut => some (ch.removeAndReturn c call (timedOut call.timeout))
  | _, _ => none

/-- A new call holds a clone of the state. -/
def clone (ch : CameraCommandState γ ρ) (c : Nat) (command : γ) (timeout : String) :
    Option (CameraCommandState γ ρ) :=
  if ch.calls.lookup c = none then
    some (ch.setCall c { command := command, timeout := timeout })
  else none

/-- One event on a channel. -/
def step (ch : CameraCommandState γ ρ) : ChannelEvent γ ρ → Option (CameraCommandState γ ρ)
  | .recv message => some (ch.recv message)
  | .clone c command timeout => ch.clone c command timeout
  | .call c step => (ch.calls.lookup c).bind fun call => ch.callStep c call step

end CameraCommandState

/-! ## What calls and the pending map look like -/

/-- What holds of every call, when `issued` calls have started and `log` was received. -/
structure Call.Ok (issued : Nat) (log : List (CommandMessage γ ρ)) (call : Call γ ρ) : Prop where
  number : call.phase.started = true →
    call.ordinal < issued ∧ call.id = UInt32.ofNat (call.ordinal + 1)
  fresh : call.phase = .numbered → call.received = none
  message : ∀ i resp, call.received = some (i, resp) →
    call.phase.started = true ∧ log[i]? = some (.response resp) ∧ resp.id = call.id
  request : call.phase = .waiting → call.sent = some ⟨call.id, call.command⟩
  answer : ∀ resp, call.phase = .returned (.ok resp) →
    call.sent = some ⟨call.id, call.command⟩ ∧ ∃ i, call.received = some (i, resp)
  returned : call.phase.done = true → call.returnedAt ≤ issued

namespace CameraCommandState

/-- What holds of every reachable channel: a pending sender belongs to a call that waits
under that id and has no response yet, a message has gone to one call only, and no two
calls started at the same place. -/
structure Inv (ch : CameraCommandState γ ρ) : Prop where
  calls : ∀ c call, ch.calls.lookup c = some call → call.Ok ch.issued ch.log
  nextId : ch.nextId = UInt32.ofNat (ch.issued + 1)
  pending : ∀ id d, ch.pending.lookup id = some d →
    ∃ call, ch.calls.lookup d = some call ∧ call.id = id ∧ call.received = none ∧
      call.phase.enlisted = true
  received_inj : ∀ c d callc calld i rc rd, ch.calls.lookup c = some callc →
    ch.calls.lookup d = some calld → callc.received = some (i, rc) →
    calld.received = some (i, rd) → c = d
  ordinal_inj : ∀ c d callc calld, ch.calls.lookup c = some callc →
    ch.calls.lookup d = some calld → callc.phase.started = true → calld.phase.started = true →
    callc.ordinal = calld.ordinal → c = d

/-- What a step of the call `c` other than its id draw does: to the call's record, and to
the pending map. -/
structure Advance (ch : CameraCommandState γ ρ) (c : Nat) (call : Call γ ρ)
    (pending' : HashMap UInt32 Nat) (call' : Call γ ρ) : Prop where
  active : call.phase.active = true
  id : call'.id = call.id
  ordinal : call'.ordinal = call.ordinal
  received : call'.received = call.received
  phase : call'.phase.enlisted = true ∨ call'.phase.done = true ∧ call'.returnedAt = ch.issued
  ok : call'.Ok ch.issued ch.log
  pending : ∀ id d, pending'.lookup id = some d →
    ch.pending.lookup id = some d ∨ id = call.id ∧ d = c ∧ call.phase = .numbered
  left : call'.phase.done = true → pending'.lookup call.id ≠ some c

/-! ## What one step does -/

variable {ch u : CameraCommandState γ ρ} {c : Nat} {call : Call γ ρ}

/-- A started call stays well formed when it moves on, as long as it does not return. -/
theorem ok_advance (phase : CallPhase ρ) (sent : Option (CommandRequest γ))
    (hok : call.Ok ch.issued ch.log) (hstarted : call.phase.started = true)
    (henl : phase.enlisted = true)
    (hsent : phase = .waiting → sent = some ⟨call.id, call.command⟩) :
    ({ call with phase := phase, sent := sent } : Call γ ρ).Ok ch.issued ch.log where
  number := fun _ => hok.number hstarted
  fresh := by
    rintro rfl
    cases henl
  message := by
    intro i resp hrec
    have hmsg := hok.message i resp hrec
    exact ⟨CallPhase.started_of_enlisted henl, hmsg.2⟩
  request := hsent
  answer := by
    rintro resp rfl
    cases henl
  returned := by
    intro hdone
    exact absurd hdone (Bool.eq_false_iff.mp (CallPhase.not_done_of_enlisted henl))

/-- A started call stays well formed when it returns. -/
theorem ok_return (hok : call.Ok ch.issued ch.log) (hstarted : call.phase.started = true)
    {result : Result (CommandResponse ρ)}
    (hanswer : ∀ resp, result = .ok resp →
      call.sent = some ⟨call.id, call.command⟩ ∧ ∃ i, call.received = some (i, resp)) :
    ({ call with phase := .returned result, returnedAt := ch.issued } : Call γ ρ).Ok
      ch.issued ch.log where
  number := fun _ => hok.number hstarted
  fresh := nofun
  message := by
    intro i resp hrec
    obtain ⟨-, hlog, hid⟩ := hok.message i resp hrec
    exact ⟨rfl, hlog, hid⟩
  request := nofun
  answer := by
    rintro resp ⟨⟩
    exact hanswer resp rfl
  returned := fun _ => Nat.le_refl _

/-- A step that only moves a registered call to another phase. -/
theorem advance_of_enlisted (c : Nat) (phase : CallPhase ρ) (sent : Option (CommandRequest γ))
    (hok : call.Ok ch.issued ch.log) (hold : call.phase.enlisted = true)
    (henl : phase.enlisted = true)
    (hsent : phase = .waiting → sent = some ⟨call.id, call.command⟩) :
    ch.Advance c call ch.pending { call with phase := phase, sent := sent } where
  active := CallPhase.active_of_enlisted hold
  id := rfl
  ordinal := rfl
  received := rfl
  phase := .inl henl
  ok := ok_advance _ _ hok (CallPhase.started_of_enlisted hold) henl hsent
  pending := fun _ _ h => .inl h
  left := by
    intro hdone
    exact absurd hdone (Bool.eq_false_iff.mp (CallPhase.not_done_of_enlisted henl))

/-- `pending.remove(id)` and return. -/
theorem advance_of_remove (hok : call.Ok ch.issued ch.log) (error : String)
    (hold : call.phase.enlisted = true) :
    ch.Advance c call (ch.pending.erase call.id)
      { call with phase := .returned (.error error), returnedAt := ch.issued } where
  active := CallPhase.active_of_enlisted hold
  id := rfl
  ordinal := rfl
  received := rfl
  phase := .inr ⟨rfl, rfl⟩
  ok := ok_return hok (CallPhase.started_of_enlisted hold) (by rintro resp ⟨⟩)
  pending := by
    intro id d hlook
    rw [HashMap.lookup_erase_ite] at hlook
    split at hlook
    · cases hlook
    · exact .inl hlook
  left := by
    intro _ hlook
    rw [AList.lookup_erase] at hlook
    cases hlook

theorem advance_of_insertPending (hok : call.Ok ch.issued ch.log)
    (hphase : call.phase = .numbered) :
    ch.Advance c call (ch.pending.insert call.id c) { call with phase := .registered } where
  active := by rw [hphase]; rfl
  id := rfl
  ordinal := rfl
  received := rfl
  phase := .inl rfl
  ok := ok_advance .registered call.sent hok (by rw [hphase]; rfl) rfl nofun
  pending := by
    intro id d hlook
    rw [HashMap.lookup_insert_ite] at hlook
    split at hlook
    · next hid => exact .inr ⟨hid, (Option.some.inj hlook).symm, hphase⟩
    · exact .inl hlook
  left := nofun

/-- A waiting call returns only when its sender is out of the pending map. -/
theorem advance_of_resolve (hinv : ch.Inv) (hcall : ch.calls.lookup c = some call)
    (hphase : call.phase = .waiting) {result : Result (CommandResponse ρ)}
    (hres : ch.resolution c call = some result) :
    ch.Advance c call ch.pending
      { call with phase := .returned result, returnedAt := ch.issued } where
  active := by rw [hphase]; rfl
  id := rfl
  ordinal := rfl
  received := rfl
  phase := .inr ⟨rfl, rfl⟩
  ok := by
    refine ok_return (hinv.calls c call hcall) (by rw [hphase]; rfl) ?_
    rintro resp rfl
    refine ⟨(hinv.calls c call hcall).request hphase, ?_⟩
    rw [resolution] at hres
    split at hres
    · next i resp' hrec =>
      obtain rfl : resp' = resp := by simpa using hres
      exact ⟨i, hrec⟩
    · split at hres <;> cases hres
  pending := fun _ _ h => .inl h
  left := by
    intro _ hpend
    obtain ⟨call', hcall', -, hrec, -⟩ := hinv.pending _ _ hpend
    obtain rfl := Option.some.inj (hcall.symm.trans hcall')
    rw [resolution, hrec] at hres
    simp [hpend] at hres

/-- What one step of a call does: it draws the id, or moves the call on; only a successful
send makes it wait, and leaves the pending map as it is. -/
theorem callStep_cases {step : CallStep} (hinv : ch.Inv) (hcall : ch.calls.lookup c = some call)
    (h : ch.callStep c call step = some u) :
    (step = .fetchId ∧ call.phase = .cloned ∧ u = ch.fetchId c call) ∨
      ∃ pending' call', ch.Advance c call pending' call' ∧
        (if step = .sendOk then call'.phase = .waiting ∧ pending' = ch.pending
          else call'.phase ≠ .waiting) ∧
        u = { ch with pending := pending' }.setCall c call' := by
  have hok := hinv.calls c call hcall
  unfold callStep at h
  split at h
  · next hphase => exact .inl ⟨rfl, hphase, (Option.some.inj h).symm⟩
  · next hphase =>
    exact .inr ⟨_, _, advance_of_insertPending hok hphase, by simp, (Option.some.inj h).symm⟩
  · next hphase =>
    have hold : call.phase.enlisted = true := by rw [hphase]; rfl
    exact .inr ⟨_, _, advance_of_enlisted c .waiting _ hok hold rfl fun _ => rfl, by simp,
      (Option.some.inj h).symm⟩
  · next error hphase =>
    have hold : call.phase.enlisted = true := by rw [hphase]; rfl
    exact .inr ⟨_, _, advance_of_enlisted c (.sendFailed error) call.sent hok hold rfl nofun,
      by simp, (Option.some.inj h).symm⟩
  · next error hphase =>
    have hold : call.phase.enlisted = true := by rw [hphase]; rfl
    exact .inr ⟨_, _, advance_of_remove hok error hold, by simp, (Option.some.inj h).symm⟩
  · next hphase =>
    obtain ⟨result, hres, rfl⟩ := Option.map_eq_some_iff.mp h
    exact .inr ⟨_, _, advance_of_resolve hinv hcall hphase hres, by simp, rfl⟩
  · next hphase =>
    have hold : call.phase.enlisted = true := by rw [hphase]; rfl
    split at h
    · exact .inr ⟨_, _, advance_of_enlisted c .timedOut call.sent hok hold rfl nofun, by simp,
        (Option.some.inj h).symm⟩
    · cases h
  · next hphase =>
    have hold : call.phase.enlisted = true := by rw [hphase]; rfl
    exact .inr ⟨_, _, advance_of_remove hok (timedOut call.timeout) hold, by simp,
      (Option.some.inj h).symm⟩
  · cases h

/-! ## The invariant -/

theorem inv_new : (new : CameraCommandState γ ρ).Inv where
  calls _ _ h := absurd ((AList.lookup_empty _).symm.trans h) (by simp)
  nextId := rfl
  pending _ _ h := absurd ((AList.lookup_empty _).symm.trans h) (by simp)
  received_inj _ _ _ _ _ _ _ h := absurd ((AList.lookup_empty _).symm.trans h) (by simp)
  ordinal_inj _ _ _ _ h := absurd ((AList.lookup_empty _).symm.trans h) (by simp)

theorem ok_mono {issued issued' : Nat} {log log' : List (CommandMessage γ ρ)}
    (h : call.Ok issued log) (hissued : issued ≤ issued') (hlog : log <+: log') :
    call.Ok issued' log' where
  number hs := ⟨Nat.lt_of_lt_of_le (h.number hs).1 hissued, (h.number hs).2⟩
  fresh := h.fresh
  message i resp hrec := by
    obtain ⟨hs, hget, hid⟩ := h.message i resp hrec
    refine ⟨hs, ?_, hid⟩
    obtain ⟨tail, rfl⟩ := hlog
    rw [List.getElem?_append_left (List.getElem?_eq_some_iff.mp hget).1]
    exact hget
  request := h.request
  answer := h.answer
  returned hd := Nat.le_trans (h.returned hd) hissued

/-- A step of a call that keeps its response keeps messages apart. -/
theorem received_inj_insert (hinv : ch.Inv) (hcall : ch.calls.lookup c = some call)
    {call' : Call γ ρ} (hkeep : call'.received = call.received) {d e : Nat} {calld calle : Call γ ρ}
    {i : Nat} {rd re : CommandResponse ρ} (hd : (ch.calls.insert c call').lookup d = some calld)
    (he : (ch.calls.insert c call').lookup e = some calle)
    (hrd : calld.received = some (i, rd)) (hre : calle.received = some (i, re)) : d = e := by
  have back := HashMap.lookup_update_back (R := fun x y => y.received = x.received)
    (fun _ => rfl) hcall call' hkeep
  obtain ⟨calld', hd', hrd'⟩ := back d calld hd
  obtain ⟨calle', he', hre'⟩ := back e calle he
  exact hinv.received_inj d e calld' calle' i rd re hd' he' (hrd' ▸ hrd) (hre' ▸ hre)

/-- A step of a call that has started before, and keeps its number, keeps numbers apart. -/
theorem ordinal_inj_insert (hinv : ch.Inv) (hcall : ch.calls.lookup c = some call)
    {call' : Call γ ρ} (hstarted : call.phase.started = true)
    (hkeep : call'.ordinal = call.ordinal) {d e : Nat} {calld calle : Call γ ρ}
    (hd : (ch.calls.insert c call').lookup d = some calld)
    (he : (ch.calls.insert c call').lookup e = some calle) (hsd : calld.phase.started = true)
    (hse : calle.phase.started = true) (heq : calld.ordinal = calle.ordinal) : d = e := by
  have back := HashMap.lookup_update_back
    (R := fun x y => (y.phase.started = true → x.phase.started = true) ∧ y.ordinal = x.ordinal)
    (fun _ => ⟨id, rfl⟩) hcall call' ⟨fun _ => hstarted, hkeep⟩
  obtain ⟨calld', hd', hsd', hod⟩ := back d calld hd
  obtain ⟨calle', he', hse', hoe⟩ := back e calle he
  exact hinv.ordinal_inj d e calld' calle' hd' he' (hsd' hsd) (hse' hse)
    (hod.symm.trans (heq.trans hoe))

/-- A step of a call other than its id draw keeps the invariant. -/
theorem inv_advance (hinv : ch.Inv) (hcall : ch.calls.lookup c = some call)
    {pending' : HashMap UInt32 Nat} {call' : Call γ ρ}
    (hadv : ch.Advance c call pending' call') :
    ({ ch with pending := pending' }.setCall c call').Inv where
  calls := HashMap.forall_lookup_insert hadv.ok fun d calld _ => hinv.calls d calld
  nextId := hinv.nextId
  pending := by
    intro id d hlook
    -- a sender that is pending now was pending, or has just been inserted
    have hsender : ∃ calld, ch.calls.lookup d = some calld ∧ calld.id = id ∧
        calld.received = none := by
      rcases hadv.pending id d hlook with hold | ⟨rfl, rfl, hphase⟩
      · obtain ⟨calld, hd, hid, hrec, -⟩ := hinv.pending id d hold
        exact ⟨calld, hd, hid, hrec⟩
      · exact ⟨call, hcall, rfl, (hinv.calls d call hcall).fresh hphase⟩
    obtain ⟨calld, hd, hid, hrec⟩ := hsender
    show ∃ call, (ch.calls.insert c call').lookup d = some call ∧ _
    rw [HashMap.lookup_insert_ite]
    by_cases hdc : d = c
    · subst hdc
      obtain rfl := Option.some.inj (hcall.symm.trans hd)
      rw [if_pos rfl]
      refine ⟨call', rfl, hadv.id.trans hid, hadv.received.trans hrec, ?_⟩
      rcases hadv.phase with henl | ⟨hdone, -⟩
      · exact henl
      · exact absurd (hid ▸ hlook) (hadv.left hdone)
    · rw [if_neg hdc]
      rcases hadv.pending id d hlook with hold | ⟨-, hdc', -⟩
      · exact hinv.pending id d hold
      · exact absurd hdc' hdc
  received_inj _ _ _ _ _ _ _ hd he := received_inj_insert hinv hcall hadv.received hd he
  ordinal_inj _ _ _ _ hd he :=
    ordinal_inj_insert hinv hcall (CallPhase.started_of_active hadv.active) hadv.ordinal hd he

/-- Drawing an id keeps the invariant: the new call is the last to have started. -/
theorem inv_fetchId (hinv : ch.Inv) (hcall : ch.calls.lookup c = some call)
    (hphase : call.phase = .cloned) : (ch.fetchId c call).Inv where
  calls := by
    refine HashMap.forall_lookup_insert ?_ fun d calld _ hd =>
      ok_mono (hinv.calls d calld hd) (Nat.le_succ _) (List.prefix_refl _)
    have hok := hinv.calls c call hcall
    -- a response is only received after the id is drawn
    have hrec : call.received = none := by
      cases hrec : call.received with
      | none => rfl
      | some m =>
        have := (hok.message m.1 m.2 hrec).1
        rw [hphase] at this
        cases this
    exact
      { number := fun _ => ⟨Nat.lt_succ_self _, hinv.nextId⟩
        fresh := fun _ => hrec
        message := fun i resp hm => absurd (hrec.symm.trans hm) (by simp)
        request := nofun
        answer := nofun
        returned := nofun }
  nextId := by
    show ch.nextId + 1 = UInt32.ofNat (ch.issued + 1 + 1)
    rw [UInt32.ofNat_add, hinv.nextId]
    rfl
  pending := by
    intro id d hlook
    obtain ⟨calld, hd, hid, hrec, henl⟩ := hinv.pending id d hlook
    have hdc : d ≠ c := by
      rintro rfl
      obtain rfl := Option.some.inj (hcall.symm.trans hd)
      rw [hphase] at henl
      cases henl
    exact ⟨calld, (AList.lookup_insert_ne hdc).trans hd, hid, hrec, henl⟩
  received_inj _ _ _ _ _ _ _ hd he := received_inj_insert hinv hcall (by rfl) hd he
  ordinal_inj := by
    intro d e calld calle hd he hsd hse heq
    -- the new number is above all earlier ones
    rw [fetchId, setCall, HashMap.lookup_insert_ite] at hd he
    split at hd <;> split at he
    · next hdc hec => rw [hdc, hec]
    · obtain rfl := Option.some.inj hd
      have := ((hinv.calls e calle he).number hse).1
      exact absurd heq (Nat.ne_of_gt this)
    · obtain rfl := Option.some.inj he
      have := ((hinv.calls d calld hd).number hsd).1
      exact absurd heq (Nat.ne_of_lt this)
    · exact hinv.ordinal_inj d e calld calle hd he hsd hse heq

/-- What a message does: nothing but being logged, or it goes to the pending sender of its
id. -/
theorem recv_cases (hinv : ch.Inv) (message : CommandMessage γ ρ) :
    ch.recv message = { ch with log := ch.log ++ [message] } ∨
      ∃ resp c call, message = .response resp ∧ resp.id ≠ 0 ∧
        ch.pending.lookup resp.id = some c ∧ ch.calls.lookup c = some call ∧
        ch.recv message =
          { ch with log := ch.log ++ [message], pending := ch.pending.erase resp.id }.setCall c
            { call with received := some (ch.log.length, resp) } := by
  cases message with
  | request _ => exact .inl rfl
  | response resp =>
    by_cases hzero : resp.id = 0
    · left
      simp only [recv, if_pos hzero]
    · cases hpend : ch.pending.lookup resp.id with
      | none =>
        left
        simp only [recv, if_neg hzero, hpend]
      | some c =>
        obtain ⟨call, hcall, -⟩ := hinv.pending _ _ hpend
        right
        refine ⟨resp, c, call, rfl, hzero, hpend, hcall, ?_⟩
        simp only [recv, if_neg hzero, hpend, hcall]

/-- Logging a message keeps the invariant. -/
theorem inv_log (hinv : ch.Inv) (message : CommandMessage γ ρ) :
    ({ ch with log := ch.log ++ [message] } : CameraCommandState γ ρ).Inv where
  calls c call h := ok_mono (hinv.calls c call h) (Nat.le_refl _) (List.prefix_append _ _)
  nextId := hinv.nextId
  pending := hinv.pending
  received_inj := hinv.received_inj
  ordinal_inj := hinv.ordinal_inj

/-- A call with a pending sender takes the response that is logged next. -/
theorem ok_deliver {issued : Nat} {log : List (CommandMessage γ ρ)} {resp : CommandResponse ρ}
    (hok : call.Ok issued log) (henl : call.phase.enlisted = true) (hid : call.id = resp.id) :
    ({ call with received := some (log.length, resp) } : Call γ ρ).Ok issued
      (log ++ [.response resp]) where
  number := hok.number
  fresh hphase := by
    replace hphase : call.phase = .numbered := hphase
    rw [hphase] at henl
    cases henl
  message := by
    rintro i r ⟨⟩
    exact ⟨CallPhase.started_of_enlisted henl, List.getElem?_concat_length, hid.symm⟩
  request := hok.request
  answer r hphase := by
    replace hphase : call.phase = .returned (.ok r) := hphase
    rw [hphase] at henl
    cases henl
  returned := hok.returned

/-- Handing a response to the pending sender of its id keeps the invariant. -/
theorem inv_deliver (hinv : ch.Inv) {resp : CommandResponse ρ}
    (hpend : ch.pending.lookup resp.id = some c) (hcall : ch.calls.lookup c = some call) :
    ({ ch with
        log := ch.log ++ [(.response resp : CommandMessage γ ρ)]
        pending := ch.pending.erase resp.id }.setCall c
      { call with received := some (ch.log.length, resp) }).Inv := by
  obtain ⟨call', hcall', hid, -, henl⟩ := hinv.pending _ _ hpend
  obtain rfl := Option.some.inj (hcall.symm.trans hcall')
  have hlog : ∀ d calld i rd, ch.calls.lookup d = some calld → calld.received = some (i, rd) →
      i < ch.log.length := by
    intro d calld i rd hd hrd
    exact (List.getElem?_eq_some_iff.mp ((hinv.calls d calld hd).message i rd hrd).2.1).1
  refine
    { calls := HashMap.forall_lookup_insert (ok_deliver (hinv.calls c call hcall) henl hid)
        fun d calld _ hd => ok_mono (hinv.calls d calld hd) (Nat.le_refl _)
          (List.prefix_append _ _)
      nextId := hinv.nextId
      pending := ?_
      received_inj := ?_
      ordinal_inj := ?_ }
  · intro id d hlook
    have hlook : (ch.pending.erase resp.id).lookup id = some d := hlook
    rw [HashMap.lookup_erase_ite] at hlook
    split at hlook
    · cases hlook
    · next hne =>
      obtain ⟨calld, hd, hidd, hrec, henld⟩ := hinv.pending id d hlook
      have hdc : d ≠ c := by
        rintro rfl
        obtain rfl := Option.some.inj (hcall.symm.trans hd)
        exact hne (hidd.symm.trans hid)
      exact ⟨calld, (AList.lookup_insert_ne hdc).trans hd, hidd, hrec, henld⟩
  · -- the message is newer than every earlier answer
    intro d e calld calle i rd re hd he hrd hre
    rw [setCall, HashMap.lookup_insert_ite] at hd he
    split at hd <;> split at he
    · next hdc hec => rw [hdc, hec]
    · obtain rfl := Option.some.inj hd
      obtain ⟨rfl, -⟩ := Prod.mk.inj (Option.some.inj hrd)
      exact absurd (hlog e calle _ re he hre) (Nat.lt_irrefl _)
    · obtain rfl := Option.some.inj he
      obtain ⟨rfl, -⟩ := Prod.mk.inj (Option.some.inj hre)
      exact absurd (hlog d calld _ rd hd hrd) (Nat.lt_irrefl _)
    · exact hinv.received_inj d e calld calle i rd re hd he hrd hre
  · intro d e calld calle hd he
    exact ordinal_inj_insert hinv hcall (CallPhase.started_of_enlisted henl) (by rfl) hd he

theorem inv_recv (hinv : ch.Inv) (message : CommandMessage γ ρ) : (ch.recv message).Inv := by
  rcases recv_cases hinv message with h | ⟨resp, c, call, rfl, -, hpend, hcall, h⟩
  · rw [h]
    exact inv_log hinv message
  · rw [h]
    exact inv_deliver hinv hpend hcall

theorem inv_clone (hinv : ch.Inv) {command : γ} {timeout : String}
    (h : ch.clone c command timeout = some u) : u.Inv := by
  unfold clone at h
  split at h
  · next hfree =>
    obtain rfl := Option.some.inj h
    -- the new call has no number and no response, the others are as before
    have old : ∀ d calld,
        (ch.calls.insert c { command := command, timeout := timeout }).lookup d = some calld →
        ch.calls.lookup d = some calld ∨ calld = { command := command, timeout := timeout } := by
      intro d calld hd
      rw [HashMap.lookup_insert_ite] at hd
      split at hd
      · exact .inr (Option.some.inj hd).symm
      · exact .inl hd
    refine
      { calls := HashMap.forall_lookup_insert ?_ fun d calld _ => hinv.calls d calld
        nextId := hinv.nextId
        pending := ?_
        received_inj := ?_
        ordinal_inj := ?_ }
    · exact ⟨nofun, nofun, nofun, nofun, nofun, nofun⟩
    · intro id d hlook
      obtain ⟨calld, hd, hrest⟩ := hinv.pending id d hlook
      have hdc : d ≠ c := by
        rintro rfl
        rw [hfree] at hd
        cases hd
      exact ⟨calld, (AList.lookup_insert_ne hdc).trans hd, hrest⟩
    · intro d e calld calle i rd re hd he hrd hre
      rcases old d calld hd with hd | rfl
      · rcases old e calle he with he | rfl
        · exact hinv.received_inj d e calld calle i rd re hd he hrd hre
        · cases hre
      · cases hrd
    · intro d e calld calle hd he hsd hse
      rcases old d calld hd with hd | rfl
      · rcases old e calle he with he | rfl
        · exact hinv.ordinal_inj d e calld calle hd he hsd hse
        · cases hse
      · cases hsd
  · cases h

/-- Every event keeps the invariant. -/
theorem inv_step {event : ChannelEvent γ ρ} (hinv : ch.Inv) (h : ch.step event = some u) :
    u.Inv := by
  cases event with
  | recv message =>
    obtain rfl := Option.some.inj h
    exact inv_recv hinv message
  | clone c command timeout => exact inv_clone hinv h
  | call c step =>
    obtain ⟨call, hcall, h⟩ := Option.bind_eq_some_iff.mp h
    rcases callStep_cases hinv hcall h with ⟨-, hphase, rfl⟩ | ⟨pending', call', hadv, -, rfl⟩
    · exact inv_fetchId hinv hcall hphase
    · exact inv_advance hinv hcall hadv

/-! ## Waiting calls and their senders -/

/-- No waiting call has its sender in the pending map. -/
def NoneWaiting (ch : CameraCommandState γ ρ) : Prop :=
  ∀ c call, ch.calls.lookup c = some call → call.phase = .waiting →
    ch.pending.lookup call.id ≠ some c

/-- A step of a call brings a waiting call's sender into the map only if it is the send of
a call whose sender is there. -/
theorem noneWaiting_callStep_iff {step : CallStep} (hinv : ch.Inv) (hnone : ch.NoneWaiting)
    (hcall : ch.calls.lookup c = some call) (h : ch.callStep c call step = some u) :
    u.NoneWaiting ↔ (step = .sendOk → ch.pending.lookup call.id ≠ some c) := by
  rcases callStep_cases hinv hcall h with ⟨rfl, hphase, rfl⟩ |
    ⟨pending', call', hadv, hwait, rfl⟩
  · refine iff_of_true ?_ nofun
    refine HashMap.forall_lookup_insert nofun fun d calld _ hd => hnone d calld hd
  · have others : ∀ d calld, d ≠ c → ch.calls.lookup d = some calld → calld.phase = .waiting →
        pending'.lookup calld.id ≠ some d := by
      intro d calld hdc hd hwd hpend
      rcases hadv.pending _ _ hpend with hold | ⟨-, heq, -⟩
      · exact hnone d calld hd hwd hold
      · exact hdc heq
    by_cases hstep : step = .sendOk
    · rw [if_pos hstep] at hwait
      obtain ⟨hphase, rfl⟩ := hwait
      constructor
      · intro hu _ hpend
        exact hu c call' (AList.lookup_insert _) hphase (hadv.id ▸ hpend)
      · intro hout
        refine HashMap.forall_lookup_insert (fun _ => ?_) others
        rw [hadv.id]
        exact hout hstep
    · rw [if_neg hstep] at hwait
      refine iff_of_true ?_ fun heq => absurd heq hstep
      exact HashMap.forall_lookup_insert (fun heq => absurd heq hwait) others

theorem noneWaiting_clone (hnone : ch.NoneWaiting) {command : γ} {timeout : String}
    (h : ch.clone c command timeout = some u) : u.NoneWaiting := by
  unfold clone at h
  split at h
  · obtain rfl := Option.some.inj h
    exact HashMap.forall_lookup_insert nofun fun d calld _ hd => hnone d calld hd
  · cases h

/-! ## While ids are not reused too early -/

/-- The event is an id draw: a call starts. -/
def startsCall : ChannelEvent γ ρ → Bool
  | .call _ .fetchId => true
  | _ => false

/-- Fewer than `2^32` calls start during the lifetime of any one call: at each start, no
call that has not returned is `2^32` starts old. -/
def FewStarts (ch : CameraCommandState γ ρ) (event : ChannelEvent γ ρ)
    (_ : CameraCommandState γ ρ) : Prop :=
  startsCall event = true →
    ∀ e ∈ ch.calls.entries, e.2.phase.active = true → ch.issued < e.2.ordinal + 2 ^ 32

instance (ch : CameraCommandState γ ρ) (event : ChannelEvent γ ρ) (u : CameraCommandState γ ρ) :
    Decidable (FewStarts ch event u) :=
  inferInstanceAs (Decidable (_ = true → ∀ e ∈ ch.calls.entries, _ = true → _ < _))

/-- What bounded lifetimes add to the invariant: the calls that have not returned started
within a window of `2^32`, and a call that reuses the id of a returned one started after
that return. -/
structure Window (ch : CameraCommandState γ ρ) : Prop where
  recent : ∀ c call, ch.calls.lookup c = some call → call.phase.active = true →
    ch.issued ≤ call.ordinal + 2 ^ 32
  reuse : ∀ c d callc calld, ch.calls.lookup c = some callc → ch.calls.lookup d = some calld →
    callc.phase.done = true → calld.phase.active = true → calld.id = callc.id →
    callc.returnedAt ≤ calld.ordinal

/-- Two calls that have not returned have different ids. -/
theorem active_inj (hinv : ch.Inv) (hw : ch.Window) {d : Nat} {calld : Call γ ρ}
    (hcall : ch.calls.lookup c = some call) (hd : ch.calls.lookup d = some calld)
    (hac : call.phase.active = true) (had : calld.phase.active = true)
    (hid : call.id = calld.id) : c = d := by
  have hsc := CallPhase.started_of_active hac
  have hsd := CallPhase.started_of_active had
  obtain ⟨hltc, hidc⟩ := (hinv.calls c call hcall).number hsc
  obtain ⟨hltd, hidd⟩ := (hinv.calls d calld hd).number hsd
  have hrc := hw.recent c call hcall hac
  have hrd := hw.recent d calld hd had
  refine hinv.ordinal_inj c d call calld hcall hd hsc hsd ?_
  -- equal ids are equal ordinals modulo 2^32, and both lie in one window of that size
  have hmod : (call.ordinal + 1) % 2 ^ 32 = (calld.ordinal + 1) % 2 ^ 32 := by
    rw [← UInt32.toNat_ofNat', ← UInt32.toNat_ofNat', ← hidc, ← hidd, hid]
  omega

theorem window_new : (new : CameraCommandState γ ρ).Window where
  recent _ _ h := absurd ((AList.lookup_empty _).symm.trans h) (by simp)
  reuse _ _ _ _ h := absurd ((AList.lookup_empty _).symm.trans h) (by simp)

/-- A step that leaves every call's number and standing as it was keeps the window. -/
theorem window_of_back (hw : ch.Window) (hissued : u.issued = ch.issued)
    (back : ∀ k callk, u.calls.lookup k = some callk → callk.phase.started = true →
      ∃ callk', ch.calls.lookup k = some callk' ∧ callk.phase = callk'.phase ∧
        callk.id = callk'.id ∧ callk.ordinal = callk'.ordinal ∧
        callk.returnedAt = callk'.returnedAt) : u.Window where
  recent d calld hd had := by
    obtain ⟨calld', hd', hp, -, ho, -⟩ := back d calld hd (CallPhase.started_of_active had)
    rw [hissued, ho]
    exact hw.recent d calld' hd' (hp ▸ had)
  reuse d e calld calle hd he hdone hact hid := by
    have hstarted : calld.phase.started = true := by
      cases hp : calld.phase <;> rw [hp] at hdone <;> first | rfl | cases hdone
    obtain ⟨calld', hd', hpd, hidd, -, hrd⟩ := back d calld hd hstarted
    obtain ⟨calle', he', hpe, hide, hoe, -⟩ :=
      back e calle he (CallPhase.started_of_active hact)
    rw [hrd, hoe]
    exact hw.reuse d e calld' calle' hd' he' (hpd ▸ hdone) (hpe ▸ hact)
      (hide ▸ hidd ▸ hid)

theorem window_recv (hinv : ch.Inv) (hw : ch.Window) (message : CommandMessage γ ρ) :
    (ch.recv message).Window := by
  rcases recv_cases hinv message with h | ⟨resp, c, call, rfl, -, -, hcall, h⟩
  · rw [h]
    exact window_of_back hw rfl fun k callk hk _ => ⟨callk, hk, rfl, rfl, rfl, rfl⟩
  · rw [h]
    refine window_of_back hw rfl fun k callk hk _ => ?_
    exact HashMap.lookup_update_back
      (R := fun x y => y.phase = x.phase ∧ y.id = x.id ∧ y.ordinal = x.ordinal ∧
        y.returnedAt = x.returnedAt)
      (fun _ => ⟨rfl, rfl, rfl, rfl⟩) hcall _ ⟨rfl, rfl, rfl, rfl⟩ k callk hk

theorem window_clone (hw : ch.Window) {command : γ} {timeout : String}
    (h : ch.clone c command timeout = some u) :
    u.Window := by
  unfold clone at h
  split at h
  · obtain rfl := Option.some.inj h
    refine window_of_back hw rfl fun k callk hk hsk => ?_
    have hk : (ch.calls.insert c { command := command, timeout := timeout }).lookup k =
        some callk := hk
    rw [HashMap.lookup_insert_ite] at hk
    split at hk
    · obtain rfl := Option.some.inj hk
      cases hsk
    · exact ⟨callk, hk, rfl, rfl, rfl, rfl⟩
  · cases h

/-- Drawing an id: the new call's number is the newest, so it is outside every returned
call's lifetime, and the condition keeps the others inside the window. -/
theorem window_fetchId (hinv : ch.Inv) (hw : ch.Window) (call : Call γ ρ)
    (hfew : ∀ e ∈ ch.calls.entries, e.2.phase.active = true → ch.issued < e.2.ordinal + 2 ^ 32) :
    (ch.fetchId c call).Window where
  recent := by
    refine HashMap.forall_lookup_insert (fun _ => ?_) fun d calld _ hd had => ?_
    · show ch.issued + 1 ≤ ch.issued + 2 ^ 32
      omega
    · exact hfew ⟨d, calld⟩ (HashMap.mem_entries_iff.mpr hd) had
  reuse := by
    intro d e calld calle hd he hdone hact hid
    rw [fetchId, setCall, HashMap.lookup_insert_ite] at hd he
    split at hd
    · obtain rfl := Option.some.inj hd
      cases hdone
    · split at he
      · obtain rfl := Option.some.inj he
        exact (hinv.calls d calld hd).returned hdone
      · exact hw.reuse d e calld calle hd he hdone hact hid

/-- Any other step of a call: if it returns, no active call shares its id. -/
theorem window_advance (hinv : ch.Inv) (hw : ch.Window) (hcall : ch.calls.lookup c = some call)
    {pending' : HashMap UInt32 Nat} {call' : Call γ ρ}
    (hadv : ch.Advance c call pending' call') :
    ({ ch with pending := pending' }.setCall c call').Window where
  recent := by
    refine HashMap.forall_lookup_insert (fun _ => ?_) fun d calld _ => hw.recent d calld
    rw [hadv.ordinal]
    exact hw.recent c call hcall hadv.active
  reuse := by
    intro d e calld calle hd he hdone hact hid
    rw [setCall, HashMap.lookup_insert_ite] at hd he
    split at hd <;> split at he
    · obtain rfl := Option.some.inj hd
      obtain rfl := Option.some.inj he
      rw [CallPhase.not_done_of_active hact] at hdone
      cases hdone
    · next hdc hec =>
      obtain rfl := Option.some.inj hd
      have hce := active_inj hinv hw hcall he hadv.active hact (hadv.id ▸ hid).symm
      exact absurd hce.symm hec
    · obtain rfl := Option.some.inj he
      rw [hadv.ordinal]
      exact hw.reuse d c calld call hd hcall hdone hadv.active (hadv.id ▸ hid)
    · exact hw.reuse d e calld calle hd he hdone hact hid

theorem window_step {event : ChannelEvent γ ρ} (hinv : ch.Inv) (hw : ch.Window)
    (hfew : FewStarts ch event u) (h : ch.step event = some u) : u.Window := by
  cases event with
  | recv message =>
    obtain rfl := Option.some.inj h
    exact window_recv hinv hw message
  | clone c command timeout => exact window_clone hw h
  | call c step =>
    obtain ⟨call, hcall, h⟩ := Option.bind_eq_some_iff.mp h
    rcases callStep_cases hinv hcall h with ⟨rfl, -, rfl⟩ | ⟨pending', call', hadv, -, rfl⟩
    · exact window_fetchId hinv hw call (hfew rfl)
    · exact window_advance hinv hw hcall hadv

/-! ## Correlation -/

/-- What a caller is promised in a state: an answered call got a message of the camera with
the id of its own request, one message fills one oneshot, and what the pending map holds
under the id of a returned call belongs to a call that started after that return. -/
structure Correlated (ch : CameraCommandState γ ρ) : Prop where
  answered : ∀ c call resp, ch.calls.lookup c = some call → call.phase = .returned (.ok resp) →
    ∃ req i, call.sent = some req ∧ resp.id = req.id ∧ call.received = some (i, resp) ∧
      ch.log[i]? = some (.response resp)
  once : ∀ c d callc calld i rc rd, ch.calls.lookup c = some callc →
    ch.calls.lookup d = some calld → callc.received = some (i, rc) →
    calld.received = some (i, rd) → c = d
  released : ∀ c call, ch.calls.lookup c = some call → call.phase.done = true →
    ∀ d, ch.pending.lookup call.id = some d →
      ∃ calld, ch.calls.lookup d = some calld ∧ call.returnedAt ≤ calld.ordinal

/-- The step in which a call returns leaves nothing under its id in the pending map. -/
def ReturnReleases (ch : CameraCommandState γ ρ) (_ : ChannelEvent γ ρ)
    (u : CameraCommandState γ ρ) : Prop :=
  ∀ c call', u.calls.lookup c = some call' → call'.phase.done = true →
    (∀ call, ch.calls.lookup c = some call → call.phase.done = false) →
    u.pending.lookup call'.id = none

theorem correlated_of_inv (hinv : ch.Inv) (hw : ch.Window) : ch.Correlated where
  answered := by
    intro c call resp hcall hphase
    have hok := hinv.calls c call hcall
    obtain ⟨hsent, i, hrec⟩ := hok.answer resp hphase
    obtain ⟨-, hlog, hid⟩ := hok.message i resp hrec
    exact ⟨_, i, hsent, hid, hrec, hlog⟩
  once := hinv.received_inj
  released := by
    intro c call hcall hdone d hpend
    obtain ⟨calld, hd, hid, -, henl⟩ := hinv.pending _ _ hpend
    exact ⟨calld, hd,
      hw.reuse c d call calld hcall hd hdone (CallPhase.active_of_enlisted henl) hid⟩

/-- A call that returns has taken its own sender out of the pending map, and no other call
that could be registered under its id is active. -/
theorem releases_advance (hinv : ch.Inv) (hw : ch.Window) (hcall : ch.calls.lookup c = some call)
    {pending' : HashMap UInt32 Nat} {call' : Call γ ρ}
    (hadv : ch.Advance c call pending' call') (hdone : call'.phase.done = true) :
    pending'.lookup call'.id = none := by
  rw [hadv.id]
  cases hpend : pending'.lookup call.id with
  | none => rfl
  | some d =>
    exfalso
    have hleft := hadv.left hdone
    rcases hadv.pending _ _ hpend with hold | ⟨-, rfl, -⟩
    · obtain ⟨calld, hd, hid, -, henl⟩ := hinv.pending _ _ hold
      have hcd := active_inj hinv hw hcall hd hadv.active (CallPhase.active_of_enlisted henl)
        hid.symm
      exact hleft (hcd ▸ hpend)
    · exact hleft hpend

theorem releases_step {event : ChannelEvent γ ρ} (hinv : ch.Inv) (hw : ch.Window)
    (h : ch.step event = some u) : ReturnReleases ch event u := by
  intro d call' hd hdone hbefore
  -- a call whose record a step leaves, or changes only in its oneshot, has not returned in it
  have hsame : ∀ calld, ch.calls.lookup d = some calld → calld.phase = call'.phase → False := by
    intro calld hcalld hp
    rw [← hp, hbefore calld hcalld] at hdone
    cases hdone
  cases event with
  | recv message =>
    obtain rfl := Option.some.inj h
    exfalso
    rcases recv_cases hinv message with heq | ⟨resp, c, call, rfl, -, -, hcall, heq⟩
    · rw [heq] at hd
      exact hsame call' hd rfl
    · rw [heq] at hd
      obtain ⟨calld, hcalld, hp⟩ := HashMap.lookup_update_back (R := fun x y => x.phase = y.phase)
        (fun _ => rfl) hcall { call with received := some (ch.log.length, resp) } rfl d call' hd
      exact hsame calld hcalld hp
  | clone c command timeout =>
    exfalso
    rw [step, clone] at h
    split at h
    · obtain rfl := Option.some.inj h
      rw [setCall, HashMap.lookup_insert_ite] at hd
      split at hd
      · obtain rfl := Option.some.inj hd
        cases hdone
      · exact hsame call' hd rfl
    · cases h
  | call c step =>
    obtain ⟨call, hcall, h⟩ := Option.bind_eq_some_iff.mp h
    rcases callStep_cases hinv hcall h with ⟨rfl, -, rfl⟩ | ⟨pending', callc', hadv, -, rfl⟩
    · exfalso
      rw [fetchId, setCall, HashMap.lookup_insert_ite] at hd
      split at hd
      · obtain rfl := Option.some.inj hd
        cases hdone
      · exact hsame call' hd rfl
    · rw [setCall, HashMap.lookup_insert_ite] at hd
      split at hd
      · obtain rfl := Option.some.inj hd
        exact releases_advance hinv hw hcall hadv hdone
      · exact (hsame call' hd rfl).elim

/-- **Correlation.** For any interleaving of calls, camera messages, send failures and
timeouts on one channel in which fewer than `2^32` calls start during the lifetime of any
one call, a call returns a response only if a message of the camera carried the id of its
request, a message completes at most one call, and a returned call leaves its id out of the
pending map until a later call draws it again. -/
theorem channel_correlates (events : List (ChannelEvent γ ρ))
    (hfew : Machine.EachStep step FewStarts new events) :
    Machine.Always step Correlated new events ∧
      Machine.EachStep step ReturnReleases new events := by
  have hboth :
      Machine.Always step (fun ch : CameraCommandState γ ρ => ch.Inv ∧ ch.Window) new events :=
    Machine.always_of_eachStep ⟨inv_new, window_new⟩
      (fun _ _ _ hi hf h => ⟨inv_step hi.1 h, window_step hi.1 hi.2 hf h⟩) hfew
  exact ⟨hboth.mono fun _ hi => correlated_of_inv hi.1 hi.2,
    Machine.eachStep_of_always hboth fun _ _ _ hi h => releases_step hi.1 hi.2 h⟩

/-- Two calls; the second is answered (and its id answered again), the first times out
after a ready signal, an unknown id and a stray request. -/
def twoCalls : List (ChannelEvent Unit Nat) :=
  [.clone 0 () "30s", .clone 1 () "30s", .call 0 .fetchId, .call 1 .fetchId, .call 1 .insertPending,
    .call 0 .insertPending, .call 1 .sendOk, .call 0 .sendOk, .recv (.response ⟨2, 77⟩),
    .recv (.response ⟨2, 78⟩), .recv (.response ⟨0, 1⟩), .recv (.response ⟨9, 1⟩),
    .recv (.request ⟨1, ()⟩), .call 0 .timeout, .call 0 .removeTimedOut, .call 1 .resolve]

theorem twoCalls_correlate :
    Machine.Always step Correlated new twoCalls ∧
      Machine.EachStep step ReturnReleases new twoCalls :=
  channel_correlates twoCalls (by decide)

/-- The schedule runs to its end: one call has its response, the other has timed out. -/
example : (Machine.run step new twoCalls).map (fun ch =>
    ((ch.calls.lookup 0).map (fun call => call.phase.done),
      (ch.calls.lookup 1).map (fun call => call.received.map (fun m => m.2.result)))) =
    some (some true, some (some 77)) := by
  decide

end CameraCommandState

end Kodama
