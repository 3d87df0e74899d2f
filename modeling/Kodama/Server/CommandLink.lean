import Kodama.Server.ReadySignal

/-!
# A command stream between router and camera (server/router.rs, `send_command`; camera.rs)

The two ends of one command stream, and what is in flight between them. The router's end is
the channel of `CameraCommandState`, whose calls write their requests to the stream; the
camera's end is `handle_commands`, which sends a ready signal, then takes one request after
the other, executes it and sends the result back under the request's id.

- `executed_in_order`: the camera executes each request at most once, in the order of writing.
- `answered_by_own`: while fewer than `2^32` calls have started, a call returns a response
  only if the camera has executed this very call's command, and the result is the one the
  execution gave.
- `answer_at_hand`: when nothing is in flight and the camera waits for the next request, no
  call still waits for its response.

A message that is written arrives whole, after those written before it. Where a write fails,
nothing of the message arrives.
-/

namespace Kodama

open Lib Lib.Machine

/-- Where the camera's task for the command stream stands. -/
inductive CommandHandler (γ ρ : Type) where
  /-- The stream is open; the ready signal is still to be sent. -/
  | opened
  | receiving
  | executing (request : CommandRequest γ)
  | responding (response : CommandResponse ρ)
  /-- The task is over. -/
  | ended

namespace CommandHandler

variable {γ ρ : Type}

/-- The request the camera has taken off the stream and not executed. -/
def taken : CommandHandler γ ρ → List (CommandRequest γ)
  | .executing request => [request]
  | _ => []

/-- The response the camera has still to send. -/
def unsent (ready : ρ) : CommandHandler γ ρ → List (CommandResponse ρ)
  | .opened => [⟨0, ready⟩]
  | .responding response => [response]
  | _ => []

end CommandHandler

/-- Both ends of a command stream. `written` lists the calls that have put their request on
the stream, and `executed` what the camera has executed. -/
structure CommandLink (γ ρ : Type) where
  server : CameraCommandState γ ρ
  toCamera : List (CommandMessage γ ρ)
  camera : CommandHandler γ ρ
  toServer : List (CommandMessage γ ρ)
  written : List (Nat × CommandRequest γ)
  executed : List (CommandRequest γ × ρ)

/-- What can happen on a command stream. -/
inductive LinkEvent (γ ρ : Type) where
  | clone (c : Nat) (command : γ) (timeout : String)
  | call (c : Nat) (step : CallStep)
  /-- The sender of the call's request writes it. -/
  | write (c : Nat)
  /-- The router's reader takes the next message. -/
  | dispatch
  /-- The camera sends its ready signal, if the stream takes it. -/
  | sendReady (sent : Bool)
  /-- The camera takes the next message. -/
  | receive
  /-- `execute_command` returns. -/
  | execute (result : ρ)
  /-- The camera sends its response, if the stream takes it. -/
  | respond (sent : Bool)
  /-- The camera's receiver reports the end of the stream, or an error. -/
  | close

variable {γ ρ : Type}

namespace CommandLink

/-- A new stream. -/
def new : CommandLink γ ρ := ⟨.new, [], .opened, [], [], []⟩

/-- The call has written its request. -/
def HasWritten (l : CommandLink γ ρ) (c : Nat) : Prop := c ∈ l.written.map Prod.fst

instance (l : CommandLink γ ρ) (c : Nat) : Decidable (l.HasWritten c) :=
  inferInstanceAs (Decidable (c ∈ l.written.map Prod.fst))

/-- The outcome of a call's `send` is that of its write. -/
def Enabled (l : CommandLink γ ρ) (c : Nat) : CallStep → Prop
  | .sendOk => l.HasWritten c
  | .sendErr _ => ¬ l.HasWritten c
  | _ => True

instance (l : CommandLink γ ρ) (c : Nat) : ∀ step, Decidable (l.Enabled c step)
  | .sendOk => inferInstanceAs (Decidable (l.HasWritten c))
  | .sendErr _ => inferInstanceAs (Decidable (¬ l.HasWritten c))
  | .fetchId | .insertPending | .removeFailed | .resolve | .timeout | .removeTimedOut =>
    inferInstanceAs (Decidable True)

/-- A step of the router's end. -/
def onServer (l : CommandLink γ ρ) (event : ChannelEvent γ ρ) : Option (CommandLink γ ρ) :=
  (l.server.step event).map fun server => { l with server }

/-- `write_command` of a request. -/
def write (l : CommandLink γ ρ) (c : Nat) (call : Call γ ρ) : CommandLink γ ρ :=
  { l with
    toCamera := l.toCamera ++ [.request ⟨call.id, call.command⟩]
    written := l.written ++ [(c, ⟨call.id, call.command⟩)] }

/-- `write_command` of a response; the camera's task goes on only if it is sent. -/
def reply (l : CommandLink γ ρ) (response : CommandResponse ρ) (sent : Bool) :
    CommandLink γ ρ :=
  if sent then { l with toServer := l.toServer ++ [.response response], camera := .receiving }
  else { l with camera := .ended }

/-- One event. The camera ignores a response that is sent to it. -/
def step (ready : ρ) (l : CommandLink γ ρ) : LinkEvent γ ρ → Option (CommandLink γ ρ)
  | .clone c command timeout => l.onServer (.clone c command timeout)
  | .call c step => if l.Enabled c step then l.onServer (.call c step) else none
  | .write c =>
    match l.server.calls.lookup c with
    | some call =>
      match call.phase with
      | .registered => if l.HasWritten c then none else some (l.write c call)
      | _ => none
    | none => none
  | .dispatch =>
    match l.toServer with
    | [] => none
    | message :: toServer => { l with toServer }.onServer (.recv message)
  | .sendReady sent =>
    match l.camera with
    | .opened => some (l.reply ⟨0, ready⟩ sent)
    | _ => none
  | .receive =>
    match l.camera, l.toCamera with
    | .receiving, .request request :: toCamera =>
      some { l with toCamera, camera := .executing request }
    | .receiving, .response _ :: toCamera => some { l with toCamera }
    | _, _ => none
  | .execute result =>
    match l.camera with
    | .executing request =>
      some { l with
        camera := .responding ⟨request.id, result⟩
        executed := l.executed ++ [(request, result)] }
    | _ => none
  | .respond sent =>
    match l.camera with
    | .responding response => some (l.reply response sent)
    | _ => none
  | .close =>
    match l.camera with
    | .receiving => some { l with camera := .ended }
    | _ => none

/-! ## What is in flight -/

/-- The responses the camera owes, in order: its ready signal, and one for each execution. -/
def responses (ready : ρ) (l : CommandLink γ ρ) : List (CommandResponse ρ) :=
  ⟨0, ready⟩ :: l.executed.map fun e => ⟨e.1.id, e.2⟩

/-- The responses of the camera that have come to the router, are in flight or still to be
sent. -/
def answers (ready : ρ) (l : CommandLink γ ρ) : List (CommandMessage γ ρ) :=
  l.server.log ++ l.toServer ++ (l.camera.unsent ready).map .response

/-- What holds of every reachable stream: every request that was written has been executed,
is being executed or is in flight, the responses come back in the order of the executions,
and a request that was written is that of its call. -/
structure Flow (ready : ρ) (l : CommandLink γ ρ) : Prop where
  server : l.server.Inv
  requests : l.written.map (CommandMessage.request ·.2) =
    (l.executed.map Prod.fst ++ l.camera.taken).map .request ++ l.toCamera
  responses : l.answers ready <+: (l.responses ready).map .response
  live : l.camera ≠ .ended → l.answers ready = (l.responses ready).map .response
  nodup : (l.written.map Prod.fst).Nodup
  calls : ∀ c request, (c, request) ∈ l.written → ∃ call, l.server.calls.lookup c = some call ∧
    call.phase.started = true ∧ call.phase ≠ .numbered ∧ request = ⟨call.id, call.command⟩
  sent : ∀ c call request, l.server.calls.lookup c = some call → call.sent = some request →
    (c, request) ∈ l.written

/-! ## What a step of the router's end does to its calls -/

variable {ready : ρ} {l u : CommandLink γ ρ} {ch ch' : CameraCommandState γ ρ} {c : Nat}
  {call : Call γ ρ}

/-- What a step of a call does: the call keeps its command, its id once it has one, and what it
has received; its request goes out with a send that succeeds; and of the pending senders only
its own is touched. -/
structure Advances (ch : CameraCommandState γ ρ) (c : Nat) (call : Call γ ρ) (step : CallStep)
    (ch' : CameraCommandState γ ρ) (call' : Call γ ρ) : Prop where
  calls : ch'.calls = ch.calls.insert c call'
  log : ch'.log = ch.log
  issued : ch.issued ≤ ch'.issued
  command : call'.command = call.command
  received : call'.received = call.received
  started : call'.phase.started = true
  id : call.phase.started = true → call'.id = call.id
  numbered : call.phase.started = true → call'.phase ≠ .numbered
  sent : call'.sent = call.sent ∨
    step = .sendOk ∧ call'.sent = some ⟨call.id, call.command⟩ ∧ call.phase = .registered
  others : ∀ id, (call.phase.started = true → id ≠ call.id) →
    ch'.pending.lookup id = ch.pending.lookup id
  own : call'.phase.enlisted = true →
    ch'.pending.lookup call.id = some c ∧ call.phase = .numbered ∨
      ch'.pending = ch.pending ∧ call.phase.enlisted = true

/-- A step that only moves a registered call on. -/
theorem advances_setCall {step : CallStep} {call' : Call γ ρ} (hold : call.phase.enlisted = true)
    (hstarted : call'.phase.started = true) (hnum : call'.phase ≠ .numbered)
    (hcommand : call'.command = call.command) (hid : call'.id = call.id)
    (hreceived : call'.received = call.received)
    (hsent : call'.sent = call.sent ∨
      step = .sendOk ∧ call'.sent = some ⟨call.id, call.command⟩ ∧ call.phase = .registered) :
    Advances ch c call step (ch.setCall c call') call' where
  calls := rfl
  log := rfl
  issued := Nat.le_refl _
  command := hcommand
  received := hreceived
  started := hstarted
  id _ := hid
  numbered _ := hnum
  sent := hsent
  others _ _ := rfl
  own _ := .inr ⟨rfl, hold⟩

theorem advances_removeAndReturn {step : CallStep} (error : String)
    (hold : call.phase.enlisted = true) : Advances ch c call step (ch.removeAndReturn c call error)
      { call with phase := .returned (.error error), returnedAt := ch.issued } where
  calls := rfl
  log := rfl
  issued := Nat.le_refl _
  command := rfl
  received := rfl
  started := rfl
  id _ := rfl
  numbered _ := nofun
  sent := .inl rfl
  others _ hid := AList.lookup_erase_ne (hid (CallPhase.started_of_enlisted hold))
  own := nofun

theorem callStep_advances {step : CallStep} (h : ch.callStep c call step = some ch') :
    ∃ call', Advances ch c call step ch' call' := by
  unfold CameraCommandState.callStep at h
  split at h
  · next hphase =>
    obtain rfl := Option.some.inj h
    have hnot : call.phase.started ≠ true := by
      rw [hphase]
      exact Bool.false_ne_true
    exact ⟨_, rfl, rfl, Nat.le_succ _, rfl, rfl, rfl, fun hs => absurd hs hnot,
      fun hs => absurd hs hnot, .inl rfl, fun _ _ => rfl, nofun⟩
  · next hphase =>
    obtain rfl := Option.some.inj h
    have hstarted : call.phase.started = true := by rw [hphase]; rfl
    exact ⟨_, rfl, rfl, Nat.le_refl _, rfl, rfl, rfl, fun _ => rfl, fun _ => nofun, .inl rfl,
      fun id hid => AList.lookup_insert_ne (hid hstarted),
      fun _ => .inl ⟨AList.lookup_insert _, hphase⟩⟩
  · next hphase =>
    obtain rfl := Option.some.inj h
    have hold : call.phase.enlisted = true := by rw [hphase]; rfl
    exact ⟨_, advances_setCall hold rfl nofun rfl rfl rfl (.inr ⟨rfl, rfl, hphase⟩)⟩
  · next hphase =>
    obtain rfl := Option.some.inj h
    have hold : call.phase.enlisted = true := by rw [hphase]; rfl
    exact ⟨_, advances_setCall hold rfl nofun rfl rfl rfl (.inl rfl)⟩
  · next error hphase =>
    obtain rfl := Option.some.inj h
    exact ⟨_, advances_removeAndReturn error (by rw [hphase]; rfl)⟩
  · next hphase =>
    obtain ⟨result, -, rfl⟩ := Option.map_eq_some_iff.mp h
    have hold : call.phase.enlisted = true := by rw [hphase]; rfl
    exact ⟨_, advances_setCall hold rfl nofun rfl rfl rfl (.inl rfl)⟩
  · next hphase =>
    split at h
    · obtain rfl := Option.some.inj h
      have hold : call.phase.enlisted = true := by rw [hphase]; rfl
      exact ⟨_, advances_setCall hold rfl nofun rfl rfl rfl (.inl rfl)⟩
    · cases h
  · next hphase =>
    obtain rfl := Option.some.inj h
    exact ⟨_, advances_removeAndReturn _ (by rw [hphase]; rfl)⟩
  · cases h

/-- A message changes at most what a call has received. -/
theorem recv_lookup (hinv : ch.Inv) (message : CommandMessage γ ρ) {d : Nat} :
    ∃ received : Call γ ρ → Option (Nat × CommandResponse ρ),
      (ch.recv message).calls.lookup d =
        (ch.calls.lookup d).map fun call => { call with received := received call } := by
  rcases CameraCommandState.recv_cases hinv message with h | ⟨resp, c, call, -, -, -, hcall, h⟩
  · refine ⟨Call.received, ?_⟩
    rw [h]
    exact (congrFun Option.map_id (ch.calls.lookup d)).symm
  · rw [h, CameraCommandState.setCall, HashMap.lookup_insert_ite]
    by_cases hd : d = c
    · refine ⟨fun _ => some (ch.log.length, resp), ?_⟩
      rw [if_pos hd, hd, hcall, Option.map_some]
    · refine ⟨Call.received, ?_⟩
      rw [if_neg hd]
      exact (congrFun Option.map_id (ch.calls.lookup d)).symm

theorem log_recv (hinv : ch.Inv) (message : CommandMessage γ ρ) :
    (ch.recv message).log = ch.log ++ [message] := by
  rcases CameraCommandState.recv_cases hinv message with h | ⟨_, _, _, -, -, -, -, h⟩ <;> rw [h]
  rfl

/-! ## The invariant -/

theorem onServer_eq_some {event : ChannelEvent γ ρ} :
    l.onServer event = some u ↔
      ∃ server, l.server.step event = some server ∧ { l with server } = u :=
  Option.map_eq_some_iff

theorem flow_new : (new : CommandLink γ ρ).Flow ready where
  server := CameraCommandState.inv_new
  requests := rfl
  responses := List.prefix_refl _
  live _ := rfl
  nodup := List.nodup_nil
  calls _ _ h := absurd h (List.not_mem_nil)
  sent _ _ _ h := absurd ((AList.lookup_empty _).symm.trans h) (by simp)

/-- A step of the router's end that takes no message: it leaves the record of a call that has
written its request, but for its phase, as it was. -/
theorem flow_server (hflow : l.Flow ready) (hinv : ch.Inv) (hlog : ch.log = l.server.log)
    (hcalls : ∀ d calld, l.server.calls.lookup d = some calld → calld.phase.started = true →
      calld.phase ≠ .numbered → ∃ calld', ch.calls.lookup d = some calld' ∧
        calld'.phase.started = true ∧ calld'.phase ≠ .numbered ∧ calld'.id = calld.id ∧
        calld'.command = calld.command)
    (hsent : ∀ d calld request, ch.calls.lookup d = some calld → calld.sent = some request →
      (d, request) ∈ l.written) : ({ l with server := ch } : CommandLink γ ρ).Flow ready where
  server := hinv
  requests := hflow.requests
  responses := by
    have := hflow.responses
    rw [answers, ← hlog] at this
    exact this
  live hne := by
    have := hflow.live hne
    rw [answers, ← hlog] at this
    exact this
  nodup := hflow.nodup
  calls d request hd := by
    obtain ⟨calld, hcalld, hstarted, hnum, rfl⟩ := hflow.calls d request hd
    obtain ⟨calld', hcalld', hstarted', hnum', hid, hcommand⟩ :=
      hcalls d calld hcalld hstarted hnum
    exact ⟨calld', hcalld', hstarted', hnum', by rw [hid, hcommand]⟩
  sent := hsent

theorem flow_call {step : CallStep} (hflow : l.Flow ready) (henabled : l.Enabled c step)
    (h : l.server.step (.call c step) = some ch) :
    ({ l with server := ch } : CommandLink γ ρ).Flow ready := by
  have hinv := CameraCommandState.inv_step hflow.server h
  obtain ⟨call, hcall, h⟩ := Option.bind_eq_some_iff.mp h
  obtain ⟨call', hadv⟩ := callStep_advances h
  refine flow_server hflow hinv hadv.log (fun d calld hd hstarted hnum => ?_)
    fun d calld request hd hrequest => ?_
  · rw [hadv.calls, HashMap.lookup_insert_ite]
    by_cases hdc : d = c
    · obtain rfl := Option.some.inj ((hdc ▸ hd).symm.trans hcall)
      rw [if_pos hdc]
      exact ⟨call', rfl, hadv.started, hadv.numbered hstarted, hadv.id hstarted, hadv.command⟩
    · rw [if_neg hdc]
      exact ⟨calld, hd, hstarted, hnum, rfl, rfl⟩
  · rw [hadv.calls, HashMap.lookup_insert_ite] at hd
    by_cases hdc : d = c
    · rw [if_pos hdc] at hd
      obtain rfl := Option.some.inj hd
      subst hdc
      rcases hadv.sent with hsame | ⟨rfl, hnew, -⟩
      · exact hflow.sent d call request hcall (hsame ▸ hrequest)
      · -- the send has succeeded, so the request was written, and it is this call's
        obtain rfl := Option.some.inj (hnew.symm.trans hrequest)
        obtain ⟨⟨_, written⟩, hmem, rfl⟩ := List.mem_map.mp henabled
        obtain ⟨call'', hcall'', -, -, rfl⟩ := hflow.calls _ _ hmem
        obtain rfl := Option.some.inj (hcall.symm.trans hcall'')
        exact hmem
    · rw [if_neg hdc] at hd
      exact hflow.sent d calld request hd hrequest

theorem flow_clone {command : γ} {timeout : String} (hflow : l.Flow ready)
    (h : l.server.step (.clone c command timeout) = some ch) :
    ({ l with server := ch } : CommandLink γ ρ).Flow ready := by
  have hinv := CameraCommandState.inv_step hflow.server h
  have h : l.server.clone c command timeout = some ch := h
  rw [CameraCommandState.clone] at h
  split at h
  · next hfree =>
    obtain rfl := Option.some.inj h
    refine flow_server hflow hinv rfl (fun d calld hd hstarted hnum => ?_)
      fun d calld request hd hrequest => ?_
    · have hdc : d ≠ c := by
        rintro rfl
        rw [hfree] at hd
        cases hd
      exact ⟨calld, (AList.lookup_insert_ne hdc).trans hd, hstarted, hnum, rfl, rfl⟩
    · rw [CameraCommandState.setCall, HashMap.lookup_insert_ite] at hd
      split at hd
      · obtain rfl := Option.some.inj hd
        cases hrequest
      · exact hflow.sent d calld request hd hrequest
  · cases h

theorem flow_write (hflow : l.Flow ready) (hcall : l.server.calls.lookup c = some call)
    (hphase : call.phase = .registered) (hnew : ¬ l.HasWritten c) :
    (l.write c call).Flow ready where
  server := hflow.server
  requests := by
    show (l.written ++ [_]).map _ = _ ++ (l.toCamera ++ [_])
    rw [List.map_append, hflow.requests, List.append_assoc]
    rfl
  responses := hflow.responses
  live := hflow.live
  nodup := by
    show ((l.written ++ [_]).map Prod.fst).Nodup
    rw [List.map_append]
    refine List.nodup_append.mpr ⟨hflow.nodup, List.nodup_singleton _, fun d hd e he heq => ?_⟩
    obtain rfl : e = c := List.mem_singleton.mp he
    exact hnew (heq ▸ hd)
  calls d request hd := by
    rcases List.mem_append.mp hd with hd | hd
    · exact hflow.calls d request hd
    · obtain ⟨rfl, rfl⟩ := Prod.mk.inj (List.mem_singleton.mp hd)
      refine ⟨call, hcall, ?_, ?_, rfl⟩ <;> rw [hphase]
      · rfl
      · nofun
  sent d calld request hd hrequest :=
    List.mem_append_left _ (hflow.sent d calld request hd hrequest)

theorem flow_dispatch {message : CommandMessage γ ρ} {toServer : List (CommandMessage γ ρ)}
    (hflow : l.Flow ready) (hfirst : l.toServer = message :: toServer) :
    ({ l with toServer, server := l.server.recv message } : CommandLink γ ρ).Flow ready where
  server := CameraCommandState.inv_recv hflow.server message
  requests := hflow.requests
  responses := by
    have := hflow.responses
    rw [answers, hfirst] at this
    rw [answers, log_recv hflow.server, List.append_assoc l.server.log]
    exact this
  live hne := by
    have := hflow.live hne
    rw [answers, hfirst] at this
    rw [answers, log_recv hflow.server, List.append_assoc l.server.log]
    exact this
  nodup := hflow.nodup
  calls d request hd := by
    obtain ⟨calld, hcalld, hrest⟩ := hflow.calls d request hd
    obtain ⟨received, hlookup⟩ := recv_lookup hflow.server message (d := d)
    rw [hcalld, Option.map_some] at hlookup
    exact ⟨_, hlookup, hrest⟩
  sent d calld request hd hrequest := by
    obtain ⟨received, hlookup⟩ := recv_lookup hflow.server message (d := d)
    obtain ⟨calld', hcalld', rfl⟩ := Option.map_eq_some_iff.mp (hlookup.symm.trans hd)
    exact hflow.sent d calld' request hcalld' hrequest

/-- The camera sends what it has to send, or stops. -/
theorem flow_reply {response : CommandResponse ρ} (hflow : l.Flow ready) (sent : Bool)
    (hunsent : l.camera.unsent ready = [response]) (htaken : l.camera.taken = [])
    (hlive : l.camera ≠ .ended) : (l.reply response sent).Flow ready := by
  have hall := hflow.live hlive
  rw [answers, hunsent] at hall
  have hrequests := hflow.requests
  rw [htaken] at hrequests
  cases sent with
  | true =>
    have hanswers : (l.reply response true).answers ready = (l.responses ready).map .response := by
      rw [← hall, List.append_assoc]
      exact List.append_nil _
    exact
      { server := hflow.server
        requests := hrequests
        responses := hanswers ▸ List.prefix_refl _
        live := fun _ => hanswers
        nodup := hflow.nodup
        calls := hflow.calls
        sent := hflow.sent }
  | false =>
    refine
      { server := hflow.server
        requests := hrequests
        responses := ?_
        live := fun h => absurd rfl h
        nodup := hflow.nodup
        calls := hflow.calls
        sent := hflow.sent }
    show l.server.log ++ l.toServer ++ [] <+: (l.responses ready).map .response
    rw [← hall, List.append_nil]
    exact List.prefix_append _ _

theorem flow_receive {request : CommandRequest γ} {toCamera : List (CommandMessage γ ρ)}
    (hflow : l.Flow ready) (hcamera : l.camera = .receiving)
    (hfirst : l.toCamera = .request request :: toCamera) :
    ({ l with toCamera, camera := .executing request } : CommandLink γ ρ).Flow ready where
  server := hflow.server
  requests := by
    have := hflow.requests
    rw [hfirst, hcamera] at this
    simp [this, CommandHandler.taken]
  responses := by
    have := hflow.responses
    rw [answers, hcamera] at this
    exact this
  live _ := by
    have := hflow.live (by rw [hcamera]; nofun)
    rw [answers, hcamera] at this
    exact this
  nodup := hflow.nodup
  calls := hflow.calls
  sent := hflow.sent

theorem flow_execute {request : CommandRequest γ} (hflow : l.Flow ready)
    (hcamera : l.camera = .executing request) (result : ρ) :
    ({ l with
        camera := .responding ⟨request.id, result⟩
        executed := l.executed ++ [(request, result)] } : CommandLink γ ρ).Flow ready := by
  have hall := hflow.live (by rw [hcamera]; nofun)
  rw [answers, hcamera] at hall
  have hanswers : l.server.log ++ l.toServer ++ [.response ⟨request.id, result⟩] =
      (⟨0, ready⟩ :: (l.executed ++ [(request, result)]).map
        fun e => (⟨e.1.id, e.2⟩ : CommandResponse ρ)).map .response := by
    have hbefore : l.server.log ++ l.toServer = (l.responses ready).map .response :=
      (List.append_nil _).symm.trans hall
    rw [hbefore, List.map_append, ← List.cons_append, List.map_append]
    rfl
  exact
    { server := hflow.server
      requests := by
        have := hflow.requests
        rw [hcamera] at this
        simp [this, CommandHandler.taken]
      responses := hanswers ▸ List.prefix_refl _
      live := fun _ => hanswers
      nodup := hflow.nodup
      calls := hflow.calls
      sent := hflow.sent }

theorem flow_close (hflow : l.Flow ready) (hcamera : l.camera = .receiving) :
    ({ l with camera := .ended } : CommandLink γ ρ).Flow ready where
  server := hflow.server
  requests := by
    have := hflow.requests
    rw [hcamera] at this
    exact this
  responses := by
    have := hflow.responses
    rw [answers, hcamera] at this
    exact this
  live h := absurd rfl h
  nodup := hflow.nodup
  calls := hflow.calls
  sent := hflow.sent

/-- What is sent to the camera are requests. -/
theorem toCamera_request (hflow : l.Flow ready) {message : CommandMessage γ ρ}
    (hmem : message ∈ l.toCamera) : ∃ request, message = .request request := by
  have hwritten : message ∈ l.written.map (CommandMessage.request ·.2) :=
    hflow.requests ▸ List.mem_append_right _ hmem
  obtain ⟨w, -, rfl⟩ := List.mem_map.mp hwritten
  exact ⟨w.2, rfl⟩

/-- Every event keeps the invariant. -/
theorem flow_step {event : LinkEvent γ ρ} (hflow : l.Flow ready)
    (h : l.step ready event = some u) : u.Flow ready := by
  cases event with
  | clone c command timeout =>
    obtain ⟨server, hserver, rfl⟩ := onServer_eq_some.mp h
    exact flow_clone hflow hserver
  | call c step =>
    simp only [CommandLink.step] at h
    split at h
    · next henabled =>
      obtain ⟨server, hserver, rfl⟩ := onServer_eq_some.mp h
      exact flow_call hflow henabled hserver
    · cases h
  | write c =>
    simp only [CommandLink.step] at h
    split at h
    · next call hcall =>
      split at h
      · next hphase =>
        split at h
        · cases h
        · next hnew =>
          obtain rfl := Option.some.inj h
          exact flow_write hflow hcall hphase hnew
      · cases h
    · cases h
  | dispatch =>
    simp only [CommandLink.step] at h
    split at h
    · cases h
    · next message toServer hfirst =>
      obtain ⟨server, hserver, rfl⟩ := onServer_eq_some.mp h
      obtain rfl := Option.some.inj hserver
      exact flow_dispatch (l := l) hflow hfirst
  | sendReady sent =>
    simp only [CommandLink.step] at h
    split at h
    · next hcamera =>
      obtain rfl := Option.some.inj h
      exact flow_reply hflow sent (by rw [hcamera]; rfl) (by rw [hcamera]; rfl)
        (by rw [hcamera]; nofun)
    · cases h
  | receive =>
    simp only [CommandLink.step] at h
    split at h
    · next request toCamera hcamera hfirst =>
      obtain rfl := Option.some.inj h
      exact flow_receive hflow hcamera hfirst
    · next response toCamera hcamera hfirst =>
      obtain ⟨request, hrequest⟩ := toCamera_request hflow (hfirst ▸ List.mem_cons_self)
      cases hrequest
    · cases h
  | execute result =>
    simp only [CommandLink.step] at h
    split at h
    · next request hcamera =>
      obtain rfl := Option.some.inj h
      exact flow_execute hflow hcamera result
    · cases h
  | respond sent =>
    simp only [CommandLink.step] at h
    split at h
    · next response hcamera =>
      obtain rfl := Option.some.inj h
      exact flow_reply hflow sent (by rw [hcamera]; rfl) (by rw [hcamera]; rfl)
        (by rw [hcamera]; nofun)
    · cases h
  | close =>
    simp only [CommandLink.step] at h
    split at h
    · next hcamera =>
      obtain rfl := Option.some.inj h
      exact flow_close hflow hcamera
    · cases h

theorem always_flow (ready : ρ) (events : List (LinkEvent γ ρ)) :
    Always (step ready) (Flow ready) new events :=
  always_of_step flow_new (fun _ _ _ hflow hstep => flow_step hflow hstep) events

/-! ## Requests are executed once, calls get their own results -/

/-- Two calls that have drawn the same id are one, as long as the counter has not wrapped. -/
theorem id_inj_of_few (hinv : ch.Inv) (hfew : ch.issued < 2 ^ 32) {d : Nat} {calld : Call γ ρ}
    (hcall : ch.calls.lookup c = some call) (hd : ch.calls.lookup d = some calld)
    (hc : call.phase.started = true) (hstarted : calld.phase.started = true)
    (hid : call.id = calld.id) : c = d := by
  obtain ⟨hltc, hidc⟩ := (hinv.calls c call hcall).number hc
  obtain ⟨hltd, hidd⟩ := (hinv.calls d calld hd).number hstarted
  refine hinv.ordinal_inj c d call calld hcall hd hc hstarted ?_
  have hmod : (call.ordinal + 1) % 2 ^ 32 = (calld.ordinal + 1) % 2 ^ 32 := by
    rw [← UInt32.toNat_ofNat', ← UInt32.toNat_ofNat', ← hidc, ← hidd, hid]
  omega

/-- No call has the id of the ready signal, as long as the counter has not wrapped. -/
theorem id_ne_zero_of_few (hinv : ch.Inv) (hfew : ch.issued < 2 ^ 32)
    (hcall : ch.calls.lookup c = some call) (hc : call.phase.started = true) : call.id ≠ 0 := by
  obtain ⟨hlt, hid⟩ := (hinv.calls c call hcall).number hc
  intro hzero
  have hmod : (call.ordinal + 1) % 2 ^ 32 = 0 := by
    rw [← UInt32.toNat_ofNat', ← hid, hzero]
    rfl
  omega

/-- What the camera has executed are the first of the requests written. -/
theorem executed_isPrefix (hflow : l.Flow ready) :
    l.executed.map Prod.fst <+: l.written.map Prod.snd := by
  have hall : (l.executed.map Prod.fst).map CommandMessage.request <+:
      (l.written.map Prod.snd).map (CommandMessage.request (ρ := ρ)) := by
    rw [List.map_map (l := l.written)]
    show _ <+: l.written.map (CommandMessage.request ·.2)
    rw [hflow.requests, List.map_append, List.append_assoc]
    exact List.prefix_append _ _
  exact (List.prefix_map_iff_of_injective fun _ _ h => CommandMessage.request.inj h).mp hall

/-- The camera has executed the call's own command, with that result: the execution has the
place in the order of executions that the call has in the order of writing. -/
def ExecutedFor (l : CommandLink γ ρ) (c : Nat) (call : Call γ ρ) (result : ρ) : Prop :=
  ∃ j : Nat, l.written[j]? = some (c, ⟨call.id, call.command⟩) ∧
    l.executed[j]? = some (⟨call.id, call.command⟩, result)

/-- A response that has come in under the id of a call comes from the execution of that call. -/
theorem executedFor_of_log (hflow : l.Flow ready) (hfew : l.server.issued < 2 ^ 32)
    (hcall : l.server.calls.lookup c = some call) (hstarted : call.phase.started = true)
    {response : CommandResponse ρ} (hlog : .response response ∈ l.server.log)
    (hid : response.id = call.id) : l.ExecutedFor c call response.result := by
  have hzero := id_ne_zero_of_few hflow.server hfew hcall hstarted
  -- the response is not the ready signal, so it is that of an execution
  have hmem : CommandMessage.response response ∈ (l.responses ready).map .response :=
    hflow.responses.subset (List.mem_append_left _ (List.mem_append_left _ hlog))
  have hexec : ∃ e ∈ l.executed, (⟨e.1.id, e.2⟩ : CommandResponse ρ) = response := by
    obtain ⟨response', hresponse, heq⟩ := List.mem_map.mp hmem
    cases heq
    rcases List.mem_cons.mp hresponse with rfl | hresponse
    · exact absurd hid.symm hzero
    · exact List.mem_map.mp hresponse
  obtain ⟨⟨request, result⟩, he, rfl⟩ := hexec
  obtain ⟨j, hj⟩ := List.mem_iff_getElem?.mp he
  -- the request executed there is the one written there, and its id tells whose it is
  have hwritten : (l.written.map Prod.snd)[j]? = some request := by
    obtain ⟨rest, hrest⟩ := executed_isPrefix hflow
    have hget : (l.executed.map Prod.fst)[j]? = some request := by rw [List.getElem?_map, hj]; rfl
    rw [← hrest, List.getElem?_append_left (List.getElem?_eq_some_iff.mp hget).1]
    exact hget
  rw [List.getElem?_map] at hwritten
  obtain ⟨⟨d, _⟩, hd, rfl⟩ := Option.map_eq_some_iff.mp hwritten
  obtain ⟨calld, hcalld, hstartedd, -, hrequest⟩ :=
    hflow.calls d _ (List.mem_of_getElem? hd)
  have hidd : calld.id = call.id := by
    rw [← hid, hrequest]
  obtain rfl := id_inj_of_few hflow.server hfew hcalld hcall hstartedd hstarted hidd
  obtain rfl := Option.some.inj (hcalld.symm.trans hcall)
  rw [hrequest] at hd hj
  exact ⟨j, hd, hj⟩

/-- A call that has returned a response has had its command executed, with that result. -/
theorem executedFor_of_returned (hflow : l.Flow ready) (hfew : l.server.issued < 2 ^ 32)
    (hcall : l.server.calls.lookup c = some call) {response : CommandResponse ρ}
    (hphase : call.phase = .returned (.ok response)) :
    response.id = call.id ∧ l.ExecutedFor c call response.result := by
  have hok := hflow.server.calls c call hcall
  obtain ⟨-, i, hreceived⟩ := hok.answer response hphase
  obtain ⟨hstarted, hlog, hid⟩ := hok.message i response hreceived
  exact ⟨hid, executedFor_of_log hflow hfew hcall hstarted (List.mem_of_getElem? hlog) hid⟩

/-- **Requests are executed in order**, each at most once: in every run, what the camera has
executed are the requests that were written first, and no call writes twice. -/
theorem executed_in_order (ready : ρ) (events : List (LinkEvent γ ρ)) :
    Always (step ready)
      (fun l => l.executed.map Prod.fst <+: l.written.map Prod.snd ∧
        (l.written.map Prod.fst).Nodup) new events :=
  (always_flow ready events).mono fun _ hflow => ⟨executed_isPrefix hflow, hflow.nodup⟩

/-- **A call gets the result of its own command.** While fewer than `2^32` calls have started,
a call that returns a response has had its command executed by the camera, and the response
is the result of that execution. -/
theorem answered_by_own {events : List (LinkEvent γ ρ)}
    (hrun : run (step ready) new events = some l) (hfew : l.server.issued < 2 ^ 32) {c : Nat}
    {call : Call γ ρ} (hcall : l.server.calls.lookup c = some call)
    {response : CommandResponse ρ} (hphase : call.phase = .returned (.ok response)) :
    response.id = call.id ∧ l.ExecutedFor c call response.result :=
  executedFor_of_returned ((always_flow ready events).final hrun) hfew hcall hphase

/-- Two calls, of which the first times out while its response is on the way. -/
def lateReply : List (LinkEvent String Nat) :=
  [.sendReady true, .clone 0 "reboot" "30s", .clone 1 "status" "30s", .call 0 .fetchId,
    .call 1 .fetchId, .call 1 .insertPending, .call 0 .insertPending, .write 0, .write 1,
    .call 1 .sendOk, .call 0 .sendOk, .dispatch, .receive, .execute 10, .respond true,
    .call 0 .timeout, .call 0 .removeTimedOut, .receive, .execute 11, .dispatch, .respond true,
    .dispatch]

/-- The response a call has returned. -/
def returnedBy (l : CommandLink γ ρ) (c : Nat) : Option (CommandResponse ρ) :=
  (l.server.calls.lookup c).bind fun call =>
    match call.phase with
    | .returned (.ok response) => some response
    | _ => none

theorem returnedBy_eq_some {response : CommandResponse ρ} (h : l.returnedBy c = some response) :
    ∃ call, l.server.calls.lookup c = some call ∧ call.phase = .returned (.ok response) := by
  obtain ⟨call, hcall, h⟩ := Option.bind_eq_some_iff.mp h
  refine ⟨call, hcall, ?_⟩
  split at h
  · next hphase => rw [hphase, Option.some.inj h]
  · cases h

/-- The second call gets the second result. -/
theorem lateReply_answered : ∃ l call, l.server.calls.lookup 1 = some call ∧
    run (step 0) new (lateReply ++ [.call 1 .resolve]) = some l ∧ l.ExecutedFor 1 call 11 := by
  have hrun : (run (step 0) new (lateReply ++ [.call 1 .resolve])).map
      (fun l => (l.server.issued, (l.returnedBy 1).map CommandResponse.result)) =
      some (2, some 11) := by decide
  obtain ⟨l, hl, hobserved⟩ := Option.map_eq_some_iff.mp hrun
  obtain ⟨hissued, hreturned⟩ := Prod.mk.inj hobserved
  obtain ⟨response, hresponse, hresult⟩ := Option.map_eq_some_iff.mp hreturned
  obtain ⟨call, hcall, hphase⟩ := returnedBy_eq_some hresponse
  refine ⟨l, call, hcall, hl, ?_⟩
  exact hresult ▸ (answered_by_own hl (by rw [hissued]; decide) hcall hphase).2

/-! ## No call waits for nothing -/

/-- A call that has registered and has no response yet is pending, and no response with its id
has come. -/
def Attended (ch : CameraCommandState γ ρ) : Prop :=
  ∀ c call, ch.calls.lookup c = some call → call.phase.enlisted = true → call.received = none →
    ch.pending.lookup call.id = some c ∧
      ∀ response, .response response ∈ ch.log → response.id ≠ call.id

theorem attended_call {step : CallStep} (hflow : l.Flow ready)
    (hfew : l.server.issued < 2 ^ 32) (hatt : Attended l.server)
    (hcall : l.server.calls.lookup c = some call)
    (h : l.server.callStep c call step = some ch) : Attended ch := by
  obtain ⟨call', hadv⟩ := callStep_advances h
  intro d calld hd henlisted hnone
  rw [hadv.calls, HashMap.lookup_insert_ite] at hd
  rw [hadv.log]
  by_cases hdc : d = c
  · rw [if_pos hdc] at hd
    obtain rfl := Option.some.inj hd
    subst hdc
    obtain ⟨hpending, hphase⟩ | ⟨hpending, henl⟩ := hadv.own henlisted
    · have hstarted : call.phase.started = true := by rw [hphase]; rfl
      rw [hadv.id hstarted]
      refine ⟨hpending, fun response hresponse heq => ?_⟩
      -- the id is new: no request with it has been written, so none has been executed
      obtain ⟨j, hwritten, -⟩ := executedFor_of_log hflow hfew hcall hstarted hresponse heq
      obtain ⟨call'', hcall'', -, hnum, -⟩ := hflow.calls d _ (List.mem_of_getElem? hwritten)
      obtain rfl := Option.some.inj (hcall.symm.trans hcall'')
      exact hnum hphase
    · rw [hadv.id (CallPhase.started_of_enlisted henl), hpending]
      exact hatt d call hcall henl (hadv.received ▸ hnone)
  · rw [if_neg hdc] at hd
    obtain ⟨hpending, hresponse⟩ := hatt d calld hd henlisted hnone
    refine ⟨(hadv.others calld.id fun hstarted hid => hdc ?_).trans hpending, hresponse⟩
    exact id_inj_of_few hflow.server hfew hd hcall (CallPhase.started_of_enlisted henlisted)
      hstarted hid

theorem attended_clone {command : γ} {timeout : String} (hatt : Attended ch)
    (h : ch.clone c command timeout = some ch') : Attended ch' := by
  rw [CameraCommandState.clone] at h
  split at h
  · obtain rfl := Option.some.inj h
    intro d calld hd henlisted hnone
    rw [CameraCommandState.setCall, HashMap.lookup_insert_ite] at hd
    split at hd
    · obtain rfl := Option.some.inj hd
      cases henlisted
    · exact hatt d calld hd henlisted hnone
  · cases h

/-- A message for which no call waits. -/
theorem attended_log (hatt : Attended ch) {message : CommandMessage γ ρ}
    (hother : ∀ response, message = .response response →
      ∀ d, ch.pending.lookup response.id = some d → response.id = 0)
    (hzero : ∀ d calld, ch.calls.lookup d = some calld → calld.phase.started = true →
      calld.id ≠ 0) : Attended { ch with log := ch.log ++ [message] } := by
  intro d calld hd henlisted hnone
  obtain ⟨hpending, hresponse⟩ := hatt d calld hd henlisted hnone
  refine ⟨hpending, fun response hmem heq => ?_⟩
  rcases List.mem_append.mp hmem with hmem | hmem
  · exact hresponse response hmem heq
  · have hid := hother response (List.mem_singleton.mp hmem).symm d (heq ▸ hpending)
    exact hzero d calld hd (CallPhase.started_of_enlisted henlisted) (heq ▸ hid)

/-- A message that comes while a call with its id is pending goes to that call. -/
theorem attended_recv (hinv : ch.Inv) (hfew : ch.issued < 2 ^ 32) (hatt : Attended ch)
    (message : CommandMessage γ ρ) : Attended (ch.recv message) := by
  have hzero : ∀ d calld, ch.calls.lookup d = some calld → calld.phase.started = true →
      calld.id ≠ 0 := fun _ _ => id_ne_zero_of_few hinv hfew
  cases message with
  | request request => exact attended_log hatt nofun hzero
  | response response =>
    by_cases hready : response.id = 0
    · simp only [CameraCommandState.recv, if_pos hready]
      refine attended_log hatt ?_ hzero
      rintro _ ⟨⟩ d -
      exact hready
    · cases hpending : ch.pending.lookup response.id with
      | none =>
        simp only [CameraCommandState.recv, if_neg hready, hpending]
        refine attended_log hatt ?_ hzero
        rintro _ ⟨⟩ d hd
        rw [hpending] at hd
        cases hd
      | some c =>
        obtain ⟨call, hcall, -⟩ := hinv.pending _ _ hpending
        simp only [CameraCommandState.recv, if_neg hready, hpending, hcall]
        intro d calld hd henlisted hnone
        rw [CameraCommandState.setCall, HashMap.lookup_insert_ite] at hd
        by_cases hdc : d = c
        · rw [if_pos hdc] at hd
          obtain rfl := Option.some.inj hd
          cases hnone
        · rw [if_neg hdc] at hd
          obtain ⟨hpendingd, hresponse⟩ := hatt d calld hd henlisted hnone
          -- the response is another call's, as this one is still pending
          have hne : response.id ≠ calld.id := by
            intro heq
            rw [heq, hpendingd] at hpending
            exact hdc (Option.some.inj hpending)
          refine ⟨(AList.lookup_erase_ne hne.symm).trans hpendingd, fun other hmem => ?_⟩
          rcases List.mem_append.mp hmem with hmem | hmem
          · exact hresponse other hmem
          · obtain rfl := CommandMessage.response.inj (List.mem_singleton.mp hmem)
            exact hne

theorem reply_server (l : CommandLink γ ρ) (response : CommandResponse ρ) (sent : Bool) :
    (l.reply response sent).server = l.server := by
  cases sent <;> rfl

/-- What a step does to the router's end: nothing, or one event of the channel. -/
theorem server_step {event : LinkEvent γ ρ} (h : l.step ready event = some u) :
    u.server = l.server ∨ ∃ inner, l.server.step inner = some u.server := by
  cases event with
  | clone c command timeout =>
    obtain ⟨server, hserver, rfl⟩ := onServer_eq_some.mp h
    exact .inr ⟨_, hserver⟩
  | call c step =>
    simp only [CommandLink.step] at h
    split at h
    · obtain ⟨server, hserver, rfl⟩ := onServer_eq_some.mp h
      exact .inr ⟨_, hserver⟩
    · cases h
  | dispatch =>
    simp only [CommandLink.step] at h
    split at h
    · cases h
    · obtain ⟨server, hserver, rfl⟩ := onServer_eq_some.mp h
      exact .inr ⟨_, hserver⟩
  | write | sendReady | receive | execute | respond | close =>
    left
    simp only [CommandLink.step] at h
    repeat' split at h
    all_goals cases h
    all_goals first | rfl | exact reply_server _ _ _

theorem attended_step {event : LinkEvent γ ρ} (hflow : l.Flow ready)
    (hfew : u.server.issued < 2 ^ 32) (hatt : l.server.issued < 2 ^ 32 → Attended l.server)
    (h : l.step ready event = some u) : Attended u.server := by
  rcases server_step h with heq | ⟨inner, hinner⟩
  · rw [heq] at hfew ⊢
    exact hatt hfew
  · cases inner with
    | recv message =>
      have hissued : u.server.issued = l.server.issued := by
        rw [← Option.some.inj hinner]
        rcases CameraCommandState.recv_cases hflow.server message with
          heq | ⟨_, _, _, -, -, -, -, heq⟩ <;> rw [heq]
        rfl
      rw [hissued] at hfew
      rw [← Option.some.inj hinner]
      exact attended_recv hflow.server hfew (hatt hfew) message
    | clone c command timeout =>
      have hclone : l.server.clone c command timeout = some u.server := hinner
      have hissued : u.server.issued = l.server.issued := by
        rw [CameraCommandState.clone] at hclone
        split at hclone
        · rw [← Option.some.inj hclone]
          rfl
        · cases hclone
      exact attended_clone (hatt (hissued ▸ hfew)) hclone
    | call c step =>
      obtain ⟨call, hcall, hstep⟩ := Option.bind_eq_some_iff.mp hinner
      obtain ⟨call', hadv⟩ := callStep_advances hstep
      have hless := Nat.lt_of_le_of_lt hadv.issued hfew
      exact attended_call hflow hless (hatt hless) hcall hstep

theorem always_attended (ready : ρ) (events : List (LinkEvent γ ρ)) :
    Always (step ready) (fun l => l.Flow ready ∧ (l.server.issued < 2 ^ 32 → Attended l.server))
      new events :=
  always_of_step
    ⟨flow_new, fun _ _ _ h => absurd ((AList.lookup_empty _).symm.trans h) (by simp)⟩
    (fun _ _ _ h hstep => ⟨flow_step h.1 hstep, fun hfew => attended_step h.1 hfew h.2 hstep⟩)
    events

/-- Everything written has been taken off the stream on either side, and the camera waits for its
next request. -/
def quiet (l : CommandLink γ ρ) : Bool :=
  match l.toCamera, l.camera, l.toServer with
  | [], .receiving, [] => true
  | _, _, _ => false

theorem quiet_eq_true (h : l.quiet = true) :
    l.toCamera = [] ∧ l.camera = .receiving ∧ l.toServer = [] := by
  rw [quiet] at h
  split at h
  · next h₁ h₂ h₃ => exact ⟨h₁, h₂, h₃⟩
  · cases h

/-- **No call waits for nothing.** While fewer than `2^32` calls have started: once the
stream is quiet, each waiting call has the result of its own command at hand. -/
theorem answer_at_hand {events : List (LinkEvent γ ρ)}
    (hrun : run (step ready) new events = some l) (hfew : l.server.issued < 2 ^ 32)
    (hquiet : l.quiet = true) {c : Nat} {call : Call γ ρ}
    (hcall : l.server.calls.lookup c = some call) (hphase : call.phase = .waiting) : ∃ response,
      l.server.resolution c call = some (.ok response) ∧ l.ExecutedFor c call response.result := by
  obtain ⟨hflow, hatt⟩ := (always_attended ready events).final hrun
  obtain ⟨htoCamera, hcamera, htoServer⟩ := quiet_eq_true hquiet
  have hstarted : call.phase.started = true := by rw [hphase]; rfl
  have henlisted : call.phase.enlisted = true := by rw [hphase]; rfl
  have hok := hflow.server.calls c call hcall
  -- its request has been written, so it has been executed
  have hrequest : ⟨call.id, call.command⟩ ∈ l.executed.map Prod.fst := by
    have hrequests := hflow.requests
    rw [htoCamera, hcamera, List.append_nil] at hrequests
    have hwritten : CommandMessage.request ⟨call.id, call.command⟩ ∈
        l.written.map (CommandMessage.request (ρ := ρ) ·.2) :=
      List.mem_map.mpr ⟨_, hflow.sent c call _ hcall (hok.request hphase), rfl⟩
    rw [hrequests] at hwritten
    simpa [CommandHandler.taken] using hwritten
  obtain ⟨⟨_, result⟩, hexecuted, rfl⟩ := List.mem_map.mp hrequest
  -- and its response has come in
  have hlog : .response ⟨call.id, result⟩ ∈ l.server.log := by
    have hall := hflow.live (by rw [hcamera]; nofun)
    rw [answers, hcamera, htoServer, List.append_nil] at hall
    have hmem : CommandMessage.response ⟨call.id, result⟩ ∈
        (l.responses ready).map (CommandMessage.response (γ := γ)) :=
      List.mem_map.mpr ⟨_, List.mem_cons_of_mem _ (List.mem_map.mpr ⟨_, hexecuted, rfl⟩), rfl⟩
    rw [← hall] at hmem
    simpa [CommandHandler.unsent] using hmem
  cases hreceived : call.received with
  | none => exact absurd rfl ((hatt hfew c call hcall henlisted hreceived).2 _ hlog)
  | some m =>
    obtain ⟨i, response⟩ := m
    obtain ⟨-, hget, hid⟩ := hok.message i response hreceived
    refine ⟨response, ?_, executedFor_of_log hflow hfew hcall hstarted
      (List.mem_of_getElem? hget) hid⟩
    rw [CameraCommandState.resolution, hreceived]

/-- A waiting call. -/
def isWaiting (l : CommandLink γ ρ) (c : Nat) : Bool :=
  match (l.server.calls.lookup c).map Call.phase with
  | some .waiting => true
  | _ => false

theorem isWaiting_eq_true (h : l.isWaiting c = true) :
    ∃ call, l.server.calls.lookup c = some call ∧ call.phase = .waiting := by
  rw [isWaiting] at h
  split at h
  · next heq => exact Option.map_eq_some_iff.mp heq
  · cases h

/-- After the late reply, the second call's result is at hand. -/
theorem lateReply_at_hand : ∃ l call, l.server.calls.lookup 1 = some call ∧
    run (step 0) new lateReply = some l ∧ ∃ response,
      l.server.resolution 1 call = some (.ok response) ∧
        l.ExecutedFor 1 call response.result := by
  have hrun : (run (step 0) new lateReply).map
      (fun l => (l.server.issued, l.quiet, l.isWaiting 1)) = some (2, true, true) := by decide
  obtain ⟨l, hl, hobserved⟩ := Option.map_eq_some_iff.mp hrun
  obtain ⟨hissued, hobserved⟩ := Prod.mk.inj hobserved
  obtain ⟨hquiet, hwaiting⟩ := Prod.mk.inj hobserved
  obtain ⟨call, hcall, hphase⟩ := isWaiting_eq_true hwaiting
  exact ⟨l, call, hcall, hl, answer_at_hand hl (by rw [hissued]; decide) hquiet hcall hphase⟩

end CommandLink

end Kodama
