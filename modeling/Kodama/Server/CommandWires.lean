import Kodama.Server.ClientCommands
import Kodama.Server.CommandLink
import Kodama.Server.CommandRegistry

/-!
# Clients on command channels (server/router.rs, `send_command`, `handle_client_commands`)

What the router's command channels are together with their far ends (`CommandWires`), and what a
client of them is (`CommandClient`). The registry steps as in `CommandRegistry`, a stream as in
`CommandLink`, and the turns of a client's loop as in `ClientLoop`.

Everything a client relies on stays as the wires grow (`Extends`): the calls that were placed for
it, and what they have returned. `ClientOk` is what holds of a client on given wires; it is kept by
every step of the client, by every step of a stream, by a new stream, and by a new call.

A call of `send_command` is named by its place in `placed`.
-/

namespace Kodama

open Lib Lib.Machine
open scoped List

/-- A command stream without the router's state for it: what is in flight, the camera's task,
and what was written and executed. -/
structure CameraSide (γ ρ : Type) where
  toCamera : List (CommandMessage γ ρ) := []
  camera : CommandHandler γ ρ := .opened
  toServer : List (CommandMessage γ ρ) := []
  written : List (Nat × CommandRequest γ) := []
  executed : List (CommandRequest γ × ρ) := []

/-- Both ends. -/
def CameraSide.link {γ ρ : Type} (side : CameraSide γ ρ) (server : CameraCommandState γ ρ) :
    CommandLink γ ρ where
  server := server
  toCamera := side.toCamera
  camera := side.camera
  toServer := side.toServer
  written := side.written
  executed := side.executed

def CommandLink.side {γ ρ : Type} (l : CommandLink γ ρ) : CameraSide γ ρ where
  toCamera := l.toCamera
  camera := l.camera
  toServer := l.toServer
  written := l.written
  executed := l.executed

/-- Where `handle_client_commands` stands. -/
inductive RoutingPhase (κ γ σ τ : Type) where
  | receiving
  /-- The camera's key is parsed; its channel is still to be looked up. -/
  | parsed (targeted : TargetedCommandRequest γ) (key : κ)
  /-- In the call `c` of `send_command`, on the stream `n`. -/
  | calling (targeted : TargetedCommandRequest γ) (n c : Nat)
  /-- The call, if there was one, has returned. -/
  | answering (targeted : TargetedCommandRequest γ) (call : Option Nat)
      (routed : Result (CommandResponse (CommandResult σ τ)))

/-- A request that was answered (or could not be, as the client's stream failed), with the call
that was made for it, if any. -/
structure Handled (γ σ τ : Type) where
  targeted : TargetedCommandRequest γ
  call : Option Nat
  result : CommandResult σ τ

/-- The response for a handled request. -/
def Handled.response {γ σ τ : Type} (h : Handled γ σ τ) : CommandResponse (CommandResult σ τ) :=
  ⟨h.targeted.id, h.result⟩

/-- A client's `handle_client_commands`, with the requests it has received and handled, and the
turns that its loop has taken. -/
structure CommandClient (κ γ σ τ : Type) where
  loop : ClientLoop σ τ := {}
  phase : RoutingPhase κ γ σ τ := .receiving
  received : List (TargetedCommandRequest γ) := []
  handled : List (Handled γ σ τ) := []
  turns : List (ClientTurn κ γ σ τ) := []

/-- A call of `send_command`: for which client, on which stream, for which request. -/
structure Placed (γ : Type) where
  client : Nat
  stream : Nat
  targeted : TargetedCommandRequest γ

/-- The router's command channels with their far ends, and the calls made on them. -/
structure CommandWires (κ γ σ τ : Type) where
  registry : CommandRegistry κ γ (CommandResult σ τ)
  sides : Nat → CameraSide γ (CommandResult σ τ)
  placed : List (Placed γ)

variable {κ γ σ τ : Type}

/-- The error of a `send_command` for a camera without a command channel. -/
def noCommandChannel (display : κ → String) (cameraKey : κ) : String :=
  s!"Camera {display cameraKey} has no command channel"

namespace CommandClient

/-- A turn for a request, of which `send_command` returns this. -/
def turnFor (targeted : TargetedCommandRequest γ)
    (routed : Result (CommandResponse (CommandResult σ τ))) (transport : Result Unit) :
    ClientTurn κ γ σ τ where
  received := .ok (some (.request targeted))
  sendCommand _ _ := routed
  transport := transport

variable (rmp : Rmp γ σ τ) (parse : String → Option κ)

/-- The loop takes a turn. -/
def takeTurn (client : CommandClient κ γ σ τ) (turn : ClientTurn κ γ σ τ) :
    Option (CommandClient κ γ σ τ) :=
  (client.loop.step rmp parse turn).map fun loop =>
    { client with loop, phase := .receiving, turns := client.turns ++ [turn] }

/-- What comes from the client: a request is kept, anything else ends the turn. -/
def receive (client : CommandClient κ γ σ τ)
    (received : Result (Option (ClientCommandMessage γ (CommandResult σ τ)))) :
    Option (CommandClient κ γ σ τ) :=
  match received with
  | .ok (some (.request targeted)) =>
    if client.loop.left then none
    else some
      { client with
        received := client.received ++ [targeted]
        phase :=
          match parse targeted.targetCamera with
          | none => .answering targeted none (.error "Invalid camera key")
          | some cameraKey => .parsed targeted cameraKey }
  | _ => client.takeTurn rmp parse ⟨received, fun _ _ => .error "", .ok ()⟩

/-- The response goes to the client. -/
def answer (client : CommandClient κ γ σ τ) (targeted : TargetedCommandRequest γ)
    (call : Option Nat) (routed : Result (CommandResponse (CommandResult σ τ)))
    (transport : Result Unit) : Option (CommandClient κ γ σ τ) :=
  (client.takeTurn rmp parse (turnFor targeted routed transport)).map fun client' =>
    { client' with
      handled := client.handled ++
        [⟨targeted, call, ClientLoop.outcome parse (turnFor targeted routed transport) targeted⟩] }

/-- The request that is being handled. -/
def inHand (client : CommandClient κ γ σ τ) : Option (TargetedCommandRequest γ) :=
  match client.phase with
  | .receiving => none
  | .parsed targeted _ | .calling targeted _ _ | .answering targeted _ _ => some targeted

/-- The call that is made for it. -/
def callInHand (client : CommandClient κ γ σ τ) : Option Nat :=
  match client.phase with
  | .receiving | .parsed _ _ => none
  | .calling _ _ c => some c
  | .answering _ call _ => call

end CommandClient

namespace CommandWires

/-- Both ends of a stream. -/
def linkOf (w : CommandWires κ γ σ τ) (n : Nat)
    (stream : CommandStream κ γ (CommandResult σ τ)) : CommandLink γ (CommandResult σ τ) :=
  (w.sides n).link stream.state

/-- Replace both ends of a stream. -/
def setLink (w : CommandWires κ γ σ τ) (n : Nat)
    (stream : CommandStream κ γ (CommandResult σ τ)) (l : CommandLink γ (CommandResult σ τ)) :
    CommandWires κ γ σ τ :=
  { w with
    registry := w.registry.setStream n { stream with state := l.server }
    sides := Function.update w.sides n l.side }

/-- A call begins with a lookup, and messages are dispatched while the reader is in its loop. -/
def permitted (stream : CommandStream κ γ (CommandResult σ τ)) :
    LinkEvent γ (CommandResult σ τ) → Bool
  | .clone .. => false
  | .dispatch => decide (stream.reader = .reading)
  | _ => true

/-- A step at one of the ends of a stream. The camera's ready signal says `Ok`. -/
def onLink (w : CommandWires κ γ σ τ) (n : Nat) (event : LinkEvent γ (CommandResult σ τ)) :
    Option (CommandWires κ γ σ τ) :=
  (w.registry.streams.lookup n).bind fun stream =>
    if permitted stream event then ((w.linkOf n stream).step .ok event).map (w.setLink n stream)
    else none

/-- What a call has returned. -/
def resultOf (w : CommandWires κ γ σ τ) (n c : Nat) :
    Option (Result (CommandResponse (CommandResult σ τ))) :=
  (w.registry.streams.lookup n).bind fun stream =>
    (stream.state.calls.lookup c).bind fun call =>
      match call.phase with
      | .returned result => some result
      | _ => none

variable [DecidableEq κ]

/-- A step of the registry; a new stream has a new far end. -/
def onRegistry (w : CommandWires κ γ σ τ)
    (event : RegistryEvent κ γ (CommandResult σ τ)) : Option (CommandWires κ γ σ τ) :=
  (w.registry.step event).map fun registry =>
    match event with
    | .register n _ => { w with registry, sides := Function.update w.sides n {} }
    | _ => { w with registry }

end CommandWires

/-! ## What a step of a stream does -/

namespace CommandLink

variable {ρ : Type} {ready : ρ} {l u : CommandLink γ ρ}

/-- A call that has returned takes no further step. -/
theorem not_done_of_callStep {ch ch' : CameraCommandState γ ρ} {c : Nat} {call : Call γ ρ}
    {step : CallStep} (h : ch.callStep c call step = some ch') : call.phase.done = false := by
  unfold CameraCommandState.callStep at h
  split at h
  case h_9 => cases h
  all_goals
    rename_i hphase
    rw [hphase]
    rfl

/-- What a step leaves of a call: its command, and how it has returned. -/
structure Keeps (call call' : Call γ ρ) : Prop where
  command : call'.command = call.command
  phase : call.phase.done = true → call'.phase = call.phase

theorem Keeps.refl (call : Call γ ρ) : Keeps call call := ⟨rfl, fun _ => rfl⟩

/-- The calls of two states of a channel, one after the other: none is added, none forgotten. -/
def KeepsCalls (ch ch' : CameraCommandState γ ρ) : Prop :=
  ∀ c, (ch.calls.lookup c = none ∧ ch'.calls.lookup c = none) ∨
    ∃ call call', ch.calls.lookup c = some call ∧ ch'.calls.lookup c = some call' ∧
      Keeps call call'

theorem KeepsCalls.refl (ch : CameraCommandState γ ρ) : KeepsCalls ch ch := by
  intro c
  cases hc : ch.calls.lookup c with
  | none => exact .inl ⟨rfl, rfl⟩
  | some call => exact .inr ⟨call, call, rfl, rfl, .refl call⟩

theorem keepsCalls_recv {ch : CameraCommandState γ ρ} (hinv : ch.Inv)
    (message : CommandMessage γ ρ) : KeepsCalls ch (ch.recv message) := by
  intro c
  obtain ⟨received, hlookup⟩ := recv_lookup hinv message (d := c)
  cases hc : ch.calls.lookup c with
  | none =>
    rw [hc] at hlookup
    exact .inl ⟨rfl, hlookup⟩
  | some call =>
    rw [hc] at hlookup
    exact .inr ⟨call, _, rfl, hlookup, rfl, fun _ => rfl⟩

theorem keepsCalls_call {ch ch' : CameraCommandState γ ρ} {c : Nat} {step : CallStep}
    (h : ch.step (.call c step) = some ch') : KeepsCalls ch ch' := by
  obtain ⟨call, hcall, h⟩ := Option.bind_eq_some_iff.mp h
  obtain ⟨call', hadv⟩ := callStep_advances h
  intro d
  by_cases hdc : d = c
  · refine .inr ⟨call, call', hdc ▸ hcall, ?_, hadv.command, fun hdone => ?_⟩
    · rw [hadv.calls, hdc, AList.lookup_insert]
    · rw [not_done_of_callStep h] at hdone
      cases hdone
  · have hsame : ch'.calls.lookup d = ch.calls.lookup d := by
      rw [hadv.calls, AList.lookup_insert_ne hdc]
    rw [hsame]
    exact KeepsCalls.refl ch d

/-- A step of a stream keeps the calls on it, unless it is a clone. -/
theorem keepsCalls_step {event : LinkEvent γ ρ} (hinv : l.server.Inv)
    (hclone : ∀ c command timeout, event ≠ .clone c command timeout)
    (h : l.step ready event = some u) : KeepsCalls l.server u.server := by
  cases event with
  | clone c command timeout => exact absurd rfl (hclone c command timeout)
  | call c step =>
    simp only [CommandLink.step] at h
    split at h
    · obtain ⟨server, hserver, rfl⟩ := onServer_eq_some.mp h
      exact keepsCalls_call hserver
    · cases h
  | dispatch =>
    simp only [CommandLink.step] at h
    split at h
    · cases h
    · next message toServer _ =>
      obtain ⟨server, hserver, rfl⟩ := onServer_eq_some.mp h
      obtain rfl := Option.some.inj hserver
      exact keepsCalls_recv hinv message
  | write | sendReady | receive | execute | respond | close =>
    simp only [CommandLink.step] at h
    repeat' split at h
    all_goals cases h
    all_goals first
      | exact KeepsCalls.refl _
      | (rw [reply_server]; exact KeepsCalls.refl _)

/-- What a step puts on the stream: nothing, or the request of a registered call. -/
theorem step_written {event : LinkEvent γ ρ} (h : l.step ready event = some u) :
    u.written = l.written ∨ ∃ c call, l.server.calls.lookup c = some call ∧
      call.phase = .registered ∧ ¬ l.HasWritten c ∧
        u.written = l.written ++ [(c, ⟨call.id, call.command⟩)] := by
  have hreply : ∀ response sent, (l.reply response sent).written = l.written :=
    fun _ sent => by cases sent <;> rfl
  cases event with
  | write c =>
    simp only [CommandLink.step] at h
    split at h
    · next call hcall =>
      split at h
      · next hphase =>
        split at h
        · cases h
        · next hnew =>
          obtain rfl := Option.some.inj h
          exact .inr ⟨c, call, hcall, hphase, hnew, rfl⟩
      · cases h
    · cases h
  | clone c command timeout =>
    obtain ⟨server, -, rfl⟩ := onServer_eq_some.mp h
    exact .inl rfl
  | call c step =>
    left
    simp only [CommandLink.step] at h
    split at h
    · obtain ⟨server, -, rfl⟩ := onServer_eq_some.mp h
      rfl
    · cases h
  | dispatch =>
    left
    simp only [CommandLink.step] at h
    split at h
    · cases h
    · obtain ⟨server, -, rfl⟩ := onServer_eq_some.mp h
      rfl
  | sendReady | receive | execute | respond | close =>
    left
    simp only [CommandLink.step] at h
    repeat' split at h
    all_goals cases h
    all_goals first | rfl | exact hreply _ _

end CommandLink

/-! ## What a client is answered with -/

namespace CommandWires

section Meaning

variable (parse : String → Option κ) (display : κ → String)

/-- The call `c` was made for a request of the client `i`, on a stream of the camera that the
request names. -/
structure Made (w : CommandWires κ γ σ τ) (i : Nat) (targeted : TargetedCommandRequest γ)
    (n c : Nat) (stream : CommandStream κ γ (CommandResult σ τ))
    (call : Call γ (CommandResult σ τ)) : Prop where
  placed : w.placed[c]? = some ⟨i, n, targeted⟩
  streams : w.registry.streams.lookup n = some stream
  key : parse targeted.targetCamera = some stream.key
  calls : stream.state.calls.lookup c = some call
  command : call.command = targeted.command

/-- A request was answered for a reason: its camera's key is not one, the camera had no command
channel (when it was looked up: `CommandRouting.LookedUp`), or a call for this very request has
returned. -/
inductive Served (w : CommandWires κ γ σ τ) (i : Nat) : Handled γ σ τ → Prop
  | invalidKey {targeted : TargetedCommandRequest γ}
      (hparse : parse targeted.targetCamera = none) :
      Served w i ⟨targeted, none, .error "Invalid camera key"⟩
  | noChannel {targeted : TargetedCommandRequest γ} {cameraKey : κ}
      (hparse : parse targeted.targetCamera = some cameraKey) :
      Served w i ⟨targeted, none, .error (noCommandChannel display cameraKey)⟩
  | failed {targeted : TargetedCommandRequest γ} {n c : Nat}
      {stream : CommandStream κ γ (CommandResult σ τ)} {call : Call γ (CommandResult σ τ)}
      {e : String} (hmade : w.Made parse i targeted n c stream call)
      (hphase : call.phase = .returned (.error e)) :
      Served w i ⟨targeted, some c, .error e⟩
  | responded {targeted : TargetedCommandRequest γ} {n c : Nat}
      {stream : CommandStream κ γ (CommandResult σ τ)} {call : Call γ (CommandResult σ τ)}
      {response : CommandResponse (CommandResult σ τ)}
      (hmade : w.Made parse i targeted n c stream call)
      (hphase : call.phase = .returned (.ok response)) :
      Served w i ⟨targeted, some c, response.result⟩

end Meaning

/-- The requests of the client whose calls have written to the stream, in that order. -/
def writtenFor (w : CommandWires κ γ σ τ) (n i : Nat) : List (TargetedCommandRequest γ) :=
  (((w.sides n).written.filterMap fun e => w.placed[e.1]?).filter (·.client = i)).map
    Placed.targeted

/-- The calls whose requests the camera has executed, in that order. -/
def executedCalls (w : CommandWires κ γ σ τ) (n : Nat) : List (Placed γ) :=
  ((w.sides n).written.take (w.sides n).executed.length).filterMap fun e => w.placed[e.1]?

/-- The requests of a client that can have gone out: the handled ones, and the one in hand if its
call has written. -/
def begun (w : CommandWires κ γ σ τ) (client : CommandClient κ γ σ τ) :
    List (TargetedCommandRequest γ) :=
  client.handled.map Handled.targeted ++
    match client.phase with
    | .calling targeted n c =>
      if c ∈ (w.sides n).written.map Prod.fst then [targeted] else []
    | .answering targeted _ _ => [targeted]
    | .receiving | .parsed _ _ => []

/-! ## The wires only grow -/

/-- What was placed stays, streams keep their camera, and calls are kept. -/
structure Extends (w v : CommandWires κ γ σ τ) : Prop where
  placed : w.placed <+: v.placed
  streams : ∀ n stream, w.registry.streams.lookup n = some stream → ∃ stream',
    v.registry.streams.lookup n = some stream' ∧ stream'.key = stream.key ∧
      ∀ c call, stream.state.calls.lookup c = some call →
        ∃ call', stream'.state.calls.lookup c = some call' ∧ CommandLink.Keeps call call'
  written : ∀ n, (w.registry.streams.lookup n).isSome →
    (w.sides n).written <+: (v.sides n).written

variable {parse : String → Option κ} {display : κ → String} {w v : CommandWires κ γ σ τ}
  {i n c : Nat} {targeted : TargetedCommandRequest γ}
  {stream : CommandStream κ γ (CommandResult σ τ)} {call : Call γ (CommandResult σ τ)}

theorem Extends.get (h : w.Extends v) {p : Placed γ} (hp : w.placed[c]? = some p) :
    v.placed[c]? = some p := by
  obtain ⟨more, hmore⟩ := h.placed
  rw [← hmore, List.getElem?_append_left (List.getElem?_eq_some_iff.mp hp).1]
  exact hp

/-- The call is still the one made for the request, and what it has returned it has returned. -/
theorem Made.extends (hmade : w.Made parse i targeted n c stream call) (h : w.Extends v) :
    ∃ stream' call', v.Made parse i targeted n c stream' call' ∧ CommandLink.Keeps call call' := by
  obtain ⟨stream', hstream', hkey, hcalls⟩ := h.streams n stream hmade.streams
  obtain ⟨call', hcall', hkeeps⟩ := hcalls c call hmade.calls
  refine ⟨stream', call', ?_, hkeeps⟩
  exact
    { placed := h.get hmade.placed
      streams := hstream'
      key := hkey ▸ hmade.key
      calls := hcall'
      command := hkeeps.command.trans hmade.command }

theorem Served.extends {handled : Handled γ σ τ} (hserved : w.Served parse display i handled)
    (h : w.Extends v) : v.Served parse display i handled := by
  cases hserved with
  | invalidKey hparse => exact .invalidKey hparse
  | noChannel hparse => exact .noChannel hparse
  | failed hmade hphase =>
    obtain ⟨_, _, hmade', hkeeps⟩ := hmade.extends h
    exact .failed hmade' ((hkeeps.phase (by rw [hphase]; rfl)).trans hphase)
  | responded hmade hphase =>
    obtain ⟨_, _, hmade', hkeeps⟩ := hmade.extends h
    exact .responded hmade' ((hkeeps.phase (by rw [hphase]; rfl)).trans hphase)

/-! ## The invariant -/

section Invariant

variable (rmp : Rmp γ σ τ) (parse : String → Option κ) (display : κ → String)

/-- What a client's phase says. -/
def PhaseOk (w : CommandWires κ γ σ τ) (i : Nat) : RoutingPhase κ γ σ τ → Prop
  | .receiving => True
  | .parsed targeted cameraKey => parse targeted.targetCamera = some cameraKey
  | .calling targeted n c => w.placed[c]? = some ⟨i, n, targeted⟩
  | .answering targeted call routed =>
    w.Served parse display i
      ⟨targeted, call,
        ClientLoop.outcome parse (CommandClient.turnFor targeted routed (.ok ())) targeted⟩

/-- What holds of a client. -/
structure ClientOk (w : CommandWires κ γ σ τ) (i : Nat) (client : CommandClient κ γ σ τ) :
    Prop where
  turns : run (ClientLoop.step rmp parse) {} client.turns = some client.loop
  received : client.received = client.handled.map Handled.targeted ++ client.inHand.toList
  sent : client.loop.sent <+: client.handled.map Handled.response
  all : client.loop.left = false → client.loop.sent = client.handled.map Handled.response
  live : client.inHand.isSome → client.loop.left = false
  calls : (client.handled.filterMap Handled.call ++ client.callInHand.toList).Pairwise (· < ·)
  below : ∀ c ∈ client.handled.filterMap Handled.call ++ client.callInHand.toList,
    c < w.placed.length
  served : ∀ h ∈ client.handled, w.Served parse display i h
  phase : w.PhaseOk parse display i client.phase
  order : ∀ n, (w.registry.streams.lookup n).isSome → w.writtenFor n i <+ w.begun client

/-- What holds of the channels: every call on a stream was placed, and made for its request, on a
stream of the camera it names. -/
structure Ok (w : CommandWires κ γ σ τ) : Prop where
  flow : ∀ n stream, w.registry.streams.lookup n = some stream → (w.linkOf n stream).Flow .ok
  made : ∀ c p, w.placed[c]? = some p →
    ∃ stream call, w.Made parse p.client p.targeted p.stream c stream call
  placed : ∀ n stream c call, w.registry.streams.lookup n = some stream →
    stream.state.calls.lookup c = some call → ∃ p, w.placed[c]? = some p ∧ p.stream = n

end Invariant

variable {rmp : Rmp γ σ τ} {client : CommandClient κ γ σ τ}

theorem PhaseOk.extends {phase : RoutingPhase κ γ σ τ} (hphase : w.PhaseOk parse display i phase)
    (h : w.Extends v) : v.PhaseOk parse display i phase := by
  cases phase with
  | receiving => trivial
  | parsed targeted cameraKey => exact hphase
  | calling targeted n c => exact h.get hphase
  | answering targeted call routed => exact Served.extends hphase h

/-- A call that was there and has not returned had not returned before. -/
theorem made_back (hok : w.Ok parse) (hext : w.Extends v)
    (hp : w.placed[c]? = some ⟨i, n, targeted⟩)
    {stream' : CommandStream κ γ (CommandResult σ τ)} {call' : Call γ (CommandResult σ τ)}
    (hmade : v.Made parse i targeted n c stream' call') (hlive : call'.phase.done = false) :
    ∃ stream call, w.Made parse i targeted n c stream call ∧ call.phase.done = false := by
  obtain ⟨stream, call, hbefore⟩ := hok.made c _ hp
  refine ⟨stream, call, hbefore, Bool.eq_false_iff.mpr fun hdone => ?_⟩
  obtain ⟨stream₁, call₁, hafter, hkeeps⟩ := hbefore.extends hext
  obtain rfl := Option.some.inj (hafter.streams.symm.trans hmade.streams)
  obtain rfl := Option.some.inj (hafter.calls.symm.trans hmade.calls)
  rw [hkeeps.phase hdone, hdone] at hlive
  cases hlive

/-- A client's request that has gone out has gone out. -/
theorem begun_sublist (hok : w.Ok parse) (hphase : w.PhaseOk parse display i client.phase)
    (h : w.Extends v) : w.begun client <+ v.begun client := by
  rw [begun, begun]
  refine (List.Sublist.refl _).append ?_
  cases hclient : client.phase with
  | receiving | parsed | answering => exact List.Sublist.refl _
  | calling targeted n c =>
    rw [hclient] at hphase
    obtain ⟨stream, call, hmade⟩ := hok.made c _ hphase
    have hwritten := h.written n (by rw [hmade.streams]; rfl)
    by_cases hc : c ∈ (w.sides n).written.map Prod.fst
    · simp only [if_pos hc, if_pos ((hwritten.map Prod.fst).subset hc)]
      exact List.Sublist.refl _
    · simp only [if_neg hc]
      exact List.nil_sublist _

/-- What was written to a stream was placed. -/
theorem Ok.get_of_written (hok : w.Ok parse) (hstream : w.registry.streams.lookup n = some stream)
    {e : Nat × CommandRequest γ} (he : e ∈ (w.sides n).written) :
    ∃ p, w.placed[e.1]? = some p ∧ p.stream = n := by
  obtain ⟨call, hcall, -⟩ := (hok.flow n stream hstream).calls e.1 e.2 he
  exact hok.placed n stream e.1 call hstream hcall

/-- Where nothing was written, the same requests have been written. -/
theorem writtenFor_congr (hok : w.Ok parse) (h : w.Extends v)
    (hstream : w.registry.streams.lookup n = some stream)
    (hwritten : (v.sides n).written = (w.sides n).written) :
    v.writtenFor n i = w.writtenFor n i := by
  have hplaced : (w.sides n).written.filterMap (fun e => v.placed[e.1]?) =
      (w.sides n).written.filterMap fun e => w.placed[e.1]? := by
    refine List.filterMap_congr fun e he => ?_
    obtain ⟨p, hp, -⟩ := hok.get_of_written hstream he
    rw [hp, h.get hp]
  rw [writtenFor, writtenFor, hwritten, hplaced]

/-- A client stays as it is while the wires grow, if its requests still go out in order. -/
theorem ClientOk.extends (hclient : w.ClientOk rmp parse display i client) (h : w.Extends v)
    (horder : ∀ n, (v.registry.streams.lookup n).isSome → v.writtenFor n i <+ v.begun client) :
    v.ClientOk rmp parse display i client where
  turns := hclient.turns
  received := hclient.received
  sent := hclient.sent
  all := hclient.all
  live := hclient.live
  calls := hclient.calls
  below c hc := Nat.lt_of_lt_of_le (hclient.below c hc) h.placed.length_le
  served handled hh := (hclient.served handled hh).extends h
  phase := hclient.phase.extends h
  order := horder

/-! ## A step of a client -/

/-- What a client is made of after a step on the same wires. -/
theorem takeTurn_eq_some {turn : ClientTurn κ γ σ τ} {client' : CommandClient κ γ σ τ}
    (h : client.takeTurn rmp parse turn = some client') :
    ∃ loop, client.loop.step rmp parse turn = some loop ∧ client' =
      { client with loop, phase := .receiving, turns := client.turns ++ [turn] } := by
  obtain ⟨loop, hloop, rfl⟩ := Option.map_eq_some_iff.mp h
  exact ⟨loop, hloop, rfl⟩

/-- A request of the client is kept. -/
theorem clientOk_request (hclient : w.ClientOk rmp parse display i client)
    (hphase : client.phase = .receiving) (hleft : client.loop.left = false) :
    w.ClientOk rmp parse display i
      { client with
        received := client.received ++ [targeted]
        phase :=
          match parse targeted.targetCamera with
          | none => .answering targeted none (.error "Invalid camera key")
          | some cameraKey => .parsed targeted cameraKey } := by
  have hreceived := hclient.received
  have hcalls := hclient.calls
  have hbelow := hclient.below
  have horder := hclient.order
  rw [CommandClient.inHand, hphase] at hreceived
  rw [CommandClient.callInHand, hphase] at hcalls hbelow
  simp only [begun, hphase] at horder
  cases hparse : parse targeted.targetCamera with
  | none =>
    exact
      { turns := hclient.turns
        received := by simp [CommandClient.inHand, hreceived]
        sent := hclient.sent
        all := hclient.all
        live := fun _ => hleft
        calls := hcalls
        below := hbelow
        served := hclient.served
        phase := by
          rw [PhaseOk, ClientLoop.outcome, hparse]
          exact .invalidKey hparse
        order := fun n hn => (horder n hn).trans (by simp [begun]) }
  | some cameraKey =>
    exact
      { turns := hclient.turns
        received := by simp [CommandClient.inHand, hreceived]
        sent := hclient.sent
        all := hclient.all
        live := fun _ => hleft
        calls := hcalls
        below := hbelow
        served := hclient.served
        phase := hparse
        order := horder }

/-- Anything else that comes from the client ends the turn. -/
theorem clientOk_other {turn : ClientTurn κ γ σ τ} {client' : CommandClient κ γ σ τ}
    (hclient : w.ClientOk rmp parse display i client) (hphase : client.phase = .receiving)
    (hother : ∀ targeted, turn.received ≠ .ok (some (.request targeted)))
    (h : client.takeTurn rmp parse turn = some client') :
    w.ClientOk rmp parse display i client' := by
  obtain ⟨loop, hloop, rfl⟩ := takeTurn_eq_some h
  have hleft := ClientLoop.step_eq_some hloop
  -- the loop goes on, or is left
  have hsent : loop.sent = client.loop.sent := by
    rw [ClientLoop.step, hleft] at hloop
    obtain rfl := Option.some.inj hloop
    split
    · next hrequest => exact absurd hrequest (hother _)
    all_goals rfl
  have hreceived := hclient.received
  have hcalls := hclient.calls
  have hbelow := hclient.below
  have horder := hclient.order
  rw [CommandClient.inHand, hphase] at hreceived
  rw [CommandClient.callInHand, hphase] at hcalls hbelow
  simp only [begun, hphase] at horder
  exact
    { turns := run_concat_eq_some.mpr ⟨_, hclient.turns, hloop⟩
      received := hreceived
      sent := hsent ▸ hclient.sent
      all := fun _ => hsent.trans (hclient.all hleft)
      live := fun h => absurd h Bool.false_ne_true
      calls := hcalls
      below := hbelow
      served := hclient.served
      phase := trivial
      order := horder }

/-- The client's response goes out, or its loop is left. -/
theorem clientOk_answer {call : Option Nat} {routed : Result (CommandResponse (CommandResult σ τ))}
    {transport : Result Unit} {client' : CommandClient κ γ σ τ}
    (hclient : w.ClientOk rmp parse display i client)
    (hphase : client.phase = .answering targeted call routed)
    (h : client.answer rmp parse targeted call routed transport = some client') :
    w.ClientOk rmp parse display i client' := by
  obtain ⟨taken, htaken, rfl⟩ := Option.map_eq_some_iff.mp h
  obtain ⟨loop, hloop, rfl⟩ := takeTurn_eq_some htaken
  have hleft := ClientLoop.step_eq_some hloop
  have hsend := ClientLoop.step_request rfl hloop
  have hall := hclient.all hleft
  have hserved := hclient.phase
  have hreceived := hclient.received
  have hcalls := hclient.calls
  have hbelow := hclient.below
  have horder := hclient.order
  rw [hphase] at hserved
  rw [CommandClient.inHand, hphase] at hreceived
  rw [CommandClient.callInHand, hphase] at hcalls hbelow
  simp only [begun, hphase] at horder
  have hlist : (client.handled ++ [(⟨targeted, call, ClientLoop.outcome parse
      (CommandClient.turnFor targeted routed transport) targeted⟩ : Handled γ σ τ)]).filterMap
      Handled.call = client.handled.filterMap Handled.call ++ call.toList := by
    rw [List.filterMap_append]
    cases call <;> rfl
  exact
    { turns := run_concat_eq_some.mpr ⟨_, hclient.turns, hloop⟩
      received := by simp [CommandClient.inHand, hreceived]
      sent := by
        rw [hsend, List.map_append, ← hall]
        rcases ClientLoop.send_cases rmp client.loop
          (CommandClient.turnFor targeted routed transport) _ with ⟨-, -, hsent, -⟩ | ⟨-, hgone⟩
        · rw [hsent]
          exact List.prefix_refl _
        · rw [hgone]
          exact List.prefix_append _ _
      all := by
        intro hleft'
        rw [hsend] at hleft' ⊢
        rw [List.map_append, ← hall]
        rcases ClientLoop.send_cases rmp client.loop
          (CommandClient.turnFor targeted routed transport) _ with ⟨-, -, hsent, -⟩ | ⟨-, hgone⟩
        · exact hsent
        · rw [hgone] at hleft'
          cases hleft'
      live := fun h => absurd h Bool.false_ne_true
      calls := by
        rw [CommandClient.callInHand, hlist, Option.toList_none, List.append_nil]
        exact hcalls
      below := by
        rw [CommandClient.callInHand, hlist, Option.toList_none, List.append_nil]
        exact hbelow
      served := List.forall_mem_append.mpr
        ⟨hclient.served, List.forall_mem_singleton.mpr hserved⟩
      phase := trivial
      order := by
        simpa [begun] using horder }

theorem resultOf_eq_some {result : Result (CommandResponse (CommandResult σ τ))}
    (h : w.resultOf n c = some result) : ∃ stream call,
      w.registry.streams.lookup n = some stream ∧ stream.state.calls.lookup c = some call ∧
        call.phase = .returned result := by
  obtain ⟨stream, hstream, h⟩ := Option.bind_eq_some_iff.mp h
  obtain ⟨call, hcall, h⟩ := Option.bind_eq_some_iff.mp h
  refine ⟨stream, call, hstream, hcall, ?_⟩
  split at h
  · next hphase => rw [hphase, Option.some.inj h]
  · cases h

/-- What the client's call has returned is its answer. -/
theorem clientOk_returned {result : Result (CommandResponse (CommandResult σ τ))}
    (hok : w.Ok parse) (hclient : w.ClientOk rmp parse display i client)
    (hphase : client.phase = .calling targeted n c) (hresult : w.resultOf n c = some result) :
    w.ClientOk rmp parse display i
      { client with phase := .answering targeted (some c) result } := by
  have hplaced := hclient.phase
  have hreceived := hclient.received
  have hlive := hclient.live
  have hcalls := hclient.calls
  have hbelow := hclient.below
  rw [hphase] at hplaced
  rw [CommandClient.inHand, hphase] at hreceived hlive
  rw [CommandClient.callInHand, hphase] at hcalls hbelow
  obtain ⟨stream, call, hstream, hcall, hreturned⟩ := resultOf_eq_some hresult
  obtain ⟨stream₁, call₁, hmade⟩ := hok.made c _ hplaced
  obtain rfl := Option.some.inj (hmade.streams.symm.trans hstream)
  obtain rfl := Option.some.inj (hmade.calls.symm.trans hcall)
  exact
    { turns := hclient.turns
      received := hreceived
      sent := hclient.sent
      all := hclient.all
      live := hlive
      calls := hcalls
      below := hbelow
      served := hclient.served
      phase := by
        rw [PhaseOk, ClientLoop.outcome, hmade.key]
        cases result with
        | ok response => exact .responded hmade hreturned
        | error e => exact .failed hmade hreturned
      order := fun m hm => by
        refine (hclient.order m hm).trans ?_
        simp only [begun, hphase]
        refine (List.Sublist.refl _).append ?_
        split
        · exact List.Sublist.refl _
        · exact List.nil_sublist _ }

/-- The camera has no command channel. -/
theorem clientOk_noChannel {cameraKey : κ} (hclient : w.ClientOk rmp parse display i client)
    (hphase : client.phase = .parsed targeted cameraKey) :
    w.ClientOk rmp parse display i
      { client with
        phase := .answering targeted none (.error (noCommandChannel display cameraKey)) } := by
  have hparse := hclient.phase
  have hreceived := hclient.received
  have hlive := hclient.live
  have hcalls := hclient.calls
  have hbelow := hclient.below
  have horder := hclient.order
  rw [hphase] at hparse
  have hparse : parse targeted.targetCamera = some cameraKey := hparse
  rw [CommandClient.inHand, hphase] at hreceived hlive
  rw [CommandClient.callInHand, hphase] at hcalls hbelow
  simp only [begun, hphase] at horder
  exact
    { turns := hclient.turns
      received := hreceived
      sent := hclient.sent
      all := hclient.all
      live := hlive
      calls := hcalls
      below := hbelow
      served := hclient.served
      phase := by
        rw [PhaseOk, ClientLoop.outcome, hparse]
        exact .noChannel hparse
      order := fun n hn => (horder n hn).trans (by simp [begun]) }

/-! ## A step of a stream -/

theorem onLink_eq_some {event : LinkEvent γ (CommandResult σ τ)} (h : w.onLink n event = some v) :
    ∃ stream l, w.registry.streams.lookup n = some stream ∧
      (∀ c command timeout, event ≠ .clone c command timeout) ∧
        (w.linkOf n stream).step .ok event = some l ∧ v = w.setLink n stream l := by
  obtain ⟨stream, hstream, h⟩ := Option.bind_eq_some_iff.mp h
  split at h
  · next hpermitted =>
    obtain ⟨l, hl, rfl⟩ := Option.map_eq_some_iff.mp h
    refine ⟨stream, l, hstream, ?_, hl, rfl⟩
    rintro c command timeout rfl
    cases hpermitted
  · cases h

/-- The wires with one stream moved on: its camera and its calls are kept, and what was written
to it; the others are as before. -/
structure Moves (w v : CommandWires κ γ σ τ) (n : Nat)
    (stream stream' : CommandStream κ γ (CommandResult σ τ)) : Prop where
  placed : v.placed = w.placed
  old : w.registry.streams.lookup n = some stream
  streams : ∀ m, v.registry.streams.lookup m =
    if m = n then some stream' else w.registry.streams.lookup m
  key : stream'.key = stream.key
  calls : CommandLink.KeepsCalls stream.state stream'.state
  sides : ∀ m, m ≠ n → v.sides m = w.sides m
  written : (w.sides n).written <+: (v.sides n).written
  flow : (v.linkOf n stream').Flow .ok

section Moves

variable {stream' : CommandStream κ γ (CommandResult σ τ)}

theorem Moves.lookup_of_ne (h : w.Moves v n stream stream') {m : Nat} (hmn : m ≠ n) :
    v.registry.streams.lookup m = w.registry.streams.lookup m :=
  (h.streams m).trans (if_neg hmn)

theorem Moves.lookup_self (h : w.Moves v n stream stream') :
    v.registry.streams.lookup n = some stream' :=
  (h.streams n).trans (if_pos rfl)

theorem Moves.extends (h : w.Moves v n stream stream') : w.Extends v where
  placed := h.placed ▸ List.prefix_refl _
  streams m streamm hm := by
    by_cases hmn : m = n
    · subst hmn
      obtain rfl := Option.some.inj (hm.symm.trans h.old)
      refine ⟨stream', h.lookup_self, h.key, fun c call hcall => ?_⟩
      rcases h.calls c with ⟨hnone, -⟩ | ⟨call₁, call', hcall₁, hcall', hkeeps⟩
      · rw [hcall] at hnone
        cases hnone
      · obtain rfl := Option.some.inj (hcall.symm.trans hcall₁)
        exact ⟨call', hcall', hkeeps⟩
    · exact ⟨streamm, (h.lookup_of_ne hmn).trans hm, rfl, fun c call hcall =>
        ⟨call, hcall, .refl call⟩⟩
  written m _ := by
    by_cases hmn : m = n
    · exact hmn ▸ h.written
    · exact h.sides m hmn ▸ List.prefix_refl _

theorem Moves.ok (h : w.Moves v n stream stream') (hok : w.Ok parse) : v.Ok parse where
  flow m streamm hm := by
    by_cases hmn : m = n
    · subst hmn
      obtain rfl := Option.some.inj (h.lookup_self.symm.trans hm)
      exact h.flow
    · rw [linkOf, h.sides m hmn]
      exact hok.flow m streamm ((h.lookup_of_ne hmn).symm.trans hm)
  made c p hp := by
    obtain ⟨stream, call, hmade⟩ := hok.made c p (h.placed ▸ hp)
    obtain ⟨streamm, call', hmade', -⟩ := hmade.extends h.extends
    exact ⟨streamm, call', hmade'⟩
  placed m streamm c call' hm hcall' := by
    rw [h.placed]
    by_cases hmn : m = n
    · subst hmn
      obtain rfl := Option.some.inj (h.lookup_self.symm.trans hm)
      rcases h.calls c with ⟨-, hnone⟩ | ⟨call, call₁, hcall, -, -⟩
      · rw [hcall'] at hnone
        cases hnone
      · exact hok.placed m stream c call h.old hcall
    · exact hok.placed m streamm c call' ((h.lookup_of_ne hmn).symm.trans hm) hcall'

/-- What a stream that moves on has written: nothing, or the request of a call that its client
waits for. -/
def Writes (w v : CommandWires κ γ σ τ) (n i : Nat) (client : CommandClient κ γ σ τ) : Prop :=
  (v.sides n).written = (w.sides n).written ∨ ∃ c p request, w.placed[c]? = some p ∧
    c ∉ (w.sides n).written.map Prod.fst ∧
      (v.sides n).written = (w.sides n).written ++ [(c, request)] ∧
        (p.client = i → client.phase = .calling p.targeted n c)

/-- One more request has been written. -/
theorem writtenFor_concat {p : Placed γ} {request : CommandRequest γ}
    (hplaced : v.placed = w.placed)
    (hwritten : (v.sides n).written = (w.sides n).written ++ [(c, request)])
    (hp : w.placed[c]? = some p) :
    v.writtenFor n i = w.writtenFor n i ++ if p.client = i then [p.targeted] else [] := by
  have hone : [(c, request)].filterMap (fun e => w.placed[e.1]?) = [p] := by simp [hp]
  rw [writtenFor, hplaced, hwritten, List.filterMap_append, hone, List.filter_append,
    List.map_append, writtenFor]
  by_cases hi : p.client = i <;> simp [hi]

/-- The requests of a client go out in order. -/
theorem Moves.order (h : w.Moves v n stream stream') (hok : w.Ok parse)
    (hclient : w.ClientOk rmp parse display i client) (hwrites : w.Writes v n i client) :
    v.writtenFor n i <+ v.begun client := by
  have hbefore := hclient.order n (by rw [h.old]; rfl)
  have hbegun := begun_sublist hok hclient.phase h.extends
  rcases hwrites with hsame | ⟨c, p, request, hp, hnew, hwritten, hcalling⟩
  · rw [writtenFor_congr hok h.extends h.old hsame]
    exact hbefore.trans hbegun
  · rw [writtenFor_concat h.placed hwritten hp]
    by_cases hi : p.client = i
    · -- the call is the client's, so it is the one in hand, and has not written before
      have hphase := hcalling hi
      rw [begun, hphase] at hbefore
      simp only [if_neg hnew, List.append_nil] at hbefore
      have hin : c ∈ (v.sides n).written.map Prod.fst := by
        rw [hwritten, List.map_append]
        exact List.mem_append_right _ List.mem_cons_self
      rw [if_pos hi, begun, hphase]
      simp only [if_pos hin]
      exact hbefore.append (List.Sublist.refl _)
    · rw [if_neg hi, List.append_nil]
      exact hbefore.trans hbegun

theorem Moves.clientOk (h : w.Moves v n stream stream') (hok : w.Ok parse)
    (hclient : w.ClientOk rmp parse display i client) (hwrites : w.Writes v n i client) :
    v.ClientOk rmp parse display i client := by
  refine hclient.extends h.extends fun m hm => ?_
  by_cases hmn : m = n
  · exact hmn ▸ h.order hok hclient hwrites
  · rw [h.lookup_of_ne hmn] at hm
    obtain ⟨streamm, hstreamm⟩ := Option.isSome_iff_exists.mp hm
    rw [writtenFor_congr hok h.extends hstreamm (by rw [h.sides m hmn])]
    exact (hclient.order m hm).trans (begun_sublist hok hclient.phase h.extends)

theorem sides_setLink_self (w : CommandWires κ γ σ τ)
    (stream : CommandStream κ γ (CommandResult σ τ)) (l : CommandLink γ (CommandResult σ τ)) :
    (w.setLink n stream l).sides n = l.side :=
  Function.update_self ..

/-- A step of a call, of the transport, of the reader or of the camera moves its stream on. -/
theorem moves_setLink {l : CommandLink γ (CommandResult σ τ)}
    {event : LinkEvent γ (CommandResult σ τ)} (hok : w.Ok parse)
    (hstream : w.registry.streams.lookup n = some stream)
    (hclone : ∀ c command timeout, event ≠ .clone c command timeout)
    (hstep : (w.linkOf n stream).step .ok event = some l) :
    w.Moves (w.setLink n stream l) n stream { stream with state := l.server } where
  placed := rfl
  old := hstream
  streams m := HashMap.lookup_insert_ite _ _ _ _
  key := rfl
  calls := CommandLink.keepsCalls_step (hok.flow n stream hstream).server hclone hstep
  sides m hmn := Function.update_of_ne hmn ..
  written := by
    rw [sides_setLink_self]
    show (w.sides n).written <+: l.written
    rcases CommandLink.step_written hstep with heq | ⟨_, _, -, -, -, heq⟩ <;> rw [heq]
    · exact List.prefix_refl _
    · exact List.prefix_append _ _
  flow := by
    rw [linkOf, sides_setLink_self]
    exact CommandLink.flow_step (hok.flow n stream hstream) hstep

/-- A step of its reader task moves a stream on. -/
theorem moves_reader (hok : w.Ok parse) (hstream : w.registry.streams.lookup n = some stream)
    {registry : CommandRegistry κ γ (CommandResult σ τ)} (reader : Reader)
    (hstreams : ∀ m, registry.streams.lookup m =
      if m = n then some { stream with reader } else w.registry.streams.lookup m) :
    w.Moves { w with registry } n stream { stream with reader } where
  placed := rfl
  old := hstream
  streams := hstreams
  key := rfl
  calls := .refl _
  sides _ _ := rfl
  written := List.prefix_refl _
  flow := hok.flow n stream hstream

end Moves

/-! ## A new stream -/

section Register

variable {key : κ}

/-- The wires with one more stream, of which nothing is known yet. -/
def addStream (w : CommandWires κ γ σ τ) (n : Nat) (key : κ) : CommandWires κ γ σ τ :=
  { w with
    registry := w.registry.setStream n ⟨key, .spawned, .new⟩
    sides := Function.update w.sides n {} }

theorem lookup_addStream (w : CommandWires κ γ σ τ) (n : Nat) (key : κ) (m : Nat) :
    (w.addStream n key).registry.streams.lookup m =
      if m = n then some ⟨key, .spawned, .new⟩ else w.registry.streams.lookup m :=
  HashMap.lookup_insert_ite _ _ _ _

theorem sides_addStream_self (w : CommandWires κ γ σ τ) (n : Nat) (key : κ) :
    (w.addStream n key).sides n = {} :=
  Function.update_self ..

theorem sides_addStream_of_ne {m : Nat} (hmn : m ≠ n) :
    (w.addStream n key).sides m = w.sides m :=
  Function.update_of_ne hmn ..

theorem ne_of_lookup (hnew : w.registry.streams.lookup n = none) {m : Nat}
    (hm : (w.registry.streams.lookup m).isSome) : m ≠ n := by
  rintro rfl
  rw [hnew] at hm
  cases hm

theorem extends_addStream (key : κ) (hnew : w.registry.streams.lookup n = none) :
    w.Extends (w.addStream n key) where
  placed := List.prefix_refl _
  streams m streamm hm := by
    have hmn := ne_of_lookup hnew (by rw [hm]; rfl)
    exact ⟨streamm, (lookup_addStream w n key m).trans ((if_neg hmn).trans hm), rfl,
      fun c call hcall => ⟨call, hcall, .refl call⟩⟩
  written m hm := by
    have hsame : (w.addStream n key).sides m = w.sides m :=
      sides_addStream_of_ne (ne_of_lookup hnew hm)
    exact hsame ▸ List.prefix_refl _

theorem ok_addStream (hok : w.Ok parse) (hnew : w.registry.streams.lookup n = none) :
    (w.addStream n key).Ok parse where
  flow m streamm hm := by
    rw [lookup_addStream] at hm
    by_cases hmn : m = n
    · rw [if_pos hmn] at hm
      obtain rfl := Option.some.inj hm
      rw [hmn, linkOf, sides_addStream_self]
      exact CommandLink.flow_new
    · rw [if_neg hmn] at hm
      rw [linkOf, sides_addStream_of_ne hmn]
      exact hok.flow m streamm hm
  made c p hp := by
    obtain ⟨stream, call, hmade⟩ := hok.made c p hp
    obtain ⟨streamm, call', hmade', -⟩ := hmade.extends (extends_addStream key hnew)
    exact ⟨streamm, call', hmade'⟩
  placed m streamm c call hm hcall := by
    rw [lookup_addStream] at hm
    by_cases hmn : m = n
    · rw [if_pos hmn] at hm
      obtain rfl := Option.some.inj hm
      exact absurd ((AList.lookup_empty _).symm.trans hcall) (by simp)
    · rw [if_neg hmn] at hm
      exact hok.placed m streamm c call hm hcall

theorem clientOk_addStream (hok : w.Ok parse) (hnew : w.registry.streams.lookup n = none)
    (hclient : w.ClientOk rmp parse display i client) :
    (w.addStream n key).ClientOk rmp parse display i client := by
  have hext := extends_addStream key hnew
  refine hclient.extends hext fun m hm => ?_
  by_cases hmn : m = n
  · rw [writtenFor, hmn, sides_addStream_self]
    exact List.nil_sublist _
  · rw [lookup_addStream, if_neg hmn] at hm
    obtain ⟨streamm, hstreamm⟩ := Option.isSome_iff_exists.mp hm
    rw [writtenFor_congr hok hext hstreamm (by rw [sides_addStream_of_ne hmn])]
    exact (hclient.order m hm).trans (begun_sublist hok hclient.phase hext)

end Register

/-! ## A new call -/

/-- The wires with one more call, on the stream `n`. -/
def addCall (w : CommandWires κ γ σ τ) (n : Nat)
    (stream : CommandStream κ γ (CommandResult σ τ)) (i : Nat)
    (targeted : TargetedCommandRequest γ) : CommandWires κ γ σ τ :=
  { w with
    registry := w.registry.setStream n
      { stream with
        state := stream.state.setCall w.placed.length
          { command := targeted.command, timeout := "30s" } }
    placed := w.placed ++ [⟨i, n, targeted⟩] }

theorem lookup_addCall (w : CommandWires κ γ σ τ) (n : Nat)
    (stream : CommandStream κ γ (CommandResult σ τ)) (i : Nat)
    (targeted : TargetedCommandRequest γ) (m : Nat) :
    (w.addCall n stream i targeted).registry.streams.lookup m =
      if m = n then some { stream with
        state := stream.state.setCall w.placed.length
          { command := targeted.command, timeout := "30s" } }
      else w.registry.streams.lookup m :=
  HashMap.lookup_insert_ite _ _ _ _

theorem get_addCall (w : CommandWires κ γ σ τ) (n : Nat)
    (stream : CommandStream κ γ (CommandResult σ τ)) (i : Nat)
    (targeted : TargetedCommandRequest γ) :
    (w.addCall n stream i targeted).placed[w.placed.length]? = some ⟨i, n, targeted⟩ :=
  List.getElem?_concat_length

theorem get_addCall_cases {p : Placed γ}
    (hp : (w.addCall n stream i targeted).placed[c]? = some p) :
    w.placed[c]? = some p ∨ c = w.placed.length ∧ p = ⟨i, n, targeted⟩ := by
  by_cases hc : c < w.placed.length
  · rw [addCall, List.getElem?_append_left hc] at hp
    exact .inl hp
  · have hlast : c = w.placed.length := by
      have hlt := (List.getElem?_eq_some_iff.mp hp).1
      simp only [addCall, List.length_append, List.length_singleton] at hlt
      omega
    rw [hlast, get_addCall] at hp
    exact .inr ⟨hlast, (Option.some.inj hp).symm⟩

/-- The name of the call is new. -/
theorem Ok.lookup_new (hok : w.Ok parse) (hstream : w.registry.streams.lookup n = some stream) :
    stream.state.calls.lookup w.placed.length = none := by
  cases hcall : stream.state.calls.lookup w.placed.length with
  | none => rfl
  | some call =>
    obtain ⟨p, hp, -⟩ := hok.placed n stream _ call hstream hcall
    rw [List.getElem?_eq_none (Nat.le_refl _)] at hp
    cases hp

theorem extends_addCall (hok : w.Ok parse) (hstream : w.registry.streams.lookup n = some stream) :
    w.Extends (w.addCall n stream i targeted) where
  placed := List.prefix_append _ _
  streams m streamm hm := by
    rw [lookup_addCall]
    by_cases hmn : m = n
    · subst hmn
      obtain rfl := Option.some.inj (hm.symm.trans hstream)
      refine ⟨_, if_pos rfl, rfl, fun c call hcall => ⟨call, ?_, .refl call⟩⟩
      refine (AList.lookup_insert_ne ?_).trans hcall
      rintro rfl
      rw [hok.lookup_new hstream] at hcall
      cases hcall
    · exact ⟨streamm, (if_neg hmn).trans hm, rfl, fun c call hcall => ⟨call, hcall, .refl call⟩⟩
  written _ _ := List.prefix_refl _

theorem made_addCall (hkey : parse targeted.targetCamera = some stream.key) :
    ∃ stream' call', (w.addCall n stream i targeted).Made parse i targeted n w.placed.length
      stream' call' :=
  ⟨_, _,
    { placed := get_addCall w n stream i targeted
      streams := (lookup_addCall w n stream i targeted n).trans (if_pos rfl)
      key := hkey
      calls := AList.lookup_insert _
      command := rfl }⟩

theorem ok_addCall (hok : w.Ok parse) (hstream : w.registry.streams.lookup n = some stream)
    (hkey : parse targeted.targetCamera = some stream.key) :
    (w.addCall n stream i targeted).Ok parse where
  flow m streamm hm := by
    rw [lookup_addCall] at hm
    by_cases hmn : m = n
    · rw [if_pos hmn] at hm
      obtain rfl := Option.some.inj hm
      subst hmn
      have hclone : (w.linkOf m stream).server.step
          (.clone w.placed.length targeted.command "30s") =
            some (stream.state.setCall w.placed.length
              { command := targeted.command, timeout := "30s" }) :=
        if_pos (hok.lookup_new hstream)
      exact CommandLink.flow_clone (hok.flow m stream hstream) hclone
    · rw [if_neg hmn] at hm
      exact hok.flow m streamm hm
  made c p hp := by
    rcases get_addCall_cases hp with hp | ⟨rfl, rfl⟩
    · obtain ⟨streamm, call, hmade⟩ := hok.made c p hp
      obtain ⟨streamm', call', hmade', -⟩ := hmade.extends (extends_addCall hok hstream)
      exact ⟨streamm', call', hmade'⟩
    · exact made_addCall hkey
  placed m streamm c call hm hcall := by
    rw [lookup_addCall] at hm
    by_cases hmn : m = n
    · rw [if_pos hmn] at hm
      obtain rfl := Option.some.inj hm
      rcases HashMap.lookup_insert_eq_some.mp hcall with ⟨rfl, -⟩ | ⟨-, hcall⟩
      · exact ⟨_, get_addCall w n stream i targeted, hmn.symm⟩
      · obtain ⟨p, hp, hpn⟩ := hok.placed n stream c call hstream hcall
        exact ⟨p, (extends_addCall hok hstream).get hp, hpn.trans hmn.symm⟩
    · rw [if_neg hmn] at hm
      obtain ⟨p, hp, hpm⟩ := hok.placed m streamm c call hm hcall
      exact ⟨p, (extends_addCall hok hstream).get hp, hpm⟩

theorem writtenFor_addCall (hok : w.Ok parse) (hstream : w.registry.streams.lookup n = some stream)
    {m j : Nat} (hm : ((w.addCall n stream i targeted).registry.streams.lookup m).isSome) :
    (w.registry.streams.lookup m).isSome ∧
      (w.addCall n stream i targeted).writtenFor m j = w.writtenFor m j := by
  have hold : (w.registry.streams.lookup m).isSome := by
    rw [lookup_addCall] at hm
    split at hm
    · next hmn =>
      rw [hmn, hstream]
      rfl
    · exact hm
  obtain ⟨streamm, hstreamm⟩ := Option.isSome_iff_exists.mp hold
  exact ⟨hold, writtenFor_congr hok (extends_addCall hok hstream) hstreamm rfl⟩

/-- The other clients. -/
theorem ClientOk.addCall (hclient : w.ClientOk rmp parse display i client) (hok : w.Ok parse)
    (hstream : w.registry.streams.lookup n = some stream) {j : Nat} :
    (w.addCall n stream j targeted).ClientOk rmp parse display i client := by
  refine hclient.extends (extends_addCall hok hstream) fun m hm => ?_
  obtain ⟨hold, heq⟩ := writtenFor_addCall (j := i) hok hstream hm
  rw [heq]
  exact (hclient.order m hold).trans
    (begun_sublist hok hclient.phase (extends_addCall hok hstream))

/-- The client whose call it is. -/
theorem clientOk_calling {cameraKey : κ} (hok : w.Ok parse)
    (hclient : w.ClientOk rmp parse display i client)
    (hphase : client.phase = .parsed targeted cameraKey)
    (hstream : w.registry.streams.lookup n = some stream) :
    (w.addCall n stream i targeted).ClientOk rmp parse display i
      { client with phase := .calling targeted n w.placed.length } := by
  have hreceived := hclient.received
  have hlive := hclient.live
  have hcalls := hclient.calls
  have hbelow := hclient.below
  have horder := hclient.order
  rw [CommandClient.inHand, hphase] at hreceived hlive
  rw [CommandClient.callInHand, hphase] at hcalls hbelow
  rw [Option.toList_none, List.append_nil] at hcalls hbelow
  simp only [begun, hphase] at horder
  exact
    { turns := hclient.turns
      received := hreceived
      sent := hclient.sent
      all := hclient.all
      live := hlive
      calls := List.pairwise_append.mpr ⟨hcalls, List.pairwise_singleton _ _,
        fun c hc d hd => List.mem_singleton.mp hd ▸ hbelow c hc⟩
      below := by
        intro c hc
        rw [CommandWires.addCall, List.length_append, List.length_singleton]
        rcases List.mem_append.mp hc with hc | hc
        · exact Nat.lt_succ_of_lt (hbelow c hc)
        · exact List.mem_singleton.mp hc ▸ Nat.lt_succ_self _
      served := fun h hh => (hclient.served h hh).extends (extends_addCall hok hstream)
      phase := get_addCall w n stream i targeted
      order := fun m hm => by
        obtain ⟨hold, heq⟩ := writtenFor_addCall (j := i) hok hstream hm
        rw [heq]
        exact (horder m hold).trans (by simp [begun]) }

end CommandWires

end Kodama
