import Kodama.Server.CommandWires

/-!
# Commands from clients to cameras (server/router.rs; camera.rs, `handle_commands`)

The whole way of a command: any number of clients, each with its `handle_client_commands`, the
registry of command streams with their reader tasks, and for each stream the camera at its far
end, interleaved in any order.

- `clients_answered`: a client is answered for its requests one by one, in order, under its ids;
  what it gets is an error of the router, or what a `send_command` call for this very request has
  returned; and while fewer than `2^32` calls have started on a stream, a response that a call on
  it returns is the result of the camera's execution of that client's command.
- `executed_as_requested`: a camera executes the commands of each client in the order of the
  client's requests, each at most once.
-/

namespace Kodama

open Lib Lib.Machine
open scoped List

/-- The channels and the clients. -/
structure CommandRouting (κ γ σ τ : Type) extends CommandWires κ γ σ τ where
  clients : Nat → Option (CommandClient κ γ σ τ)

/-- What can happen. -/
inductive RoutingEvent (κ γ σ τ : Type) where
  /-- A camera's command stream is accepted. -/
  | register (n : Nat) (key : κ)
  /-- Its reader task stores the state. -/
  | insert (n : Nat)
  /-- The reader's stream ends. -/
  | close (n : Nat)
  | cleanup (n : Nat)
  /-- A step of a call, of the transport, of the reader or of the camera's task. -/
  | link (n : Nat) (event : LinkEvent γ (CommandResult σ τ))
  /-- A client's command stream is accepted. -/
  | accept (i : Nat)
  | receive (i : Nat) (received : Result (Option (ClientCommandMessage γ (CommandResult σ τ))))
  /-- `send_command` looks the camera up. -/
  | lookup (i : Nat)
  /-- The client's call has returned. -/
  | returned (i : Nat)
  | answer (i : Nat) (transport : Result Unit)

variable {κ γ σ τ : Type}

namespace CommandRouting

/-- Nothing yet. -/
def new : CommandRouting κ γ σ τ where
  registry := .new
  sides _ := {}
  placed := []
  clients _ := none

def setClient (s : CommandRouting κ γ σ τ) (i : Nat) (client : CommandClient κ γ σ τ) :
    CommandRouting κ γ σ τ :=
  { s with clients := Function.update s.clients i (some client) }

/-- Replace the channels. -/
def setWires (s : CommandRouting κ γ σ τ) (w : CommandWires κ γ σ τ) : CommandRouting κ γ σ τ :=
  { s with toCommandWires := w }

variable [DecidableEq κ]

/-- The lookup of a camera's channel. The call is named by its place. -/
def lookupChannel (display : κ → String) (s : CommandRouting κ γ σ τ) (i : Nat)
    (client : CommandClient κ γ σ τ) (targeted : TargetedCommandRequest γ) (cameraKey : κ) :
    Option (CommandRouting κ γ σ τ) :=
  match s.registry.cameraCommands.lookup cameraKey with
  | none =>
    let routed := .error (noCommandChannel display cameraKey)
    some (s.setClient i { client with phase := .answering targeted none routed })
  | some n =>
    let c := s.placed.length
    (s.registry.step (.send c cameraKey targeted.command "30s")).map fun registry =>
      (s.setWires ⟨registry, s.sides, s.placed ++ [⟨i, n, targeted⟩]⟩).setClient i
        { client with phase := .calling targeted n c }

/-- One event. -/
def step (rmp : Rmp γ σ τ) (parse : String → Option κ) (display : κ → String)
    (s : CommandRouting κ γ σ τ) : RoutingEvent κ γ σ τ → Option (CommandRouting κ γ σ τ)
  | .register n key => (s.onRegistry (.register n key)).map s.setWires
  | .insert n => (s.onRegistry (.insert n)).map s.setWires
  | .close n => (s.onRegistry (.close n)).map s.setWires
  | .cleanup n => (s.onRegistry (.cleanup n)).map s.setWires
  | .link n event => (s.onLink n event).map s.setWires
  | .accept i => if (s.clients i).isSome then none else some (s.setClient i {})
  | .receive i received =>
    (s.clients i).bind fun client =>
      match client.phase with
      | .receiving => (client.receive rmp parse received).map (s.setClient i)
      | _ => none
  | .lookup i =>
    (s.clients i).bind fun client =>
      match client.phase with
      | .parsed targeted cameraKey => s.lookupChannel display i client targeted cameraKey
      | _ => none
  | .returned i =>
    (s.clients i).bind fun client =>
      match client.phase with
      | .calling targeted n c =>
        (s.resultOf n c).map fun result =>
          s.setClient i { client with phase := .answering targeted (some c) result }
      | _ => none
  | .answer i transport =>
    (s.clients i).bind fun client =>
      match client.phase with
      | .answering targeted call routed =>
        (client.answer rmp parse targeted call routed transport).map (s.setClient i)
      | _ => none

/-! ## The invariant -/

/-- What holds of every reachable state: calls are made for clients, and a call that has not
returned is the one its client waits for. -/
structure Inv (rmp : Rmp γ σ τ) (parse : String → Option κ) (display : κ → String)
    (s : CommandRouting κ γ σ τ) : Prop where
  entries : s.registry.EntriesNewest
  wires : s.toCommandWires.Ok parse
  known : ∀ (c : Nat) (p : Placed γ), s.placed[c]? = some p → (s.clients p.client).isSome
  active : ∀ n c stream call targeted i, s.Made parse i targeted n c stream call →
    call.phase.done = false →
    ∃ client, s.clients i = some client ∧ client.phase = .calling targeted n c
  clients : ∀ i client, s.clients i = some client → s.ClientOk rmp parse display i client

variable {rmp : Rmp γ σ τ} {parse : String → Option κ} {display : κ → String}
  {s u : CommandRouting κ γ σ τ} {w v : CommandWires κ γ σ τ} {i n : Nat}
  {client client' : CommandClient κ γ σ τ}

/-! ## Steps of the wires -/

/-- The invariant after a step of the wires alone. -/
theorem inv_setWires (hinv : s.Inv rmp parse display) (hentries : v.registry.EntriesNewest)
    (hok : v.Ok parse) (hext : s.toCommandWires.Extends v) (hplaced : v.placed = s.placed)
    (hclients : ∀ i client, s.clients i = some client → v.ClientOk rmp parse display i client) :
    (s.setWires v).Inv rmp parse display where
  entries := hentries
  wires := hok
  known c p hp := hinv.known c p (hplaced ▸ hp)
  active n c stream' call' targeted i hmade hlive := by
    obtain ⟨stream, call, hbefore, hlive⟩ :=
      CommandWires.made_back hinv.wires hext (hplaced ▸ hmade.placed) hmade hlive
    exact hinv.active n c stream call targeted i hbefore hlive
  clients := hclients

theorem entriesNewest_setState {r : CommandRegistry κ γ (CommandResult σ τ)}
    (hinv : r.EntriesNewest) {stream : CommandStream κ γ (CommandResult σ τ)}
    (hn : r.streams.lookup n = some stream) (state : CameraCommandState γ (CommandResult σ τ)) :
    (r.setStream n { stream with state }).EntriesNewest where
  entry k e hk := ⟨(hinv.entry k e hk).1, CommandRegistry.exists_setStream
    (P := fun str => str.reader ≠ .done) hn (fun h => h) (hinv.entry k e hk).2⟩
  newest k e hk := CommandRegistry.exists_setStream
    (P := fun str => str.key = k ∧ str.reader ≠ .spawned) hn (fun h => h) (hinv.newest k e hk)

/-- A call that has not returned is one its client waits for. -/
theorem writes_of_step (hinv : s.Inv rmp parse display)
    {stream : CommandStream κ γ (CommandResult σ τ)} {l : CommandLink γ (CommandResult σ τ)}
    {event : LinkEvent γ (CommandResult σ τ)}
    (hstream : s.registry.streams.lookup n = some stream)
    (hstep : (s.linkOf n stream).step .ok event = some l) (hclient : s.clients i = some client) :
    s.Writes (s.setLink n stream l) n i client := by
  rw [CommandWires.Writes, CommandWires.sides_setLink_self]
  rcases CommandLink.step_written hstep with heq | ⟨c, call, hcall, hphase, hnew, heq⟩
  · exact .inl heq
  · obtain ⟨p, hp, rfl⟩ := hinv.wires.placed n stream c call hstream hcall
    refine .inr ⟨c, p, _, hp, hnew, heq, ?_⟩
    rintro rfl
    obtain ⟨stream₁, call₁, hmade⟩ := hinv.wires.made c p hp
    obtain rfl := Option.some.inj (hmade.streams.symm.trans hstream)
    obtain rfl := Option.some.inj (hmade.calls.symm.trans hcall)
    obtain ⟨client₁, hclient₁, hcalling⟩ :=
      hinv.active _ c _ _ _ _ hmade (by rw [hphase]; rfl)
    obtain rfl := Option.some.inj (hclient₁.symm.trans hclient)
    exact hcalling

theorem inv_onLink (hinv : s.Inv rmp parse display) {event : LinkEvent γ (CommandResult σ τ)}
    (h : s.onLink n event = some v) : (s.setWires v).Inv rmp parse display := by
  obtain ⟨stream, l, hstream, hclone, hstep, rfl⟩ := CommandWires.onLink_eq_some h
  have hmoves := CommandWires.moves_setLink hinv.wires hstream hclone hstep
  refine inv_setWires hinv (entriesNewest_setState hinv.entries hstream _)
    (hmoves.ok hinv.wires) hmoves.extends rfl fun i client hclient => ?_
  exact hmoves.clientOk hinv.wires (hinv.clients i client hclient)
    (writes_of_step hinv hstream hstep hclient)

/-- A step of a stream's reader task. -/
theorem inv_reader (hinv : s.Inv rmp parse display)
    {registry : CommandRegistry κ γ (CommandResult σ τ)}
    {stream : CommandStream κ γ (CommandResult σ τ)} (reader : Reader)
    (hentries : registry.EntriesNewest) (hstream : s.registry.streams.lookup n = some stream)
    (hstreams : ∀ m, registry.streams.lookup m =
      if m = n then some { stream with reader } else s.registry.streams.lookup m) :
    (s.setWires { s.toCommandWires with registry }).Inv rmp parse display := by
  have hmoves := CommandWires.moves_reader hinv.wires hstream reader hstreams
  refine inv_setWires hinv hentries (hmoves.ok hinv.wires) hmoves.extends rfl
    fun i client hclient => ?_
  exact hmoves.clientOk hinv.wires (hinv.clients i client hclient) (.inl rfl)

theorem inv_register (hinv : s.Inv rmp parse display) {key : κ}
    (h : s.onRegistry (.register n key) = some v) : (s.setWires v).Inv rmp parse display := by
  obtain ⟨registry, hstep, rfl⟩ := Option.map_eq_some_iff.mp h
  have hentries := CommandRegistry.entriesNewest_step hinv.entries hstep
  rw [CommandRegistry.step] at hstep
  split at hstep
  · next hnew =>
    obtain rfl := Option.some.inj hstep
    refine inv_setWires hinv hentries (CommandWires.ok_addStream hinv.wires hnew)
      (CommandWires.extends_addStream key hnew) rfl fun i client hclient => ?_
    exact CommandWires.clientOk_addStream hinv.wires hnew (hinv.clients i client hclient)
  · cases hstep

theorem inv_insert (hinv : s.Inv rmp parse display) (h : s.onRegistry (.insert n) = some v) :
    (s.setWires v).Inv rmp parse display := by
  obtain ⟨registry, hstep, rfl⟩ := Option.map_eq_some_iff.mp h
  have hentries := CommandRegistry.entriesNewest_step hinv.entries hstep
  obtain ⟨stream, hstream, -, hstep⟩ := CommandRegistry.onReader_eq_some.mp hstep
  obtain rfl := Option.some.inj hstep
  exact inv_reader hinv .reading hentries hstream fun m => HashMap.lookup_insert_ite _ _ _ _

theorem inv_close (hinv : s.Inv rmp parse display) (h : s.onRegistry (.close n) = some v) :
    (s.setWires v).Inv rmp parse display := by
  obtain ⟨registry, hstep, rfl⟩ := Option.map_eq_some_iff.mp h
  have hentries := CommandRegistry.entriesNewest_step hinv.entries hstep
  obtain ⟨stream, hstream, -, hstep⟩ := CommandRegistry.onReader_eq_some.mp hstep
  obtain rfl := Option.some.inj hstep
  exact inv_reader hinv .ended hentries hstream fun m => HashMap.lookup_insert_ite _ _ _ _

theorem inv_cleanup (hinv : s.Inv rmp parse display) (h : s.onRegistry (.cleanup n) = some v) :
    (s.setWires v).Inv rmp parse display := by
  obtain ⟨registry, hstep, rfl⟩ := Option.map_eq_some_iff.mp h
  have hentries := CommandRegistry.entriesNewest_step hinv.entries hstep
  obtain ⟨stream, hstream, -, hstep⟩ := CommandRegistry.onReader_eq_some.mp hstep
  obtain rfl := Option.some.inj hstep
  exact inv_reader hinv .done hentries hstream fun m => HashMap.lookup_insert_ite _ _ _ _

/-! ## Steps of the clients -/

/-- The invariant after a step of one client alone. -/
theorem inv_setClient (hinv : s.Inv rmp parse display)
    (hclient : s.ClientOk rmp parse display i client)
    (hactive : ∀ n c stream call targeted, s.Made parse i targeted n c stream call →
      call.phase.done = false → client.phase = .calling targeted n c) :
    (s.setClient i client).Inv rmp parse display where
  entries := hinv.entries
  wires := hinv.wires
  known c p hp := by
    show (Function.update s.clients i (some client) p.client).isSome
    by_cases hi : p.client = i
    · rw [hi, Function.update_self]
      rfl
    · rw [Function.update_of_ne hi]
      exact hinv.known c p hp
  active n c stream call targeted j hmade hlive := by
    show ∃ client', Function.update s.clients i (some client) j = some client' ∧ _
    by_cases hj : j = i
    · subst hj
      exact ⟨client, Function.update_self .., hactive n c stream call targeted hmade hlive⟩
    · rw [Function.update_of_ne hj]
      exact hinv.active n c stream call targeted j hmade hlive
  clients j client' hj := by
    have hj : Function.update s.clients i (some client) j = some client' := hj
    by_cases hji : j = i
    · subst hji
      rw [Function.update_self] at hj
      exact Option.some.inj hj ▸ hclient
    · rw [Function.update_of_ne hji] at hj
      exact hinv.clients j client' hj

/-- A client that waits for no call has none that has not returned. -/
theorem done_of_phase (hinv : s.Inv rmp parse display) (hclient : s.clients i = some client)
    (hphase : ∀ targeted n c, client.phase ≠ .calling targeted n c) {c : Nat}
    {stream : CommandStream κ γ (CommandResult σ τ)} {call : Call γ (CommandResult σ τ)}
    {targeted : TargetedCommandRequest γ} (hmade : s.Made parse i targeted n c stream call) :
    call.phase.done ≠ false := by
  intro hlive
  obtain ⟨client', hclient', hcalling⟩ := hinv.active n c stream call targeted i hmade hlive
  obtain rfl := Option.some.inj (hclient.symm.trans hclient')
  exact hphase targeted n c hcalling

/-- The client's call begins. -/
theorem inv_addCall (hinv : s.Inv rmp parse display) (hclient : s.clients i = some client)
    {targeted : TargetedCommandRequest γ} {cameraKey : κ}
    {stream : CommandStream κ γ (CommandResult σ τ)}
    (hphase : client.phase = .parsed targeted cameraKey)
    (hstream : s.registry.streams.lookup n = some stream)
    (hkey : parse targeted.targetCamera = some stream.key) :
    ((s.setWires (s.addCall n stream i targeted)).setClient i
      { client with phase := .calling targeted n s.placed.length }).Inv rmp parse display where
  entries := entriesNewest_setState hinv.entries hstream _
  wires := CommandWires.ok_addCall hinv.wires hstream hkey
  known c p hp := by
    show (Function.update s.clients i _ p.client).isSome
    by_cases hi : p.client = i
    · rw [hi, Function.update_self]
      rfl
    · rw [Function.update_of_ne hi]
      rcases CommandWires.get_addCall_cases hp with hp | ⟨-, rfl⟩
      · exact hinv.known c p hp
      · exact absurd rfl hi
  active m c streamm call other j hmade hlive := by
    show ∃ client', Function.update s.clients i _ j = some client' ∧ _
    rcases CommandWires.get_addCall_cases hmade.placed with hp | ⟨rfl, hnew⟩
    · -- an older call is another client's, as this one was waiting for none
      obtain ⟨streamm', call', hbefore, hlive⟩ := CommandWires.made_back hinv.wires
        (CommandWires.extends_addCall hinv.wires hstream) hp hmade hlive
      have hji : j ≠ i := by
        rintro rfl
        exact done_of_phase hinv hclient (by rw [hphase]; nofun) hbefore hlive
      rw [Function.update_of_ne hji]
      exact hinv.active m c streamm' call' other j hbefore hlive
    · obtain ⟨rfl, rfl, rfl⟩ := Placed.mk.inj hnew
      exact ⟨_, Function.update_self .., rfl⟩
  clients j client' hj := by
    have hj : Function.update s.clients i _ j = some client' := hj
    by_cases hji : j = i
    · subst hji
      rw [Function.update_self] at hj
      exact Option.some.inj hj ▸
        CommandWires.clientOk_calling hinv.wires (hinv.clients j client hclient) hphase hstream
    · rw [Function.update_of_ne hji] at hj
      exact (hinv.clients j client' hj).addCall hinv.wires hstream

theorem inv_lookup (hinv : s.Inv rmp parse display) (hclient : s.clients i = some client)
    {targeted : TargetedCommandRequest γ} {cameraKey : κ}
    (hphase : client.phase = .parsed targeted cameraKey)
    (h : s.lookupChannel display i client targeted cameraKey = some u) :
    u.Inv rmp parse display := by
  have hok := hinv.clients i client hclient
  have hparse : parse targeted.targetCamera = some cameraKey := by
    have := hok.phase
    rw [hphase] at this
    exact this
  rw [lookupChannel] at h
  cases hentry : s.registry.cameraCommands.lookup cameraKey with
  | none =>
    rw [hentry] at h
    obtain rfl := Option.some.inj h
    refine inv_setClient hinv (CommandWires.clientOk_noChannel hok hphase)
      fun n c stream call other hmade hlive => ?_
    exact absurd hlive (done_of_phase hinv hclient (by rw [hphase]; nofun) hmade)
  | some n =>
    rw [hentry] at h
    obtain ⟨registry, hsend, rfl⟩ := Option.map_eq_some_iff.mp h
    simp only [CommandRegistry.step, hentry] at hsend
    obtain ⟨stream, hstream, hsend⟩ := Option.bind_eq_some_iff.mp hsend
    obtain ⟨state, hclone, rfl⟩ := CommandRegistry.onState_eq_some.mp hsend
    have hstate : stream.state.setCall s.placed.length
        { command := targeted.command, timeout := "30s" } = state :=
      Option.some.inj ((if_pos (hinv.wires.lookup_new hstream)).symm.trans hclone)
    subst hstate
    -- the entry of a key is a stream of that key
    obtain ⟨stream₁, hstream₁, hkey, -⟩ :=
      hinv.entries.newest cameraKey n (hinv.entries.entry cameraKey n hentry).1
    obtain rfl := Option.some.inj (hstream₁.symm.trans hstream)
    exact inv_addCall hinv hclient hphase hstream (hkey ▸ hparse)

/-- A new client has sent nothing. -/
theorem inv_accept (hinv : s.Inv rmp parse display) (hnew : s.clients i = none) :
    (s.setClient i {}).Inv rmp parse display := by
  refine inv_setClient hinv ?_ fun n c stream call targeted hmade hlive => ?_
  · exact
      { turns := rfl
        received := rfl
        sent := List.prefix_refl _
        all := fun _ => rfl
        live := nofun
        calls := .nil
        below := nofun
        served := nofun
        phase := trivial
        order := fun n _ => by
          have hnone : ((s.sides n).written.filterMap fun e => s.placed[e.1]?).filter
              (·.client = i) = [] := by
            refine List.filter_eq_nil_iff.mpr fun p hp hi => ?_
            obtain ⟨e, -, he⟩ := List.mem_filterMap.mp hp
            have hknown := hinv.known e.1 p he
            rw [of_decide_eq_true hi, hnew] at hknown
            cases hknown
          rw [CommandWires.writtenFor, hnone]
          exact List.nil_sublist _ }
  · obtain ⟨client, hclient, -⟩ := hinv.active n c stream call targeted i hmade hlive
    rw [hnew] at hclient
    cases hclient

/-- Every event keeps the invariant. -/
theorem inv_step {event : RoutingEvent κ γ σ τ} (hinv : s.Inv rmp parse display)
    (h : s.step rmp parse display event = some u) : u.Inv rmp parse display := by
  cases event with
  | register n key =>
    obtain ⟨w, hw, rfl⟩ := Option.map_eq_some_iff.mp h
    exact inv_register hinv hw
  | insert n =>
    obtain ⟨w, hw, rfl⟩ := Option.map_eq_some_iff.mp h
    exact inv_insert hinv hw
  | close n =>
    obtain ⟨w, hw, rfl⟩ := Option.map_eq_some_iff.mp h
    exact inv_close hinv hw
  | cleanup n =>
    obtain ⟨w, hw, rfl⟩ := Option.map_eq_some_iff.mp h
    exact inv_cleanup hinv hw
  | link n event =>
    obtain ⟨w, hw, rfl⟩ := Option.map_eq_some_iff.mp h
    exact inv_onLink hinv hw
  | accept i =>
    simp only [step] at h
    split at h
    · cases h
    · next hnew =>
      obtain rfl := Option.some.inj h
      exact inv_accept hinv (Option.not_isSome_iff_eq_none.mp hnew)
  | receive i received =>
    obtain ⟨client, hclient, h⟩ := Option.bind_eq_some_iff.mp h
    split at h
    · next hphase =>
      obtain ⟨client', hreceive, rfl⟩ := Option.map_eq_some_iff.mp h
      refine inv_setClient hinv ?_ fun n c stream call targeted hmade hlive =>
        absurd hlive (done_of_phase hinv hclient (by rw [hphase]; nofun) hmade)
      have hok := hinv.clients i client hclient
      unfold CommandClient.receive at hreceive
      split at hreceive
      · split at hreceive
        · cases hreceive
        · next hleft =>
          obtain rfl := Option.some.inj hreceive
          exact CommandWires.clientOk_request hok hphase (Bool.eq_false_iff.mpr hleft)
      · next hother =>
        refine CommandWires.clientOk_other hok hphase (fun targeted hrequest => ?_) hreceive
        exact hother targeted hrequest
    · cases h
  | lookup i =>
    obtain ⟨client, hclient, h⟩ := Option.bind_eq_some_iff.mp h
    split at h
    · next hphase => exact inv_lookup hinv hclient hphase h
    · cases h
  | returned i =>
    obtain ⟨client, hclient, h⟩ := Option.bind_eq_some_iff.mp h
    split at h
    · next targeted n c hphase =>
      obtain ⟨result, hresult, rfl⟩ := Option.map_eq_some_iff.mp h
      refine inv_setClient hinv (CommandWires.clientOk_returned hinv.wires
        (hinv.clients i client hclient) hphase hresult) fun m d stream call other hmade hlive => ?_
      -- the client waited for this call only, and it has returned
      obtain ⟨client', hclient', hcalling⟩ := hinv.active m d stream call other i hmade hlive
      obtain rfl := Option.some.inj (hclient.symm.trans hclient')
      obtain ⟨rfl, rfl, rfl⟩ := RoutingPhase.calling.inj (hphase.symm.trans hcalling)
      obtain ⟨stream', call', hstream, hcall, hreturned⟩ := CommandWires.resultOf_eq_some hresult
      obtain rfl := Option.some.inj (hstream.symm.trans hmade.streams)
      obtain rfl := Option.some.inj (hcall.symm.trans hmade.calls)
      rw [hreturned] at hlive
      cases hlive
    · cases h
  | answer i transport =>
    obtain ⟨client, hclient, h⟩ := Option.bind_eq_some_iff.mp h
    split at h
    · next targeted call routed hphase =>
      obtain ⟨client', hanswer, rfl⟩ := Option.map_eq_some_iff.mp h
      have hok := CommandWires.clientOk_answer (hinv.clients i client hclient) hphase hanswer
      exact inv_setClient hinv hok fun n c stream call targeted hmade hlive =>
        absurd hlive (done_of_phase hinv hclient (by rw [hphase]; nofun) hmade)
    · cases h

theorem inv_new : (new : CommandRouting κ γ σ τ).Inv rmp parse display where
  entries := CommandRegistry.entriesNewest_new
  wires :=
    { flow := fun _ _ h => absurd ((AList.lookup_empty _).symm.trans h) (by simp)
      made := fun _ _ h => absurd (List.getElem?_nil.symm.trans h) (by simp)
      placed := fun _ _ _ _ h => absurd ((AList.lookup_empty _).symm.trans h) (by simp) }
  known _ _ h := absurd (List.getElem?_nil.symm.trans h) (by simp)
  active _ _ _ _ _ _ h := absurd (List.getElem?_nil.symm.trans h.placed) (by simp)
  clients _ _ h := absurd h (by simp [new])

theorem always_inv (rmp : Rmp γ σ τ) (parse : String → Option κ) (display : κ → String)
    (events : List (RoutingEvent κ γ σ τ)) :
    Always (step rmp parse display) (Inv rmp parse display) new events :=
  always_of_step inv_new (fun _ _ _ hinv hstep => inv_step hinv hstep) events

/-! ## What the clients get -/

/-- What a client has got: the requests it has sent were handled one after the other, the loop has
sent the responses in that order (all of them, unless it was left), each request was answered for
its own reason, under a call of its own, and a response that a call has returned is the result of
the execution of the command in the request. -/
structure Answered (rmp : Rmp γ σ τ) (parse : String → Option κ) (display : κ → String)
    (s : CommandRouting κ γ σ τ) (i : Nat) (client : CommandClient κ γ σ τ) : Prop where
  turns : run (ClientLoop.step rmp parse) {} client.turns = some client.loop
  received : client.received = client.handled.map Handled.targeted ++ client.inHand.toList
  sent : client.loop.sent <+: client.handled.map Handled.response
  all : client.loop.left = false → client.loop.sent = client.handled.map Handled.response
  distinct : (client.handled.filterMap Handled.call).Nodup
  served : ∀ h ∈ client.handled, s.Served parse display i h
  executed : ∀ targeted n c stream call response, s.Made parse i targeted n c stream call →
    call.phase = .returned (.ok response) → stream.state.issued < 2 ^ 32 →
      (s.linkOf n stream).ExecutedFor c call response.result

theorem Inv.answered (hinv : s.Inv rmp parse display) (hclient : s.clients i = some client) :
    s.Answered rmp parse display i client := by
  have hok := hinv.clients i client hclient
  exact
    { turns := hok.turns
      received := hok.received
      sent := hok.sent
      all := hok.all
      distinct := ((List.pairwise_append.mp hok.calls).1).imp fun h => Nat.ne_of_lt h
      served := hok.served
      executed := fun targeted n c stream call response hmade hphase hfew =>
        (CommandLink.executedFor_of_returned (hinv.wires.flow n stream hmade.streams) hfew
          hmade.calls hphase).2 }

/-- A client is told that its camera has no command channel if and only if the camera has none
when `send_command` looks it up. -/
def LookedUp (display : κ → String) (s : CommandRouting κ γ σ τ) (event : RoutingEvent κ γ σ τ)
    (u : CommandRouting κ γ σ τ) : Prop :=
  ∀ i client client' targeted cameraKey, event = .lookup i → s.clients i = some client →
    client.phase = .parsed targeted cameraKey → u.clients i = some client' →
      (client'.phase = .answering targeted none (.error (noCommandChannel display cameraKey)) ↔
        s.registry.cameraCommands.lookup cameraKey = none)

theorem lookedUp_step {event : RoutingEvent κ γ σ τ}
    (h : s.step rmp parse display event = some u) : LookedUp display s event u := by
  rintro i client client' targeted cameraKey rfl hclient hphase hclient'
  simp only [step, hclient, Option.bind_some, hphase, lookupChannel] at h
  cases hentry : s.registry.cameraCommands.lookup cameraKey with
  | none =>
    rw [hentry] at h
    obtain rfl := Option.some.inj h
    obtain rfl := Option.some.inj ((Function.update_self i _ s.clients).symm.trans hclient')
    exact ⟨fun _ => rfl, fun _ => rfl⟩
  | some n =>
    rw [hentry] at h
    obtain ⟨registry, -, rfl⟩ := Option.map_eq_some_iff.mp h
    obtain rfl := Option.some.inj ((Function.update_self i _ s.clients).symm.trans hclient')
    exact ⟨nofun, nofun⟩

/-- **Clients get what was done for them.** In every run, for every client. -/
theorem clients_answered (rmp : Rmp γ σ τ) (parse : String → Option κ) (display : κ → String)
    (events : List (RoutingEvent κ γ σ τ)) :
    Always (step rmp parse display)
      (fun s => ∀ i client, s.clients i = some client → s.Answered rmp parse display i client)
      new events ∧
    EachStep (step rmp parse display) (LookedUp display) new events := by
  have hinv := always_inv rmp parse display events
  exact ⟨hinv.mono fun _ hinv _ _ hclient => hinv.answered hclient,
    eachStep_of_always hinv fun _ _ _ _ hstep => lookedUp_step hstep⟩

/-- Two clients with a command each for one camera, and one for a key that is none; the camera
executes them in the order of writing. -/
def twoClients : List (RoutingEvent String Unit Empty Empty) :=
  [.register 0 ClientLoop.exampleCamera, .insert 0, .link 0 (.sendReady true), .accept 0,
    .accept 1, .receive 0 (.ok (some (.request ⟨5, ClientLoop.exampleCamera, ()⟩))),
    .receive 1 (.ok (some (.request ⟨6, "porch", ()⟩))), .answer 1 (.ok ()),
    .receive 1 (.ok (some (.request ⟨7, ClientLoop.exampleCamera, ()⟩))), .lookup 1, .lookup 0,
    .link 0 (.call 0 .fetchId), .link 0 (.call 1 .fetchId), .link 0 (.call 1 .insertPending),
    .link 0 (.call 0 .insertPending), .link 0 (.write 1), .link 0 (.write 0),
    .link 0 (.call 0 .sendOk), .link 0 (.call 1 .sendOk), .link 0 .dispatch, .link 0 .receive,
    .link 0 (.execute .ok), .link 0 (.respond true), .link 0 .receive,
    .link 0 (.execute (.error "busy")), .link 0 (.respond true), .link 0 .dispatch,
    .link 0 .dispatch, .link 0 (.call 0 .resolve), .link 0 (.call 1 .resolve), .returned 1,
    .answer 1 (.ok ()), .returned 0, .answer 0 (.ok ())]

/-- The errors a client has been sent, by the ids of its requests; `none` is no error. -/
def errorsTo (s : CommandRouting String Unit Empty Empty) (i : Nat) :
    Option (List (UInt32 × Option String)) :=
  (s.clients i).map fun client => client.loop.sent.map fun response =>
    (response.id, match response.result with
      | .error message => some message
      | _ => none)

example : (run (step (ClientLoop.exampleRmp ⟨1, .ok⟩) ClientLoop.exampleParse id) new
    twoClients).map (fun s => (s.errorsTo 0, s.errorsTo 1)) =
      some (some [(5, none)], some [(6, some "Invalid camera key"), (7, some "busy")]) := by
  decide

/-! ## What the cameras do -/

/-- What a camera has executed on a stream: commands of requests that were routed to it, those of
each client in the order in which the client has sent them, each once. -/
structure AsRequested (s : CommandRouting κ γ σ τ) (n : Nat) : Prop where
  commands : (s.sides n).executed.map (fun e => e.1.command) =
    (s.executedCalls n).map fun p => p.targeted.command
  routed : ∀ p ∈ s.executedCalls n, p.stream = n ∧ (s.clients p.client).isSome
  ordered : ∀ i client, s.clients i = some client →
    ((s.executedCalls n).filter (·.client = i)).map Placed.targeted <+ client.received

omit [DecidableEq κ] in
theorem begun_sublist_received (hclient : w.ClientOk rmp parse display i client) :
    w.begun client <+ client.received := by
  rw [hclient.received, CommandWires.begun, CommandClient.inHand]
  refine (List.Sublist.refl _).append ?_
  cases client.phase with
  | receiving => exact List.Sublist.refl _
  | parsed => exact List.nil_sublist _
  | answering => exact List.Sublist.refl _
  | calling =>
    dsimp only
    split
    · exact List.Sublist.refl _
    · exact List.nil_sublist _

omit [DecidableEq κ] in
/-- The commands that were written are those of the requests. -/
theorem commands_of_written (hok : w.Ok parse) {stream : CommandStream κ γ (CommandResult σ τ)}
    (hstream : w.registry.streams.lookup n = some stream) :
    ∀ es ⊆ (w.sides n).written, es.map (fun e => e.2.command) =
      (es.filterMap fun e => w.placed[e.1]?).map fun p => p.targeted.command := by
  intro es
  induction es with
  | nil => exact fun _ => rfl
  | cons e es ih =>
    intro hsub
    obtain ⟨he, hes⟩ := List.cons_subset.mp hsub
    obtain ⟨p, hp, rfl⟩ := hok.get_of_written hstream he
    obtain ⟨stream', call, hmade⟩ := hok.made e.1 p hp
    obtain rfl := Option.some.inj (hmade.streams.symm.trans hstream)
    obtain ⟨call', hcall', -, -, hrequest⟩ := (hok.flow _ _ hstream).calls e.1 e.2 he
    obtain rfl := Option.some.inj (hmade.calls.symm.trans hcall')
    have hcommand : e.2.command = p.targeted.command := by
      rw [hrequest]
      exact hmade.command
    rw [List.map_cons, ih hes, List.filterMap_cons, hp, List.map_cons, hcommand]

theorem Inv.asRequested (hinv : s.Inv rmp parse display)
    (hn : (s.registry.streams.lookup n).isSome) : s.AsRequested n := by
  obtain ⟨stream, hstream⟩ := Option.isSome_iff_exists.mp hn
  have htake := List.take_sublist (s.sides n).executed.length (s.sides n).written
  refine
    { commands := ?_
      routed := fun p hp => ?_
      ordered := fun i client hclient => ?_ }
  · rw [CommandWires.executedCalls, ← commands_of_written hinv.wires hstream _ htake.subset]
    have hprefix := CommandLink.executed_isPrefix (hinv.wires.flow n stream hstream)
    have heq := List.prefix_iff_eq_take.mp hprefix
    rw [List.length_map, ← List.map_take] at heq
    have hcommands := congrArg (List.map CommandRequest.command) heq
    rw [List.map_map, List.map_map] at hcommands
    exact hcommands
  · obtain ⟨e, he, hp⟩ := List.mem_filterMap.mp hp
    obtain ⟨p', hp', hpn⟩ := hinv.wires.get_of_written hstream (htake.subset he)
    obtain rfl := Option.some.inj (hp.symm.trans hp')
    exact ⟨hpn, hinv.known e.1 p hp⟩
  · have hwritten : ((s.executedCalls n).filter (·.client = i)).map Placed.targeted <+
        s.writtenFor n i := ((htake.filterMap _).filter _).map _
    have hok := hinv.clients i client hclient
    exact hwritten.trans ((hok.order n hn).trans (begun_sublist_received hok))

/-- **Cameras do what clients ask, in order.** In every run, on every stream. -/
theorem executed_as_requested (rmp : Rmp γ σ τ) (parse : String → Option κ) (display : κ → String)
    (events : List (RoutingEvent κ γ σ τ)) :
    Always (step rmp parse display)
      (fun s => ∀ n, (s.registry.streams.lookup n).isSome → s.AsRequested n) new events :=
  (always_inv rmp parse display events).mono fun _ hinv _ hn => hinv.asRequested hn

end CommandRouting

end Kodama
