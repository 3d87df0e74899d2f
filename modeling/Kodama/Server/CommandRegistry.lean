import Kodama.Server.CommandChannel

/-!
# The registry of command channels (server/router.rs, `register_camera_commands`)

Each camera connection spawns a task that stores its channel's state under the camera's
key, reads messages until its stream ends, and then removes *the key* from the registry,
whichever channel the key holds by then. `send_command` clones the state the key holds.
Streams of one key may overlap: a camera that reconnects opens a new stream before the old
one has ended.

- `registered_iff_endsInOrder`: the newest stream of a key stays registered while its
  reader runs, and no cleanup removes another stream's entry, exactly when no stream is
  cleaned up while a newer one of its key still runs.
- `released_iff_noneWaiting`: after the cleanup of a stream every call that waits on it is
  resolved, exactly when no call waits at the cleanup or starts to wait after it. The
  pending senders live in the state, and a waiting call itself holds that state.

Camera keys are a parameter; a stream's name stands for its `Arc<CameraCommandState>`.
-/

namespace Kodama

open Lib

/-- Where the reader task of a command stream stands. -/
inductive Reader where
  /-- Spawned; it has not stored the state yet. -/
  | spawned
  | reading
  /-- Out of its loop; the key is still to be removed. -/
  | ended
  | done
deriving DecidableEq

/-- A command stream: the camera it belongs to, its reader task and its state. -/
structure CommandStream (κ γ ρ : Type) where
  key : κ
  reader : Reader
  state : CameraCommandState γ ρ

/-- The registry (`RouterInner.camera_commands`) and all streams ever opened. `newest` is
the stream whose state was stored last under a key. -/
structure CommandRegistry (κ γ ρ : Type) where
  cameraCommands : HashMap κ Nat
  streams : HashMap Nat (CommandStream κ γ ρ)
  newest : HashMap κ Nat

/-- What can happen around the registry. -/
inductive RegistryEvent (κ γ ρ : Type) where
  /-- `register_camera_commands`: the state is built and the reader task spawned. -/
  | register (s : Nat) (key : κ)
  | insert (s : Nat)
  | recv (s : Nat) (message : CommandMessage γ ρ)
  /-- The stream is closed or fails. -/
  | close (s : Nat)
  | cleanup (s : Nat)
  /-- `send_command` looks the camera up. -/
  | send (c : Nat) (key : κ) (command : γ) (timeout : String)
  | call (s c : Nat) (step : CallStep)

variable {κ γ ρ : Type}

namespace CommandRegistry

/-- No stream yet. -/
def new : CommandRegistry κ γ ρ := ⟨∅, ∅, ∅⟩

/-- Replace the record of one stream. -/
def setStream (r : CommandRegistry κ γ ρ) (s : Nat) (stream : CommandStream κ γ ρ) :
    CommandRegistry κ γ ρ :=
  { r with streams := r.streams.insert s stream }

/-- One event on a stream's state. -/
def onState (r : CommandRegistry κ γ ρ) (s : Nat) (stream : CommandStream κ γ ρ)
    (event : ChannelEvent γ ρ) : Option (CommandRegistry κ γ ρ) :=
  (stream.state.step event).map fun state => r.setStream s { stream with state := state }

variable [DecidableEq κ]

/-- The reader task stores its state under the key. -/
def insertCommands (r : CommandRegistry κ γ ρ) (s : Nat) (stream : CommandStream κ γ ρ) :
    CommandRegistry κ γ ρ :=
  { r with
    cameraCommands := r.cameraCommands.insert stream.key s
    newest := r.newest.insert stream.key s }.setStream s { stream with reader := .reading }

/-- `camera_commands.remove(&key)`, and the reader task is over. -/
def removeCommands (r : CommandRegistry κ γ ρ) (s : Nat) (stream : CommandStream κ γ ρ) :
    CommandRegistry κ γ ρ :=
  { r with cameraCommands := r.cameraCommands.erase stream.key }.setStream s
    { stream with reader := .done }

/-- A step of a stream's reader task, from one place in it. -/
def onReader (r : CommandRegistry κ γ ρ) (s : Nat) (reader : Reader)
    (f : CommandStream κ γ ρ → Option (CommandRegistry κ γ ρ)) :
    Option (CommandRegistry κ γ ρ) :=
  (r.streams.lookup s).bind fun stream => if stream.reader = reader then f stream else none

/-- One event. A `send` for a camera without an entry returns its error at once. -/
def step (r : CommandRegistry κ γ ρ) : RegistryEvent κ γ ρ → Option (CommandRegistry κ γ ρ)
  | .register s key =>
    if r.streams.lookup s = none then some (r.setStream s ⟨key, .spawned, .new⟩) else none
  | .insert s => r.onReader s .spawned fun stream => some (r.insertCommands s stream)
  | .recv s message => r.onReader s .reading fun stream => r.onState s stream (.recv message)
  | .close s =>
    r.onReader s .reading fun stream => some (r.setStream s { stream with reader := .ended })
  | .cleanup s => r.onReader s .ended fun stream => some (r.removeCommands s stream)
  | .send c key command timeout =>
    match r.cameraCommands.lookup key with
    | none => some r
    | some s =>
      (r.streams.lookup s).bind fun stream => r.onState s stream (.clone c command timeout)
  | .call s c step => (r.streams.lookup s).bind fun stream => r.onState s stream (.call c step)

/-! ## What one event does -/

variable {r u : CommandRegistry κ γ ρ} {event : RegistryEvent κ γ ρ}

/-- A step inside one stream, which leaves the registry alone: its reader leaves the loop,
handles a message, or a call clones the state or takes a step on it. -/
inductive Inner (r : CommandRegistry κ γ ρ) (s : Nat) (stream : CommandStream κ γ ρ) :
    RegistryEvent κ γ ρ → CommandStream κ γ ρ → Prop
  | close (hreader : stream.reader = .reading) :
      Inner r s stream (.close s) { stream with reader := .ended }
  | recv {message state} (hreader : stream.reader = .reading)
      (hstep : stream.state.step (.recv message) = some state) :
      Inner r s stream (.recv s message) { stream with state := state }
  | send {c key command timeout state} (hkey : r.cameraCommands.lookup key = some s)
      (hstep : stream.state.step (.clone c command timeout) = some state) :
      Inner r s stream (.send c key command timeout) { stream with state := state }
  | call {c callStep state} (hstep : stream.state.step (.call c callStep) = some state) :
      Inner r s stream (.call s c callStep) { stream with state := state }

omit [DecidableEq κ] in
theorem onReader_eq_some {s : Nat} {reader : Reader}
    {f : CommandStream κ γ ρ → Option (CommandRegistry κ γ ρ)} :
    r.onReader s reader f = some u ↔
      ∃ stream, r.streams.lookup s = some stream ∧ stream.reader = reader ∧ f stream = some u := by
  rw [onReader, Option.bind_eq_some_iff]
  refine exists_congr fun stream => and_congr_right fun _ => ?_
  by_cases hreader : stream.reader = reader
  · rw [if_pos hreader]
    exact (and_iff_right hreader).symm
  · rw [if_neg hreader]
    exact ⟨nofun, fun h => absurd h.1 hreader⟩

omit [DecidableEq κ] in
theorem onState_eq_some {s : Nat} {stream : CommandStream κ γ ρ} {inner : ChannelEvent γ ρ} :
    r.onState s stream inner = some u ↔
      ∃ state, stream.state.step inner = some state ∧
        r.setStream s { stream with state := state } = u :=
  Option.map_eq_some_iff

/-- What one event does: it opens a stream, stores or removes a registry entry, steps
inside one stream, or (a `send` without a channel) does nothing. -/
theorem step_cases (h : r.step event = some u) :
    (∃ s key, event = .register s key ∧ r.streams.lookup s = none ∧
      u = r.setStream s ⟨key, .spawned, .new⟩) ∨
    (∃ s stream, event = .insert s ∧ r.streams.lookup s = some stream ∧
      stream.reader = .spawned ∧ u = r.insertCommands s stream) ∨
    (∃ s stream, event = .cleanup s ∧ r.streams.lookup s = some stream ∧
      stream.reader = .ended ∧ u = r.removeCommands s stream) ∨
    (∃ s stream stream', r.streams.lookup s = some stream ∧ r.Inner s stream event stream' ∧
      u = r.setStream s stream') ∨
    (∃ c key command timeout, event = .send c key command timeout ∧ u = r) := by
  cases event with
  | register s key =>
    left
    rw [step] at h
    split at h
    · next hfree => exact ⟨s, key, rfl, hfree, (Option.some.inj h).symm⟩
    · cases h
  | insert s =>
    right; left
    obtain ⟨stream, hs, hreader, h⟩ := onReader_eq_some.mp h
    exact ⟨s, stream, rfl, hs, hreader, (Option.some.inj h).symm⟩
  | cleanup s =>
    right; right; left
    obtain ⟨stream, hs, hreader, h⟩ := onReader_eq_some.mp h
    exact ⟨s, stream, rfl, hs, hreader, (Option.some.inj h).symm⟩
  | recv s message =>
    right; right; right; left
    obtain ⟨stream, hs, hreader, h⟩ := onReader_eq_some.mp h
    obtain ⟨state, hstate, rfl⟩ := onState_eq_some.mp h
    exact ⟨s, stream, _, hs, .recv hreader hstate, rfl⟩
  | close s =>
    right; right; right; left
    obtain ⟨stream, hs, hreader, h⟩ := onReader_eq_some.mp h
    exact ⟨s, stream, _, hs, .close hreader, (Option.some.inj h).symm⟩
  | send c key command timeout =>
    right; right; right
    rw [step] at h
    split at h
    · next => exact .inr ⟨c, key, command, timeout, rfl, (Option.some.inj h).symm⟩
    · next s hkey =>
      left
      obtain ⟨stream, hs, h⟩ := Option.bind_eq_some_iff.mp h
      obtain ⟨state, hstate, rfl⟩ := onState_eq_some.mp h
      exact ⟨s, stream, _, hs, .send hkey hstate, rfl⟩
  | call s c callStep =>
    right; right; right; left
    obtain ⟨stream, hs, h⟩ := Option.bind_eq_some_iff.mp h
    obtain ⟨state, hstate, rfl⟩ := onState_eq_some.mp h
    exact ⟨s, stream, _, hs, .call hstate, rfl⟩

theorem Inner.key {s : Nat} {stream stream' : CommandStream κ γ ρ}
    (h : r.Inner s stream event stream') : stream'.key = stream.key := by
  cases h <;> rfl

/-- A step inside a stream neither starts nor ends its reader task. -/
theorem Inner.reader {s : Nat} {stream stream' : CommandStream κ γ ρ}
    (h : r.Inner s stream event stream') :
    stream'.reader = stream.reader ∨ stream.reader = .reading ∧ stream'.reader = .ended := by
  cases h with
  | close hreader => exact .inr ⟨hreader, rfl⟩
  | recv | send | call => exact .inl rfl

theorem Inner.done_iff {s : Nat} {stream stream' : CommandStream κ γ ρ}
    (h : r.Inner s stream event stream') : stream'.reader = .done ↔ stream.reader = .done := by
  rcases h.reader with heq | ⟨h₁, h₂⟩
  · rw [heq]
  · rw [h₁, h₂]
    decide

theorem Inner.spawned_iff {s : Nat} {stream stream' : CommandStream κ γ ρ}
    (h : r.Inner s stream event stream') :
    stream'.reader = .spawned ↔ stream.reader = .spawned := by
  rcases h.reader with heq | ⟨h₁, h₂⟩
  · rw [heq]
  · rw [h₁, h₂]
    decide

/-! ## The registry entry of the newest stream -/

/-- While the reader task of the stream stored last under a key runs, the registry maps the
key to that stream's state. -/
def Registered (r : CommandRegistry κ γ ρ) : Prop :=
  ∀ key s stream, r.newest.lookup key = some s → r.streams.lookup s = some stream →
    stream.reader ≠ .done → r.cameraCommands.lookup key = some s

/-- The end of a stream never unregisters another stream. -/
def KeepsOthers (r : CommandRegistry κ γ ρ) (event : RegistryEvent κ γ ρ)
    (u : CommandRegistry κ γ ρ) : Prop :=
  ∀ s stream s', event = .cleanup s → r.streams.lookup s = some stream →
    r.cameraCommands.lookup stream.key = some s' → s' ≠ s →
    u.cameraCommands.lookup stream.key = some s'

/-- A stream is cleaned up only while it is the newest of its key, or after the newest. -/
def EndsInOrder (r : CommandRegistry κ γ ρ) (event : RegistryEvent κ γ ρ)
    (_ : CommandRegistry κ γ ρ) : Prop :=
  ∀ s stream s' stream', event = .cleanup s → r.streams.lookup s = some stream →
    r.newest.lookup stream.key = some s' → r.streams.lookup s' = some stream' →
    s' = s ∨ stream'.reader = .done

/-- What holds of every reachable registry: an entry is the newest stream of its key, with
its reader running, and the newest stream of a key was stored under that key. -/
structure EntriesNewest (r : CommandRegistry κ γ ρ) : Prop where
  entry : ∀ key s, r.cameraCommands.lookup key = some s → r.newest.lookup key = some s ∧
    ∃ stream, r.streams.lookup s = some stream ∧ stream.reader ≠ .done
  newest : ∀ key s, r.newest.lookup key = some s →
    ∃ stream, r.streams.lookup s = some stream ∧ stream.key = key ∧ stream.reader ≠ .spawned

theorem entriesNewest_new : (new : CommandRegistry κ γ ρ).EntriesNewest where
  entry _ _ h := absurd ((AList.lookup_empty _).symm.trans h) (by simp)
  newest _ _ h := absurd ((AList.lookup_empty _).symm.trans h) (by simp)

omit [DecidableEq κ] in
theorem lookup_setStream (r : CommandRegistry κ γ ρ) (s k : Nat) (stream : CommandStream κ γ ρ) :
    (r.setStream s stream).streams.lookup k =
      if k = s then some stream else r.streams.lookup k :=
  HashMap.lookup_insert_ite _ _ _ _

omit [DecidableEq κ] in
/-- Replacing one stream's record keeps an existential fact about streams that the new
record has when the old one had it. -/
theorem exists_setStream {P : CommandStream κ γ ρ → Prop} {s k : Nat}
    {stream stream' : CommandStream κ γ ρ} (hs : r.streams.lookup s = some stream)
    (hP : P stream → P stream') (h : ∃ str, r.streams.lookup k = some str ∧ P str) :
    ∃ str, (r.setStream s stream').streams.lookup k = some str ∧ P str := by
  obtain ⟨str, hk, hstr⟩ := h
  rw [lookup_setStream]
  by_cases hks : k = s
  · subst hks
    obtain rfl := Option.some.inj (hs.symm.trans hk)
    exact ⟨stream', if_pos rfl, hP hstr⟩
  · exact ⟨str, (if_neg hks).trans hk, hstr⟩

/-- A newly stored stream becomes the entry of its key and the newest one. -/
theorem entriesNewest_insertCommands (hinv : r.EntriesNewest) {s : Nat}
    {stream : CommandStream κ γ ρ} (hs : r.streams.lookup s = some stream) :
    (r.insertCommands s stream).EntriesNewest where
  entry k e hk := by
    replace hk : (r.cameraCommands.insert stream.key s).lookup k = some e := hk
    show (r.newest.insert stream.key s).lookup k = some e ∧ _
    rw [HashMap.lookup_insert_ite] at hk ⊢
    by_cases hkey : k = stream.key
    · rw [if_pos hkey] at hk ⊢
      obtain rfl := Option.some.inj hk
      exact ⟨rfl, _, AList.lookup_insert _, by simp⟩
    · rw [if_neg hkey] at hk ⊢
      exact ⟨(hinv.entry k e hk).1, exists_setStream (P := fun str => str.reader ≠ .done)
        hs (by simp) (hinv.entry k e hk).2⟩
  newest k e hk := by
    replace hk : (r.newest.insert stream.key s).lookup k = some e := hk
    rw [HashMap.lookup_insert_ite] at hk
    by_cases hkey : k = stream.key
    · rw [if_pos hkey] at hk
      obtain rfl := Option.some.inj hk
      exact ⟨_, AList.lookup_insert _, hkey.symm, by simp⟩
    · rw [if_neg hkey] at hk
      exact exists_setStream (P := fun str => str.key = k ∧ str.reader ≠ .spawned) hs
        (fun hP => ⟨hP.1, by simp⟩) (hinv.newest k e hk)

/-- A stream that is over takes away the entry of its key, whichever stream that is of. -/
theorem entriesNewest_removeCommands (hinv : r.EntriesNewest) {s : Nat}
    {stream : CommandStream κ γ ρ} (hs : r.streams.lookup s = some stream) :
    (r.removeCommands s stream).EntriesNewest where
  entry k e hk := by
    replace hk : (r.cameraCommands.erase stream.key).lookup k = some e := hk
    rw [HashMap.lookup_erase_ite] at hk
    split at hk
    · cases hk
    · next hkey =>
      obtain ⟨hnew, str, hstr, hrd⟩ := hinv.entry k e hk
      -- an entry left over is of another key, so it is not this stream
      have hes : e ≠ s := by
        rintro rfl
        obtain ⟨str', hstr', hkey', -⟩ := hinv.newest k e hnew
        obtain rfl := Option.some.inj (hs.symm.trans hstr')
        exact hkey hkey'.symm
      exact ⟨hnew, str, (lookup_setStream _ _ _ _).trans ((if_neg hes).trans hstr), hrd⟩
  newest k e hk :=
    exists_setStream (P := fun str => str.key = k ∧ str.reader ≠ .spawned) hs
      (fun hP => ⟨hP.1, by simp⟩) (hinv.newest k e hk)

theorem entriesNewest_step (hinv : r.EntriesNewest) (h : r.step event = some u) :
    u.EntriesNewest := by
  rcases step_cases h with ⟨s, key, -, hfree, rfl⟩ | ⟨s, stream, -, hs, -, rfl⟩ |
    ⟨s, stream, -, hs, -, rfl⟩ | ⟨s, stream, stream', hs, hinner, rfl⟩ | ⟨_, _, _, _, -, rfl⟩
  · -- a new stream is no key's entry yet
    have other : ∀ {P : CommandStream κ γ ρ → Prop} {k : Nat},
        (∃ str, r.streams.lookup k = some str ∧ P str) →
        ∃ str, (r.setStream s ⟨key, .spawned, .new⟩).streams.lookup k = some str ∧ P str := by
      rintro P k ⟨str, hk, hstr⟩
      have hks : k ≠ s := by
        rintro rfl
        rw [hfree] at hk
        cases hk
      exact ⟨str, (lookup_setStream _ _ _ _).trans ((if_neg hks).trans hk), hstr⟩
    exact ⟨fun k e hk => ⟨(hinv.entry k e hk).1, other (hinv.entry k e hk).2⟩,
      fun k e hk => other (hinv.newest k e hk)⟩
  · exact entriesNewest_insertCommands hinv hs
  · exact entriesNewest_removeCommands hinv hs
  · refine ⟨fun k e hk => ⟨(hinv.entry k e hk).1, ?_⟩, fun k e hk => ?_⟩
    · exact exists_setStream (P := fun str => str.reader ≠ .done) hs
        (fun hP hdone => hP (hinner.done_iff.mp hdone)) (hinv.entry k e hk).2
    · exact exists_setStream (P := fun str => str.key = k ∧ str.reader ≠ .spawned) hs
        (fun hP => ⟨hinner.key.trans hP.1, fun hsp => hP.2 (hinner.spawned_iff.mp hsp)⟩)
        (hinv.newest k e hk)
  · exact hinv

/-- A stream that is stored registers itself, and only replaces a stream of its own key. -/
theorem registered_insertCommands (hinv : r.EntriesNewest) (hreg : r.Registered) {s : Nat}
    {stream : CommandStream κ γ ρ} (hs : r.streams.lookup s = some stream)
    (hreader : stream.reader = .spawned) : (r.insertCommands s stream).Registered := by
  intro k e str hk he hrd
  replace hk : (r.newest.insert stream.key s).lookup k = some e := hk
  show (r.cameraCommands.insert stream.key s).lookup k = some e
  rw [HashMap.lookup_insert_ite] at hk ⊢
  by_cases hkey : k = stream.key
  · rwa [if_pos hkey] at hk ⊢
  · rw [if_neg hkey] at hk ⊢
    -- the newest stream of another key is not the one just stored
    have hes : e ≠ s := by
      intro hes
      obtain ⟨str', hstr', -, hsp⟩ := hinv.newest k e hk
      rw [hes] at hstr'
      obtain rfl := Option.some.inj (hs.symm.trans hstr')
      exact hsp hreader
    rw [insertCommands, lookup_setStream, if_neg hes] at he
    exact hreg k e str hk he hrd

/-- The end of a stream keeps the newest streams registered exactly when the newest of its key
is that stream, or over too. -/
theorem registered_removeCommands_iff (hreg : r.Registered) {s : Nat}
    {stream : CommandStream κ γ ρ} (hs : r.streams.lookup s = some stream) :
    (r.removeCommands s stream).Registered ↔
      EndsInOrder r (.cleanup s) (r.removeCommands s stream) := by
  constructor
  · rintro hu _ stream₀ s' stream' ⟨⟩ hs₀ hnew hs'
    obtain rfl := Option.some.inj (hs.symm.trans hs₀)
    -- a newer stream, still running, would have lost its entry
    by_contra hne
    obtain ⟨hne, hrd⟩ := not_or.mp hne
    have hs'' : (r.removeCommands s stream).streams.lookup s' = some stream' := by
      rw [removeCommands, lookup_setStream, if_neg hne]
      exact hs'
    have hentry : (r.cameraCommands.erase stream.key).lookup stream.key = some s' :=
      hu stream.key s' stream' hnew hs'' hrd
    rw [AList.lookup_erase] at hentry
    cases hentry
  · intro hends k e str hk he hrd
    rw [removeCommands, lookup_setStream] at he
    split at he
    · obtain rfl := Option.some.inj he
      exact absurd rfl hrd
    · next hes =>
      show (r.cameraCommands.erase stream.key).lookup k = some e
      have hkey : k ≠ stream.key := by
        rintro rfl
        rcases hends s stream e str rfl hs hk he with heq | hdone
        · exact hes heq
        · exact hrd hdone
      rw [AList.lookup_erase_ne hkey]
      exact hreg k e str hk he hrd

/-- One event keeps the newest streams registered exactly when it does not clean up a
stream under a running newer one. -/
theorem registered_step_iff (hinv : r.EntriesNewest) (hreg : r.Registered)
    (h : r.step event = some u) : u.Registered ↔ EndsInOrder r event u := by
  rcases step_cases h with ⟨s, key, rfl, hfree, rfl⟩ | ⟨s, stream, rfl, hs, hreader, rfl⟩ |
    ⟨s, stream, rfl, hs, -, rfl⟩ | ⟨s, stream, stream', hs, hinner, rfl⟩ |
    ⟨_, _, _, _, rfl, rfl⟩
  · refine iff_of_true (fun k e str hk he hrd => ?_) nofun
    rw [lookup_setStream] at he
    split at he
    · next hes =>
      -- the new stream is not stored under any key yet
      obtain ⟨str', hstr', -⟩ := hinv.newest k e hk
      rw [hes, hfree] at hstr'
      cases hstr'
    · exact hreg k e str hk he hrd
  · exact iff_of_true (registered_insertCommands hinv hreg hs hreader) nofun
  · exact registered_removeCommands_iff hreg hs
  · have hev : ∀ s', event ≠ .cleanup s' := by
      rintro s' rfl
      cases hinner
    refine iff_of_true (fun k e str hk he hrd => ?_) fun s' _ _ _ hc => absurd hc (hev s')
    rw [lookup_setStream] at he
    split at he
    · next hes =>
      obtain rfl := Option.some.inj he
      exact hreg k e stream hk (hes ▸ hs) fun hdone => hrd (hinner.done_iff.mpr hdone)
    · exact hreg k e str hk he hrd
  · exact iff_of_true hreg nofun

/-- **When the newest stream stays registered.** For any interleaving of the reader tasks
of any streams (and of calls and messages), the newest stream of every key is registered
while its reader runs, and no cleanup removes another stream's entry, exactly when no
stream is cleaned up while a newer one of its key still runs. -/
theorem registered_iff_endsInOrder (events : List (RegistryEvent κ γ ρ)) :
    (Machine.Always step Registered new events ∧ Machine.EachStep step KeepsOthers new events) ↔
      Machine.EachStep step EndsInOrder (new : CommandRegistry κ γ ρ) events := by
  have hiff : Machine.Always step Registered (new : CommandRegistry κ γ ρ) events ↔
      Machine.EachStep step EndsInOrder (new : CommandRegistry κ γ ρ) events := by
    refine Machine.always_iff_eachStep entriesNewest_new
      (fun _ _ _ hi h => entriesNewest_step hi h) ?_
      (fun _ _ _ hi hreg h => registered_step_iff hi hreg h)
    intro key s stream hnew
    exact absurd ((AList.lookup_empty _).symm.trans hnew) (by simp)
  have hinv : Machine.Always step EntriesNewest (new : CommandRegistry κ γ ρ) events :=
    Machine.always_of_step entriesNewest_new (fun _ _ _ hi h => entriesNewest_step hi h) events
  constructor
  · intro h
    exact hiff.mp h.1
  · intro hends
    refine ⟨hiff.mpr hends, hends.mono hinv ?_⟩
    intro r event u hi _ hend s stream s' hcleanup hs hentry hne
    obtain ⟨hnew, stream', hs', hrd⟩ := hi.entry stream.key s' hentry
    rcases hend s stream s' stream' hcleanup hs hnew hs' with heq | hdone
    · exact absurd heq hne
    · exact absurd hdone hrd

/-- A camera reconnects: its new stream is stored while the old one still runs, and the end
of the old stream removes the new one's entry. -/
theorem oldStream_unregistersNew :
    ¬ Machine.Always step Registered (new : CommandRegistry Nat Unit Unit)
      [.register 0 7, .insert 0, .register 1 7, .insert 1, .close 0, .cleanup 0] := by
  intro h
  have hfinal := h.final (t := ⟨∅, (∅ : HashMap Nat _).insert 1 ⟨7, .reading, .new⟩ |>.insert 0
    ⟨7, .done, .new⟩, (∅ : HashMap Nat Nat).insert 7 1⟩) rfl
  have hentry := hfinal 7 1 ⟨7, .reading, .new⟩ rfl rfl (by decide)
  revert hentry
  decide

/-! ## Who holds a stream's state -/

/-- The parties that can hold a clone of a stream's `Arc<CameraCommandState>`. -/
inductive Holder where
  | registry
  | reader
  | call (c : Nat)

/-- The registry holds the states of its entries, a reader task its own state until it is
over, and a call the state it cloned until it returns. -/
def Holds (r : CommandRegistry κ γ ρ) (s : Nat) : Holder → Prop
  | .registry => ∃ key, r.cameraCommands.lookup key = some s
  | .reader => ∃ stream, r.streams.lookup s = some stream ∧ stream.reader ≠ .done
  | .call c => ∃ stream call, r.streams.lookup s = some stream ∧
      stream.state.calls.lookup c = some call ∧ call.phase.done = false

/-- The oneshot sender of a call is in the pending map of a state that somebody holds. -/
def SenderHeld (r : CommandRegistry κ γ ρ) (s c : Nat) : Prop :=
  ∃ stream call, r.streams.lookup s = some stream ∧ stream.state.calls.lookup c = some call ∧
    stream.state.pending.lookup call.id = some c ∧ ∃ holder, r.Holds s holder

/-- The sender of a waiting call is held exactly while it is in the pending map: the call is
itself a holder of the state. -/
theorem senderHeld_iff {s c : Nat} {stream : CommandStream κ γ ρ} {call : Call γ ρ}
    (hs : r.streams.lookup s = some stream) (hcall : stream.state.calls.lookup c = some call)
    (hwait : call.phase = .waiting) :
    r.SenderHeld s c ↔ stream.state.pending.lookup call.id = some c := by
  constructor
  · rintro ⟨stream', call', hs', hcall', hpend, -⟩
    obtain rfl := Option.some.inj (hs.symm.trans hs')
    obtain rfl := Option.some.inj (hcall.symm.trans hcall')
    exact hpend
  · intro hpend
    have hlive : call.phase.done = false := by rw [hwait]; rfl
    exact ⟨stream, call, hs, hcall, hpend, .call c, stream, call, hs, hcall, hlive⟩

/-! ## Calls on a stream that has ended -/

/-- After the cleanup of a stream, a call that waits on it is resolved: its sender is no
longer held, and awaiting it gives its response, if one had come, and otherwise the
disconnect error. -/
def Released (r : CommandRegistry κ γ ρ) : Prop :=
  ∀ s stream, r.streams.lookup s = some stream → stream.reader = .done →
    ∀ c call, stream.state.calls.lookup c = some call → call.phase = .waiting →
      ¬ r.SenderHeld s c ∧ ∃ result, stream.state.resolution c call = some result ∧
        (call.received = none → result = .error disconnected)

/-- No call on a stream waits, its sender in the pending map, when the stream is cleaned
up, and none starts to wait so after that. -/
def NoneWaitingAtEnd (r : CommandRegistry κ γ ρ) (event : RegistryEvent κ γ ρ)
    (_ : CommandRegistry κ γ ρ) : Prop :=
  (∀ s stream, event = .cleanup s → r.streams.lookup s = some stream →
    stream.state.NoneWaiting) ∧
  ∀ s stream c call, event = .call s c .sendOk → r.streams.lookup s = some stream →
    stream.reader = .done → stream.state.calls.lookup c = some call →
    stream.state.pending.lookup call.id ≠ some c

/-- No call waits, its sender in the pending map, on a stream that was cleaned up. -/
def EndedNoneWaiting (r : CommandRegistry κ γ ρ) : Prop :=
  ∀ s stream, r.streams.lookup s = some stream → stream.reader = .done →
    stream.state.NoneWaiting

/-- `Released`, as a fact about the pending maps alone. -/
theorem released_iff : r.Released ↔ r.EndedNoneWaiting := by
  constructor
  · intro hrel s stream hs hdone c call hcall hwait hpend
    exact (hrel s stream hs hdone c call hcall hwait).1 ((senderHeld_iff hs hcall hwait).mpr hpend)
  · intro hnone s stream hs hdone c call hcall hwait
    have hout := hnone s stream hs hdone c call hcall hwait
    constructor
    · rwa [senderHeld_iff hs hcall hwait]
    · cases hrec : call.received with
      | some message =>
        refine ⟨.ok message.2, ?_, nofun⟩
        rw [CameraCommandState.resolution, hrec]
      | none =>
        refine ⟨.error disconnected, ?_, fun _ => rfl⟩
        rw [CameraCommandState.resolution, hrec]
        exact if_neg hout

/-- The states of all streams keep the channel's invariant. -/
def StatesInv (r : CommandRegistry κ γ ρ) : Prop :=
  ∀ s stream, r.streams.lookup s = some stream → stream.state.Inv

theorem statesInv_step (hinv : r.StatesInv) (h : r.step event = some u) : u.StatesInv := by
  have set : ∀ {s stream}, stream.state.Inv → (r.setStream s stream).StatesInv :=
    fun hstate => HashMap.forall_lookup_insert hstate fun k str _ => hinv k str
  rcases step_cases h with ⟨s, key, -, -, rfl⟩ | ⟨s, stream, -, hs, -, rfl⟩ |
    ⟨s, stream, -, hs, -, rfl⟩ | ⟨s, stream, stream', hs, hinner, rfl⟩ | ⟨_, _, _, _, -, rfl⟩
  · exact set CameraCommandState.inv_new
  · exact set (hinv s stream hs)
  · exact set (hinv s stream hs)
  · refine set ?_
    cases hinner with
    | close => exact hinv s stream hs
    | recv _ hstep => exact CameraCommandState.inv_step (hinv s stream hs) hstep
    | send _ hstep => exact CameraCommandState.inv_step (hinv s stream hs) hstep
    | call hstep => exact CameraCommandState.inv_step (hinv s stream hs) hstep
  · exact hinv

omit [DecidableEq κ] in
theorem endedNoneWaiting_setStream_iff (hnone : r.EndedNoneWaiting) {s : Nat}
    {stream : CommandStream κ γ ρ} :
    (r.setStream s stream).EndedNoneWaiting ↔
      (stream.reader = .done → stream.state.NoneWaiting) := by
  constructor
  · intro h
    exact h s stream (AList.lookup_insert _)
  · intro h
    exact HashMap.forall_lookup_insert h fun k str _ => hnone k str

omit [DecidableEq κ] in
/-- Only a cleanup and a successful send can leave a call waiting. -/
theorem noneWaitingAtEnd_of_other (hcleanup : ∀ s, event ≠ .cleanup s)
    (hsend : ∀ s c, event ≠ .call s c .sendOk) : NoneWaitingAtEnd r event u :=
  ⟨fun s _ hevent => absurd hevent (hcleanup s), fun s _ c _ hevent => absurd hevent (hsend s c)⟩

theorem endedNoneWaiting_step_iff (hinv : r.StatesInv) (hnone : r.EndedNoneWaiting)
    (h : r.step event = some u) : u.EndedNoneWaiting ↔ NoneWaitingAtEnd r event u := by
  rcases step_cases h with ⟨s, key, rfl, -, rfl⟩ | ⟨s, stream, rfl, hs, -, rfl⟩ |
    ⟨s, stream, rfl, hs, -, rfl⟩ | ⟨s, stream, stream', hs, hinner, rfl⟩ |
    ⟨_, _, _, _, rfl, rfl⟩
  · exact iff_of_true ((endedNoneWaiting_setStream_iff hnone).mpr nofun)
      (noneWaitingAtEnd_of_other nofun nofun)
  · exact iff_of_true ((endedNoneWaiting_setStream_iff hnone).mpr nofun)
      (noneWaitingAtEnd_of_other nofun nofun)
  · refine (endedNoneWaiting_setStream_iff hnone).trans ⟨fun hend => ⟨?_, ?_⟩, fun hend _ => ?_⟩
    · rintro _ stream' ⟨⟩ hs'
      obtain rfl := Option.some.inj (hs.symm.trans hs')
      exact hend rfl
    · intro s' _ c _ hevent
      cases hevent
    · exact hend.1 s stream rfl hs
  · rw [endedNoneWaiting_setStream_iff hnone]
    cases hinner with
    | close => exact iff_of_true nofun (noneWaitingAtEnd_of_other nofun nofun)
    | recv hreader =>
      refine iff_of_true (fun hdone => ?_) (noneWaitingAtEnd_of_other nofun nofun)
      -- a stream that is over receives nothing
      rw [show stream.reader = .done from hdone] at hreader
      cases hreader
    | send _ hstep =>
      refine iff_of_true (fun hdone => ?_) (noneWaitingAtEnd_of_other nofun nofun)
      exact CameraCommandState.noneWaiting_clone (hnone s stream hs hdone) hstep
    | @call c callStep state hstep =>
      obtain ⟨call, hcall, hstep⟩ := Option.bind_eq_some_iff.mp hstep
      constructor
      · intro hend
        refine ⟨fun _ _ hevent => ?_, ?_⟩
        · cases hevent
        · rintro _ stream' _ call' ⟨⟩ hs' hdone hcall'
          obtain rfl := Option.some.inj (hs.symm.trans hs')
          obtain rfl := Option.some.inj (hcall.symm.trans hcall')
          exact (CameraCommandState.noneWaiting_callStep_iff (hinv s stream hs)
            (hnone s stream hs hdone) hcall hstep).mp (hend hdone) rfl
      · intro hend hdone
        refine (CameraCommandState.noneWaiting_callStep_iff (hinv s stream hs)
          (hnone s stream hs hdone) hcall hstep).mpr fun hsend => ?_
        exact hend.2 s stream c call (hsend ▸ rfl) hs hdone hcall
  · exact iff_of_true hnone (noneWaitingAtEnd_of_other nofun nofun)

/-- **When a disconnect releases the pending calls.** For any interleaving of calls,
responses, timeouts and stream ends, after the cleanup of a stream every call that waits on
it is resolved, exactly when no call waits with its sender pending at a cleanup and no send
on a cleaned-up stream succeeds with its sender pending: nothing at the end of a stream
touches the pending map. -/
theorem released_iff_noneWaiting (events : List (RegistryEvent κ γ ρ)) :
    Machine.Always step Released (new : CommandRegistry κ γ ρ) events ↔
      Machine.EachStep step NoneWaitingAtEnd new events := by
  have hiff : Machine.Always step EndedNoneWaiting (new : CommandRegistry κ γ ρ) events ↔
      Machine.EachStep step NoneWaitingAtEnd new events := by
    have hnew : ∀ {P : Nat → CommandStream κ γ ρ → Prop} s stream,
        (new : CommandRegistry κ γ ρ).streams.lookup s = some stream → P s stream :=
      fun _ _ h => absurd ((AList.lookup_empty _).symm.trans h) (by simp)
    exact Machine.always_iff_eachStep (J := StatesInv) hnew
      (fun _ _ _ hi h => statesInv_step hi h) hnew
      (fun _ _ _ hi hnone h => endedNoneWaiting_step_iff hi hnone h)
  rw [← hiff]
  exact ⟨fun h => h.mono fun _ hr => released_iff.mp hr,
    fun h => h.mono fun _ hr => released_iff.mpr hr⟩

/-- The stream of camera 7 after one command was sent on it and the stream has ended and
been cleaned up, the command unanswered. -/
def endedStream : CommandStream Nat Unit Unit :=
  ⟨7, .done, (∅ : HashMap UInt32 Nat).insert 1 5, 2, (∅ : HashMap Nat _).insert 5
    { command := (), timeout := "30s", phase := .waiting, id := 1, sent := some ⟨1, ()⟩ }, 1, []⟩

/-- The call on `endedStream` still waits: its sender is held in the map of the state that
the call itself holds. -/
theorem endedStream_keepsSender :
    ¬ Machine.Always step Released (new : CommandRegistry Nat Unit Unit)
      [.register 0 7, .insert 0, .send 5 7 () "30s", .call 0 5 .fetchId,
        .call 0 5 .insertPending, .call 0 5 .sendOk, .close 0, .cleanup 0] := by
  intro h
  have hfinal := h.final (t := ⟨∅, (∅ : HashMap Nat _).insert 0 endedStream,
    (∅ : HashMap Nat Nat).insert 7 0⟩) rfl
  exact released_iff.mp hfinal 0 endedStream rfl rfl 5 _ rfl rfl rfl

end CommandRegistry

end Kodama
