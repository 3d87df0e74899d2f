import Kodama.Server.Peers

/-!
# Connection handlers of a peer (server/router.rs)

Every connection of a peer is served by a handler of its own, which registers the peer when
it starts and unregisters it, with the generation it got, when it ends. `registerPeer` is two
atomic steps: the generation is drawn before the lock on the map is taken. Here the handlers
of all peers take these steps in any order.

- `newestRegistered_iff_storedIsNewest`: the peer of a running handler with the highest
  generation inserted is in the map, along the whole run, exactly when every handler that
  finds its own generation in the map on unregistering leaves no such handler behind.
- `newestRegistered_of_insertsInOrder`: that is so when the handlers of a peer insert in the
  order in which they drew their generations.
- `lateInsert_unregistersNewest`: a handler that inserts after a newer one takes the peer
  out of the map while the newer one runs.
-/

namespace Kodama

open Lib

variable {κ : Type} [DecidableEq κ]

/-- How far a connection handler has come. -/
inductive HandlerPhase where
  /-- The generation is drawn, the map not yet locked. -/
  | drawn
  | registered
  | unregistered
deriving DecidableEq

structure PeerHandler (κ : Type) where
  key : κ
  role : PeerRole
  generation : UInt64
  phase : HandlerPhase
deriving DecidableEq

/-- The registry and all connection handlers, by number. -/
structure PeerHandlers (κ : Type) where
  registry : Peers κ
  handlers : HashMap Nat (PeerHandler κ)

namespace PeerHandlers

/-- A new router. -/
def new : PeerHandlers κ := ⟨.new, ∅⟩

/-- The atomic steps of the handlers. -/
inductive Event (κ : Type) where
  /-- A handler starts: `connection_generation.fetch_add(1)`. -/
  | connect (h : Nat) (key : κ) (role : PeerRole)
  /-- The locked section of `register_peer`. -/
  | insert (h : Nat) (now : Nat)
  /-- `unregister_peer`. -/
  | unregister (h : Nat)

def step (s : PeerHandlers κ) : Event κ → Option (PeerHandlers κ)
  | .connect h key role =>
    match s.handlers.lookup h with
    | some _ => none
    | none =>
      let (gen, registry) := s.registry.nextGeneration
      some ⟨registry, s.handlers.insert h ⟨key, role, gen, .drawn⟩⟩
  | .insert h now =>
    match s.handlers.lookup h with
    | some handler =>
      if handler.phase = .drawn then
        some ⟨s.registry.insertPeer handler.key handler.role handler.generation now,
          s.handlers.insert h { handler with phase := .registered }⟩
      else none
    | none => none
  | .unregister h =>
    match s.handlers.lookup h with
    | some handler =>
      if handler.phase = .registered then
        some ⟨s.registry.unregisterPeer handler.key handler.generation,
          s.handlers.insert h { handler with phase := .unregistered }⟩
      else none
    | none => none

variable {s s' : PeerHandlers κ} {h : Nat} {handler : PeerHandler κ}

/-- Some handler of the same peer has inserted a higher generation. -/
def Outranked (s : PeerHandlers κ) (handler : PeerHandler κ) : Prop :=
  ∃ h' handler', s.handlers.lookup h' = some handler' ∧ handler'.key = handler.key ∧
    handler'.phase ≠ .drawn ∧ handler.generation < handler'.generation

/-- The peer of a running handler with the highest generation inserted is in the map. -/
def NewestRegistered (s : PeerHandlers κ) : Prop :=
  ∀ h handler, s.handlers.lookup h = some handler → handler.phase = .registered →
    ¬ s.Outranked handler → (s.registry.peers.lookup handler.key).isSome

/-- A handler that finds its own generation in the map when it unregisters leaves, of the
handlers of its peer, only outranked ones running. -/
def StoredIsNewest (s : PeerHandlers κ) (event : Event κ) (_ : PeerHandlers κ) : Prop :=
  ∀ h handler info, event = .unregister h → s.handlers.lookup h = some handler →
    s.registry.peers.lookup handler.key = some info → info.generation = handler.generation →
    ∀ h' handler', h' ≠ h → s.handlers.lookup h' = some handler' →
      handler'.key = handler.key → handler'.phase = .registered → s.Outranked handler'

/-- A handler inserts a generation above those inserted before for its peer. -/
def InsertsInOrder (s : PeerHandlers κ) (event : Event κ) (_ : PeerHandlers κ) : Prop :=
  ∀ h now handler, event = .insert h now → s.handlers.lookup h = some handler →
    ∀ h' handler', s.handlers.lookup h' = some handler' → handler'.key = handler.key →
      handler'.phase ≠ .drawn → handler'.generation < handler.generation

/-! ## What a step does -/

/-- The three steps, with what they find. -/
theorem step_cases {event : Event κ} (hstep : s.step event = some s') :
    (∃ h key role, event = .connect h key role ∧ s.handlers.lookup h = none ∧
      s' = ⟨s.registry.nextGeneration.2,
        s.handlers.insert h ⟨key, role, s.registry.nextGeneration.1, .drawn⟩⟩) ∨
    (∃ h now handler, event = .insert h now ∧ s.handlers.lookup h = some handler ∧
      handler.phase = .drawn ∧
      s' = ⟨s.registry.insertPeer handler.key handler.role handler.generation now,
        s.handlers.insert h { handler with phase := .registered }⟩) ∨
    (∃ h handler, event = .unregister h ∧ s.handlers.lookup h = some handler ∧
      handler.phase = .registered ∧
      s' = ⟨s.registry.unregisterPeer handler.key handler.generation,
        s.handlers.insert h { handler with phase := .unregistered }⟩) := by
  cases event with
  | connect h key role =>
    simp only [step] at hstep
    split at hstep
    · cases hstep
    · next hlook => exact .inl ⟨h, key, role, rfl, hlook, (Option.some.inj hstep).symm⟩
  | insert h now =>
    simp only [step] at hstep
    split at hstep
    · next handler hlook =>
      split at hstep
      · next hphase =>
        exact .inr (.inl ⟨h, now, handler, rfl, hlook, hphase, (Option.some.inj hstep).symm⟩)
      · cases hstep
    · cases hstep
  | unregister h =>
    simp only [step] at hstep
    split at hstep
    · next handler hlook =>
      split at hstep
      · next hphase =>
        exact .inr (.inr ⟨h, handler, rfl, hlook, hphase, (Option.some.inj hstep).symm⟩)
      · cases hstep
    · cases hstep

theorem lookup_insertPeer (r : Peers κ) (key k : κ) (role : PeerRole) (gen : UInt64)
    (now : Nat) : (r.insertPeer key role gen now).peers.lookup k =
      if k = key then some ⟨role, gen, now⟩ else r.peers.lookup k := by
  rw [Peers.insertPeer]
  split
  · rw [Peers.modifyConnected_peers]
    exact HashMap.lookup_insert_ite _ _ _ _
  · exact HashMap.lookup_insert_ite _ _ _ _

/-- Unregistering with the stored generation removes the key. -/
theorem lookup_unregisterPeer {r : Peers κ} {key : κ} {info : PeerInfo}
    (hlook : r.peers.lookup key = some info) (k : κ) :
    (r.unregisterPeer key info.generation).peers.lookup k =
      if k = key then none else r.peers.lookup k := by
  rw [Peers.unregisterPeer, hlook]
  simp only [if_true, Peers.modifyConnected_peers]
  exact HashMap.lookup_erase_ite _ _ _

/-- Unregistering with another generation does nothing. -/
theorem unregisterPeer_stale {r : Peers κ} {key : κ} {generation : UInt64}
    (h : ∀ info, r.peers.lookup key = some info → info.generation ≠ generation) :
    r.unregisterPeer key generation = r := by
  rw [Peers.unregisterPeer]
  split
  · next info hlook => rw [if_neg (h info hlook)]
  · rfl

omit [DecidableEq κ] in
/-- A handler that moves on keeps its key and generation, so it outranks those it outranked
before; and only an insertion lets it outrank more. -/
theorem outranked_update {s' : PeerHandlers κ} {phase : HandlerPhase}
    (hlook : s.handlers.lookup h = some handler) (hphase : handler.phase ≠ .drawn)
    (hnew : phase ≠ .drawn) (hs' : s'.handlers = s.handlers.insert h { handler with phase })
    (other : PeerHandler κ) : s'.Outranked other ↔ s.Outranked other := by
  constructor
  · rintro ⟨k, handler', hk, hkey, hdrawn, hlt⟩
    rw [hs'] at hk
    rcases HashMap.lookup_insert_eq_some.mp hk with ⟨-, rfl⟩ | ⟨-, hk⟩
    · exact ⟨h, handler, hlook, hkey, hphase, hlt⟩
    · exact ⟨k, handler', hk, hkey, hdrawn, hlt⟩
  · rintro ⟨k, handler', hk, hkey, hdrawn, hlt⟩
    by_cases hkh : k = h
    · subst hkh
      obtain rfl := Option.some.inj (hk.symm.trans hlook)
      exact ⟨k, { handler' with phase }, by rw [hs', AList.lookup_insert], hkey, hnew, hlt⟩
    · exact ⟨k, handler', by rw [hs', AList.lookup_insert_ne hkh]; exact hk, hkey, hdrawn, hlt⟩

omit [DecidableEq κ] in
/-- Outranked handlers stay outranked. -/
theorem Outranked.mono {other : PeerHandler κ} (ho : s.Outranked other)
    (hkeep : ∀ k handler, s.handlers.lookup k = some handler → handler.phase ≠ .drawn →
      s'.handlers.lookup k = some handler) : s'.Outranked other := by
  obtain ⟨k, handler', hk, hkey, hdrawn, hlt⟩ := ho
  exact ⟨k, handler', hkeep k handler' hk hdrawn, hkey, hdrawn, hlt⟩

/-- Drawing a generation touches neither the map nor the handlers that have inserted. -/
theorem newestRegistered_connect (hnewest : s.NewestRegistered) (hfree : s.handlers.lookup h = none)
    {registry : Peers κ} (hpeers : registry.peers = s.registry.peers) {key : κ} {role : PeerRole}
    {generation : UInt64} :
    NewestRegistered ⟨registry, s.handlers.insert h ⟨key, role, generation, .drawn⟩⟩ := by
  intro k other hk hreg hout
  rcases HashMap.lookup_insert_eq_some.mp hk with ⟨-, rfl⟩ | ⟨-, hk⟩
  · cases hreg
  · rw [show registry.peers = s.registry.peers from hpeers]
    refine hnewest k other hk hreg fun ho => hout (ho.mono fun k' handler hk' _ => ?_)
    refine HashMap.lookup_insert_eq_some.mpr (.inr ⟨?_, hk'⟩)
    rintro rfl
    cases hfree.symm.trans hk'

/-- Inserting puts the handler's own peer into the map. -/
theorem newestRegistered_insert (hnewest : s.NewestRegistered)
    (hlook : s.handlers.lookup h = some handler) (hphase : handler.phase = .drawn) {now : Nat} :
    NewestRegistered ⟨s.registry.insertPeer handler.key handler.role handler.generation now,
      s.handlers.insert h { handler with phase := .registered }⟩ := by
  intro k other hk hreg hout
  show ((s.registry.insertPeer _ _ _ _).peers.lookup other.key).isSome
  rw [lookup_insertPeer]
  split
  · rfl
  · next hother =>
    rcases HashMap.lookup_insert_eq_some.mp hk with ⟨-, rfl⟩ | ⟨-, hk⟩
    · exact absurd rfl hother
    · refine hnewest k other hk hreg fun ho => hout (ho.mono fun k' handler' hk' hdrawn => ?_)
      refine HashMap.lookup_insert_eq_some.mpr (.inr ⟨?_, hk'⟩)
      rintro rfl
      obtain rfl := Option.some.inj (hk'.symm.trans hlook)
      exact hdrawn hphase

/-- Unregistering keeps the newest handlers registered exactly when, if it removes the
handler's own entry, it leaves only outranked handlers of the peer. -/
theorem newestRegistered_unregister_iff (hnewest : s.NewestRegistered)
    (hlook : s.handlers.lookup h = some handler) (hphase : handler.phase = .registered)
    (hs' : s' = ⟨s.registry.unregisterPeer handler.key handler.generation,
      s.handlers.insert h { handler with phase := .unregistered }⟩) :
    s'.NewestRegistered ↔ s.StoredIsNewest (.unregister h) s' := by
  have hhandlers : s'.handlers = s.handlers.insert h { handler with phase := .unregistered } := by
    rw [hs']
  have hout : ∀ other, s'.Outranked other ↔ s.Outranked other :=
    outranked_update hlook (by rw [hphase]; nofun) (by nofun) hhandlers
  have hrunning : ∀ k other, other.phase = .registered →
      (s'.handlers.lookup k = some other ↔ k ≠ h ∧ s.handlers.lookup k = some other) := by
    intro k other hreg
    rw [hhandlers]
    refine HashMap.lookup_insert_eq_some.trans ⟨?_, .inr⟩
    rintro (⟨-, rfl⟩ | hk)
    · cases hreg
    · exact hk
  by_cases hstored : ∃ info, s.registry.peers.lookup handler.key = some info ∧
      info.generation = handler.generation
  · obtain ⟨info, hinfo, hgen⟩ := hstored
    have hpeers : ∀ k, s'.registry.peers.lookup k =
        if k = handler.key then none else s.registry.peers.lookup k := by
      intro k
      rw [hs', ← hgen]
      exact lookup_unregisterPeer hinfo k
    constructor
    · rintro hu _ handler₁ info₁ ⟨⟩ hlook₁ - - k other hne hk hkey hreg
      obtain rfl := Option.some.inj (hlook₁.symm.trans hlook)
      by_contra hbest
      have hpresent := hu k other ((hrunning k other hreg).mpr ⟨hne, hk⟩) hreg
        (mt (hout other).mp hbest)
      rw [hpeers, if_pos hkey] at hpresent
      cases hpresent
    · intro hleft k other hk hreg hbest
      obtain ⟨hne, hk⟩ := (hrunning k other hreg).mp hk
      rw [hout] at hbest
      rw [hpeers]
      split
      · next hkey =>
        exact absurd (hleft h handler info rfl hlook hinfo hgen k other hne hk hkey hreg) hbest
      · exact hnewest k other hk hreg hbest
  · -- the entry, if any, is another handler's and stays
    have hstale : s'.registry = s.registry := by
      rw [hs']
      exact unregisterPeer_stale fun info hinfo hgen => hstored ⟨info, hinfo, hgen⟩
    refine iff_of_true (fun k other hk hreg hbest => ?_) ?_
    · rw [hstale]
      exact hnewest k other ((hrunning k other hreg).mp hk).2 hreg (mt (hout other).mpr hbest)
    · rintro _ handler₁ info ⟨⟩ hlook₁ hinfo hgen
      obtain rfl := Option.some.inj (hlook₁.symm.trans hlook)
      exact absurd ⟨info, hinfo, hgen⟩ hstored

/-- One step keeps the newest handlers registered exactly when it leaves, if it removes its
own entry, only outranked handlers of its peer. -/
theorem newestRegistered_step_iff {event : Event κ} (hnewest : s.NewestRegistered)
    (hstep : s.step event = some s') : s'.NewestRegistered ↔ s.StoredIsNewest event s' := by
  rcases step_cases hstep with ⟨h, key, role, rfl, hfree, rfl⟩ | ⟨h, now, handler, rfl, hlook,
    hphase, rfl⟩ | ⟨h, handler, rfl, hlook, hphase, hs'⟩
  · refine iff_of_true (newestRegistered_connect hnewest hfree rfl) fun _ _ _ hevent => ?_
    cases hevent
  · refine iff_of_true (newestRegistered_insert hnewest hlook hphase) fun _ _ _ hevent => ?_
    cases hevent
  · exact newestRegistered_unregister_iff hnewest hlook hphase hs'

/-! ## Whole runs -/

theorem newestRegistered_new : (new : PeerHandlers κ).NewestRegistered :=
  fun _ _ h => absurd ((AList.lookup_empty _).symm.trans h) (by simp)

/-- **When the newest connection stays registered.** Along any run of any number of
handlers, the peer of a running handler with the highest generation inserted is always in
the map, exactly when each handler that finds its own generation there on unregistering
leaves only outranked handlers of its peer running. -/
theorem newestRegistered_iff_storedIsNewest (events : List (Event κ)) :
    Machine.Always step NewestRegistered (new : PeerHandlers κ) events ↔
      Machine.EachStep step StoredIsNewest (new : PeerHandlers κ) events :=
  Machine.always_iff_eachStep (J := fun _ => True) trivial (fun _ _ _ _ _ => trivial)
    newestRegistered_new (fun _ _ _ _ h hstep => newestRegistered_step_iff h hstep)

/-- The map holds the highest generation inserted for each of its keys, and the handlers of
a peer that have inserted have different generations. -/
structure Ordered (s : PeerHandlers κ) : Prop where
  stored : ∀ key info, s.registry.peers.lookup key = some info → ∀ h handler,
    s.handlers.lookup h = some handler → handler.key = key → handler.phase ≠ .drawn →
    handler.generation ≤ info.generation
  distinct : ∀ h h' handler handler', s.handlers.lookup h = some handler →
    s.handlers.lookup h' = some handler' → handler.key = handler'.key →
    handler.phase ≠ .drawn → handler'.phase ≠ .drawn →
    handler.generation = handler'.generation → h = h'

/-- A handler that had inserted before and only changes its phase. -/
theorem Ordered.update (ho : Ordered s) {phase : HandlerPhase} {registry : Peers κ}
    (hlook : s.handlers.lookup h = some handler) (hphase : handler.phase ≠ .drawn)
    (hpeers : ∀ key info, registry.peers.lookup key = some info →
      s.registry.peers.lookup key = some info) :
    Ordered ⟨registry, s.handlers.insert h { handler with phase }⟩ := by
  have hback : ∀ k other, (s.handlers.insert h { handler with phase }).lookup k = some other →
      other.phase ≠ .drawn → ∃ before, s.handlers.lookup k = some before ∧
        before.key = other.key ∧ before.generation = other.generation ∧ before.phase ≠ .drawn := by
    intro k other hk hdrawn
    rcases HashMap.lookup_insert_eq_some.mp hk with ⟨rfl, rfl⟩ | ⟨-, hk⟩
    · exact ⟨handler, hlook, rfl, rfl, hphase⟩
    · exact ⟨other, hk, rfl, rfl, hdrawn⟩
  constructor
  · intro key info hinfo k other hk hkey hdrawn
    obtain ⟨before, hb, hbkey, hbgen, hbdrawn⟩ := hback k other hk hdrawn
    rw [← hbgen]
    exact ho.stored key info (hpeers key info hinfo) k before hb (hbkey.trans hkey) hbdrawn
  · intro k k' other other' hk hk' hkey hdrawn hdrawn' hgen
    obtain ⟨before, hb, hbkey, hbgen, hbdrawn⟩ := hback k other hk hdrawn
    obtain ⟨before', hb', hbkey', hbgen', hbdrawn'⟩ := hback k' other' hk' hdrawn'
    exact ho.distinct k k' before before' hb hb' (by rw [hbkey, hbkey', hkey]) hbdrawn hbdrawn'
      (by rw [hbgen, hbgen', hgen])

theorem ordered_step {event : Event κ} (ho : Ordered s) (horder : s.InsertsInOrder event s')
    (hstep : s.step event = some s') : Ordered s' := by
  rcases step_cases hstep with ⟨h, key, role, rfl, -, rfl⟩ | ⟨h, now, handler, rfl, hlook,
    hphase, rfl⟩ | ⟨h, handler, rfl, hlook, hphase, rfl⟩
  · have hold : ∀ k (other : PeerHandler κ),
        (s.handlers.insert h ⟨key, role, s.registry.nextGeneration.1, .drawn⟩).lookup k =
          some other → other.phase ≠ .drawn → s.handlers.lookup k = some other := by
      intro k other hk hdrawn
      rcases HashMap.lookup_insert_eq_some.mp hk with ⟨-, rfl⟩ | ⟨-, hk⟩
      · exact absurd rfl hdrawn
      · exact hk
    exact ⟨fun key info hinfo k other hk hkey hd =>
        ho.stored key info hinfo k other (hold k other hk hd) hkey hd,
      fun k k' other other' hk hk' hkey hd hd' =>
        ho.distinct k k' other other' (hold k other hk hd) (hold k' other' hk' hd') hkey hd hd'⟩
  · -- the new generation is above all others of its peer
    have hless := horder h now handler rfl hlook
    constructor
    · intro key info hinfo k other hk hkey hdrawn
      replace hinfo : (s.registry.insertPeer _ _ _ _).peers.lookup key = some info := hinfo
      rw [lookup_insertPeer] at hinfo
      rcases HashMap.lookup_insert_eq_some.mp hk with ⟨-, rfl⟩ | ⟨-, hk⟩
      · rw [if_pos hkey.symm] at hinfo
        obtain rfl := Option.some.inj hinfo
        exact UInt64.le_refl _
      · split at hinfo
        · next heq =>
          obtain rfl := Option.some.inj hinfo
          exact UInt64.le_of_lt (hless k other hk (hkey.trans heq) hdrawn)
        · exact ho.stored key info hinfo k other hk hkey hdrawn
    · intro k k' other other' hk hk' hkey hdrawn hdrawn' hgen
      rcases HashMap.lookup_insert_eq_some.mp hk with ⟨hkh, hnew⟩ | ⟨-, hold⟩ <;>
        rcases HashMap.lookup_insert_eq_some.mp hk' with ⟨hkh', hnew'⟩ | ⟨-, hold'⟩
      · rw [hkh, hkh']
      · subst hnew
        exact absurd hgen.symm (UInt64.ne_of_lt (hless k' other' hold' hkey.symm hdrawn'))
      · subst hnew'
        exact absurd hgen (UInt64.ne_of_lt (hless k other hold hkey hdrawn))
      · exact ho.distinct k k' other other' hold hold' hkey hdrawn hdrawn' hgen
  · refine ho.update hlook (by rw [hphase]; nofun) fun key info hinfo => ?_
    by_cases hstored : ∃ info, s.registry.peers.lookup handler.key = some info ∧
        info.generation = handler.generation
    · obtain ⟨info', hinfo', hgen⟩ := hstored
      rw [← hgen, lookup_unregisterPeer hinfo'] at hinfo
      split at hinfo
      · cases hinfo
      · exact hinfo
    · rwa [unregisterPeer_stale fun info hinfo hgen => hstored ⟨info, hinfo, hgen⟩] at hinfo

/-- If the handlers of a peer insert in the order of their generations, the newest
connection stays registered. -/
theorem newestRegistered_of_insertsInOrder {events : List (Event κ)}
    (h : Machine.EachStep step InsertsInOrder (new : PeerHandlers κ) events) :
    Machine.Always step NewestRegistered (new : PeerHandlers κ) events := by
  have hordered : Machine.Always step Ordered (new : PeerHandlers κ) events := by
    refine Machine.always_of_eachStep ⟨?_, ?_⟩ (fun _ _ _ ho hi hs => ordered_step ho hi hs) h
    · exact fun _ _ hinfo => absurd ((AList.lookup_empty _).symm.trans hinfo) (by simp)
    · exact fun _ _ _ _ hk => absurd ((AList.lookup_empty _).symm.trans hk) (by simp)
  have hleft : Machine.EachStep step StoredIsNewest (new : PeerHandlers κ) events := by
    refine Machine.eachStep_of_always hordered fun s event s' ho hstep => ?_
    rintro h handler info rfl hlook hinfo hgen h' other hne hk hkey hreg
    -- only a registered handler unregisters
    have hphase : handler.phase ≠ .drawn := by
      rcases step_cases hstep with ⟨_, _, _, hev, -⟩ | ⟨_, _, _, hev, -⟩ | ⟨_, _, hev, hl, hp, -⟩
      · cases hev
      · cases hev
      · cases hev
        obtain rfl := Option.some.inj (hl.symm.trans hlook)
        rw [hp]
        nofun
    have hother : other.phase ≠ .drawn := by
      rw [hreg]
      nofun
    -- its generation is the one stored, which no other inserted one reaches
    refine ⟨h, handler, hlook, hkey.symm, hphase, ?_⟩
    have hle := ho.stored _ info hinfo h' other hk hkey hother
    refine UInt64.lt_of_le_of_ne (hgen ▸ hle) fun heq => ?_
    exact hne (ho.distinct h' h other handler hk hlook hkey hother hphase heq)
  exact Machine.always_of_eachStep newestRegistered_new
    (fun _ _ _ hn hg hs => (newestRegistered_step_iff hn hs).mpr hg) hleft

/-- The handler of an older connection inserts after that of a newer one, and its end takes
the peer out of the map. -/
def lateInsert : List (Event Nat) :=
  [.connect 0 7 .camera, .connect 1 7 .camera, .insert 1 0, .insert 0 1, .unregister 0]

theorem lateInsert_unregistersNewest : ¬ ∀ (κ : Type) [DecidableEq κ] (events : List (Event κ)),
    Machine.Always step NewestRegistered (new : PeerHandlers κ) events := by
  intro h
  have hrun : (Machine.run step (new : PeerHandlers Nat) lateInsert).map
      (fun s => (s.registry.peers.lookup 7, s.handlers.lookup 1,
        s.handlers.entries.all fun e => e.2.generation ≤ 1)) =
      some (none, some ⟨7, .camera, 1, .registered⟩, true) := by decide
  obtain ⟨s, hs, hobserved⟩ := Option.map_eq_some_iff.mp hrun
  obtain ⟨hpeer, hobserved⟩ := Prod.mk.inj hobserved
  obtain ⟨hhandler, hnewest⟩ := Prod.mk.inj hobserved
  have hregistered := (h Nat lateInsert).final hs 1 _ hhandler rfl ?_
  · rw [hpeer] at hregistered
    cases hregistered
  · -- no generation is higher than that of the second connection
    rintro ⟨h', handler', hlook, -, -, hlt⟩
    have hle := List.all_eq_true.mp hnewest ⟨h', handler'⟩ (HashMap.mem_entries_iff.mpr hlook)
    exact UInt64.lt_irrefl _ (UInt64.lt_of_lt_of_le hlt (of_decide_eq_true hle))

end PeerHandlers

end Kodama
