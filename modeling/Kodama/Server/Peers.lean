import Kodama.Lib.Machine
import Kodama.Lib.HashMap
import Mathlib.Algebra.Group.Nat.Defs

/-!
# Peer registration (server/router.rs, `register_peer` / `unregister_peer`)

The router keeps a map of connected peers and two atomic counters beside it. A
registration draws a fresh generation and replaces whatever the key held; the counter of
its role is incremented only when the key was new. An unregistration with the stored
generation removes the entry and decrements the counter of the *stored* role. When a key
registers again under the other role, the counter of the role it leaves is not
decremented and that of the role it takes is not incremented.

- `countersAgree_iff_rolesKept`: along any sequence of calls, the counters equal the
  numbers of entries after every call (and no decrement starts from zero) exactly when no
  registration changes the role of a connected key.

Counters and generations are machine words and wrap as the atomics do. Keys and instants
are parameters.
-/

namespace Kodama

open Lib

variable {κ : Type} [DecidableEq κ]

/-- Role of a connected peer. -/
inductive PeerRole where
  | camera
  | client
deriving DecidableEq

/-- Info about a connected peer, including a generation counter for race-condition
protection. -/
structure PeerInfo where
  role : PeerRole
  generation : UInt64
  connectedAt : Nat
deriving DecidableEq

/-- The part of `RouterInner` the registration calls use. -/
structure Peers (κ : Type) where
  peers : HashMap κ PeerInfo
  camerasConnected : UInt64
  clientsConnected : UInt64
  connectionGeneration : UInt64

namespace Peers

/-- `Router::new`: nobody is connected. -/
def new : Peers κ := ⟨∅, 0, 0, 0⟩

/-- The counter of a role. -/
def connected (r : Peers κ) : PeerRole → UInt64
  | .camera => r.camerasConnected
  | .client => r.clientsConnected

/-- Apply an atomic read-modify-write to the counter of a role. -/
def modifyConnected (r : Peers κ) (f : UInt64 → UInt64) : PeerRole → Peers κ
  | .camera => { r with camerasConnected := f r.camerasConnected }
  | .client => { r with clientsConnected := f r.clientsConnected }

/-- `connection_generation.fetch_add(1)`. -/
def nextGeneration (r : Peers κ) : UInt64 × Peers κ :=
  (r.connectionGeneration, { r with connectionGeneration := r.connectionGeneration + 1 })

/-- The locked section of `register_peer`: insert, and count a key that was new. -/
def insertPeer (r : Peers κ) (key : κ) (role : PeerRole) (gen : UInt64) (now : Nat) : Peers κ :=
  let old := r.peers.lookup key
  let r := { r with peers := r.peers.insert key ⟨role, gen, now⟩ }
  if old.isNone then r.modifyConnected (· + 1) role else r

/-- Register a peer with a specific role; returns the generation that must be passed to
`unregisterPeer`. -/
def registerPeer (r : Peers κ) (key : κ) (role : PeerRole) (now : Nat) : UInt64 × Peers κ :=
  let (gen, r) := r.nextGeneration
  (gen, r.insertPeer key role gen now)

/-- Unregister a peer, but only if the generation matches. -/
def unregisterPeer (r : Peers κ) (key : κ) (generation : UInt64) : Peers κ :=
  match r.peers.lookup key with
  | some info =>
    if info.generation = generation then
      { r with peers := r.peers.erase key }.modifyConnected (· - 1) info.role
    else r
  | none => r

/-- The number of entries with a role. -/
def entriesWith (r : Peers κ) (role : PeerRole) : Nat :=
  HashMap.countWhere (fun info => info.role = role) r.peers

end Peers

/-- A call on the router's peer registry. -/
inductive PeerCall (κ : Type) where
  | register (key : κ) (role : PeerRole) (now : Nat)
  | unregister (key : κ) (generation : UInt64)

/-- One call; registration calls never block or fail. -/
def peerStep (r : Peers κ) : PeerCall κ → Option (Peers κ)
  | .register key role now => some (r.registerPeer key role now).2
  | .unregister key generation => some (r.unregisterPeer key generation)

namespace Peers

/-- Both counters equal the number of entries with their role. -/
def CountersAgree (r : Peers κ) : Prop :=
  ∀ role, (r.connected role).toNat = r.entriesWith role

/-- A call that decrements a counter finds it above zero. -/
def NoUnderflow (r : Peers κ) (call : PeerCall κ) (_ : Peers κ) : Prop :=
  ∀ key generation, call = .unregister key generation →
    ∀ info, r.peers.lookup key = some info → info.generation = generation →
      0 < (r.connected info.role).toNat

/-- A registration of a connected key keeps its role, and one of a new key leaves its
role's counter room for one more (a `usize` counts up to `2^64 - 1`). -/
def RoleKept (r : Peers κ) (call : PeerCall κ) (_ : Peers κ) : Prop :=
  ∀ key role now, call = .register key role now →
    match r.peers.lookup key with
    | some info => info.role = role
    | none => r.entriesWith role + 1 < 2 ^ 64

/-! ## What one call does to the counters and to the counts -/

theorem entriesWith_insert (r : Peers κ) (key : κ) (info : PeerInfo) (role : PeerRole) :
    HashMap.countWhere (fun i => decide (i.role = role)) (r.peers.insert key info) +
        HashMap.countAt (fun i => decide (i.role = role)) r.peers key =
      r.entriesWith role + if info.role = role then 1 else 0 := by
  rw [HashMap.countWhere_insert]
  simp [entriesWith]

theorem entriesWith_erase (r : Peers κ) (key : κ) (role : PeerRole) :
    HashMap.countWhere (fun i => decide (i.role = role)) (r.peers.erase key) +
        HashMap.countAt (fun i => decide (i.role = role)) r.peers key =
      r.entriesWith role :=
  HashMap.countWhere_erase _ _ _

omit [DecidableEq κ] in
@[simp] theorem modifyConnected_peers (r : Peers κ) (f : UInt64 → UInt64) (role : PeerRole) :
    (r.modifyConnected f role).peers = r.peers := by
  cases role <;> rfl

omit [DecidableEq κ] in
theorem connected_modifyConnected (r : Peers κ) (f : UInt64 → UInt64) (role role' : PeerRole) :
    (r.modifyConnected f role).connected role' =
      if role = role' then f (r.connected role') else r.connected role' := by
  cases role <;> cases role' <;> rfl

theorem toNat_add_one (c : UInt64) : (c + 1).toNat = (c.toNat + 1) % 2 ^ 64 :=
  UInt64.toNat_add c 1

theorem toNat_sub_one {c : UInt64} (h : 0 < c.toNat) : (c - 1).toNat = c.toNat - 1 := by
  have hle : (1 : UInt64) ≤ c := UInt64.le_iff_toNat_le.mpr h
  exact UInt64.toNat_sub_of_le c 1 hle

/-- Registering a connected key again changes the role counts and not the counters. -/
theorem registerPeer_connected_agree_iff {r : Peers κ} (h : r.CountersAgree) {key : κ}
    {info : PeerInfo} (hlook : r.peers.lookup key = some info) (role : PeerRole) (now : Nat) :
    (r.registerPeer key role now).2.CountersAgree ↔ info.role = role := by
  have hins := entriesWith_insert r key ⟨role, r.connectionGeneration, now⟩
  have hr : (r.registerPeer key role now).2 =
      { r with
        peers := r.peers.insert key ⟨role, r.connectionGeneration, now⟩
        connectionGeneration := r.connectionGeneration + 1 } := by
    simp [registerPeer, nextGeneration, insertPeer, hlook]
  rw [hr]
  show (∀ role', (r.connected role').toNat = HashMap.countWhere _ _) ↔ info.role = role
  constructor
  · intro hagree
    by_contra hne
    -- otherwise the new role gets one more entry, and its counter does not
    have hnew := hins role
    have hat := HashMap.countAt_of_lookup (p := fun i => decide (i.role = role)) hlook
    rw [← hagree role, h role, hat] at hnew
    simp [hne] at hnew
  · rintro rfl role'
    have hnew := hins role'
    rw [HashMap.countAt_of_lookup hlook] at hnew
    simp only [decide_eq_true_eq] at hnew
    rw [h role']
    exact (Nat.add_right_cancel hnew).symm

/-- Registering a new key raises one count and its counter together, up to the counter's
width. -/
theorem registerPeer_new_agree_iff {r : Peers κ} (h : r.CountersAgree) {key : κ}
    (hlook : r.peers.lookup key = none) (role : PeerRole) (now : Nat) :
    (r.registerPeer key role now).2.CountersAgree ↔ r.entriesWith role + 1 < 2 ^ 64 := by
  have hr : (r.registerPeer key role now).2 =
      { r with
        peers := r.peers.insert key ⟨role, r.connectionGeneration, now⟩
        connectionGeneration := r.connectionGeneration + 1 }.modifyConnected (· + 1) role := by
    simp [registerPeer, nextGeneration, insertPeer, hlook]
  have hnew : ∀ role', (r.registerPeer key role now).2.entriesWith role' =
      r.entriesWith role' + if role = role' then 1 else 0 := by
    intro role'
    have hins := entriesWith_insert r key ⟨role, r.connectionGeneration, now⟩ role'
    rw [HashMap.countAt_of_lookup_none hlook] at hins
    rw [hr, entriesWith, modifyConnected_peers]
    exact hins
  have hcount : ∀ role', ((r.registerPeer key role now).2.connected role').toNat =
      if role = role' then (r.entriesWith role' + 1) % 2 ^ 64 else r.entriesWith role' := by
    intro role'
    rw [hr, connected_modifyConnected]
    split
    · rw [toNat_add_one]
      exact congrArg (fun n => (n + 1) % 2 ^ 64) (h role')
    · exact h role'
  constructor
  · intro hagree
    have := hagree role
    rw [hcount, hnew, if_pos rfl, if_pos rfl] at this
    have hlt := Nat.mod_lt (r.entriesWith role + 1) (Nat.two_pow_pos 64)
    omega
  · intro hroom role'
    rw [hcount, hnew]
    by_cases hrole : role = role'
    · subst hrole
      rw [if_pos rfl, if_pos rfl, Nat.mod_eq_of_lt hroom]
    · rw [if_neg hrole, if_neg hrole, Nat.add_zero]

/-- A registration preserves the agreement exactly when it keeps the key's role. -/
theorem registerPeer_agree_iff {r : Peers κ} (h : r.CountersAgree) (key : κ) (role : PeerRole)
    (now : Nat) :
    (r.registerPeer key role now).2.CountersAgree ↔
      RoleKept r (.register key role now) (r.registerPeer key role now).2 := by
  have hkept : RoleKept r (.register key role now) (r.registerPeer key role now).2 ↔
      match r.peers.lookup key with
      | some info => info.role = role
      | none => r.entriesWith role + 1 < 2 ^ 64 := by
    constructor
    · intro hk
      exact hk key role now rfl
    · rintro hk _ _ _ ⟨⟩
      exact hk
  rw [hkept]
  cases hlook : r.peers.lookup key with
  | some info => exact registerPeer_connected_agree_iff h hlook role now
  | none => exact registerPeer_new_agree_iff h hlook role now

theorem countAt_self_role {r : Peers κ} {key : κ} {info : PeerInfo}
    (hlook : r.peers.lookup key = some info) :
    HashMap.countAt (fun i => decide (i.role = info.role)) r.peers key = 1 := by
  rw [HashMap.countAt_of_lookup hlook]
  simp

/-- While the counters agree, the counter of a stored role is above zero. -/
theorem connected_pos {r : Peers κ} (h : r.CountersAgree) {key : κ} {info : PeerInfo}
    (hlook : r.peers.lookup key = some info) : 0 < (r.connected info.role).toNat := by
  have hle := HashMap.countAt_le (fun i => decide (i.role = info.role)) r.peers key
  rw [countAt_self_role hlook] at hle
  rw [h info.role]
  exact hle

/-- An unregistration always preserves the agreement. -/
theorem unregisterPeer_agree {r : Peers κ} (h : r.CountersAgree) (key : κ)
    (generation : UInt64) : (r.unregisterPeer key generation).CountersAgree := by
  rw [unregisterPeer]
  split
  · next info hlook =>
    split
    · next hgen =>
      intro role'
      have herase := entriesWith_erase r key role'
      rw [entriesWith, modifyConnected_peers, connected_modifyConnected]
      show (if info.role = role' then r.connected role' - 1 else r.connected role').toNat =
        HashMap.countWhere _ (r.peers.erase key)
      by_cases hrole : info.role = role'
      · subst hrole
        rw [countAt_self_role hlook] at herase
        rw [if_pos rfl, toNat_sub_one (connected_pos h hlook), h]
        omega
      · have hat := HashMap.countAt_of_lookup (p := fun i => decide (i.role = role')) hlook
        simp only [hrole, decide_false, Bool.false_eq_true, if_false] at hat
        rw [hat] at herase
        rw [if_neg hrole, h]
        exact herase.symm
    · exact h
  · exact h

omit [DecidableEq κ] in
theorem new_agree : (new : Peers κ).CountersAgree := by
  intro role
  cases role <;> rfl

/-- One call preserves the agreement exactly when it keeps the role of a connected key. -/
theorem peerStep_agree_iff {r r' : Peers κ} {call : PeerCall κ} (h : r.CountersAgree)
    (hstep : peerStep r call = some r') : r'.CountersAgree ↔ RoleKept r call r' := by
  cases call with
  | register key role now =>
    obtain rfl := Option.some.inj hstep
    exact registerPeer_agree_iff h key role now
  | unregister key generation =>
    obtain rfl := Option.some.inj hstep
    constructor
    · intro _ _ _ _ hcall
      cases hcall
    · intro _
      exact unregisterPeer_agree h key generation

/-! ## Whole runs -/

/-- **When the counters count.** Along any sequence of registrations and unregistrations
on a new router, both counters equal the numbers of entries after every call, and no
decrement starts from zero, exactly when no registration changes the role of a connected
key (and no role ever has `2^64` entries). -/
theorem countersAgree_iff_rolesKept (calls : List (PeerCall κ)) :
    (Machine.Always peerStep CountersAgree new calls ∧
        Machine.EachStep peerStep NoUnderflow new calls) ↔
      Machine.EachStep peerStep RoleKept (new : Peers κ) calls := by
  have hiff : Machine.Always peerStep CountersAgree (new : Peers κ) calls ↔
      Machine.EachStep peerStep RoleKept (new : Peers κ) calls :=
    Machine.always_iff_eachStep (J := fun _ => True) trivial (fun _ _ _ _ _ => trivial)
      new_agree (fun r call r' _ h hstep => peerStep_agree_iff h hstep)
  constructor
  · intro h
    exact hiff.mp h.1
  · intro h
    have halways := hiff.mpr h
    refine ⟨halways, Machine.eachStep_of_always halways ?_⟩
    intro r call r' hagree _ key generation _ info hlook _
    exact connected_pos hagree hlook

/-- A camera whose key registers again as a client (its stream opened after the detection
timeout) stays counted as a camera, and its unregistration drives the client counter
below zero. -/
theorem roleSwitch_miscounts :
    Machine.run peerStep (new : Peers Nat)
        [.register 7 .camera 0, .register 7 .client 1, .unregister 7 1] =
      some ⟨∅, 1, 0xFFFFFFFFFFFFFFFF, 2⟩ ∧
    ¬ Machine.Always peerStep CountersAgree (new : Peers Nat)
        [.register 7 .camera 0, .register 7 .client 1, .unregister 7 1] := by
  have hrun : Machine.run peerStep (new : Peers Nat)
      [.register 7 .camera 0, .register 7 .client 1, .unregister 7 1] =
      some ⟨∅, 1, 0xFFFFFFFFFFFFFFFF, 2⟩ := rfl
  refine ⟨hrun, fun h => ?_⟩
  have hcam := h.final hrun .camera
  revert hcam
  decide

end Peers

end Kodama
