import Kodama.Lib.HashMap
import Kodama.Lib.Machine
import Kodama.Lib.Mpsc
import Kodama.Transport.Muxer

/-!
# The demultiplexer (crates/kodama/src/transport/mux/demuxer.rs)

A `Demuxer` hands every frame it routes to the subscriber of its source, to that of its channel,
and to all global ones, each over a channel of 64 frames. `route` waits where a channel is full,
and passes over a subscriber whose receiver is gone.

There is one place for each source and each channel: a subscription replaces the one that has the
same key, and that gets nothing from then on. The global ones are a list and do not get in each
other's way. Every live subscriber gets its frames in every run in which no subscription replaces
a live one (`delivers_of_replacesNone`).
-/

namespace Kodama

open Lib Lib.Machine

/-- What a subscription is for. -/
inductive SubscriptionKey where
  | source (source : SourceId)
  | channel (channel : Channel)
  | all
deriving DecidableEq

/-- A frame is for the subscribers with this key. -/
def SubscriptionKey.matches : SubscriptionKey → Frame → Bool
  | .source wanted, frame => frame.source = wanted
  | .channel wanted, frame => frame.channel = wanted
  | .all, _ => true

/-- A subscriber: its channel, what it has received from it, and how many frames had been routed
before. -/
structure Subscriber where
  key : SubscriptionKey
  since : Nat
  channel : Mpsc Numbered := { capacity := 64 }
  received : List Numbered := []

namespace Subscriber

/-- The receiver has not been dropped. -/
def live (self : Subscriber) : Bool := !self.channel.closed

/-- Everything that was put into the channel. -/
def delivered (self : Subscriber) : List Numbered := self.received ++ self.channel.queue

/-- A routed frame was put into the channel. -/
def got (self : Subscriber) (number : Nat) : Bool :=
  self.delivered.any fun numbered => numbered.number = number

/-- What the subscriber is to receive of the frames routed. -/
def expected (self : Subscriber) (routed : List Numbered) : List Numbered :=
  (routed.drop self.since).filter fun numbered => self.key.matches numbered.frame

/-- A frame is put into the channel. -/
def put (self : Subscriber) (numbered : Numbered) : Subscriber :=
  { self with channel := { self.channel with queue := self.channel.queue ++ [numbered] } }

/-- The same subscriber, before and after it receives or drops its receiver. -/
structure Same (sub sub' : Subscriber) : Prop where
  key : sub'.key = sub.key
  since : sub'.since = sub.since
  capacity : sub'.channel.capacity = sub.channel.capacity
  delivered : sub'.delivered = sub.delivered
  live : sub'.live = true → sub.live = true

variable {sub sub' : Subscriber} {routed : List Numbered} {numbered : Numbered} {number : Nat}

theorem Same.got (h : Same sub sub') (number : Nat) : sub'.got number = sub.got number := by
  rw [Subscriber.got, Subscriber.got, h.delivered]

theorem Same.expected (h : Same sub sub') (routed : List Numbered) :
    sub'.expected routed = sub.expected routed := by
  rw [Subscriber.expected, Subscriber.expected, h.key, h.since]

theorem got_eq_false : sub.got number = false ↔ ∀ f ∈ sub.delivered, f.number ≠ number := by
  simp [got]

theorem delivered_put : (sub.put numbered).delivered = sub.delivered ++ [numbered] := by
  simp [delivered, put]

theorem got_put : (sub.put numbered).got number =
    (sub.got number || decide (numbered.number = number)) := by
  simp [got, delivered_put]

/-- Of a frame that is routed next, a subscriber expects it if it is for its key. -/
theorem expected_snoc (h : sub.since ≤ routed.length) : sub.expected (routed ++ [numbered]) =
    sub.expected routed ++ if sub.key.matches numbered.frame then [numbered] else [] := by
  rw [expected, List.drop_append_of_le_length h, List.filter_append, List.filter_singleton]
  cases sub.key.matches numbered.frame <;> rfl

end Subscriber

/-- Demultiplexer for splitting frames by source and channel. A sender is the number of its
subscriber. -/
structure Demuxer where
  sourceSubscribers : HashMap SourceId Nat := ∅
  channelSubscribers : HashMap Channel Nat := ∅
  globalSubscribers : List Nat := []

namespace Demuxer

def subscribeSource (self : Demuxer) (source : SourceId) (tx : Nat) : Demuxer :=
  { self with sourceSubscribers := self.sourceSubscribers.insert source tx }

def subscribeChannel (self : Demuxer) (channel : Channel) (tx : Nat) : Demuxer :=
  { self with channelSubscribers := self.channelSubscribers.insert channel tx }

def subscribeAll (self : Demuxer) (tx : Nat) : Demuxer :=
  { self with globalSubscribers := self.globalSubscribers ++ [tx] }

def subscribe (self : Demuxer) : SubscriptionKey → Nat → Demuxer
  | .source source, tx => self.subscribeSource source tx
  | .channel channel, tx => self.subscribeChannel channel tx
  | .all, tx => self.subscribeAll tx

/-- The senders `route` sends a frame to, in order. -/
def targets (self : Demuxer) (frame : Frame) : List Nat :=
  (self.sourceSubscribers.lookup frame.source).toList ++
  (self.channelSubscribers.lookup frame.channel).toList ++ self.globalSubscribers

/-- Remove closed subscribers. -/
def cleanup (self : Demuxer) (isClosed : Nat → Bool) : Demuxer where
  sourceSubscribers := self.sourceSubscribers.retain fun _ tx => !isClosed tx
  channelSubscribers := self.channelSubscribers.retain fun _ tx => !isClosed tx
  globalSubscribers := self.globalSubscribers.filter fun tx => !isClosed tx

/-- A sender is registered under a key. -/
def Has (self : Demuxer) (tx : Nat) : SubscriptionKey → Prop
  | .source source => self.sourceSubscribers.lookup source = some tx
  | .channel channel => self.channelSubscribers.lookup channel = some tx
  | .all => tx ∈ self.globalSubscribers

end Demuxer

/-- A call of `route`: its frame, the senders it has not sent to, and how many have it. -/
structure Route where
  frame : Numbered
  remaining : List Nat
  count : Nat

/-- A demultiplexer with its subscribers, the frames it has been called with, and what the calls
have returned. -/
structure DemuxerRun where
  demuxer : Demuxer := {}
  subscribers : List Subscriber := []
  routed : List Numbered := []
  /-- the call of `route` that has not returned -/
  route : Option Route := none
  returned : List Nat := []

inductive DemuxerEvent where
  | subscribe (key : SubscriptionKey)
  | route (frame : Frame)
  /-- the next `send` of `route` completes -/
  | send
  /-- `route` returns -/
  | finish
  | cleanup
  /-- a subscriber receives a frame -/
  | receive (tx : Nat)
  /-- a subscriber drops its receiver -/
  | drop (tx : Nat)

/-- A call of `route` goes on, or a subscriber drains its channel. -/
def DemuxerEvent.isProgress : DemuxerEvent → Bool
  | .send | .finish | .receive _ => true
  | _ => false

namespace DemuxerRun

/-- A new subscriber, and its sender in the demultiplexer. -/
def subscribe (self : DemuxerRun) (key : SubscriptionKey) : DemuxerRun :=
  { self with
    demuxer := self.demuxer.subscribe key self.subscribers.length
    subscribers := self.subscribers ++ [{ key, since := self.routed.length }] }

def setSubscriber (self : DemuxerRun) (tx : Nat) (subscriber : Subscriber) : DemuxerRun :=
  { self with subscribers := self.subscribers.set tx subscriber }

def isClosed (self : DemuxerRun) (tx : Nat) : Bool :=
  match self.subscribers[tx]? with
  | some subscriber => subscriber.channel.closed
  | none => true

/-- `route` is called. -/
def beginRoute (self : DemuxerRun) (numbered : Numbered) : DemuxerRun :=
  { self with
    routed := self.routed ++ [numbered]
    route := some ⟨numbered, self.demuxer.targets numbered.frame, 0⟩ }

/-- One `send` of `route`, which waits while the channel is full. -/
def send (self : DemuxerRun) (route : Route) (tx : Nat) (rest : List Nat) : Option DemuxerRun :=
  self.subscribers[tx]?.bind fun subscriber =>
    match subscriber.channel.trySend route.frame with
    | .ok channel =>
      some { self.setSubscriber tx { subscriber with channel } with
        route := some { route with remaining := rest, count := route.count + 1 } }
    | .error .closed => some { self with route := some { route with remaining := rest } }
    | .error .full => none

def step (self : DemuxerRun) (event : DemuxerEvent) : Option DemuxerRun :=
  match event, self.route with
  | .subscribe key, none => some (self.subscribe key)
  | .route frame, none => some (self.beginRoute ⟨self.routed.length, frame⟩)
  | .send, some route =>
    match route.remaining with
    | tx :: rest => self.send route tx rest
    | [] => none
  | .finish, some route =>
    match route.remaining with
    | [] => some { self with route := none, returned := self.returned ++ [route.count] }
    | _ :: _ => none
  | .cleanup, none => some { self with demuxer := self.demuxer.cleanup self.isClosed }
  | .receive tx, _ =>
    self.subscribers[tx]?.bind fun subscriber =>
      if subscriber.live then
        subscriber.channel.recv.map fun (frame, channel) =>
          self.setSubscriber tx
            { subscriber with channel, received := subscriber.received ++ [frame] }
      else none
  | .drop tx, _ =>
    self.subscribers[tx]?.map fun subscriber =>
      self.setSubscriber tx { subscriber with channel := subscriber.channel.close }
  | _, _ => none

def start : DemuxerRun := {}

/-- Everything a step can do. -/
inductive Move (t : DemuxerRun) : DemuxerEvent → DemuxerRun → Prop where
  | subscribed (key : SubscriptionKey) (hidle : t.route = none) :
    Move t (.subscribe key) (t.subscribe key)
  | called (frame : Frame) (hidle : t.route = none) :
    Move t (.route frame) (t.beginRoute ⟨t.routed.length, frame⟩)
  | sent (route : Route) (tx : Nat) (rest : List Nat) (subscriber : Subscriber)
      (hroute : t.route = some route) (hremaining : route.remaining = tx :: rest)
      (hsubscriber : t.subscribers[tx]? = some subscriber) (hlive : subscriber.live = true) :
    Move t .send { t.setSubscriber tx (subscriber.put route.frame) with
      route := some { route with remaining := rest, count := route.count + 1 } }
  | passedOver (route : Route) (tx : Nat) (rest : List Nat) (subscriber : Subscriber)
      (hroute : t.route = some route) (hremaining : route.remaining = tx :: rest)
      (hsubscriber : t.subscribers[tx]? = some subscriber) (hdropped : subscriber.live = false) :
    Move t .send { t with route := some { route with remaining := rest } }
  | returned (route : Route) (hroute : t.route = some route) (hremaining : route.remaining = []) :
    Move t .finish { t with route := none, returned := t.returned ++ [route.count] }
  | cleaned (hidle : t.route = none) :
    Move t .cleanup { t with demuxer := t.demuxer.cleanup t.isClosed }
  | changed (event : DemuxerEvent) (tx : Nat) (subscriber subscriber' : Subscriber)
      (hsubscriber : t.subscribers[tx]? = some subscriber)
      (hsame : subscriber.Same subscriber') : Move t event (t.setSubscriber tx subscriber')

theorem step_cases {t u : DemuxerRun} {event : DemuxerEvent} (hstep : step t event = some u) :
    Move t event u := by
  unfold step at hstep
  split at hstep
  · next key hidle => exact Option.some.inj hstep ▸ .subscribed key hidle
  · next frame hidle => exact Option.some.inj hstep ▸ .called frame hidle
  · next route hroute =>
    split at hstep
    · next tx rest hremaining =>
      obtain ⟨subscriber, hsubscriber, hsent⟩ := Option.bind_eq_some_iff.mp hstep
      split at hsent
      · next channel hchannel =>
        obtain ⟨hopen, -, rfl⟩ := Mpsc.trySend_eq_ok hchannel
        have hlive : subscriber.live = true := by simp [Subscriber.live, hopen]
        exact Option.some.inj hsent ▸
          .sent route tx rest subscriber hroute hremaining hsubscriber hlive
      · next hclosed =>
        have hdropped : subscriber.live = false := by
          simp [Subscriber.live, Mpsc.trySend_eq_closed.mp hclosed]
        exact Option.some.inj hsent ▸
          .passedOver route tx rest subscriber hroute hremaining hsubscriber hdropped
      · cases hsent
    · cases hstep
  · next route hroute =>
    split at hstep
    · next hremaining => exact Option.some.inj hstep ▸ .returned route hroute hremaining
    · cases hstep
  · next hidle => exact Option.some.inj hstep ▸ .cleaned hidle
  · next tx =>
    obtain ⟨subscriber, hsubscriber, hrecv⟩ := Option.bind_eq_some_iff.mp hstep
    split at hrecv
    · next hlive =>
      obtain ⟨⟨frame, channel⟩, hchannel, rfl⟩ := Option.map_eq_some_iff.mp hrecv
      obtain ⟨hqueue, -⟩ := Mpsc.recv_eq_some hchannel
      refine .changed _ tx subscriber _ hsubscriber ⟨rfl, rfl, ?_, ?_, fun _ => hlive⟩
      · exact Mpsc.recv_capacity hchannel
      · simp [Subscriber.delivered, hqueue]
    · cases hrecv
  · next tx =>
    obtain ⟨subscriber, hsubscriber, rfl⟩ := Option.map_eq_some_iff.mp hstep
    exact .changed _ tx subscriber _ hsubscriber
      ⟨rfl, rfl, rfl, rfl, fun hlive => by simp [Subscriber.live, Mpsc.close] at hlive⟩
  · cases hstep

end DemuxerRun

/-! ## The registries -/

namespace Demuxer

variable {d : Demuxer} {tx tx' : Nat} {key key' : SubscriptionKey} {frame : Frame}

/-- A subscription replaces the one with its key, if it is not a global one. -/
theorem has_subscribe : (d.subscribe key tx).Has tx' key' ↔
    tx' = tx ∧ key' = key ∨ d.Has tx' key' ∧ (key' = key → key = .all) := by
  cases key with
  | source source =>
    cases key' with
    | source source' =>
      simp only [subscribe, subscribeSource, Has, HashMap.lookup_insert_ite,
        SubscriptionKey.source.injEq, reduceCtorEq, imp_false]
      split
      · next h => simp [h, eq_comm]
      · next h => simp [h]
    | _ => simp [subscribe, subscribeSource, Has]
  | channel channel =>
    cases key' with
    | channel channel' =>
      simp only [subscribe, subscribeChannel, Has, HashMap.lookup_insert_ite,
        SubscriptionKey.channel.injEq, reduceCtorEq, imp_false]
      split
      · next h => simp [h, eq_comm]
      · next h => simp [h]
    | _ => simp [subscribe, subscribeChannel, Has]
  | all =>
    cases key' with
    | all => simp [subscribe, subscribeAll, Has, or_comm]
    | _ => simp [subscribe, subscribeAll, Has]

theorem has_cleanup {isClosed : Nat → Bool} :
    (d.cleanup isClosed).Has tx key ↔ d.Has tx key ∧ isClosed tx = false := by
  cases key <;> simp [cleanup, Has, HashMap.lookup_retain_eq_some]

/-- A frame goes to the senders that are registered under a key it matches. -/
theorem mem_targets : tx ∈ d.targets frame ↔ ∃ key, d.Has tx key ∧ key.matches frame = true := by
  simp only [targets, List.mem_append, Option.mem_toList]
  constructor
  · rintro ((hsource | hchannel) | hall)
    · exact ⟨.source frame.source, hsource, by simp [SubscriptionKey.matches]⟩
    · exact ⟨.channel frame.channel, hchannel, by simp [SubscriptionKey.matches]⟩
    · exact ⟨.all, hall, rfl⟩
  · rintro ⟨key, hhas, hmatches⟩
    cases key with
    | source source =>
      obtain rfl : frame.source = source := by simpa [SubscriptionKey.matches] using hmatches
      exact .inl (.inl hhas)
    | channel channel =>
      obtain rfl : frame.channel = channel := by simpa [SubscriptionKey.matches] using hmatches
      exact .inl (.inr hhas)
    | all => exact .inr hhas

/-- No sender gets a frame twice, if none is registered under two keys. -/
theorem nodup_targets (hkeys : ∀ tx key key', d.Has tx key → d.Has tx key' → key = key')
    (hglobals : d.globalSubscribers.Nodup) : (d.targets frame).Nodup := by
  have hone (o : Option Nat) : o.toList.Nodup := by cases o <;> simp
  refine List.Nodup.append (List.Nodup.append (hone _) (hone _) ?_) hglobals ?_
  · intro tx hsource hchannel
    have hsame := hkeys tx (.source frame.source) (.channel frame.channel)
      (Option.mem_toList.mp hsource) (Option.mem_toList.mp hchannel)
    cases hsame
  · intro tx hkeyed hall
    rcases List.mem_append.mp hkeyed with hsource | hchannel
    · have hsame := hkeys tx (.source frame.source) .all (Option.mem_toList.mp hsource) hall
      cases hsame
    · have hsame := hkeys tx (.channel frame.channel) .all (Option.mem_toList.mp hchannel) hall
      cases hsame

end Demuxer

namespace DemuxerRun

variable {t u : DemuxerRun} {event : DemuxerEvent} {tx tx' : Nat} {sub sub' : Subscriber}
  {route : Route} {key : SubscriptionKey} {number : Nat}

/-- How many subscribers a routed frame was handed to. -/
def gotCount (self : DemuxerRun) (number : Nat) : Nat :=
  self.subscribers.countP (·.got number)

/-- The books of a call of `route`. -/
structure RouteBooks (t : DemuxerRun) (route : Route) : Prop where
  last : t.routed.getLast? = some route.frame
  number : route.frame.number + 1 = t.routed.length
  returned : t.returned.length + 1 = t.routed.length
  nodup : route.remaining.Nodup
  fresh : ∀ tx ∈ route.remaining, ∃ sub, t.subscribers[tx]? = some sub ∧
    sub.got route.frame.number = false
  count : route.count = t.gotCount route.frame.number

/-- What holds in every run. -/
structure Books (t : DemuxerRun) : Prop where
  entries : ∀ tx key, t.demuxer.Has tx key →
    ∃ sub, t.subscribers[tx]? = some sub ∧ sub.key = key
  globals : t.demuxer.globalSubscribers.Nodup
  since : ∀ sub ∈ t.subscribers, sub.since ≤ t.routed.length
  numbers : ∀ sub ∈ t.subscribers, ∀ f ∈ sub.delivered, f.number < t.routed.length
  capacity : ∀ sub ∈ t.subscribers, sub.channel.capacity = 64
  idle : t.route = none → t.returned.length = t.routed.length
  running : ∀ route, t.route = some route → t.RouteBooks route
  counted : ∀ k count, t.returned[k]? = some count → count = t.gotCount k

/-! ### One subscriber changes -/

theorem getElem?_setSubscriber (h : t.subscribers[tx]? = some sub) :
    (t.setSubscriber tx sub').subscribers[tx']? =
      if tx' = tx then some sub' else t.subscribers[tx']? := by
  have hlt := (List.getElem?_eq_some_iff.mp h).1
  rw [setSubscriber, List.getElem?_set]
  by_cases heq : tx = tx'
  · subst heq
    rw [if_pos rfl, if_pos hlt, if_pos rfl]
  · rw [if_neg heq, if_neg (Ne.symm heq)]

theorem forall_mem_setSubscriber {P : Subscriber → Prop} (h : ∀ sub ∈ t.subscribers, P sub)
    (hnew : P sub') : ∀ sub ∈ (t.setSubscriber tx sub').subscribers, P sub :=
  fun _ hmem => (List.mem_or_eq_of_mem_set hmem).elim (h _) fun heq => heq ▸ hnew

/-- How many subscribers have a frame changes as the one that is set does. -/
theorem gotCount_setSubscriber (h : t.subscribers[tx]? = some sub) (sub' : Subscriber)
    (number : Nat) :
    (t.setSubscriber tx sub').gotCount number + (if sub.got number then 1 else 0) =
      t.gotCount number + if sub'.got number then 1 else 0 := by
  obtain ⟨hlt, rfl⟩ := List.getElem?_eq_some_iff.mp h
  have hle := List.boole_getElem_le_countP (p := fun sub : Subscriber => sub.got number) hlt
  rw [gotCount, gotCount, setSubscriber, List.countP_set hlt]
  omega

theorem exists_setSubscriber {P : Subscriber → Prop} (hsub : t.subscribers[tx]? = some sub)
    (hkeep : P sub → P sub') (h : ∃ old, t.subscribers[tx']? = some old ∧ P old) :
    ∃ new, (t.setSubscriber tx sub').subscribers[tx']? = some new ∧ P new := by
  obtain ⟨old, hold, hP⟩ := h
  rw [getElem?_setSubscriber hsub]
  split
  · next heq =>
    subst heq
    obtain rfl := Option.some.inj (hsub.symm.trans hold)
    exact ⟨sub', rfl, hkeep hP⟩
  · exact ⟨old, hold, hP⟩

theorem Books.changed (h : t.Books) (hsub : t.subscribers[tx]? = some sub) (hsame : sub.Same sub') :
    (t.setSubscriber tx sub').Books := by
  have hmem := List.mem_of_getElem? hsub
  have hcount (number : Nat) : (t.setSubscriber tx sub').gotCount number = t.gotCount number := by
    have hset := gotCount_setSubscriber hsub sub' number
    rw [hsame.got] at hset
    omega
  refine ⟨fun tx' key hhas => ?_, h.globals, forall_mem_setSubscriber h.since ?_,
    forall_mem_setSubscriber h.numbers ?_, forall_mem_setSubscriber h.capacity ?_, h.idle,
    fun route hroute => ?_, fun k count hk => (h.counted k count hk).trans (hcount k).symm⟩
  · exact exists_setSubscriber hsub (fun hkey => hsame.key.trans hkey) (h.entries tx' key hhas)
  · rw [hsame.since]
    exact h.since sub hmem
  · rw [hsame.delivered]
    exact h.numbers sub hmem
  · rw [hsame.capacity]
    exact h.capacity sub hmem
  · have hbooks := h.running route hroute
    exact { hbooks with
      fresh := fun tx' hmem' => exists_setSubscriber hsub (fun hgot => (hsame.got _).trans hgot)
        (hbooks.fresh tx' hmem')
      count := hbooks.count.trans (hcount _).symm }

/-! ### The steps -/

theorem getElem?_subscribe (hsub : t.subscribers[tx]? = some sub) :
    (t.subscribe key).subscribers[tx]? = some sub := by
  rw [subscribe, List.getElem?_append_left (List.getElem?_eq_some_iff.mp hsub).1]
  exact hsub

/-- Every subscriber after a subscription is an old one or the new one. -/
theorem forall_mem_subscribe {P : Subscriber → Prop} (h : ∀ sub ∈ t.subscribers, P sub)
    (hnew : P { key, since := t.routed.length }) :
    ∀ sub ∈ (t.subscribe key).subscribers, P sub := by
  intro sub hmem
  rcases List.mem_append.mp hmem with hmem | hmem
  · exact h sub hmem
  · exact List.mem_singleton.mp hmem ▸ hnew

theorem Books.subscribed (h : t.Books) (hidle : t.route = none) (key : SubscriptionKey) :
    (t.subscribe key).Books := by
  have hnew : (t.subscribe key).subscribers[t.subscribers.length]? =
      some { key, since := t.routed.length } := List.getElem?_concat_length
  refine ⟨fun tx key' hhas => ?_, ?_, forall_mem_subscribe h.since (Nat.le_refl _),
    forall_mem_subscribe h.numbers (fun f hf => by cases hf),
    forall_mem_subscribe h.capacity rfl, h.idle, fun route hroute => ?_, fun k count hk => ?_⟩
  · rcases Demuxer.has_subscribe.mp hhas with ⟨rfl, rfl⟩ | ⟨hhas, -⟩
    · exact ⟨_, hnew, rfl⟩
    · obtain ⟨sub, hsub, hkey⟩ := h.entries tx key' hhas
      exact ⟨sub, getElem?_subscribe hsub, hkey⟩
  · cases key with
    | all =>
      refine List.Nodup.append h.globals (List.nodup_singleton _) ?_
      intro tx hold hnew'
      -- the senders there are of earlier subscribers
      obtain ⟨sub, hsub, -⟩ := h.entries tx .all hold
      obtain rfl := List.mem_singleton.mp hnew'
      exact absurd (List.getElem?_eq_some_iff.mp hsub).1 (Nat.lt_irrefl _)
    | _ => exact h.globals
  · exact absurd (hidle.symm.trans hroute) (by simp)
  · rw [h.counted k count hk, gotCount, gotCount, subscribe, List.countP_append]
    simp [Subscriber.got, Subscriber.delivered]

theorem Books.keys (h : t.Books) {key' : SubscriptionKey} (hhas : t.demuxer.Has tx key)
    (hhas' : t.demuxer.Has tx key') : key = key' := by
  obtain ⟨sub, hsub, rfl⟩ := h.entries tx key hhas
  obtain ⟨sub', hsub', rfl⟩ := h.entries tx key' hhas'
  obtain rfl := Option.some.inj (hsub.symm.trans hsub')
  rfl

/-- No subscriber has a frame that is yet to be routed. -/
theorem Books.got_length (h : t.Books) (hmem : sub ∈ t.subscribers) :
    sub.got t.routed.length = false :=
  Subscriber.got_eq_false.mpr fun f hf => Nat.ne_of_lt (h.numbers sub hmem f hf)

theorem Books.called (h : t.Books) (hidle : t.route = none) (frame : Frame) :
    (t.beginRoute ⟨t.routed.length, frame⟩).Books := by
  have hlen : (t.beginRoute ⟨t.routed.length, frame⟩).routed.length = t.routed.length + 1 := by
    simp [beginRoute]
  refine ⟨h.entries, h.globals, fun sub hmem => ?_, fun sub hmem f hf => ?_, h.capacity,
    fun hnone => (by cases hnone), ?_, h.counted⟩
  · rw [hlen]
    exact Nat.le_succ_of_le (h.since sub hmem)
  · rw [hlen]
    exact Nat.lt_succ_of_lt (h.numbers sub hmem f hf)
  · rintro route ⟨⟩
    refine ⟨List.getLast?_concat, hlen.symm, ?_,
      Demuxer.nodup_targets (fun _ _ _ => h.keys) h.globals, fun tx htx => ?_, ?_⟩
    · rw [hlen]
      exact congrArg (· + 1) (h.idle hidle)
    · obtain ⟨key, hhas, -⟩ := Demuxer.mem_targets.mp htx
      obtain ⟨sub, hsub, -⟩ := h.entries tx key hhas
      exact ⟨sub, hsub, h.got_length (List.mem_of_getElem? hsub)⟩
    · refine (List.countP_eq_zero.mpr fun sub hmem => ?_).symm
      rw [h.got_length hmem]
      decide

theorem Books.sent (h : t.Books) {rest : List Nat} (hroute : t.route = some route)
    (hremaining : route.remaining = tx :: rest) (hsub : t.subscribers[tx]? = some sub) :
    Books { t.setSubscriber tx (sub.put route.frame) with
      route := some { route with remaining := rest, count := route.count + 1 } } := by
  have hmem := List.mem_of_getElem? hsub
  have hbooks := h.running route hroute
  have hnodup := hremaining ▸ hbooks.nodup
  have hnew : sub.got route.frame.number = false := by
    obtain ⟨sub', hsub', hgot⟩ := hbooks.fresh tx (hremaining ▸ List.mem_cons_self)
    obtain rfl := Option.some.inj (hsub.symm.trans hsub')
    exact hgot
  have hcount (number : Nat) : (t.setSubscriber tx (sub.put route.frame)).gotCount number =
      t.gotCount number + if route.frame.number = number then 1 else 0 := by
    have hset := gotCount_setSubscriber hsub (sub.put route.frame) number
    rw [Subscriber.got_put] at hset
    by_cases heq : route.frame.number = number
    · subst heq
      simp only [hnew, decide_true, Bool.or_true, if_true] at hset ⊢
      simpa using hset
    · simp only [heq, decide_false, Bool.or_false, if_false] at hset ⊢
      omega
  refine ⟨fun tx' key hhas => ?_, h.globals, forall_mem_setSubscriber h.since (h.since sub hmem),
    forall_mem_setSubscriber h.numbers ?_,
    forall_mem_setSubscriber h.capacity (h.capacity sub hmem), fun hnone => (by cases hnone),
    ?_, fun k count hk => ?_⟩
  · exact exists_setSubscriber hsub id (h.entries tx' key hhas)
  · rw [Subscriber.delivered_put, List.forall_mem_append, List.forall_mem_singleton]
    exact ⟨h.numbers sub hmem, Nat.lt_of_succ_le (Nat.le_of_eq hbooks.number)⟩
  · rintro _ ⟨⟩
    refine ⟨hbooks.last, hbooks.number, hbooks.returned, (List.nodup_cons.mp hnodup).2,
      fun tx' hrest => ?_, ?_⟩
    · have hne : tx' ≠ tx := fun heq => (List.nodup_cons.mp hnodup).1 (heq ▸ hrest)
      obtain ⟨old, hold, hgot⟩ := hbooks.fresh tx' (hremaining ▸ List.mem_cons_of_mem _ hrest)
      refine ⟨old, ?_, hgot⟩
      exact (getElem?_setSubscriber hsub).trans ((if_neg hne).trans hold)
    · show route.count + 1 = (t.setSubscriber tx (sub.put route.frame)).gotCount _
      rw [hcount, if_pos rfl, hbooks.count]
  · -- the calls that have returned were about earlier frames
    have hlt := (List.getElem?_eq_some_iff.mp hk).1
    have hreturned := hbooks.returned
    have hnumber := hbooks.number
    show count = (t.setSubscriber tx (sub.put route.frame)).gotCount k
    rw [hcount, h.counted k count hk, if_neg]
    · rfl
    · intro heq
      have hlt : k < t.returned.length := hlt
      omega

theorem Books.passedOver (h : t.Books) {rest : List Nat} (hroute : t.route = some route)
    (hremaining : route.remaining = tx :: rest) :
    Books { t with route := some { route with remaining := rest } } := by
  have hbooks := h.running route hroute
  refine { h with idle := fun hnone => (by cases hnone), running := ?_ }
  rintro _ ⟨⟩
  exact { hbooks with
    nodup := (List.nodup_cons.mp (hremaining ▸ hbooks.nodup)).2
    fresh := fun tx' hrest => hbooks.fresh tx' (hremaining ▸ List.mem_cons_of_mem _ hrest) }

theorem Books.returned (h : t.Books) (hroute : t.route = some route) :
    Books { t with route := none, returned := t.returned ++ [route.count] } := by
  have hbooks := h.running route hroute
  refine { h with
    idle := fun _ => by simpa using hbooks.returned
    running := fun route hnone => (by cases hnone)
    counted := fun k count hk => ?_ }
  rw [List.getElem?_append] at hk
  split at hk
  · exact h.counted k count hk
  · next hge =>
    obtain ⟨hlt, hcount⟩ := List.getElem?_eq_some_iff.mp hk
    rw [List.length_singleton] at hlt
    rw [List.getElem_singleton] at hcount
    have hnumber : route.frame.number = k := by
      have hnumber := hbooks.number
      have hreturned := hbooks.returned
      omega
    rw [← hcount, ← hnumber]
    exact hbooks.count

theorem Books.cleaned (h : t.Books) (hidle : t.route = none) :
    Books { t with demuxer := t.demuxer.cleanup t.isClosed } := by
  refine { h with
    entries := fun tx key hhas => h.entries tx key (Demuxer.has_cleanup.mp hhas).1
    globals := h.globals.filter _
    running := fun route hroute => absurd (hidle.symm.trans hroute) (by simp) }

theorem Books.step (h : t.Books) (hstep : DemuxerRun.step t event = some u) : u.Books := by
  cases step_cases hstep with
  | subscribed key hidle => exact h.subscribed hidle key
  | called frame hidle => exact h.called hidle frame
  | sent route tx rest sub hroute hremaining hsub hlive => exact h.sent hroute hremaining hsub
  | passedOver route tx rest sub hroute hremaining hsub hdropped =>
    exact h.passedOver hroute hremaining
  | returned route hroute hremaining => exact h.returned hroute
  | cleaned hidle => exact h.cleaned hidle
  | changed event tx sub sub' hsub hsame => exact h.changed hsub hsame

/-! ### Live subscribers get their frames -/

/-- What the call of `route` has still to hand to a subscriber. -/
def due (self : DemuxerRun) (tx : Nat) : List Numbered :=
  match self.route with
  | some route => if tx ∈ route.remaining then [route.frame] else []
  | none => []

/-- Every live subscriber is registered and has, or is due, what it expects. -/
structure Sound (t : DemuxerRun) : Prop where
  registered : ∀ tx sub, t.subscribers[tx]? = some sub → sub.live = true →
    t.demuxer.Has tx sub.key
  delivered : ∀ tx sub, t.subscribers[tx]? = some sub → sub.live = true →
    sub.delivered ++ t.due tx = sub.expected t.routed

/-- A subscription does not replace a live one. -/
def ReplacesNone (t : DemuxerRun) (event : DemuxerEvent) (_ : DemuxerRun) : Prop :=
  ∀ key, event = .subscribe key → key ≠ .all →
    ∀ tx, t.demuxer.Has tx key → t.isClosed tx = true

theorem isClosed_eq (hsub : t.subscribers[tx]? = some sub) : t.isClosed tx = !sub.live := by
  rw [isClosed, hsub, Subscriber.live, Bool.not_not]

theorem getElem?_subscribe_eq_some (h : (t.subscribe key).subscribers[tx]? = some sub) :
    t.subscribers[tx]? = some sub ∨
      tx = t.subscribers.length ∧ sub = { key, since := t.routed.length } := by
  rw [subscribe, List.getElem?_append] at h
  split at h
  · exact .inl h
  · next hge =>
    obtain ⟨hlt, hsub⟩ := List.getElem?_eq_some_iff.mp h
    rw [List.length_singleton] at hlt
    rw [List.getElem_singleton] at hsub
    exact .inr ⟨by omega, hsub.symm⟩

theorem Sound.subscribed (h : t.Sound) (hidle : t.route = none)
    (hreplaces : ReplacesNone t (.subscribe key) u) : (t.subscribe key).Sound := by
  have hnotDue (tx : Nat) : t.due tx = [] ∧ (t.subscribe key).due tx = [] := by
    simp [due, subscribe, hidle]
  constructor
  · intro tx sub hsub hlive
    rcases getElem?_subscribe_eq_some hsub with hold | ⟨rfl, rfl⟩
    · refine Demuxer.has_subscribe.mpr (.inr ⟨h.registered tx sub hold hlive, fun hkey => ?_⟩)
      by_contra hne
      have hclosed := hreplaces key rfl hne tx (hkey ▸ h.registered tx sub hold hlive)
      rw [isClosed_eq hold, hlive] at hclosed
      cases hclosed
    · exact Demuxer.has_subscribe.mpr (.inl ⟨rfl, rfl⟩)
  · intro tx sub hsub hlive
    rw [(hnotDue tx).2, ← (hnotDue tx).1]
    rcases getElem?_subscribe_eq_some hsub with hold | ⟨rfl, rfl⟩
    · exact h.delivered tx sub hold hlive
    · show t.due _ = (t.routed.drop t.routed.length).filter _
      rw [(hnotDue _).1, List.drop_length, List.filter_nil]

/-- A live subscriber is among the targets of the frames it expects. -/
theorem mem_targets_iff (hbooks : t.Books) (h : t.Sound) (hsub : t.subscribers[tx]? = some sub)
    (hlive : sub.live = true) (frame : Frame) :
    tx ∈ t.demuxer.targets frame ↔ sub.key.matches frame = true := by
  rw [Demuxer.mem_targets]
  constructor
  · rintro ⟨key, hhas, hmatches⟩
    obtain rfl := hbooks.keys hhas (h.registered tx sub hsub hlive)
    exact hmatches
  · exact fun hmatches => ⟨sub.key, h.registered tx sub hsub hlive, hmatches⟩

theorem Sound.called (hbooks : t.Books) (h : t.Sound) (hidle : t.route = none) (frame : Frame) :
    (t.beginRoute ⟨t.routed.length, frame⟩).Sound := by
  refine ⟨h.registered, fun tx sub hsub hlive => ?_⟩
  have hsince := hbooks.since sub (List.mem_of_getElem? hsub)
  have hdelivered := h.delivered tx sub hsub hlive
  rw [due, hidle, List.append_nil] at hdelivered
  show sub.delivered ++ (if tx ∈ t.demuxer.targets frame then _ else []) =
    sub.expected (t.routed ++ [⟨t.routed.length, frame⟩])
  rw [Subscriber.expected_snoc hsince, hdelivered]
  simp only [mem_targets_iff hbooks h hsub hlive]

theorem Sound.sent (hbooks : t.Books) (h : t.Sound) {rest : List Nat}
    (hroute : t.route = some route) (hremaining : route.remaining = tx :: rest)
    (hsub : t.subscribers[tx]? = some sub) :
    Sound { t.setSubscriber tx (sub.put route.frame) with
      route := some { route with remaining := rest, count := route.count + 1 } } := by
  have hnotIn : tx ∉ rest :=
    (List.nodup_cons.mp (hremaining ▸ (hbooks.running route hroute).nodup)).1
  constructor
  · intro tx' sub' hsub' hlive
    have hsub' : (t.setSubscriber tx (sub.put route.frame)).subscribers[tx']? = some sub' := hsub'
    rw [getElem?_setSubscriber hsub] at hsub'
    split at hsub'
    · next heq =>
      obtain rfl := Option.some.inj hsub'
      exact heq ▸ h.registered tx sub hsub hlive
    · exact h.registered tx' sub' hsub' hlive
  · intro tx' sub' hsub' hlive
    have hsub' : (t.setSubscriber tx (sub.put route.frame)).subscribers[tx']? = some sub' := hsub'
    show sub'.delivered ++ (if tx' ∈ rest then [route.frame] else []) = sub'.expected t.routed
    rw [getElem?_setSubscriber hsub] at hsub'
    split at hsub'
    · next heq =>
      obtain rfl := Option.some.inj hsub'
      subst heq
      have hdelivered := h.delivered tx' sub hsub hlive
      rw [due, hroute] at hdelivered
      simp only [hremaining, List.mem_cons_self, if_true] at hdelivered
      rw [if_neg hnotIn, List.append_nil, Subscriber.delivered_put, hdelivered]
      rfl
    · next hne =>
      have hdelivered := h.delivered tx' sub' hsub' hlive
      rw [due, hroute] at hdelivered
      simpa only [hremaining, List.mem_cons, hne, false_or] using hdelivered

theorem Sound.passedOver (h : t.Sound) {rest : List Nat} (hroute : t.route = some route)
    (hremaining : route.remaining = tx :: rest) (hsub : t.subscribers[tx]? = some sub)
    (hdropped : sub.live = false) :
    Sound { t with route := some { route with remaining := rest } } := by
  refine ⟨h.registered, fun tx' sub' hsub' hlive => ?_⟩
  have hne : tx' ≠ tx := by
    rintro rfl
    obtain rfl := Option.some.inj (hsub.symm.trans hsub')
    rw [hlive] at hdropped
    cases hdropped
  have hdelivered := h.delivered tx' sub' hsub' hlive
  rw [due, hroute] at hdelivered
  show sub'.delivered ++ (if tx' ∈ rest then [route.frame] else []) = sub'.expected t.routed
  simpa only [hremaining, List.mem_cons, hne, false_or] using hdelivered

theorem Sound.returned (h : t.Sound) (hroute : t.route = some route)
    (hremaining : route.remaining = []) :
    Sound { t with route := none, returned := t.returned ++ [route.count] } := by
  refine ⟨h.registered, fun tx sub hsub hlive => ?_⟩
  have hdelivered := h.delivered tx sub hsub hlive
  rw [due, hroute] at hdelivered
  show sub.delivered ++ [] = sub.expected t.routed
  simpa only [hremaining, List.not_mem_nil, if_false] using hdelivered

theorem Sound.cleaned (h : t.Sound) : Sound { t with demuxer := t.demuxer.cleanup t.isClosed } := by
  refine ⟨fun tx sub hsub hlive => ?_, h.delivered⟩
  refine Demuxer.has_cleanup.mpr ⟨h.registered tx sub hsub hlive, ?_⟩
  have hclosed : t.isClosed tx = !sub.live := isClosed_eq hsub
  rw [hclosed, hlive]
  rfl

theorem Sound.changed (h : t.Sound) (hsub : t.subscribers[tx]? = some sub)
    (hsame : sub.Same sub') : (t.setSubscriber tx sub').Sound := by
  constructor
  · intro tx' new hnew hlive
    rw [getElem?_setSubscriber hsub] at hnew
    split at hnew
    · next heq =>
      obtain rfl := Option.some.inj hnew
      rw [heq, hsame.key]
      exact h.registered tx sub hsub (hsame.live hlive)
    · exact h.registered tx' new hnew hlive
  · intro tx' new hnew hlive
    rw [getElem?_setSubscriber hsub] at hnew
    show new.delivered ++ t.due tx' = new.expected t.routed
    split at hnew
    · next heq =>
      obtain rfl := Option.some.inj hnew
      rw [heq, hsame.delivered, hsame.expected]
      exact h.delivered tx sub hsub (hsame.live hlive)
    · exact h.delivered tx' new hnew hlive

theorem Sound.step (hbooks : t.Books) (h : t.Sound) (hreplaces : ReplacesNone t event u)
    (hstep : DemuxerRun.step t event = some u) : u.Sound := by
  cases step_cases hstep with
  | subscribed key hidle => exact h.subscribed hidle hreplaces
  | called frame hidle => exact h.called hbooks hidle frame
  | sent route tx rest sub hroute hremaining hsub hlive =>
    exact h.sent hbooks hroute hremaining hsub
  | passedOver route tx rest sub hroute hremaining hsub hdropped =>
    exact h.passedOver hroute hremaining hsub hdropped
  | returned route hroute hremaining => exact h.returned hroute hremaining
  | cleaned hidle => exact h.cleaned
  | changed event tx sub sub' hsub hsame => exact h.changed hsub hsame

/-! ### `route` returns -/

/-- After some such steps the state satisfies `P`. -/
def Leads (t : DemuxerRun) (P : DemuxerRun → Prop) : Prop :=
  ∃ events u, (∀ event ∈ events, event.isProgress = true) ∧ run step t events = some u ∧ P u

theorem leads_of_now {P : DemuxerRun → Prop} (h : P t) : t.Leads P :=
  ⟨[], t, by simp, rfl, h⟩

theorem leads_of_step {P : DemuxerRun → Prop} (hprogress : event.isProgress = true)
    (hstep : step t event = some u) (h : u.Leads P) : t.Leads P := by
  obtain ⟨events, v, hevents, hrun, hv⟩ := h
  refine ⟨event :: events, v, List.forall_mem_cons.mpr ⟨hprogress, hevents⟩, ?_, hv⟩
  rw [run_cons, hstep]
  exact hrun

/-- A live subscriber drains its channel. -/
theorem leads_drained {P : DemuxerRun → Prop} {queue : List Numbered} (hbooks : t.Books)
    (hsub : t.subscribers[tx]? = some sub) (hlive : sub.live = true)
    (hqueue : sub.channel.queue = queue)
    (h : ∀ (u : DemuxerRun) (sub' : Subscriber), u.Books → u.route = t.route →
      u.subscribers[tx]? = some sub' → sub'.live = true → sub'.channel.queue = [] → u.Leads P) :
    t.Leads P := by
  induction queue generalizing t sub with
  | nil => exact h t sub hbooks rfl hsub hlive hqueue
  | cons first rest ih =>
    let sub' : Subscriber := { sub with
      channel := { sub.channel with queue := rest }, received := sub.received ++ [first] }
    have hstep : step t (.receive tx) = some (t.setSubscriber tx sub') := by
      simp [step, hsub, hlive, Mpsc.recv, hqueue, sub']
    have hsub' : (t.setSubscriber tx sub').subscribers[tx]? = some sub' := by
      rw [getElem?_setSubscriber hsub, if_pos rfl]
    exact leads_of_step rfl hstep (ih (hbooks.step hstep) hsub' hlive rfl h)

/-- **`route` returns**, if the live subscribers drain their channels. -/
theorem route_returns (hbooks : t.Books) {remaining : List Nat} (hroute : t.route = some route)
    (hremaining : route.remaining = remaining) : t.Leads fun u => u.route = none := by
  induction remaining generalizing t route with
  | nil =>
    have hstep : step t .finish =
        some { t with route := none, returned := t.returned ++ [route.count] } := by
      simp only [step, hroute, hremaining]
    exact leads_of_step rfl hstep (leads_of_now rfl)
  | cons tx rest ih =>
    obtain ⟨sub, hsub, -⟩ := (hbooks.running route hroute).fresh tx (by simp [hremaining])
    cases hlive : sub.live with
    | false =>
      have hclosed : sub.channel.trySend route.frame = .error .closed :=
        Mpsc.trySend_eq_closed.mpr (by simpa [Subscriber.live] using hlive)
      have hstep : step t .send =
          some { t with route := some { route with remaining := rest } } := by
        simp only [step, hroute, hremaining, send, hsub, Option.bind_some, hclosed]
      exact leads_of_step rfl hstep (ih (hbooks.step hstep) rfl rfl)
    | true =>
      refine leads_drained hbooks hsub hlive rfl
        fun u sub' hbooks' hroute' hsub' hlive' hempty => ?_
      have hopen : sub'.channel.closed = false := by simpa [Subscriber.live] using hlive'
      have hcapacity := hbooks'.capacity sub' (List.mem_of_getElem? hsub')
      have hstep : step u .send = some { u.setSubscriber tx (sub'.put route.frame) with
          route := some { route with remaining := rest, count := route.count + 1 } } := by
        simp [step, hroute', hroute, hremaining, send, hsub', Mpsc.trySend, Mpsc.isFull, hopen,
          hcapacity, hempty, Subscriber.put]
      exact leads_of_step rfl hstep (ih (hbooks'.step hstep) rfl rfl)

/-! ### Delivery -/

/-- What is promised between the calls of `route`, and during one. -/
structure Delivers (t : DemuxerRun) : Prop where
  /-- a live subscriber was given all frames for it since its subscription, once, in order -/
  delivered : t.route = none → ∀ (tx : Nat) (sub : Subscriber), t.subscribers[tx]? = some sub →
    sub.live = true → sub.delivered = sub.expected t.routed
  /-- every call has returned the number of subscribers that got its frame -/
  returned : t.route = none → t.returned.length = t.routed.length
  counted : ∀ k count, t.returned[k]? = some count → count = t.gotCount k
  /-- a call returns, if live subscribers keep draining -/
  returns : ∀ route, t.route = some route → t.Leads fun u => u.route = none

theorem Sound.delivers (hbooks : t.Books) (h : t.Sound) : t.Delivers where
  delivered hidle tx sub hsub hlive := by
    have hdelivered := h.delivered tx sub hsub hlive
    rwa [due, hidle, List.append_nil] at hdelivered
  returned := hbooks.idle
  counted := hbooks.counted
  returns route hroute := route_returns hbooks hroute rfl

theorem books_start : start.Books where
  entries tx key hhas := by
    cases key with
    | all => cases hhas
    | _ => exact absurd ((AList.lookup_empty _).symm.trans hhas) (by simp)
  globals := List.nodup_nil
  since _ hmem := by cases hmem
  numbers _ hmem := by cases hmem
  capacity _ hmem := by cases hmem
  idle _ := rfl
  running _ hroute := by cases hroute
  counted _ _ hk := by cases hk

/-- **Every live subscriber gets its frames**, in every run in which no subscription replaces a
live one. -/
theorem delivers_of_replacesNone (events : List DemuxerEvent)
    (hreplaces : EachStep step ReplacesNone start events) : Always step Delivers start events := by
  have hsound : start.Sound := ⟨fun _ _ hsub => (by cases hsub), fun _ _ hsub => (by cases hsub)⟩
  have hinv : Always step (fun t : DemuxerRun => t.Books ∧ t.Sound) start events :=
    always_of_eachStep ⟨books_start, hsound⟩
      (fun t event u h hreplaces hstep => ⟨h.1.step hstep, h.2.step h.1 hreplaces hstep⟩) hreplaces
  exact hinv.mono fun _ h => h.2.delivers h.1

/-! ### Two runs -/

instance : Decidable (ReplacesNone t event u) :=
  match event with
  | .subscribe (.source source) =>
    decidable_of_iff (∀ tx ∈ t.demuxer.sourceSubscribers.lookup source, t.isClosed tx = true)
      ⟨by rintro h _ ⟨⟩ - tx; exact h tx, fun h => h _ rfl (by simp)⟩
  | .subscribe (.channel channel) =>
    decidable_of_iff (∀ tx ∈ t.demuxer.channelSubscribers.lookup channel, t.isClosed tx = true)
      ⟨by rintro h _ ⟨⟩ - tx; exact h tx, fun h => h _ rfl (by simp)⟩
  | .subscribe .all => isTrue (by rintro _ ⟨⟩ h; exact absurd rfl h)
  | .route _ | .send | .finish | .cleanup | .receive _ | .drop _ => isTrue (by rintro _ ⟨⟩)

def exampleRouted : Frame := .audio ⟨[1, 4, 1, 4, 2, 1, 3, 5], rfl⟩ [0, 1]

/-- A frame for a source, its channel and a global subscriber; the first subscriber of the source
has dropped its receiver. -/
def exampleDelivered : List DemuxerEvent :=
  [.subscribe (.source exampleRouted.source), .drop 0, .subscribe (.source exampleRouted.source),
    .subscribe (.channel .audio), .subscribe .all, .cleanup, .route exampleRouted, .send, .send,
    .send, .finish, .receive 1]

theorem delivers_dropped : Always step Delivers start exampleDelivered :=
  delivers_of_replacesNone exampleDelivered (by decide)

/-- The second subscription for a source takes the place of the first, which is live. -/
def exampleReplaced : List DemuxerEvent :=
  [.subscribe (.source exampleRouted.source), .subscribe (.source exampleRouted.source),
    .route exampleRouted, .send, .finish]

theorem replaced_getsNothing :
    ¬ ∀ events : List DemuxerEvent, Always step Delivers start events := by
  intro h
  have hrun : (run step start exampleReplaced).map (fun t => (t.route.isNone,
      t.subscribers.head?.map fun sub => (sub.live, sub.delivered, sub.expected t.routed))) =
      some (true, some (true, [], [⟨0, exampleRouted⟩])) := by decide
  obtain ⟨t, hdelivers, heq⟩ := (h exampleReplaced).observed hrun
  obtain ⟨hidle, hfirst⟩ := Prod.mk.inj heq
  obtain ⟨sub, hsub, hsub'⟩ := Option.map_eq_some_iff.mp hfirst
  obtain ⟨hlive, hlists⟩ := Prod.mk.inj hsub'
  obtain ⟨hdelivered, hexpected⟩ := Prod.mk.inj hlists
  rw [List.head?_eq_getElem?] at hsub
  have hall := hdelivers.delivered (Option.isNone_iff_eq_none.mp hidle) 0 sub hsub hlive
  rw [hdelivered, hexpected] at hall
  cases hall

end DemuxerRun

end Kodama
