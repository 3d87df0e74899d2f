import Kodama.Lib.Machine
import Kodama.Lib.Text

/-!
# The network monitor (apps/kodama-firmware/src/camera.rs, `network_monitor`)

The monitor looks up the interface of the default route twice a second. One that differs from
the interface it signalled last is looked up again a second later, and signalled if it still
differs; the camera's loop then connects anew. A route that is gone is never signalled.

- `default_interface`: the lookup finds the first default route of the kernel's table.
- `signals_settled`: the signals are one chain of changes from one interface to a different one.
  For each there were two lookups in a row, at least a second apart, that both found an interface
  other than the last.
- `monitor_follows`: two lookups in a row that find the same interface are enough for the monitor
  to have signalled it.

The clock counts milliseconds. A sleep takes at least as long as it says.
-/

namespace Kodama

open Lib Lib.Machine

/-! ## The default route -/

/-- Destination 00000000 = default route. -/
def defaultDestination : Text := "00000000".toList

/-- The interface of a line of the table, if it is a default route. -/
def defaultRouteOf (line : Text) : Option Text :=
  let fields := line.splitWhitespace
  if 2 ≤ fields.length ∧ fields[1]? = some defaultDestination then fields[0]? else none

/-- Read the default route interface from /proc/net/route, or else from what `route get default`
prints. -/
def getDefaultInterface (procNetRoute routeGet : Option Text) : Option Text :=
  match procNetRoute with
  | some content => (content.lines.drop 1).findSome? defaultRouteOf
  | none => routeGet.bind fun text =>
    text.lines.findSome? fun line =>
      (line.trim.stripPrefix "interface:".toList).map Text.trim

/-- An entry of the kernel's table. -/
structure RouteEntry where
  iface : Text
  destination : Text
  rest : List Text

namespace RouteEntry

def fields (entry : RouteEntry) : List Text := entry.iface :: entry.destination :: entry.rest

/-- A line of the table. -/
structure Line (entry : RouteEntry) (line : Text) : Prop where
  words : Text.Words entry.fields line
  ends : ∀ c ∈ line, c ≠ '\n' ∧ c ≠ '\r'

end RouteEntry

theorem defaultRouteOf_line {entry : RouteEntry} {line : Text} (h : entry.Line line) :
    defaultRouteOf line =
      if entry.destination = defaultDestination then some entry.iface else none := by
  rw [defaultRouteOf]
  simp only [h.words.split, RouteEntry.fields, List.length_cons, List.getElem?_cons_succ,
    List.getElem?_cons_zero, Option.some.injEq, Nat.le_add_left, true_and]

theorem findSome?_lines {entries : List RouteEntry} {ls : List Text}
    (h : List.Forall₂ RouteEntry.Line entries ls) :
    ls.findSome? defaultRouteOf =
      (entries.find? fun entry => entry.destination = defaultDestination).map
        RouteEntry.iface := by
  induction h with
  | nil => rfl
  | @cons entry line entries ls hline _ ih =>
    rw [List.findSome?_cons, defaultRouteOf_line hline]
    by_cases hdefault : entry.destination = defaultDestination
    · rw [if_pos hdefault, List.find?_cons_of_pos (by simpa using hdefault)]
      rfl
    · rw [if_neg hdefault, List.find?_cons_of_neg (by simpa using hdefault)]
      exact ih

theorem forall_ends {entries : List RouteEntry} {ls : List Text}
    (h : List.Forall₂ RouteEntry.Line entries ls) :
    ∀ line ∈ ls, ∀ c ∈ line, c ≠ '\n' ∧ c ≠ '\r' := by
  induction h with
  | nil => nofun
  | cons hline _ ih => exact List.forall_mem_cons.mpr ⟨hline.ends, ih⟩

/-- **The lookup finds the first default route.** In a table with a header and a line for each
entry, however the fields are spaced. -/
theorem default_interface {header : Text} {entries : List RouteEntry} {ls : List Text}
    (hheader : ∀ c ∈ header, c ≠ '\n' ∧ c ≠ '\r')
    (hlines : List.Forall₂ RouteEntry.Line entries ls) (routeGet : Option Text) :
    getDefaultInterface (some ((header :: ls).flatMap fun line => line ++ ['\n'])) routeGet =
      (entries.find? fun entry => entry.destination = defaultDestination).map
        RouteEntry.iface := by
  have hends := List.forall_mem_cons.mpr ⟨hheader, forall_ends hlines⟩
  rw [getDefaultInterface, Text.lines_flatMap hends, List.drop_one, List.tail_cons,
    findSome?_lines hlines]

/-- The ends of a line, checked character by character. -/
theorem forall_of_all {line : Text} (h : (line.all fun c => c != '\n' && c != '\r') = true) :
    ∀ c ∈ line, c ≠ '\n' ∧ c ≠ '\r' := by
  intro c hc
  have hends := List.all_eq_true.mp h c hc
  rw [Bool.and_eq_true, bne_iff_ne, bne_iff_ne] at hends
  exact hends

/-- Two entries, of which the second is a default route. -/
def twoRoutes : List RouteEntry :=
  [⟨"eth0".toList, "0002A8C0".toList, []⟩, ⟨"wwan0".toList, "00000000".toList, ["0001".toList]⟩]

theorem twoRoutes_interface :
    getDefaultInterface (some (["Iface\tDestination".toList, "eth0\t0002A8C0  ".toList,
      "wwan0\t00000000\t0001".toList].flatMap fun line => line ++ ['\n'])) none =
        some "wwan0".toList := by
  have hlines : List.Forall₂ RouteEntry.Line twoRoutes
      ["eth0\t0002A8C0  ".toList, "wwan0\t00000000\t0001".toList] :=
    .cons ⟨by decide, forall_of_all (by decide)⟩ (.cons ⟨by decide, forall_of_all (by decide)⟩ .nil)
  have hheader : ∀ c ∈ "Iface\tDestination".toList, c ≠ '\n' ∧ c ≠ '\r' := forall_of_all (by decide)
  exact (default_interface hheader hlines none).trans (by decide)

/-! ## The monitor -/

/-- Where the loop stands. -/
inductive MonitorPhase where
  | sleeping
  /-- A different interface was seen. -/
  | debouncing (seenAt : Nat) (seen : Text)

/-- What a signal came from. -/
structure RouteChange where
  before : Option Text
  seenAt : Nat
  seen : Text
  settledAt : Nat
  settled : Text

/-- The monitor's loop; `due` is when its sleep is over. `reads` and `changes` record what was
looked up and what was signalled. -/
structure NetworkMonitor where
  lastSignaled : Option Text
  due : Nat
  phase : MonitorPhase := .sleeping
  generation : UInt64 := 0
  reads : List (Nat × Option Text) := []
  changes : List RouteChange := []

/-- The monitor wakes up, and reads these texts. -/
structure Wake where
  now : Nat
  procNetRoute : Option Text
  routeGet : Option Text

namespace NetworkMonitor

/-- The monitor as it starts. -/
def start (now : Nat) (initial : Option Text) : NetworkMonitor where
  lastSignaled := initial
  due := now + 500

/-- The head of the loop. -/
def sleep (s : NetworkMonitor) (now : Nat) : NetworkMonitor :=
  { s with phase := .sleeping, due := now + 500 }

/-- Definitive change to a different real interface. -/
def signal (s : NetworkMonitor) (seenAt : Nat) (seen : Text) (now : Nat) (settled : Text) :
    NetworkMonitor :=
  let change : RouteChange := { before := s.lastSignaled, seenAt, seen, settledAt := now, settled }
  { s with
    lastSignaled := some settled
    generation := s.generation + 1
    changes := s.changes ++ [change] }.sleep now

/-- What a lookup leads to. -/
def turn (s : NetworkMonitor) (now : Nat) (route : Option Text) : NetworkMonitor :=
  if route = s.lastSignaled then s.sleep now
  else
    match route with
    | none => s.sleep now
    | some iface =>
      match s.phase with
      | .sleeping => { s with phase := .debouncing now iface, due := now + 1000 }
      | .debouncing seenAt seen => s.signal seenAt seen now iface

/-- The sleep is over. -/
def wake (s : NetworkMonitor) (now : Nat) (route : Option Text) : NetworkMonitor :=
  { s with reads := s.reads ++ [(now, route)] }.turn now route

def step (s : NetworkMonitor) (event : Wake) : Option NetworkMonitor :=
  if s.due ≤ event.now then
    some (s.wake event.now (getDefaultInterface event.procNetRoute event.routeGet))
  else none

/-! ## The invariant -/

/-- The interface signalled last. -/
def lastOf (initial : Option Text) (changes : List RouteChange) : Option Text :=
  (changes.getLast?.map fun change => some change.settled).getD initial

/-- What a change was seen as: two lookups in a row, at least a second apart, that both found an
interface other than the one before. -/
structure Settled (reads : List (Nat × Option Text)) (change : RouteChange) : Prop where
  seen : some change.seen ≠ change.before
  settled : some change.settled ≠ change.before
  apart : change.seenAt + 1000 ≤ change.settledAt
  reads : [(change.seenAt, some change.seen), (change.settledAt, some change.settled)] <:+: reads

/-- What the phase says about the lookups: while the monitor sleeps, an interface found last is the
one signalled last; while it debounces, the one before was. -/
def PhaseOk (s : NetworkMonitor) : Prop :=
  match s.phase with
  | .sleeping => ∀ t iface, s.reads.getLast? = some (t, some iface) → s.lastSignaled = some iface
  | .debouncing seenAt seen => some seen ≠ s.lastSignaled ∧ s.due = seenAt + 1000 ∧
    ∃ earlier, s.reads = earlier ++ [(seenAt, some seen)] ∧
      ∀ t iface, earlier.getLast? = some (t, some iface) → s.lastSignaled = some iface

/-- When the monitor wakes up next, after a signal. -/
def dueAfter : MonitorPhase → Nat
  | .sleeping => 500
  | .debouncing .. => 1500

structure Inv (initial : Option Text) (s : NetworkMonitor) : Prop where
  last : s.lastSignaled = lastOf initial s.changes
  generation : s.generation = .ofNat s.changes.length
  phase : s.PhaseOk
  settled : ∀ change ∈ s.changes, Settled s.reads change
  before : ∀ earlier change later, s.changes = earlier ++ change :: later →
    change.before = lastOf initial earlier
  due : ∀ change ∈ s.changes, change.settledAt + dueAfter s.phase ≤ s.due
  apart : s.changes.Pairwise fun change change' => change.settledAt + 1500 ≤ change'.settledAt

variable {initial : Option Text} {s t : NetworkMonitor} {now : Nat} {route : Option Text}

theorem inv_start (now : Nat) (initial : Option Text) : (start now initial).Inv initial where
  last := rfl
  generation := rfl
  phase := nofun
  settled := nofun
  before earlier _ _ h := absurd h (by simp [start])
  due := nofun
  apart := .nil

/-- A later lookup leaves what a change was seen as. -/
theorem Settled.append {reads : List (Nat × Option Text)} {change : RouteChange}
    (h : Settled reads change) (read : Nat × Option Text) : Settled (reads ++ [read]) change where
  seen := h.seen
  settled := h.settled
  apart := h.apart
  reads := h.reads.trans (List.prefix_append _ _).isInfix

/-- A lookup that is no change. -/
theorem inv_sleep (h : s.Inv initial) (hdue : s.due ≤ now)
    (hroute : ∀ iface, route = some iface → s.lastSignaled = some iface) :
    ({ s with reads := s.reads ++ [(now, route)] }.sleep now).Inv initial where
  last := h.last
  generation := h.generation
  phase t iface hlast := by
    rw [sleep, List.getLast?_concat] at hlast
    exact hroute iface (Prod.mk.inj (Option.some.inj hlast)).2
  settled change hchange := (h.settled change hchange).append _
  before := h.before
  due change hchange := by
    have hbefore := h.due change hchange
    show change.settledAt + 500 ≤ now + 500
    omega
  apart := h.apart

/-- A different interface is seen. -/
theorem inv_debounce (h : s.Inv initial) (hdue : s.due ≤ now) (hphase : s.phase = .sleeping)
    {current : Text} (hroute : some current ≠ s.lastSignaled) :
    ({ s with
      reads := s.reads ++ [(now, some current)]
      phase := .debouncing now current
      due := now + 1000 } : NetworkMonitor).Inv initial where
  last := h.last
  generation := h.generation
  phase := by
    have hbefore := h.phase
    rw [PhaseOk, hphase] at hbefore
    exact ⟨hroute, rfl, s.reads, rfl, hbefore⟩
  settled change hchange := (h.settled change hchange).append _
  before := h.before
  due change hchange := by
    have hbefore := h.due change hchange
    rw [hphase] at hbefore
    show change.settledAt + 1500 ≤ now + 1000
    rw [dueAfter] at hbefore
    omega
  apart := h.apart

theorem lastOf_concat (initial : Option Text) (changes : List RouteChange) (change : RouteChange) :
    lastOf initial (changes ++ [change]) = some change.settled := by
  rw [lastOf, List.getLast?_concat]
  rfl

/-- A change has settled. -/
theorem inv_signal (h : s.Inv initial) (hdue : s.due ≤ now) {seenAt : Nat} {seen settled : Text}
    (hphase : s.phase = .debouncing seenAt seen) (hroute : some settled ≠ s.lastSignaled) :
    ({ s with reads := s.reads ++ [(now, some settled)] }.signal seenAt seen now settled).Inv
      initial := by
  have hbefore := h.phase
  rw [PhaseOk, hphase] at hbefore
  obtain ⟨hseen, hat, earlier, hreads, -⟩ := hbefore
  have hapart : ∀ change ∈ s.changes, change.settledAt + 1500 ≤ now := by
    intro change hchange
    have hchanged := h.due change hchange
    rw [hphase, dueAfter] at hchanged
    omega
  have hlong : seenAt + 1000 ≤ now := hat ▸ hdue
  refine
    { last := ?_
      generation := ?_
      phase := ?_
      settled := ?_
      before := ?_
      due := ?_
      apart := ?_ }
  · show some settled = lastOf initial (s.changes ++ [_])
    rw [lastOf_concat]
  · show s.generation + 1 = .ofNat (s.changes ++ [_]).length
    rw [h.generation, List.length_append, List.length_singleton, UInt64.ofNat_add]
    rfl
  · intro t iface hlast
    rw [signal, sleep, List.getLast?_concat] at hlast
    exact (Prod.mk.inj (Option.some.inj hlast)).2
  · intro change hchange
    rcases List.mem_append.mp hchange with hchange | hchange
    · exact (h.settled change hchange).append _
    · rw [List.mem_singleton.mp hchange]
      refine { seen := hseen, settled := hroute, apart := hlong, reads := ⟨earlier, [], ?_⟩ }
      show earlier ++ [_, _] ++ [] = s.reads ++ [(now, some settled)]
      rw [hreads, List.append_nil, List.append_assoc]
      rfl
  · intro earlier' change later heq
    rcases List.eq_nil_or_concat later with rfl | ⟨later, last, rfl⟩
    · obtain ⟨rfl, hchange⟩ := List.append_inj' heq rfl
      rw [← List.head_eq_of_cons_eq hchange]
      exact h.last
    · rw [List.concat_eq_append, ← List.cons_append, ← List.append_assoc] at heq
      exact h.before earlier' change later (List.append_inj' heq rfl).1
  · intro change hchange
    show change.settledAt + 500 ≤ now + 500
    rcases List.mem_append.mp hchange with hchange | hchange
    · have := hapart change hchange
      omega
    · obtain rfl := List.mem_singleton.mp hchange
      exact Nat.le_refl _
  · refine List.pairwise_append.mpr ⟨h.apart, List.pairwise_singleton _ _, ?_⟩
    intro change hchange change' hchange'
    rw [List.mem_singleton.mp hchange']
    exact hapart change hchange

/-- Every turn keeps the invariant. -/
theorem inv_wake (h : s.Inv initial) (hdue : s.due ≤ now) : (s.wake now route).Inv initial := by
  unfold wake turn
  split
  · next hlast =>
    exact inv_sleep h hdue fun iface hroute => hlast.symm.trans hroute
  · next hlast =>
    split
    · exact inv_sleep h hdue nofun
    · split
      · next hphase => exact inv_debounce h hdue hphase hlast
      · next seenAt seen hphase => exact inv_signal h hdue hphase hlast

theorem always_inv (now : Nat) (initial : Option Text) (events : List Wake) :
    Always step (Inv initial) (start now initial) events := by
  refine always_of_step (inv_start now initial) (fun s event t h hstep => ?_) events
  rw [step] at hstep
  split at hstep
  · next hdue => exact Option.some.inj hstep ▸ inv_wake h hdue
  · cases hstep

/-- What the signals are. -/
structure Signalled (initial : Option Text) (s : NetworkMonitor) : Prop where
  generation : s.generation = .ofNat s.changes.length
  settled : ∀ change ∈ s.changes, Settled s.reads change
  before : ∀ earlier change later, s.changes = earlier ++ change :: later →
    change.before = lastOf initial earlier
  apart : s.changes.Pairwise fun change change' => change.settledAt + 1500 ≤ change'.settledAt

/-- **Only settled changes are signalled.** In every run. -/
theorem signals_settled (now : Nat) (initial : Option Text) (events : List Wake) :
    Always step (Signalled initial) (start now initial) events :=
  (always_inv now initial events).mono fun _ h =>
    { generation := h.generation, settled := h.settled, before := h.before, apart := h.apart }

/-- **The monitor follows the route.** In every run, an interface that two lookups in a row have
found is the one signalled last, or the first one if there was no signal. -/
theorem monitor_follows (now : Nat) (initial : Option Text) (events : List Wake) :
    Always step
      (fun s => ∀ earlier t t' iface,
        s.reads = earlier ++ [(t, some iface), (t', some iface)] →
          lastOf initial s.changes = some iface)
      (start now initial) events := by
  refine (always_inv now initial events).mono fun s h earlier t t' iface hreads => ?_
  rw [← h.last]
  have hphase := h.phase
  have hsplit : s.reads = (earlier ++ [(t, some iface)]) ++ [(t', some iface)] := by
    rw [hreads, List.append_assoc]
    rfl
  cases hcase : s.phase with
  | sleeping =>
    rw [PhaseOk, hcase] at hphase
    exact hphase t' iface (by rw [hsplit, List.getLast?_concat])
  | debouncing seenAt seen =>
    rw [PhaseOk, hcase] at hphase
    -- the lookup before had found the same
    obtain ⟨-, -, before, hbefore, hlast⟩ := hphase
    obtain ⟨rfl, -⟩ := List.append_inj' (hbefore.symm.trans hsplit) rfl
    exact hlast t iface List.getLast?_concat

end NetworkMonitor

end Kodama
