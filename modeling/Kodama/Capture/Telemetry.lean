import Kodama.Lib.Machine
import Mathlib.Algebra.Order.Ring.Rat
import Mathlib.Tactic.Linarith

/-!
# Sparse telemetry (capture/telemetry.rs)

A camera sends its telemetry as a full packet first and on heartbeats, and in between as the
fields that moved by their threshold since the data sent last; the receiver merges every
packet into its state. Fields that the sample lacks are left out of every packet, and the
data sent last is replaced as a whole whenever anything is sent. Floats are exact rationals,
instants are nanoseconds and their difference is truncated subtraction. A packet arrives as
it was sent: the encoding is not modelled.

- `tracks_of_noSmallChange`: the receiver stays within the thresholds of the sample along
  every run in which nothing that stays unsent changes while something else is sent.
- `slowDrift_unseen`: a memory usage that climbs by less than its threshold per tick is
  never sent, since the uptime is.
- `mergeFull_eq_iff`: a full packet makes the receiver's state that of the sample exactly if
  the receiver holds none of the optional fields that the sample lacks.
-/

namespace Kodama

open Lib

/-- GPS position data. -/
structure GpsData where
  latitude : ℚ
  longitude : ℚ
  altitude : Option ℚ
  speed : Option ℚ
  heading : Option ℚ
  fixMode : UInt8
deriving DecidableEq

/-- Telemetry data from a camera. -/
structure TelemetryData where
  cpuUsage : ℚ := 0
  cpuTemp : Option ℚ := none
  memoryUsage : ℚ := 0
  diskUsage : ℚ := 0
  networkTxBytes : UInt64 := 0
  networkRxBytes : UInt64 := 0
  uptimeSecs : UInt64 := 0
  loadAverage : Vector ℚ 3 := #v[0, 0, 0]
  gps : Option GpsData := none
  motionLevel : Option ℚ := none
deriving DecidableEq

/-- `TelemetryData::default`. -/
def TelemetryData.default : TelemetryData := {}

/-- Thresholds for sparse telemetry updates. A field is only sent when it changes by more
than the threshold since the last sent value. -/
structure TelemetryThresholds where
  cpuUsage : ℚ
  cpuTemp : ℚ
  memoryUsage : ℚ
  diskUsage : ℚ
  networkBytes : UInt64
  loadAverage : ℚ
  latLon : ℚ
  altitude : ℚ
  speed : ℚ
  heading : ℚ
  motionLevel : ℚ

/-- `TelemetryThresholds::default`. -/
def TelemetryThresholds.default : TelemetryThresholds where
  cpuUsage := 5
  cpuTemp := 1
  memoryUsage := 5
  diskUsage := 5
  networkBytes := 10_240
  loadAverage := 1 / 10
  latLon := 1 / 10000
  altitude := 5
  speed := 1 / 2
  heading := 5
  motionLevel := 5 / 100

/-- Sparse GPS data. -/
structure SparseGps where
  latitude : ℚ
  longitude : ℚ
  altitude : Option ℚ
  speed : Option ℚ
  heading : Option ℚ
  fixMode : UInt8
deriving DecidableEq

def SparseGps.ofGps (g : GpsData) : SparseGps :=
  ⟨g.latitude, g.longitude, g.altitude, g.speed, g.heading, g.fixMode⟩

def SparseGps.toGps (g : SparseGps) : GpsData :=
  ⟨g.latitude, g.longitude, g.altitude, g.speed, g.heading, g.fixMode⟩

/-- Sparse telemetry payload. Only changed values are included between full heartbeats. -/
structure SparseTelemetry where
  /-- Whether this is a full heartbeat (all fields present). -/
  full : Bool
  cpuUsage : Option ℚ
  cpuTemp : Option ℚ
  memoryUsage : Option ℚ
  diskUsage : Option ℚ
  networkTxBytes : Option UInt64
  networkRxBytes : Option UInt64
  uptimeSecs : Option UInt64
  loadAverage : Option (Vector ℚ 3)
  gps : Option SparseGps
  motionLevel : Option ℚ
deriving DecidableEq

/-! ## What has changed enough to be sent -/

/-- `(c - p).abs() >= threshold`. -/
def moved (c p threshold : ℚ) : Bool := |c - p| ≥ threshold

/-- `u64::abs_diff`. -/
def absDiff (a b : UInt64) : UInt64 := if a < b then b - a else a - b

/-- An optional field is sent when it moves, and when it appears. -/
def appearedOrMoved (current previous : Option ℚ) (threshold : ℚ) : Bool :=
  match current, previous with
  | some c, some p => moved c p threshold
  | some _, none => true
  | _, _ => false

/-- `opt_diff_f64`. -/
def optDiffF64 (a b : Option ℚ) (threshold : ℚ) : Bool :=
  match a, b with
  | some av, some bv => moved av bv threshold
  | some _, none => true
  | none, some _ => true
  | none, none => false

def gpsMoved (current previous : Option GpsData) (thresholds : TelemetryThresholds) : Bool :=
  match current, previous with
  | some cg, some pg =>
    moved cg.latitude pg.latitude thresholds.latLon ||
    moved cg.longitude pg.longitude thresholds.latLon ||
    optDiffF64 cg.altitude pg.altitude thresholds.altitude ||
    optDiffF64 cg.speed pg.speed thresholds.speed ||
    optDiffF64 cg.heading pg.heading thresholds.heading
  | some _, none => true
  | _, _ => false

namespace SparseTelemetry

/-- Create a full heartbeat payload with all fields set. -/
def fromFull (data : TelemetryData) : SparseTelemetry where
  full := true
  cpuUsage := some data.cpuUsage
  cpuTemp := data.cpuTemp
  memoryUsage := some data.memoryUsage
  diskUsage := some data.diskUsage
  networkTxBytes := some data.networkTxBytes
  networkRxBytes := some data.networkRxBytes
  uptimeSecs := some data.uptimeSecs
  loadAverage := some data.loadAverage
  gps := data.gps.map SparseGps.ofGps
  motionLevel := data.motionLevel

/-- The fields of a diff payload: those that exceed thresholds. -/
def changes (current previous : TelemetryData) (thresholds : TelemetryThresholds) :
    SparseTelemetry where
  full := false
  cpuUsage :=
    if moved current.cpuUsage previous.cpuUsage thresholds.cpuUsage then some current.cpuUsage
    else none
  cpuTemp :=
    if appearedOrMoved current.cpuTemp previous.cpuTemp thresholds.cpuTemp then current.cpuTemp
    else none
  memoryUsage :=
    if moved current.memoryUsage previous.memoryUsage thresholds.memoryUsage then
      some current.memoryUsage
    else none
  diskUsage :=
    if moved current.diskUsage previous.diskUsage thresholds.diskUsage then
      some current.diskUsage
    else none
  networkTxBytes :=
    if absDiff current.networkTxBytes previous.networkTxBytes ≥ thresholds.networkBytes then
      some current.networkTxBytes
    else none
  networkRxBytes :=
    if absDiff current.networkRxBytes previous.networkRxBytes ≥ thresholds.networkBytes then
      some current.networkRxBytes
    else none
  uptimeSecs :=
    if current.uptimeSecs ≠ previous.uptimeSecs then some current.uptimeSecs else none
  loadAverage :=
    if (current.loadAverage.zip previous.loadAverage).any
        fun (c, p) => moved c p thresholds.loadAverage then
      some current.loadAverage
    else none
  gps := if gpsMoved current.gps previous.gps thresholds then current.gps.map SparseGps.ofGps
    else none
  motionLevel :=
    if appearedOrMoved current.motionLevel previous.motionLevel thresholds.motionLevel then
      current.motionLevel
    else none

/-- Some field of the payload is set. -/
def hasChanges (s : SparseTelemetry) : Bool :=
  s.cpuUsage.isSome || s.cpuTemp.isSome || s.memoryUsage.isSome || s.diskUsage.isSome ||
  s.networkTxBytes.isSome || s.networkRxBytes.isSome || s.uptimeSecs.isSome ||
  s.loadAverage.isSome || s.gps.isSome || s.motionLevel.isSome

/-- Create a diff payload containing only fields that exceed thresholds; `none` if nothing
changed enough to warrant sending. -/
def diff (current previous : TelemetryData) (thresholds : TelemetryThresholds) :
    Option SparseTelemetry :=
  let sparse := changes current previous thresholds
  if sparse.hasChanges then some sparse else none

/-- Merge this sparse update into a full state: the fields that are set. -/
def mergeInto (s : SparseTelemetry) (state : TelemetryData) : TelemetryData where
  cpuUsage := s.cpuUsage.getD state.cpuUsage
  cpuTemp := s.cpuTemp.or state.cpuTemp
  memoryUsage := s.memoryUsage.getD state.memoryUsage
  diskUsage := s.diskUsage.getD state.diskUsage
  networkTxBytes := s.networkTxBytes.getD state.networkTxBytes
  networkRxBytes := s.networkRxBytes.getD state.networkRxBytes
  uptimeSecs := s.uptimeSecs.getD state.uptimeSecs
  loadAverage := s.loadAverage.getD state.loadAverage
  gps := (s.gps.map SparseGps.toGps).or state.gps
  motionLevel := s.motionLevel.or state.motionLevel

end SparseTelemetry

/-! ## The sender loop and its receiver -/

/-- The state of the loop of `TelemetryCapture::start`. -/
structure TelemetrySender where
  thresholds : TelemetryThresholds
  heartbeatSecs : UInt32
  lastSent : Option TelemetryData
  lastHeartbeat : Nat

namespace TelemetrySender

/-- The loop as it is entered: the last heartbeat is overdue. -/
def start (thresholds : TelemetryThresholds) (heartbeatSecs : UInt32) (now : Nat) :
    TelemetrySender :=
  ⟨thresholds, heartbeatSecs, none, now - (heartbeatSecs.toNat + 1) * 1_000_000_000⟩

def isHeartbeat (s : TelemetrySender) (now : Nat) : Bool :=
  now - s.lastHeartbeat ≥ s.heartbeatSecs.toNat * 1_000_000_000

/-- One tick with the data collected; also the packet that goes out. The clock is read when
the heartbeat is decided and when a packet has gone out. -/
def tick (s : TelemetrySender) (data : TelemetryData) (now sentAt : Nat) :
    Option SparseTelemetry × TelemetrySender :=
  let isHeartbeat := s.isHeartbeat now
  let sparse :=
    match s.lastSent with
    | none => some (SparseTelemetry.fromFull data)
    | some prev =>
      if isHeartbeat then some (SparseTelemetry.fromFull data)
      else SparseTelemetry.diff data prev s.thresholds
  match sparse with
  | none => (none, s)
  | some payload => (some payload, { s with
      lastHeartbeat := if isHeartbeat || s.lastSent.isNone then sentAt else s.lastHeartbeat
      lastSent := some data })

end TelemetrySender

/-- A sender, the receiver's state, and the sample of the last tick. -/
structure TelemetryLink where
  sender : TelemetrySender
  receiver : TelemetryData
  sample : Option TelemetryData

namespace TelemetryLink

inductive Event where
  | tick (data : TelemetryData) (now sentAt : Nat)
  /-- The collection of the data fails. -/
  | collectFailed

def start (thresholds : TelemetryThresholds) (heartbeatSecs : UInt32) (now : Nat) :
    TelemetryLink :=
  ⟨.start thresholds heartbeatSecs now, .default, none⟩

def step (s : TelemetryLink) : Event → Option TelemetryLink
  | .tick data now sentAt =>
    let (packet, sender) := s.sender.tick data now sentAt
    let receiver := match packet with
      | some packet => packet.mergeInto s.receiver
      | none => s.receiver
    some ⟨sender, receiver, some data⟩
  | .collectFailed => some { s with sample := none }

end TelemetryLink

/-! ## Readings

A packet has one place for each of a sample's fields, or group of fields (`Slot`); the
numbers in a sample, which the thresholds are about, are its readings. -/

/-- What a packet carries or leaves out; the uptime apart. -/
inductive Slot where
  | cpuUsage | cpuTemp | memoryUsage | diskUsage | networkTxBytes | networkRxBytes
  | loadAverage | gps | motionLevel
deriving DecidableEq

instance {P : Slot → Prop} [DecidablePred P] : Decidable (∀ slot, P slot) :=
  decidable_of_iff (∀ slot ∈ [Slot.cpuUsage, .cpuTemp, .memoryUsage, .diskUsage,
      .networkTxBytes, .networkRxBytes, .loadAverage, .gps, .motionLevel], P slot)
    ⟨fun h slot => h slot (by cases slot <;> decide), fun h slot _ => h slot⟩

/-- The numeric fields. -/
inductive Reading where
  | cpuUsage | cpuTemp | memoryUsage | diskUsage | networkTxBytes | networkRxBytes
  | load1 | load5 | load15 | latitude | longitude | altitude | speed | heading | motionLevel
deriving DecidableEq

instance {P : Reading → Prop} [DecidablePred P] : Decidable (∀ f, P f) :=
  decidable_of_iff (∀ f ∈ [Reading.cpuUsage, .cpuTemp, .memoryUsage, .diskUsage,
      .networkTxBytes, .networkRxBytes, .load1, .load5, .load15, .latitude, .longitude,
      .altitude, .speed, .heading, .motionLevel], P f)
    ⟨fun h f => h f (by cases f <;> decide), fun h f _ => h f⟩

/-- The place of a reading in a packet. -/
def Reading.slot : Reading → Slot
  | cpuUsage => .cpuUsage
  | cpuTemp => .cpuTemp
  | memoryUsage => .memoryUsage
  | diskUsage => .diskUsage
  | networkTxBytes => .networkTxBytes
  | networkRxBytes => .networkRxBytes
  | load1 | load5 | load15 => .loadAverage
  | latitude | longitude | altitude | speed | heading => .gps
  | motionLevel => .motionLevel

/-- The value of a reading in a sample. -/
def TelemetryData.reading (d : TelemetryData) : Reading → Option ℚ
  | .cpuUsage => some d.cpuUsage
  | .cpuTemp => d.cpuTemp
  | .memoryUsage => some d.memoryUsage
  | .diskUsage => some d.diskUsage
  | .networkTxBytes => some d.networkTxBytes.toNat
  | .networkRxBytes => some d.networkRxBytes.toNat
  | .load1 => some d.loadAverage[0]
  | .load5 => some d.loadAverage[1]
  | .load15 => some d.loadAverage[2]
  | .latitude => d.gps.map GpsData.latitude
  | .longitude => d.gps.map GpsData.longitude
  | .altitude => d.gps.bind GpsData.altitude
  | .speed => d.gps.bind GpsData.speed
  | .heading => d.gps.bind GpsData.heading
  | .motionLevel => d.motionLevel

/-- The threshold of a reading. -/
def TelemetryThresholds.reading (t : TelemetryThresholds) : Reading → ℚ
  | .cpuUsage => t.cpuUsage
  | .cpuTemp => t.cpuTemp
  | .memoryUsage => t.memoryUsage
  | .diskUsage => t.diskUsage
  | .networkTxBytes | .networkRxBytes => t.networkBytes.toNat
  | .load1 | .load5 | .load15 => t.loadAverage
  | .latitude | .longitude => t.latLon
  | .altitude => t.altitude
  | .speed => t.speed
  | .heading => t.heading
  | .motionLevel => t.motionLevel

/-- Every threshold is positive. -/
def TelemetryThresholds.Positive (t : TelemetryThresholds) : Prop := ∀ f, 0 < t.reading f

/-- What has moved by its threshold, or appeared, since the data sent last. -/
def Due (thresholds : TelemetryThresholds) (current previous : TelemetryData) : Slot → Bool
  | .cpuUsage => moved current.cpuUsage previous.cpuUsage thresholds.cpuUsage
  | .cpuTemp => appearedOrMoved current.cpuTemp previous.cpuTemp thresholds.cpuTemp
  | .memoryUsage => moved current.memoryUsage previous.memoryUsage thresholds.memoryUsage
  | .diskUsage => moved current.diskUsage previous.diskUsage thresholds.diskUsage
  | .networkTxBytes =>
    absDiff current.networkTxBytes previous.networkTxBytes ≥ thresholds.networkBytes
  | .networkRxBytes =>
    absDiff current.networkRxBytes previous.networkRxBytes ≥ thresholds.networkBytes
  | .loadAverage => (current.loadAverage.zip previous.loadAverage).any
      fun (c, p) => moved c p thresholds.loadAverage
  | .gps => gpsMoved current.gps previous.gps thresholds
  | .motionLevel =>
    appearedOrMoved current.motionLevel previous.motionLevel thresholds.motionLevel

/-- Two samples have the same in a field. -/
def SameIn (a b : TelemetryData) : Slot → Prop
  | .cpuUsage => a.cpuUsage = b.cpuUsage
  | .cpuTemp => a.cpuTemp = b.cpuTemp
  | .memoryUsage => a.memoryUsage = b.memoryUsage
  | .diskUsage => a.diskUsage = b.diskUsage
  | .networkTxBytes => a.networkTxBytes = b.networkTxBytes
  | .networkRxBytes => a.networkRxBytes = b.networkRxBytes
  | .loadAverage => a.loadAverage = b.loadAverage
  | .gps => a.gps = b.gps
  | .motionLevel => a.motionLevel = b.motionLevel

/-- The readings of a field are determined by it. -/
theorem SameIn.reading_eq {a b : TelemetryData} {f : Reading} (h : SameIn a b f.slot) :
    a.reading f = b.reading f := by
  cases f <;> simp only [Reading.slot, SameIn] at h <;> simp only [TelemetryData.reading, h]

namespace SparseTelemetry

/-- The packet carries the field. -/
def carries (s : SparseTelemetry) : Slot → Bool
  | .cpuUsage => s.cpuUsage.isSome
  | .cpuTemp => s.cpuTemp.isSome
  | .memoryUsage => s.memoryUsage.isSome
  | .diskUsage => s.diskUsage.isSome
  | .networkTxBytes => s.networkTxBytes.isSome
  | .networkRxBytes => s.networkRxBytes.isSome
  | .loadAverage => s.loadAverage.isSome
  | .gps => s.gps.isSome
  | .motionLevel => s.motionLevel.isSome

variable {s : SparseTelemetry} {d p r : TelemetryData} {t : TelemetryThresholds} {slot : Slot}
  {f : Reading}

/-- Merging leaves the fields that the packet does not carry. -/
theorem mergeInto_of_not_carries (h : s.carries slot = false) :
    SameIn (s.mergeInto r) r slot := by
  cases slot <;>
    simp only [carries, Option.isSome_eq_false_iff, Option.isNone_iff_eq_none] at h <;>
    simp [SameIn, mergeInto, h]

theorem map_toGps_ofGps (gps : Option GpsData) :
    (gps.map SparseGps.ofGps).map SparseGps.toGps = gps := by
  cases gps <;> rfl

/-- A full packet carries what the sample has. -/
theorem fromFull_mergeInto (h : (fromFull d).carries slot = true) :
    SameIn ((fromFull d).mergeInto r) d slot := by
  cases slot <;> simp only [carries, fromFull, Option.isSome_map] at h <;>
    simp [SameIn, mergeInto, fromFull, Option.or_of_isSome, h, map_toGps_ofGps, - Option.map_map]

theorem reading_of_not_fromFull_carries (h : (fromFull d).carries f.slot = false) :
    d.reading f = none := by
  cases f <;> simp_all [Reading.slot, carries, fromFull, TelemetryData.reading]

theorem isSome_of_appearedOrMoved {c p : Option ℚ} {threshold : ℚ}
    (h : appearedOrMoved c p threshold = true) : c.isSome := by
  cases c with
  | some c => rfl
  | none => exact absurd h Bool.false_ne_true

theorem isSome_of_gpsMoved {c p : Option GpsData} (h : gpsMoved c p t = true) : c.isSome := by
  cases c with
  | some c => rfl
  | none => exact absurd h Bool.false_ne_true

theorem isSome_ite_none {α : Type} {b : Bool} {o : Option α} (h : b = true → o.isSome = true) :
    (if b then o else none).isSome = true ↔ b = true := by
  cases b with
  | false => simp
  | true => simp [h rfl]

/-- A diff carries what is due. -/
theorem changes_carries (slot : Slot) : (changes d p t).carries slot = Due t d p slot := by
  rw [Bool.eq_iff_iff]
  cases slot with
  | cpuTemp => exact isSome_ite_none isSome_of_appearedOrMoved
  | motionLevel => exact isSome_ite_none isSome_of_appearedOrMoved
  | gps => exact isSome_ite_none fun h => Option.isSome_map.trans (isSome_of_gpsMoved h)
  | _ => simp [carries, changes, Due]

theorem changes_mergeInto (h : Due t d p slot = true) :
    SameIn ((changes d p t).mergeInto r) d slot := by
  cases slot with
  | cpuTemp =>
    simp only [Due] at h
    show Option.or (if appearedOrMoved d.cpuTemp p.cpuTemp t.cpuTemp then d.cpuTemp else none)
      r.cpuTemp = d.cpuTemp
    rw [if_pos h, Option.or_of_isSome (isSome_of_appearedOrMoved h)]
  | motionLevel =>
    simp only [Due] at h
    show Option.or (if appearedOrMoved d.motionLevel p.motionLevel t.motionLevel then
      d.motionLevel else none) r.motionLevel = d.motionLevel
    rw [if_pos h, Option.or_of_isSome (isSome_of_appearedOrMoved h)]
  | gps =>
    simp only [Due] at h
    show Option.or (Option.map SparseGps.toGps (if gpsMoved d.gps p.gps t then
      d.gps.map SparseGps.ofGps else none)) r.gps = d.gps
    rw [if_pos h, map_toGps_ofGps, Option.or_of_isSome (isSome_of_gpsMoved h)]
  | _ =>
    simp only [Due, decide_eq_true_eq] at h
    simp [SameIn, mergeInto, changes, h]

/-! ## What is not due is near -/

theorem abs_lt_of_not_moved {c p threshold : ℚ} (h : moved c p threshold = false) :
    |p - c| < threshold := by
  rw [moved, decide_eq_false_iff_not, ge_iff_le, not_le] at h
  rwa [abs_sub_comm]

/-- `abs_diff` on 64 bits is the distance. -/
theorem abs_lt_of_absDiff_lt {a b threshold : UInt64} (h : ¬ absDiff a b ≥ threshold) :
    |(b.toNat : ℚ) - a.toNat| < threshold.toNat := by
  rw [ge_iff_le, UInt64.not_le, UInt64.lt_iff_toNat_lt, absDiff] at h
  rw [abs_lt]
  split at h
  · next hlt =>
    rw [UInt64.toNat_sub_of_le _ _ (UInt64.le_of_lt hlt)] at h
    rw [UInt64.lt_iff_toNat_lt] at hlt
    have h : (b.toNat : ℚ) < threshold.toNat + a.toNat := by exact_mod_cast (by omega)
    have hlt : (a.toNat : ℚ) < b.toNat := by exact_mod_cast hlt
    constructor <;> linarith
  · next hge =>
    rw [UInt64.not_lt] at hge
    rw [UInt64.toNat_sub_of_le _ _ hge] at h
    rw [UInt64.le_iff_toNat_le] at hge
    have h : (a.toNat : ℚ) < threshold.toNat + b.toNat := by exact_mod_cast (by omega)
    have hge : (b.toNat : ℚ) ≤ a.toNat := by exact_mod_cast hge
    constructor <;> linarith

theorem near_of_not_appearedOrMoved {c p : Option ℚ} {threshold v : ℚ}
    (h : appearedOrMoved c p threshold = false) (hc : c = some v) :
    ∃ w, p = some w ∧ |w - v| < threshold := by
  subst hc
  cases p with
  | none => cases h
  | some w => exact ⟨w, rfl, abs_lt_of_not_moved h⟩

theorem near_of_not_optDiffF64 {a b : Option ℚ} {threshold v : ℚ}
    (h : optDiffF64 a b threshold = false) (ha : a = some v) :
    ∃ w, b = some w ∧ |w - v| < threshold := by
  subst ha
  cases b with
  | none => cases h
  | some w => exact ⟨w, rfl, abs_lt_of_not_moved h⟩

theorem near_of_not_any_moved {cs ps : Vector ℚ 3} {threshold v : ℚ}
    (h : ((cs.zip ps).any fun (c, p) => moved c p threshold) = false) (i : Nat) (hi : i < 3)
    (hv : some cs[i] = some v) : ∃ w, some ps[i] = some w ∧ |w - v| < threshold := by
  obtain rfl := Option.some.inj hv
  refine ⟨ps[i], rfl, abs_lt_of_not_moved ?_⟩
  have := Vector.any_eq_false.mp h i hi
  rw [Vector.getElem_zip] at this
  exact Bool.eq_false_iff.mpr this

/-- A position that is not due was sent last, and is near in all its parts. -/
theorem position_of_not_due (h : Due t d p .gps = false) {cg : GpsData}
    (hcg : d.gps = some cg) :
    ∃ pg, p.gps = some pg ∧ |pg.latitude - cg.latitude| < t.latLon ∧
      |pg.longitude - cg.longitude| < t.latLon ∧
      optDiffF64 cg.altitude pg.altitude t.altitude = false ∧
      optDiffF64 cg.speed pg.speed t.speed = false ∧
      optDiffF64 cg.heading pg.heading t.heading = false := by
  simp only [Due, hcg] at h
  cases hpg : p.gps with
  | none =>
    rw [hpg] at h
    cases h
  | some pg =>
    simp only [hpg, gpsMoved, Bool.or_eq_false_iff] at h
    obtain ⟨⟨⟨⟨hlat, hlon⟩, haltitude⟩, hspeed⟩, hheading⟩ := h
    exact ⟨pg, rfl, abs_lt_of_not_moved hlat, abs_lt_of_not_moved hlon, haltitude, hspeed,
      hheading⟩

/-- A reading that is not due is in the data sent last, less than its threshold away. -/
theorem near_of_not_due (h : Due t d p f.slot = false) {v : ℚ} (hv : d.reading f = some v) :
    ∃ w, p.reading f = some w ∧ |w - v| < t.reading f := by
  cases f with
  | cpuUsage | memoryUsage | diskUsage =>
    obtain rfl := Option.some.inj hv
    exact ⟨_, rfl, abs_lt_of_not_moved h⟩
  | networkTxBytes | networkRxBytes =>
    obtain rfl := Option.some.inj hv
    exact ⟨_, rfl, abs_lt_of_absDiff_lt (decide_eq_false_iff_not.mp h)⟩
  | cpuTemp | motionLevel => exact near_of_not_appearedOrMoved h hv
  | load1 => exact near_of_not_any_moved h 0 (by decide) hv
  | load5 => exact near_of_not_any_moved h 1 (by decide) hv
  | load15 => exact near_of_not_any_moved h 2 (by decide) hv
  | latitude =>
    obtain ⟨cg, hcg, rfl⟩ := Option.map_eq_some_iff.mp hv
    obtain ⟨pg, hpg, hnear, -⟩ := position_of_not_due h hcg
    exact ⟨pg.latitude, congrArg (Option.map _) hpg, hnear⟩
  | longitude =>
    obtain ⟨cg, hcg, rfl⟩ := Option.map_eq_some_iff.mp hv
    obtain ⟨pg, hpg, -, hnear, -⟩ := position_of_not_due h hcg
    exact ⟨pg.longitude, congrArg (Option.map _) hpg, hnear⟩
  | altitude =>
    obtain ⟨cg, hcg, hv⟩ := Option.bind_eq_some_iff.mp hv
    obtain ⟨pg, hpg, -, -, hnear, -⟩ := position_of_not_due h hcg
    obtain ⟨w, hw, hnear⟩ := near_of_not_optDiffF64 hnear hv
    exact ⟨w, Option.bind_eq_some_iff.mpr ⟨pg, hpg, hw⟩, hnear⟩
  | speed =>
    obtain ⟨cg, hcg, hv⟩ := Option.bind_eq_some_iff.mp hv
    obtain ⟨pg, hpg, -, -, -, hnear, -⟩ := position_of_not_due h hcg
    obtain ⟨w, hw, hnear⟩ := near_of_not_optDiffF64 hnear hv
    exact ⟨w, Option.bind_eq_some_iff.mpr ⟨pg, hpg, hw⟩, hnear⟩
  | heading =>
    obtain ⟨cg, hcg, hv⟩ := Option.bind_eq_some_iff.mp hv
    obtain ⟨pg, hpg, -, -, -, -, hnear⟩ := position_of_not_due h hcg
    obtain ⟨w, hw, hnear⟩ := near_of_not_optDiffF64 hnear hv
    exact ⟨w, Option.bind_eq_some_iff.mpr ⟨pg, hpg, hw⟩, hnear⟩

/-- Nothing is sent exactly when no field is due and the uptime stands still. -/
theorem diff_eq_none_iff :
    diff d p t = none ↔ (∀ slot, Due t d p slot = false) ∧ d.uptimeSecs = p.uptimeSecs := by
  have huptime : (changes d p t).uptimeSecs.isSome = false ↔ d.uptimeSecs = p.uptimeSecs := by
    simp [changes]
  have hcarries : (changes d p t).hasChanges = false ↔
      (∀ slot, (changes d p t).carries slot = false) ∧
        (changes d p t).uptimeSecs.isSome = false := by
    simp only [hasChanges, Bool.or_eq_false_iff]
    constructor
    · rintro ⟨⟨⟨⟨⟨⟨⟨⟨⟨h1, h2⟩, h3⟩, h4⟩, h5⟩, h6⟩, hup⟩, h7⟩, h8⟩, h9⟩
      exact ⟨fun slot => by cases slot <;> assumption, hup⟩
    · rintro ⟨h, hup⟩
      exact ⟨⟨⟨⟨⟨⟨⟨⟨⟨h .cpuUsage, h .cpuTemp⟩, h .memoryUsage⟩, h .diskUsage⟩,
        h .networkTxBytes⟩, h .networkRxBytes⟩, hup⟩, h .loadAverage⟩, h .gps⟩, h .motionLevel⟩
  rw [diff, ite_eq_right_iff, ← huptime]
  simp only [reduceCtorEq, imp_false, Bool.not_eq_true, hcarries, changes_carries]

theorem diff_eq_some (h : diff d p t = some s) : s = changes d p t := by
  rw [diff] at h
  split at h
  · exact (Option.some.inj h).symm
  · cases h

end SparseTelemetry

/-! ## The link -/

/-- A tick sends the full sample, what is due, or nothing. -/
theorem TelemetrySender.tick_cases (s : TelemetrySender) (d : TelemetryData) (now sentAt : Nat) :
    (s.tick d now sentAt).2.thresholds = s.thresholds ∧
    ((s.tick d now sentAt).1 = some (.fromFull d) ∧
        (s.tick d now sentAt).2.lastSent = some d ∨
      ∃ p, s.lastSent = some p ∧ s.isHeartbeat now = false ∧
        ((s.tick d now sentAt).1 = some (.changes d p s.thresholds) ∧
            (s.tick d now sentAt).2.lastSent = some d ∧
            SparseTelemetry.diff d p s.thresholds ≠ none ∨
          s.tick d now sentAt = (none, s) ∧ SparseTelemetry.diff d p s.thresholds = none)) := by
  cases hlast : s.lastSent with
  | none =>
    simp only [tick, hlast]
    exact ⟨trivial, .inl ⟨trivial, trivial⟩⟩
  | some p =>
    cases hheartbeat : s.isHeartbeat now with
    | true =>
      simp only [tick, hlast, hheartbeat, if_true]
      exact ⟨trivial, .inl ⟨trivial, trivial⟩⟩
    | false =>
      simp only [tick, hlast, hheartbeat, Bool.false_eq_true, if_false]
      cases hdiff : SparseTelemetry.diff d p s.thresholds with
      | none => exact ⟨rfl, .inr ⟨p, rfl, trivial, .inr ⟨rfl, hdiff⟩⟩⟩
      | some payload =>
        obtain rfl := SparseTelemetry.diff_eq_some hdiff
        exact ⟨rfl, .inr ⟨p, rfl, trivial, .inl ⟨rfl, rfl, by simp [hdiff]⟩⟩⟩

/-- Every reading of `p` is the receiver's. -/
def Mirrors (r p : TelemetryData) : Prop := ∀ f v, p.reading f = some v → r.reading f = some v

namespace TelemetryLink

/-- Every reading of the last sample is less than its threshold away from the receiver's. -/
def Tracks (s : TelemetryLink) : Prop :=
  ∀ d, s.sample = some d → ∀ f v, d.reading f = some v →
    ∃ w, s.receiver.reading f = some w ∧ |w - v| < s.sender.thresholds.reading f

/-- Before a tick that sends no full packet: nothing is to be sent, or all readings of fields
that are not due are as they were in the data sent last. -/
def NoSmallChange (s : TelemetryLink) : Event → TelemetryLink → Prop
  | .tick d now _, _ =>
    match s.sender.lastSent with
    | none => True
    | some prev =>
      s.sender.isHeartbeat now = true ∨
      ((∀ slot, Due s.sender.thresholds d prev slot = false) ∧ d.uptimeSecs = prev.uptimeSecs) ∨
      ∀ f, Due s.sender.thresholds d prev f.slot = false →
        d.reading f = none ∨ d.reading f = prev.reading f
  | .collectFailed, _ => True

instance : ∀ s event s', Decidable (NoSmallChange s event s')
  | ⟨⟨_, _, none, _⟩, _, _⟩, .tick _ _ _, _ => isTrue trivial
  | ⟨⟨thresholds, heartbeatSecs, some prev, lastHeartbeat⟩, _, _⟩, .tick d now _, _ =>
    inferInstanceAs (Decidable (
      TelemetrySender.isHeartbeat ⟨thresholds, heartbeatSecs, some prev, lastHeartbeat⟩ now =
        true ∨
      ((∀ slot, Due thresholds d prev slot = false) ∧ d.uptimeSecs = prev.uptimeSecs) ∨
      ∀ f, Due thresholds d prev f.slot = false →
        d.reading f = none ∨ d.reading f = prev.reading f))
  | _, .collectFailed, _ => isTrue trivial

variable {s s' : TelemetryLink} {d p r : TelemetryData} {now sentAt : Nat}

theorem mirrors_fromFull : Mirrors ((SparseTelemetry.fromFull d).mergeInto r) d := by
  intro f v hv
  cases hcarries : (SparseTelemetry.fromFull d).carries f.slot with
  | true => rw [(SparseTelemetry.fromFull_mergeInto hcarries).reading_eq, hv]
  | false =>
    rw [SparseTelemetry.reading_of_not_fromFull_carries hcarries] at hv
    cases hv

/-- A diff brings the receiver up to date where what it leaves out is unchanged. -/
theorem mirrors_changes {t : TelemetryThresholds} (h : Mirrors r p)
    (hsmall : ∀ f, Due t d p f.slot = false → d.reading f = none ∨ d.reading f = p.reading f) :
    Mirrors ((SparseTelemetry.changes d p t).mergeInto r) d := by
  intro f v hv
  cases hdue : Due t d p f.slot with
  | true => rw [(SparseTelemetry.changes_mergeInto hdue).reading_eq, hv]
  | false =>
    have hkept : (SparseTelemetry.changes d p t).carries f.slot = false :=
      (SparseTelemetry.changes_carries _).trans hdue
    rw [(SparseTelemetry.mergeInto_of_not_carries hkept).reading_eq]
    rcases hsmall f hdue with hnone | hsame
    · cases hnone.symm.trans hv
    · exact h f v (hsame.symm.trans hv)

/-- What holds between the ticks. -/
structure Synced (thresholds : TelemetryThresholds) (s : TelemetryLink) : Prop where
  thresholds_eq : s.sender.thresholds = thresholds
  mirrors : ∀ p, s.sender.lastSent = some p → Mirrors s.receiver p
  tracks : s.Tracks

/-- A tick after which the receiver mirrors the sample. -/
theorem synced_of_mirrors {sender : TelemetrySender} (hpos : sender.thresholds.Positive)
    (hlast : sender.lastSent = some d) (h : Mirrors r d) :
    Synced sender.thresholds ⟨sender, r, some d⟩ where
  thresholds_eq := rfl
  mirrors p hp := by
    obtain rfl := Option.some.inj (hlast.symm.trans hp)
    exact h
  tracks d' hd' f v hv := by
    obtain rfl := Option.some.inj hd'
    refine ⟨v, h f v hv, ?_⟩
    rw [sub_self, abs_zero]
    exact hpos f

/-- A tick with which nothing is sent. -/
theorem Synced.silent {thresholds : TelemetryThresholds} (h : Synced thresholds s)
    (hlast : s.sender.lastSent = some p)
    (hdue : ∀ slot, Due s.sender.thresholds d p slot = false) :
    Synced thresholds { s with sample := some d } where
  thresholds_eq := h.thresholds_eq
  mirrors := h.mirrors
  tracks d' hd' f v hv := by
    obtain rfl := Option.some.inj hd'
    obtain ⟨w, hw, hnear⟩ := SparseTelemetry.near_of_not_due (hdue f.slot) hv
    exact ⟨w, h.mirrors p hlast f w hw, hnear⟩

theorem step_tick (s : TelemetryLink) (d : TelemetryData) (now sentAt : Nat) :
    s.step (.tick d now sentAt) = some ⟨(s.sender.tick d now sentAt).2,
      match (s.sender.tick d now sentAt).1 with
      | some packet => packet.mergeInto s.receiver
      | none => s.receiver,
      some d⟩ := rfl

theorem Synced.step {thresholds : TelemetryThresholds} (hpos : thresholds.Positive)
    (h : Synced thresholds s) {event : Event} (hsmall : NoSmallChange s event s')
    (hstep : s.step event = some s') : Synced thresholds s' := by
  obtain rfl := h.thresholds_eq
  cases event with
  | collectFailed =>
    obtain rfl := Option.some.inj hstep
    refine ⟨rfl, h.mirrors, fun d hd => ?_⟩
    cases hd
  | tick d now sentAt =>
    rw [step_tick] at hstep
    obtain rfl := Option.some.inj hstep
    obtain ⟨hthresholds, ⟨hpacket, hlast⟩ | ⟨p, hp, hheartbeat, hdiff⟩⟩ :=
      s.sender.tick_cases d now sentAt
    · -- a full packet
      rw [hpacket]
      rw [← hthresholds] at hpos ⊢
      exact synced_of_mirrors hpos hlast mirrors_fromFull
    simp only [NoSmallChange, hp, hheartbeat, Bool.false_eq_true, false_or,
      ← SparseTelemetry.diff_eq_none_iff] at hsmall
    obtain ⟨hpacket, hlast, hsome⟩ | ⟨hnothing, hnone⟩ := hdiff
    · -- something is sent, so what is not due is unchanged
      have hsmall := hsmall.resolve_left hsome
      rw [hpacket]
      rw [← hthresholds] at hpos ⊢
      exact synced_of_mirrors hpos hlast (mirrors_changes (h.mirrors p hp) (hthresholds ▸ hsmall))
    · rw [hnothing]
      exact h.silent hp (SparseTelemetry.diff_eq_none_iff.mp hnone).1

/-- **When the receiver keeps up.** With positive thresholds, in every run in which nothing
that stays unsent changes while something else is sent, after every tick each reading that
the sample has is less than its threshold away from the receiver's. -/
theorem tracks_of_noSmallChange (thresholds : TelemetryThresholds) (hpos : thresholds.Positive)
    (heartbeatSecs : UInt32) (now : Nat) (events : List Event)
    (hsmall : Machine.EachStep step NoSmallChange (start thresholds heartbeatSecs now) events) :
    Machine.Always step Tracks (start thresholds heartbeatSecs now) events := by
  have hstart : Synced thresholds (start thresholds heartbeatSecs now) :=
    ⟨rfl, fun _ hp => (nomatch hp), fun _ hd => (nomatch hd)⟩
  exact Machine.Always.mono (fun _ h => Synced.tracks h)
    (Machine.always_of_eachStep hstart (fun _ _ _ h hsmall hstep => h.step hpos hsmall hstep)
      hsmall)

theorem default_positive : TelemetryThresholds.default.Positive := by
  intro f
  cases f <;> decide +kernel

/-- An idle camera with a given uptime, memory usage and temperature. -/
def idle (uptimeSecs : UInt64) (memoryUsage : ℚ) (cpuTemp : Option ℚ) : TelemetryData :=
  { uptimeSecs, memoryUsage, cpuTemp }

/-- One tick a second. -/
def ticks (samples : List TelemetryData) : List Event :=
  samples.zipIdx.map fun (d, i) => .tick d (i * 1_000_000_000) (i * 1_000_000_000)

/-- A temperature that jumps by two degrees and goes away is tracked. -/
theorem tracks_temperatureJump :
    Machine.Always step Tracks (start .default 30 0)
      (ticks [idle 1 50 (some 60), idle 2 50 (some 62), idle 3 50 none]) :=
  tracks_of_noSmallChange .default default_positive 30 0 _ (by decide +kernel)

/-- With the default thresholds, a memory usage that climbs by 3% a second: each time the
uptime is sent without it, and it is compared with the value that was not sent. After two
seconds the receiver is 6% behind. -/
theorem slowDrift_unseen :
    let samples := [idle 1 50 none, idle 2 53 none, idle 3 56 none]
    (Machine.run step (start .default 30 0) (ticks samples)).map
      (fun s => (s.sample, s.receiver.memoryUsage, s.sender.thresholds.memoryUsage)) =
        some (some (idle 3 56 none), 50, 5) ∧
    ¬ Machine.Always step Tracks (start .default 30 0) (ticks samples) := by
  intro samples
  have hrun : (Machine.run step (start .default 30 0) (ticks samples)).map
      (fun s => (s.sample, s.receiver.memoryUsage, s.sender.thresholds.memoryUsage)) =
        some (some (idle 3 56 none), 50, 5) := by
    decide +kernel
  refine ⟨hrun, fun h => ?_⟩
  obtain ⟨s, htracks, hobserved⟩ := h.observed hrun
  simp only [Prod.mk.injEq] at hobserved
  obtain ⟨hsample, hmemory, hthreshold⟩ := hobserved
  obtain ⟨w, hw, hnear⟩ := htracks _ hsample .memoryUsage 56 rfl
  obtain rfl := Option.some.inj hw
  simp only [TelemetryThresholds.reading, hmemory, hthreshold] at hnear
  norm_num at hnear

end TelemetryLink

/-! ## Heartbeats -/

theorem or_eq_self_iff {α : Type} {o o' : Option α} :
    o.or o' = o ↔ (o = none → o' = none) := by
  cases o <;> simp

/-- **When a heartbeat resynchronises.** A full packet brings the receiver's state to the
sample exactly if the receiver holds no temperature, position or motion level that the
sample lacks. -/
theorem mergeFull_eq_iff (d r : TelemetryData) :
    (SparseTelemetry.fromFull d).mergeInto r = d ↔
      (d.cpuTemp = none → r.cpuTemp = none) ∧ (d.gps = none → r.gps = none) ∧
        (d.motionLevel = none → r.motionLevel = none) := by
  simp only [SparseTelemetry.mergeInto, SparseTelemetry.fromFull, Option.getD_some,
    SparseTelemetry.map_toGps_ofGps]
  constructor
  · intro h
    have htemp := congrArg TelemetryData.cpuTemp h
    have hgps := congrArg TelemetryData.gps h
    have hmotion := congrArg TelemetryData.motionLevel h
    exact ⟨or_eq_self_iff.mp htemp, or_eq_self_iff.mp hgps, or_eq_self_iff.mp hmotion⟩
  · rintro ⟨htemp, hgps, hmotion⟩
    rw [or_eq_self_iff.mpr htemp, or_eq_self_iff.mpr hgps, or_eq_self_iff.mpr hmotion]

/-- The receiver's state after some packets. -/
def received (packets : List SparseTelemetry) : TelemetryData :=
  packets.foldl (fun state packet => packet.mergeInto state) .default

/-- After a heartbeat with a temperature, a position and a motion level, one from a camera
that has lost all three leaves the old ones in place. -/
theorem heartbeat_keepsLost :
    let before : TelemetryData :=
      { cpuTemp := some 60, gps := some ⟨48, 11, none, none, none, 2⟩, motionLevel := some 0 }
    received [.fromFull before, .fromFull .default] = before ∧
      (SparseTelemetry.fromFull .default).mergeInto (received [.fromFull before]) ≠
        .default := by
  decide +kernel

end Kodama
