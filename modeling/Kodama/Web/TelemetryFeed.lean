import Kodama.Capture.Telemetry
import Kodama.Core.Frame
import Kodama.Lib.HashMap

/-!
# Telemetry for a browser (web/ws.rs)

A connection of a browser decodes the telemetry packets it receives with a schema of its own
(`WireTelemetry`), merges them into one state for each source, and sends the state as JSON after
every packet, once the source is ready: a full packet has been received, or one with both the
CPU and the memory usage. Until then, and for what no packet has set, the state holds zeros.

A packet travels as a MessagePack map from short names to values. `fromSlice` reads such a map
from the bytes of a payload; what the two derived schemas write and look up by name is modelled
(`SparseTelemetry.toNamed`, `WireTelemetry.ofNamed`). Floats are exact rationals. The audio level
that is sent to the browser is a function of the samples alone and left out.

- `ofNamed_toNamed`: the two schemas agree on the fields they share.
- `telemetry_shown_iff`: everything shown is received, for every sequence of the packets that
  cameras send, if and only if the first packet of a source that makes it ready is a full one or
  comes with the disk usage, the uptime and the load averages, or after them.
- `telemetry_zero_shown`: a browser that joins before a packet of changes in the CPU and the memory
  usage is shown a disk usage of zero.
-/

namespace Kodama

open Lib

/-! ## The wire form -/

/-- A value in the map of a GPS position. -/
inductive GpsValue where
  | float (value : ℚ)
  | uint (value : UInt8)
deriving DecidableEq

/-- A value in the map of a telemetry packet. -/
inductive TelemetryValue where
  | bool (value : Bool)
  | float (value : ℚ)
  | uint (value : UInt64)
  | floats (values : Vector ℚ 3)
  | map (fields : List (String × GpsValue))
deriving DecidableEq

def GpsValue.asFloat : GpsValue → Option ℚ
  | float value => some value
  | _ => none

def GpsValue.asUInt : GpsValue → Option UInt8
  | uint value => some value
  | _ => none

namespace TelemetryValue

def asBool : TelemetryValue → Option Bool
  | bool value => some value
  | _ => none

def asFloat : TelemetryValue → Option ℚ
  | float value => some value
  | _ => none

def asUInt : TelemetryValue → Option UInt64
  | uint value => some value
  | _ => none

def asFloats : TelemetryValue → Option (Vector ℚ 3)
  | floats values => some values
  | _ => none

def asMap : TelemetryValue → Option (List (String × GpsValue))
  | map fields => some fields
  | _ => none

end TelemetryValue

section Fields

variable {α β : Type}

/-- `skip_serializing_if = "Option::is_none"`. -/
def writeOptional (name : String) (write : α → β) (value : Option α) : List (String × β) :=
  (value.map fun value => (name, write value)).toList

/-- An optional field, absent by default. Reading fails if it holds something of another type. -/
def readOptional (read : β → Option α) (name : String) (fields : List (String × β)) :
    Option (Option α) :=
  match fields.lookup name with
  | some value => (read value).map some
  | none => some none

/-- A field with a default. -/
def readDefault (read : β → Option α) (name : String) (fallback : α)
    (fields : List (String × β)) : Option α :=
  (readOptional read name fields).map (·.getD fallback)

/-- A field that must be there. -/
def readRequired (read : β → Option α) (name : String) (fields : List (String × β)) : Option α :=
  (fields.lookup name).bind read

end Fields

/-- `Serialize for SparseGps`. -/
def SparseGps.toNamed (g : SparseGps) : List (String × GpsValue) :=
  [("la", .float g.latitude), ("lo", .float g.longitude)] ++
  writeOptional "al" .float g.altitude ++
  writeOptional "sp" .float g.speed ++
  writeOptional "hd" .float g.heading ++
  [("fm", .uint g.fixMode)]

/-- `Serialize for SparseTelemetry`. -/
def SparseTelemetry.toNamed (s : SparseTelemetry) : List (String × TelemetryValue) :=
  [("f", .bool s.full)] ++
  writeOptional "cpu" .float s.cpuUsage ++
  writeOptional "tmp" .float s.cpuTemp ++
  writeOptional "mem" .float s.memoryUsage ++
  writeOptional "dsk" .float s.diskUsage ++
  writeOptional "tx" .uint s.networkTxBytes ++
  writeOptional "rx" .uint s.networkRxBytes ++
  writeOptional "up" .uint s.uptimeSecs ++
  writeOptional "la" .floats s.loadAverage ++
  writeOptional "gps" (.map ∘ SparseGps.toNamed) s.gps ++
  writeOptional "mot" .float s.motionLevel

structure WireGps where
  latitude : ℚ
  longitude : ℚ
  altitude : Option ℚ
  speed : Option ℚ
  heading : Option ℚ
  fixMode : UInt8
deriving DecidableEq

/-- Sparse telemetry as sent by a camera. -/
structure WireTelemetry where
  full : Bool
  cpuUsage : Option ℚ
  cpuTemp : Option ℚ
  memoryUsage : Option ℚ
  diskUsage : Option ℚ
  uptimeSecs : Option UInt64
  loadAverage : Option (Vector ℚ 3)
  gps : Option WireGps
  motionLevel : Option ℚ
deriving DecidableEq

/-- `Deserialize for WireGps`. -/
def WireGps.ofNamed (fields : List (String × GpsValue)) : Option WireGps := do
  let latitude ← readRequired GpsValue.asFloat "la" fields
  let longitude ← readRequired GpsValue.asFloat "lo" fields
  let altitude ← readOptional GpsValue.asFloat "al" fields
  let speed ← readOptional GpsValue.asFloat "sp" fields
  let heading ← readOptional GpsValue.asFloat "hd" fields
  let fixMode ← readDefault GpsValue.asUInt "fm" 0 fields
  return ⟨latitude, longitude, altitude, speed, heading, fixMode⟩

/-- `Deserialize for WireTelemetry`. -/
def WireTelemetry.ofNamed (fields : List (String × TelemetryValue)) : Option WireTelemetry := do
  let full ← readDefault TelemetryValue.asBool "f" false fields
  let cpuUsage ← readOptional TelemetryValue.asFloat "cpu" fields
  let cpuTemp ← readOptional TelemetryValue.asFloat "tmp" fields
  let memoryUsage ← readOptional TelemetryValue.asFloat "mem" fields
  let diskUsage ← readOptional TelemetryValue.asFloat "dsk" fields
  let uptimeSecs ← readOptional TelemetryValue.asUInt "up" fields
  let loadAverage ← readOptional TelemetryValue.asFloats "la" fields
  let gps ← readOptional (fun value => value.asMap.bind WireGps.ofNamed) "gps" fields
  let motionLevel ← readOptional TelemetryValue.asFloat "mot" fields
  return ⟨full, cpuUsage, cpuTemp, memoryUsage, diskUsage, uptimeSecs, loadAverage, gps,
    motionLevel⟩

/-- A position as the browser's schema has it. -/
def WireGps.ofSparse (g : SparseGps) : WireGps :=
  ⟨g.latitude, g.longitude, g.altitude, g.speed, g.heading, g.fixMode⟩

/-- A packet without the fields that the browser's schema lacks. -/
def WireTelemetry.ofSparse (s : SparseTelemetry) : WireTelemetry :=
  ⟨s.full, s.cpuUsage, s.cpuTemp, s.memoryUsage, s.diskUsage, s.uptimeSecs, s.loadAverage,
    s.gps.map .ofSparse, s.motionLevel⟩

section Fields

variable {α β : Type} {read : β → Option α} {write : α → β} {name key : String}
  {fields : List (String × β)} {value : Option α}

theorem lookup_cons (b : β) : ((key, b) :: fields).lookup name =
    if name = key then some b else fields.lookup name := by
  rw [List.lookup_cons]
  split
  · next h => rw [if_pos (eq_of_beq h)]
  · next h => rw [if_neg (ne_of_beq_false h)]

theorem lookup_writeOptional : (writeOptional key write value).lookup name =
    if name = key then value.map write else none := by
  cases value with
  | none => exact (ite_self none).symm
  | some a => exact lookup_cons (write a)

/-- A field that was written under its name, or left out, is read as the schema reads it. -/
theorem readOptional_map {γ : Type} (write : γ → β) (conv : γ → α) {value : Option γ}
    (h : fields.lookup name = value.map write) (hread : ∀ a, read (write a) = some (conv a)) :
    readOptional read name fields = some (value.map conv) := by
  rw [readOptional, h]
  cases value with
  | none => rfl
  | some a =>
    show (read (write a)).map some = some (some (conv a))
    rw [hread a]
    rfl

theorem readOptional_eq_some (write : α → β) (h : fields.lookup name = value.map write)
    (hread : ∀ a, read (write a) = some a) : readOptional read name fields = some value := by
  rw [readOptional_map write id h hread, Option.map_id_apply]

end Fields

attribute [local simp] List.lookup_append lookup_cons lookup_writeOptional

/-- The browser's schema reads the position that the camera's schema writes. -/
theorem WireGps.ofNamed_toNamed (g : SparseGps) :
    WireGps.ofNamed g.toNamed = some (.ofSparse g) := by
  have hrequired : readRequired GpsValue.asFloat "la" g.toNamed = some g.latitude ∧
      readRequired GpsValue.asFloat "lo" g.toNamed = some g.longitude := by
    simp [readRequired, SparseGps.toNamed, GpsValue.asFloat]
  have haltitude : readOptional GpsValue.asFloat "al" g.toNamed = some g.altitude :=
    readOptional_eq_some .float (by simp [SparseGps.toNamed]) fun _ => rfl
  have hspeed : readOptional GpsValue.asFloat "sp" g.toNamed = some g.speed :=
    readOptional_eq_some .float (by simp [SparseGps.toNamed]) fun _ => rfl
  have hheading : readOptional GpsValue.asFloat "hd" g.toNamed = some g.heading :=
    readOptional_eq_some .float (by simp [SparseGps.toNamed]) fun _ => rfl
  have hfixMode : readDefault GpsValue.asUInt "fm" 0 g.toNamed = some g.fixMode := by
    simp [readDefault, readOptional, SparseGps.toNamed, GpsValue.asUInt]
  rw [ofNamed, hrequired.1, hrequired.2, haltitude, hspeed, hheading, hfixMode]
  rfl

/-- The browser's schema reads a packet as the camera's schema writes it, without the fields it
lacks. -/
theorem WireTelemetry.ofNamed_toNamed (s : SparseTelemetry) :
    WireTelemetry.ofNamed s.toNamed = some (.ofSparse s) := by
  have hfull : readDefault TelemetryValue.asBool "f" false s.toNamed = some s.full := by
    simp [readDefault, readOptional, SparseTelemetry.toNamed, TelemetryValue.asBool]
  have hcpu : readOptional TelemetryValue.asFloat "cpu" s.toNamed = some s.cpuUsage :=
    readOptional_eq_some .float (by simp [SparseTelemetry.toNamed]) fun _ => rfl
  have htemp : readOptional TelemetryValue.asFloat "tmp" s.toNamed = some s.cpuTemp :=
    readOptional_eq_some .float (by simp [SparseTelemetry.toNamed]) fun _ => rfl
  have hmemory : readOptional TelemetryValue.asFloat "mem" s.toNamed = some s.memoryUsage :=
    readOptional_eq_some .float (by simp [SparseTelemetry.toNamed]) fun _ => rfl
  have hdisk : readOptional TelemetryValue.asFloat "dsk" s.toNamed = some s.diskUsage :=
    readOptional_eq_some .float (by simp [SparseTelemetry.toNamed]) fun _ => rfl
  have huptime : readOptional TelemetryValue.asUInt "up" s.toNamed = some s.uptimeSecs :=
    readOptional_eq_some .uint (by simp [SparseTelemetry.toNamed]) fun _ => rfl
  have hload : readOptional TelemetryValue.asFloats "la" s.toNamed = some s.loadAverage :=
    readOptional_eq_some .floats (by simp [SparseTelemetry.toNamed]) fun _ => rfl
  have hgps : readOptional (fun value => value.asMap.bind WireGps.ofNamed) "gps" s.toNamed =
      some (s.gps.map .ofSparse) :=
    readOptional_map (TelemetryValue.map ∘ SparseGps.toNamed) WireGps.ofSparse
      (by simp [SparseTelemetry.toNamed]) WireGps.ofNamed_toNamed
  have hmotion : readOptional TelemetryValue.asFloat "mot" s.toNamed = some s.motionLevel :=
    readOptional_eq_some .float (by simp [SparseTelemetry.toNamed]) fun _ => rfl
  rw [ofNamed, hfull, hcpu, htemp, hmemory, hdisk, huptime, hload, hgps, hmotion]
  rfl

/-! ## What the browser is sent -/

structure GpsState where
  latitude : ℚ
  longitude : ℚ
  altitude : Option ℚ
  speed : Option ℚ
  heading : Option ℚ
  fixMode : UInt8
deriving DecidableEq

def GpsState.ofWire (g : WireGps) : GpsState :=
  ⟨g.latitude, g.longitude, g.altitude, g.speed, g.heading, g.fixMode⟩

/-- Accumulated telemetry of a source, serialized as JSON for the browser. -/
structure TelemetryState where
  cpuUsage : ℚ := 0
  cpuTemp : Option ℚ := none
  memoryUsage : ℚ := 0
  diskUsage : ℚ := 0
  uptimeSecs : UInt64 := 0
  loadAverage : Vector ℚ 3 := .replicate 3 0
  gps : Option GpsState := none
  motionLevel : Option ℚ := none
  /-- not in the JSON -/
  ready : Bool := false
deriving DecidableEq

/-- `TelemetryState::default`. -/
def TelemetryState.default : TelemetryState := {}

def TelemetryState.merge (self : TelemetryState) (wire : WireTelemetry) : TelemetryState :=
  let ready := self.ready || wire.full
  { cpuUsage := wire.cpuUsage.getD self.cpuUsage
    cpuTemp := wire.cpuTemp.or self.cpuTemp
    memoryUsage := wire.memoryUsage.getD self.memoryUsage
    diskUsage := wire.diskUsage.getD self.diskUsage
    uptimeSecs := wire.uptimeSecs.getD self.uptimeSecs
    loadAverage := wire.loadAverage.getD self.loadAverage
    gps := (wire.gps.map .ofWire).or self.gps
    motionLevel := wire.motionLevel.or self.motionLevel
    -- also on the first update with both (the camera sends a full heartbeat first)
    ready := if !ready && wire.cpuUsage.isSome && wire.memoryUsage.isSome then true else ready }

/-- The state after some packets. -/
def TelemetryState.mergeAll (wires : List WireTelemetry) : TelemetryState :=
  wires.foldl merge default

/-- A message that a frame is turned into. -/
inductive WsMessage where
  /-- the level of the samples -/
  | audioLevel (source : SourceId) (samples : Bytes)
  | audioData (source : SourceId) (sampleRate : UInt32) (channels : UInt8) (samples : Bytes)
  | telemetry (source : SourceId) (state : TelemetryState)
deriving DecidableEq

section Feed

variable (fromSlice : Bytes → Option (List (String × TelemetryValue)))

/-- `rmp_serde::from_slice::<WireTelemetry>`. -/
def WireTelemetry.decode (payload : Bytes) : Option WireTelemetry :=
  (fromSlice payload).bind WireTelemetry.ofNamed

/-- Process a non-video frame; also the states of the sources after it. -/
def processFrame (frame : Frame) (telemetryStates : HashMap SourceId TelemetryState) :
    List WsMessage × HashMap SourceId TelemetryState :=
  let source := frame.source
  match frame.channel with
  | .audio =>
    ([.audioLevel source frame.payload, .audioData source 48000 1 frame.payload], telemetryStates)
  | .telemetry =>
    match WireTelemetry.decode fromSlice frame.payload with
    | some wire =>
      let state := ((telemetryStates.lookup source).getD .default).merge wire
      (if state.ready then [.telemetry source state] else [],
        telemetryStates.insert source state)
    | none => ([], telemetryStates)
  | _ => ([], telemetryStates)

/-- The states of the sources on a connection that has processed some frames. -/
def statesAfter (frames : List Frame) : HashMap SourceId TelemetryState :=
  frames.foldl (fun states frame => (processFrame fromSlice frame states).2) ∅

/-- The telemetry packet of a source that a frame carries. -/
def packetOf (source : SourceId) (frame : Frame) : Option WireTelemetry :=
  if frame.source = source ∧ frame.channel = .telemetry then
    WireTelemetry.decode fromSlice frame.payload
  else none

/-- The telemetry packets of a source among the frames received. -/
def packetsOf (source : SourceId) (frames : List Frame) : List WireTelemetry :=
  frames.filterMap (packetOf fromSlice source)

variable {fromSlice : Bytes → Option (List (String × TelemetryValue))} {frames : List Frame}
  {frame : Frame} {source : SourceId} {states : HashMap SourceId TelemetryState}
  {wire : WireTelemetry}

/-! ### Updates one after another -/

/-- A field that every update either sets or keeps has, once some update has set it, a value
that an update has set. -/
theorem exists_eq_foldl {σ α β : Type} {merge : σ → α → σ} (get : σ → β) (field : α → Option β)
    (hmerge : ∀ s a, get (merge s a) = (field a).getD (get s)) {s : σ} {as : List α}
    (hset : ∃ a ∈ as, (field a).isSome) : ∃ a ∈ as, field a = some (get (as.foldl merge s)) := by
  induction as using List.reverseRecOn with
  | nil =>
    obtain ⟨a, ha, -⟩ := hset
    cases ha
  | append_singleton as a ih =>
    rw [List.foldl_concat, hmerge]
    cases hfield : field a with
    | some b => exact ⟨a, List.mem_concat_self, hfield⟩
    | none =>
      obtain ⟨b, hb, hbset⟩ := hset
      rcases List.mem_append.mp hb with hb | hb
      · obtain ⟨c, hmem, heq⟩ := ih ⟨b, hb, hbset⟩
        exact ⟨c, List.mem_append_left _ hmem, heq⟩
      · rw [List.mem_singleton.mp hb, hfield] at hbset
        cases hbset

/-- A packet that makes its source ready. -/
def WireTelemetry.MakesReady (wire : WireTelemetry) : Bool :=
  wire.full || wire.cpuUsage.isSome && wire.memoryUsage.isSome

theorem TelemetryState.ready_merge (state : TelemetryState) (wire : WireTelemetry) :
    (state.merge wire).ready = (state.ready || wire.MakesReady) := by
  simp only [merge, WireTelemetry.MakesReady]
  cases state.ready <;> cases wire.full <;> simp

theorem TelemetryState.mergeAll_concat (wires : List WireTelemetry) (wire : WireTelemetry) :
    mergeAll (wires ++ [wire]) = (mergeAll wires).merge wire :=
  List.foldl_concat ..

theorem TelemetryState.ready_mergeAll (wires : List WireTelemetry) :
    (mergeAll wires).ready = wires.any (·.MakesReady) := by
  induction wires using List.reverseRecOn with
  | nil => rfl
  | append_singleton wires wire ih =>
    rw [mergeAll_concat, ready_merge, ih, List.any_append, List.any_cons, List.any_nil,
      Bool.or_false]

/-! ### What a frame does -/

theorem packetOf_eq_some : packetOf fromSlice source frame = some wire ↔
    frame.source = source ∧ frame.channel = .telemetry ∧
      WireTelemetry.decode fromSlice frame.payload = some wire := by
  rw [packetOf]
  split
  · next h => exact ⟨fun hwire => ⟨h.1, h.2, hwire⟩, fun hwire => hwire.2.2⟩
  · next h => exact ⟨fun hwire => (by cases hwire), fun hwire => absurd ⟨hwire.1, hwire.2.1⟩ h⟩

/-- A frame with a packet of a source: the packet is merged into the state of the source, and the
state is sent if it is ready. -/
theorem processFrame_packet (h : packetOf fromSlice source frame = some wire) :
    processFrame fromSlice frame states =
      let state := ((states.lookup source).getD .default).merge wire
      (if state.ready then [.telemetry source state] else [], states.insert source state) := by
  obtain ⟨rfl, hchannel, hwire⟩ := packetOf_eq_some.mp h
  simp only [processFrame, hchannel, hwire]

/-- Any other frame leaves the state of the source alone, and shows nothing of it. -/
theorem processFrame_other (h : packetOf fromSlice source frame = none) :
    (processFrame fromSlice frame states).2.lookup source = states.lookup source ∧
      ∀ state, .telemetry source state ∉ (processFrame fromSlice frame states).1 := by
  rw [processFrame]
  cases hchannel : frame.channel with
  | audio => exact ⟨rfl, by simp⟩
  | video => exact ⟨rfl, by simp⟩
  | unknown v => exact ⟨rfl, by simp⟩
  | telemetry =>
    cases hwire : WireTelemetry.decode fromSlice frame.payload with
    | none => exact ⟨rfl, by simp⟩
    | some wire =>
      have hsource : source ≠ frame.source := by
        rintro rfl
        rw [packetOf_eq_some.mpr ⟨rfl, hchannel, hwire⟩] at h
        cases h
      refine ⟨AList.lookup_insert_ne hsource, fun state => ?_⟩
      dsimp only
      split
      · simp [hsource]
      · simp

/-- The state of a source is what its packets have been merged into, from the default. -/
theorem statesAfter_lookup (frames : List Frame) (source : SourceId) :
    ((statesAfter fromSlice frames).lookup source).getD .default =
      .mergeAll (packetsOf fromSlice source frames) := by
  induction frames using List.reverseRecOn with
  | nil => rfl
  | append_singleton frames frame ih =>
    rw [statesAfter, List.foldl_concat, ← statesAfter, packetsOf, List.filterMap_append,
      ← packetsOf]
    cases hwire : packetOf fromSlice source frame with
    | none =>
      rw [(processFrame_other hwire).1, ih]
      simp [hwire]
    | some wire =>
      rw [processFrame_packet hwire, AList.lookup_insert, ih]
      simp [hwire, TelemetryState.mergeAll_concat]

/-- What is shown of a source after some frames: its state, if the last frame carries a packet of
it and some packet has made it ready. -/
theorem shown_after {state : TelemetryState} : .telemetry source state ∈
    (processFrame fromSlice frame (statesAfter fromSlice frames)).1 ↔
      (packetOf fromSlice source frame).isSome ∧
      (∃ wire ∈ packetsOf fromSlice source (frames ++ [frame]), wire.MakesReady) ∧
      state = .mergeAll (packetsOf fromSlice source (frames ++ [frame])) := by
  cases hwire : packetOf fromSlice source frame with
  | none => simp [(processFrame_other hwire).2]
  | some wire =>
    have hpackets : packetsOf fromSlice source (frames ++ [frame]) =
        packetsOf fromSlice source frames ++ [wire] := by
      rw [packetsOf, List.filterMap_append, ← packetsOf]
      simp [hwire]
    rw [processFrame_packet hwire, statesAfter_lookup, ← TelemetryState.mergeAll_concat, ← hpackets]
    dsimp only
    rw [TelemetryState.ready_mergeAll, ← List.any_eq_true]
    split
    · next hready => simp [hready]
    · next hready => simp [hready]

/-- The frame that carries a packet of a source, after the frames that carry those before it. -/
theorem exists_frame_of_packet {before after : List WireTelemetry}
    (h : packetsOf fromSlice source frames = before ++ wire :: after) :
    ∃ pre frame, pre ++ [frame] <+: frames ∧ packetOf fromSlice source frame = some wire ∧
      packetsOf fromSlice source (pre ++ [frame]) = before ++ [wire] := by
  obtain ⟨early, late, rfl, hbefore, hrest⟩ := List.filterMap_eq_append_iff.mp h
  obtain ⟨skipped, frame, rest, rfl, hskipped, hwire, -⟩ := List.filterMap_eq_cons_iff.mp hrest
  refine ⟨early ++ skipped, frame, ⟨rest, by simp⟩, hwire, ?_⟩
  rw [packetsOf, List.filterMap_append, List.filterMap_append, hbefore,
    List.filterMap_eq_nil_iff.mpr hskipped]
  simp [hwire]

/-! ## Telemetry shown is telemetry received -/

/-- Each field that is always in the JSON is as a packet has set it. -/
structure TelemetryState.Received (state : TelemetryState) (wires : List WireTelemetry) : Prop where
  cpuUsage : ∃ wire ∈ wires, wire.cpuUsage = some state.cpuUsage
  memoryUsage : ∃ wire ∈ wires, wire.memoryUsage = some state.memoryUsage
  diskUsage : ∃ wire ∈ wires, wire.diskUsage = some state.diskUsage
  uptimeSecs : ∃ wire ∈ wires, wire.uptimeSecs = some state.uptimeSecs
  loadAverage : ∃ wire ∈ wires, wire.loadAverage = some state.loadAverage

/-- What is shown of a source after any of the frames is as its packets up to there have set it. -/
def ShownReceived (fromSlice : Bytes → Option (List (String × TelemetryValue)))
    (frames : List Frame) : Prop :=
  ∀ pre frame, pre ++ [frame] <+: frames → ∀ source state,
    .telemetry source state ∈ (processFrame fromSlice frame (statesAfter fromSlice pre)).1 →
      state.Received (packetsOf fromSlice source (pre ++ [frame]))

/-- The first packet that makes its source ready is a full one, or comes with the disk usage, the
uptime and the load averages, or after them. -/
def CompleteWhenReady (wires : List WireTelemetry) : Prop :=
  ∀ before wire after, wires = before ++ wire :: after →
    (∀ earlier ∈ before, earlier.MakesReady = false) → wire.MakesReady = true →
    wire.full = true ∨
      (∃ w ∈ before ++ [wire], w.diskUsage.isSome) ∧
      (∃ w ∈ before ++ [wire], w.uptimeSecs.isSome) ∧
      (∃ w ∈ before ++ [wire], w.loadAverage.isSome)

/-- Every telemetry packet among the frames is one that a camera has sent at some tick. -/
def SentByCameras (fromSlice : Bytes → Option (List (String × TelemetryValue)))
    (frames : List Frame) : Prop :=
  ∀ frame ∈ frames, frame.channel = .telemetry →
    ∃ (sender : TelemetrySender) (data : TelemetryData) (now sentAt : Nat)
      (packet : SparseTelemetry), (sender.tick data now sentAt).1 = some packet ∧
        fromSlice frame.payload = some packet.toNamed

/-- Each field that is always in the JSON has been set. -/
structure AllSet (wires : List WireTelemetry) : Prop where
  cpuUsage : ∃ wire ∈ wires, wire.cpuUsage.isSome
  memoryUsage : ∃ wire ∈ wires, wire.memoryUsage.isSome
  diskUsage : ∃ wire ∈ wires, wire.diskUsage.isSome
  uptimeSecs : ∃ wire ∈ wires, wire.uptimeSecs.isSome
  loadAverage : ∃ wire ∈ wires, wire.loadAverage.isSome

theorem AllSet.mono {wires wires' : List WireTelemetry} (h : AllSet wires)
    (hsub : wires ⊆ wires') : AllSet wires' where
  cpuUsage := h.cpuUsage.imp fun _ => And.imp_left (hsub ·)
  memoryUsage := h.memoryUsage.imp fun _ => And.imp_left (hsub ·)
  diskUsage := h.diskUsage.imp fun _ => And.imp_left (hsub ·)
  uptimeSecs := h.uptimeSecs.imp fun _ => And.imp_left (hsub ·)
  loadAverage := h.loadAverage.imp fun _ => And.imp_left (hsub ·)

theorem received_mergeAll_iff {wires : List WireTelemetry} :
    (TelemetryState.mergeAll wires).Received wires ↔ AllSet wires := by
  constructor
  · intro h
    have hset : ∀ {β : Type} {field : WireTelemetry → Option β} {b : β},
        (∃ wire ∈ wires, field wire = some b) → ∃ wire ∈ wires, (field wire).isSome :=
      fun ⟨wire, hmem, hfield⟩ => ⟨wire, hmem, Option.isSome_of_eq_some hfield⟩
    exact ⟨hset h.cpuUsage, hset h.memoryUsage, hset h.diskUsage, hset h.uptimeSecs,
      hset h.loadAverage⟩
  · intro h
    exact {
      cpuUsage := exists_eq_foldl TelemetryState.cpuUsage _ (fun _ _ => rfl) h.cpuUsage
      memoryUsage := exists_eq_foldl TelemetryState.memoryUsage _ (fun _ _ => rfl) h.memoryUsage
      diskUsage := exists_eq_foldl TelemetryState.diskUsage _ (fun _ _ => rfl) h.diskUsage
      uptimeSecs := exists_eq_foldl TelemetryState.uptimeSecs _ (fun _ _ => rfl) h.uptimeSecs
      loadAverage := exists_eq_foldl TelemetryState.loadAverage _ (fun _ _ => rfl) h.loadAverage }

/-- A packet that a camera sends as a full one sets every field. -/
theorem TelemetrySender.tick_full {sender : TelemetrySender} {data : TelemetryData}
    {now sentAt : Nat} {packet : SparseTelemetry}
    (h : (sender.tick data now sentAt).1 = some packet) (hfull : packet.full = true) :
    packet = .fromFull data := by
  obtain ⟨-, ⟨htick, -⟩ | ⟨p, -, -, ⟨htick, -⟩ | ⟨htick, -⟩⟩⟩ := sender.tick_cases data now sentAt
  · exact Option.some.inj (h.symm.trans htick)
  · -- a packet of changes is not a full one
    rw [← Option.some.inj (htick.symm.trans h)] at hfull
    cases hfull
  · rw [htick] at h
    cases h

theorem SentByCameras.allSet_of_full (h : SentByCameras fromSlice frames)
    (hmem : wire ∈ packetsOf fromSlice source frames) (hfull : wire.full = true) :
    AllSet [wire] := by
  obtain ⟨frame, hframe, hwire⟩ := List.mem_filterMap.mp hmem
  obtain ⟨-, hchannel, hdecode⟩ := packetOf_eq_some.mp hwire
  obtain ⟨sender, data, now, sentAt, packet, hsent, hslice⟩ := h frame hframe hchannel
  rw [WireTelemetry.decode, hslice, Option.bind_some, WireTelemetry.ofNamed_toNamed] at hdecode
  obtain rfl := Option.some.inj hdecode
  rw [TelemetrySender.tick_full hsent hfull]
  constructor <;> exact ⟨_, List.mem_singleton_self _, rfl⟩

/-- Once a source is ready, every field has been set: by a full packet, or by the packets up to the
first that made it ready. -/
theorem CompleteWhenReady.allSet {wires received : List WireTelemetry}
    (h : CompleteWhenReady wires) (hfull : ∀ wire ∈ wires, wire.full = true → AllSet [wire])
    (hreceived : received <+: wires) (hready : ∃ wire ∈ received, wire.MakesReady = true) :
    AllSet received := by
  obtain ⟨wire, hfind⟩ := Option.isSome_iff_exists.mp (List.find?_isSome.mpr hready)
  obtain ⟨hwire, before, after, rfl, hearlier⟩ := List.find?_eq_some_iff_append.mp hfind
  obtain ⟨rest, rfl⟩ := hreceived
  have hcomplete := h before wire (after ++ rest) (by simp)
    (fun earlier hmem => by simpa using hearlier earlier hmem) hwire
  have hmem : wire ∈ before ++ [wire] := List.mem_concat_self
  have hsub : before ++ [wire] ⊆ before ++ wire :: after := by simp
  have hofFull (hwirefull : wire.full = true) : AllSet (before ++ wire :: after) :=
    (hfull wire (by simp) hwirefull).mono (by simp)
  rcases hcomplete with hwirefull | ⟨hdisk, huptime, hload⟩
  · exact hofFull hwirefull
  · rw [WireTelemetry.MakesReady, Bool.or_eq_true, Bool.and_eq_true] at hwire
    rcases hwire with hwirefull | ⟨hcpu, hmemory⟩
    · exact hofFull hwirefull
    · exact AllSet.mono ⟨⟨wire, hmem, hcpu⟩, ⟨wire, hmem, hmemory⟩, hdisk, huptime, hload⟩ hsub

/-- **Telemetry shown is telemetry received**, for any packets that cameras send, if and only if
of every source the first packet that makes it ready is a full one or completes its fields. -/
theorem telemetry_shown_iff (frames : List Frame) (hcameras : SentByCameras fromSlice frames) :
    ShownReceived fromSlice frames ↔
      ∀ source, CompleteWhenReady (packetsOf fromSlice source frames) := by
  constructor
  · intro h source before wire after hsplit hearlier hready
    obtain ⟨pre, frame, hpre, hwire, hpackets⟩ := exists_frame_of_packet hsplit
    have hshown := h pre frame hpre source _
      (shown_after.mpr ⟨by rw [hwire]; rfl, ⟨wire, by rw [hpackets]; simp, hready⟩, rfl⟩)
    rw [received_mergeAll_iff, hpackets] at hshown
    exact .inr ⟨hshown.diskUsage, hshown.uptimeSecs, hshown.loadAverage⟩
  · intro h pre frame hpre source state hmem
    obtain ⟨-, hready, rfl⟩ := shown_after.mp hmem
    rw [received_mergeAll_iff]
    exact (h source).allSet (fun wire hwire => hcameras.allSet_of_full hwire)
      (hpre.filterMap _) hready

/-- A source whose first packet, if there is one, is a full one is complete when it is ready. -/
theorem completeWhenReady_of_head {wires : List WireTelemetry}
    (hfull : ∀ wire, wires.head? = some wire → wire.full = true) : CompleteWhenReady wires := by
  rintro (_ | ⟨first, before⟩) wire after rfl hearlier -
  · exact .inl (hfull wire rfl)
  · have hready := hearlier first List.mem_cons_self
    rw [WireTelemetry.MakesReady, hfull first rfl, Bool.true_or] at hready
    cases hready

/-! ### A browser that joins -/

/-- The packets that a camera sends over some ticks, each with the data collected and the two
readings of the clock. -/
def TelemetrySender.packets (s : TelemetrySender) :
    List (TelemetryData × Nat × Nat) → List SparseTelemetry
  | [] => []
  | (data, now, sentAt) :: ticks =>
    (s.tick data now sentAt).1.toList ++ (s.tick data now sentAt).2.packets ticks

theorem TelemetrySender.exists_tick {packet : SparseTelemetry}
    {ticks : List (TelemetryData × Nat × Nat)} {s : TelemetrySender}
    (hmem : packet ∈ s.packets ticks) : ∃ (sender : TelemetrySender) (data : TelemetryData)
      (now sentAt : Nat), (sender.tick data now sentAt).1 = some packet := by
  induction ticks generalizing s with
  | nil => cases hmem
  | cons tick ticks ih =>
    obtain ⟨data, now, sentAt⟩ := tick
    rcases List.mem_append.mp hmem with hmem | hmem
    · exact ⟨s, data, now, sentAt, Option.mem_toList.mp hmem⟩
    · exact ih hmem

/-- The frames carry what a camera sends from some packet on. -/
structure Joins (fromSlice : Bytes → Option (List (String × TelemetryValue)))
    (sent : List SparseTelemetry) (source : SourceId) (frames : List Frame) : Prop where
  telemetry : ∀ frame ∈ frames, frame.source = source ∧ frame.channel = .telemetry
  suffix : frames.map (fun frame => fromSlice frame.payload) <:+
    sent.map fun packet => some packet.toNamed

theorem Joins.sentByCameras {s : TelemetrySender} {ticks : List (TelemetryData × Nat × Nat)}
    (h : Joins fromSlice (s.packets ticks) source frames) : SentByCameras fromSlice frames := by
  intro frame hframe _
  obtain ⟨packet, hpacket, hslice⟩ :=
    List.mem_map.mp (h.suffix.subset (List.mem_map_of_mem hframe))
  obtain ⟨sender, data, now, sentAt, hsent⟩ := TelemetrySender.exists_tick hpacket
  exact ⟨sender, data, now, sentAt, packet, hsent, hslice.symm⟩

end Feed

def joinData : TelemetryData :=
  { cpuUsage := 20, memoryUsage := 30, diskUsage := 40, uptimeSecs := 100,
    loadAverage := #v[1 / 2, 1 / 2, 1 / 2] }

/-- Two seconds later the CPU and the memory usage have moved. -/
def joinTicks : List (TelemetryData × Nat × Nat) :=
  [(joinData, 100_000_000_000, 100_000_000_000),
    ({ joinData with cpuUsage := 50, memoryUsage := 60, uptimeSecs := 102 },
      102_000_000_000, 102_000_000_000)]

def joinSent : List SparseTelemetry :=
  (TelemetrySender.start .default 30 100_000_000_000).packets joinTicks

/-- The first packet in MessagePack. -/
def joinFullBytes : Bytes :=
  [0x88, 0xa1, 0x66, 0xc3,                                          -- f: true
    0xa3, 0x63, 0x70, 0x75, 0xca, 0x41, 0xa0, 0x00, 0x00,           -- cpu: 20.0
    0xa3, 0x6d, 0x65, 0x6d, 0xca, 0x41, 0xf0, 0x00, 0x00,           -- mem: 30.0
    0xa3, 0x64, 0x73, 0x6b, 0xca, 0x42, 0x20, 0x00, 0x00,           -- dsk: 40.0
    0xa2, 0x74, 0x78, 0x00, 0xa2, 0x72, 0x78, 0x00,                 -- tx: 0, rx: 0
    0xa2, 0x75, 0x70, 0x64,                                         -- up: 100
    0xa2, 0x6c, 0x61, 0x93, 0xca, 0x3f, 0x00, 0x00, 0x00,           -- la: 0.5, 0.5, 0.5
    0xca, 0x3f, 0x00, 0x00, 0x00, 0xca, 0x3f, 0x00, 0x00, 0x00]

/-- The second. -/
def joinDiffBytes : Bytes :=
  [0x84, 0xa1, 0x66, 0xc2,                                          -- f: false
    0xa3, 0x63, 0x70, 0x75, 0xca, 0x42, 0x48, 0x00, 0x00,           -- cpu: 50.0
    0xa3, 0x6d, 0x65, 0x6d, 0xca, 0x42, 0x70, 0x00, 0x00,           -- mem: 60.0
    0xa2, 0x75, 0x70, 0x66]                                         -- up: 102

/-- What these bytes are read as. -/
def joinSlice (payload : Bytes) : Option (List (String × TelemetryValue)) :=
  if payload = joinFullBytes then
    some [("f", .bool true), ("cpu", .float 20), ("mem", .float 30), ("dsk", .float 40),
      ("tx", .uint 0), ("rx", .uint 0), ("up", .uint 100),
      ("la", .floats #v[1 / 2, 1 / 2, 1 / 2])]
  else if payload = joinDiffBytes then
    some [("f", .bool false), ("cpu", .float 50), ("mem", .float 60), ("up", .uint 102)]
  else none

def joinSource : SourceId := ⟨[2, 2, 3, 6, 0, 6, 7, 9], rfl⟩

def joinFrames : List Frame :=
  [.telemetry joinSource joinFullBytes, .telemetry joinSource joinDiffBytes]

theorem joinSent_map : joinSent.map (fun packet => some packet.toNamed) =
    joinFrames.map fun frame => joinSlice frame.payload := by
  decide +kernel

/-- A browser that is there from the first packet on is shown what it receives. -/
theorem telemetry_shown_from_start : ShownReceived joinSlice joinFrames := by
  have hjoins : Joins joinSlice joinSent joinSource joinFrames :=
    ⟨by decide, joinSent_map ▸ List.suffix_refl _⟩
  refine (telemetry_shown_iff joinFrames hjoins.sentByCameras).mpr fun source =>
    completeWhenReady_of_head fun wire hwire => ?_
  by_cases hsource : joinSource = source
  · subst hsource
    have hhead : (packetsOf joinSlice joinSource joinFrames).head?.map (·.full) =
        some true := by decide +kernel
    rw [hwire] at hhead
    exact Option.some.inj hhead
  · have hnone : packetsOf joinSlice source joinFrames = [] := by
      simp [packetsOf, packetOf, joinFrames, Frame.telemetry, hsource]
    rw [hnone] at hwire
    cases hwire

/-- A browser that joins after the first packet is shown a disk usage and load averages of zero. -/
theorem telemetry_zero_shown : ¬ ∀ (fromSlice : Bytes → Option (List (String × TelemetryValue)))
    (thresholds : TelemetryThresholds) (heartbeatSecs : UInt32) (now : Nat)
    (ticks : List (TelemetryData × Nat × Nat)) (source : SourceId) (frames : List Frame),
    Joins fromSlice ((TelemetrySender.start thresholds heartbeatSecs now).packets ticks) source
      frames → ShownReceived fromSlice frames := by
  intro h
  have hjoins : Joins joinSlice joinSent joinSource (joinFrames.drop 1) := by
    refine ⟨by decide, ?_⟩
    rw [joinSent_map, List.map_drop]
    exact List.drop_suffix 1 _
  have hshown := h joinSlice .default 30 100_000_000_000 joinTicks joinSource _ hjoins
    [] (.telemetry joinSource joinDiffBytes) (List.prefix_refl _) joinSource _
    (shown_after.mpr ⟨by decide +kernel, by decide +kernel, rfl⟩)
  have hunset : ∀ wire ∈ packetsOf joinSlice joinSource
      [.telemetry joinSource joinDiffBytes], wire.diskUsage = none := by decide +kernel
  obtain ⟨wire, hmem, hdisk⟩ := hshown.diskUsage
  rw [hunset wire hmem] at hdisk
  cases hdisk

end Kodama
