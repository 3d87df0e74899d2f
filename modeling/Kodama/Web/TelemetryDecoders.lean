import Kodama.Web.TelemetryFeed

/-!
# The two telemetry decoders (crates/kodama/src/capture/telemetry.rs, web/ws.rs)

The camera's crate merges a packet into a `TelemetryData`, and the browser's connection merges
its wire form, which it reads with a schema of its own, into a `TelemetryState`. The second has
no network counters, and a flag of its own. On the fields that both have they stay in step: one
packet keeps them so (`Agrees.merge`), hence every sequence of packets does (`decoders_agree`).
-/

namespace Kodama

def GpsState.ofData (g : GpsData) : GpsState :=
  ⟨g.latitude, g.longitude, g.altitude, g.speed, g.heading, g.fixMode⟩

/-- The two states agree on every field they have in common. -/
structure Agrees (data : TelemetryData) (state : TelemetryState) : Prop where
  cpuUsage : state.cpuUsage = data.cpuUsage
  cpuTemp : state.cpuTemp = data.cpuTemp
  memoryUsage : state.memoryUsage = data.memoryUsage
  diskUsage : state.diskUsage = data.diskUsage
  uptimeSecs : state.uptimeSecs = data.uptimeSecs
  loadAverage : state.loadAverage = data.loadAverage
  gps : state.gps = data.gps.map .ofData
  motionLevel : state.motionLevel = data.motionLevel

/-- Decode a packet and merge it; one that cannot be decoded is passed over. -/
def TelemetryState.mergeNamed (self : TelemetryState) (fields : List (String × TelemetryValue)) :
    TelemetryState :=
  match WireTelemetry.ofNamed fields with
  | some wire => self.merge wire
  | none => self

variable {data : TelemetryData} {state : TelemetryState}

theorem agrees_default : Agrees .default .default := ⟨rfl, rfl, rfl, rfl, rfl, rfl, rfl, rfl⟩

/-- A position that a packet sets is the same for both. -/
theorem ofWire_ofSparse (g : SparseGps) :
    GpsState.ofWire (WireGps.ofSparse g) = GpsState.ofData g.toGps := rfl

theorem gps_merge (gps : Option SparseGps) (before : Option GpsData) :
    ((gps.map WireGps.ofSparse).map GpsState.ofWire).or (before.map GpsState.ofData) =
      ((gps.map SparseGps.toGps).or before).map GpsState.ofData := by
  cases gps with
  | none => rfl
  | some g => exact congrArg some (ofWire_ofSparse g)

theorem Agrees.merge (h : Agrees data state) (packet : SparseTelemetry) :
    Agrees (packet.mergeInto data) (state.merge (.ofSparse packet)) where
  cpuUsage := congrArg packet.cpuUsage.getD h.cpuUsage
  cpuTemp := congrArg packet.cpuTemp.or h.cpuTemp
  memoryUsage := congrArg packet.memoryUsage.getD h.memoryUsage
  diskUsage := congrArg packet.diskUsage.getD h.diskUsage
  uptimeSecs := congrArg packet.uptimeSecs.getD h.uptimeSecs
  loadAverage := congrArg packet.loadAverage.getD h.loadAverage
  gps := by
    show ((packet.gps.map .ofSparse).map .ofWire).or state.gps = _
    rw [h.gps]
    exact gps_merge packet.gps data.gps
  motionLevel := congrArg packet.motionLevel.or h.motionLevel

theorem Agrees.mergeNamed (h : Agrees data state) (packet : SparseTelemetry) :
    Agrees (packet.mergeInto data) (state.mergeNamed packet.toNamed) := by
  rw [TelemetryState.mergeNamed, WireTelemetry.ofNamed_toNamed]
  exact h.merge packet

/-- From states that agree on, every sequence of packets leads to such states. -/
theorem Agrees.foldl (h : Agrees data state) (packets : List SparseTelemetry) :
    Agrees (packets.foldl (fun data packet => packet.mergeInto data) data)
      ((packets.map SparseTelemetry.toNamed).foldl TelemetryState.mergeNamed state) := by
  induction packets generalizing data state with
  | nil => exact h
  | cons packet packets ih => exact ih (h.mergeNamed packet)

/-- **The two decoders agree** after every sequence of packets. -/
theorem decoders_agree (packets : List SparseTelemetry) :
    Agrees (packets.foldl (fun data packet => packet.mergeInto data) .default)
      ((packets.map SparseTelemetry.toNamed).foldl TelemetryState.mergeNamed .default) :=
  agrees_default.foldl packets

end Kodama
