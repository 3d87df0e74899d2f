import Kodama.Web.TelemetryFeed
import Kodama.Web.VideoFeed

/-!
# The binary protocol of a browser (crates/kodama/src/web/ws.rs)

Every message to a browser starts with its type. The protocol is the comment at the head of the
source: `BrowserMessage.parse` reads a message by it, and the `encode` functions, which are those
of the source, write one. JSON comes from a library and is taken as the bytes that it is; the
audio level as the bits of the float.

- `parse_eq_some`: what is parsed are exactly the messages that fit, from the bytes they are
  encoded as. A codec of more than 255 bytes is cut off, and of the width and the height the lower
  16 bits are sent.
- `feed_parses`: all video that a client forwards is parsed by its browser as it was muxed.
-/

namespace Kodama

open Lib Lib.Machine

inductive BrowserMessage where
  | cameraList (json : Bytes)
  | videoInit (source : SourceId) (codec : Bytes) (width height : UInt32) (initSegment : Bytes)
  | videoSegment (source : SourceId) (segment : Bytes)
  | telemetry (source : SourceId) (json : Bytes)
  | audioLevel (source : SourceId) (levelDb : UInt32)
  | audioData (source : SourceId) (sampleRate : UInt32) (channels : UInt8) (pcmData : Bytes)
  | peerEvent (json : Bytes)
  | serverStats (json : Bytes)
deriving DecidableEq

def msgCameraList : UInt8 := 0x01
def msgVideoInit : UInt8 := 0x02
def msgVideoSegment : UInt8 := 0x03
def msgTelemetry : UInt8 := 0x04
def msgAudioLevel : UInt8 := 0x05
def msgAudioData : UInt8 := 0x06
def msgPeerEvent : UInt8 := 0x07
def msgServerStats : UInt8 := 0x08

/-! ## Writing -/

def encodeCameraList (json : Bytes) : Bytes := msgCameraList :: json

def encodeVideoInit (src : SourceId) (codec : Bytes) (width height : UInt32)
    (initSegment : Bytes) : Bytes :=
  let codecLen := UInt8.ofNat (min codec.length 255)
  msgVideoInit :: src.bytes ++ codecLen :: codec.take codecLen.toNat ++
    toLe 2 width.toUInt16.toNat ++ toLe 2 height.toUInt16.toNat ++ initSegment

def encodeVideoSegment (src : SourceId) (segment : Bytes) : Bytes :=
  msgVideoSegment :: src.bytes ++ segment

def encodeTelemetry (src : SourceId) (payload : Bytes) : Bytes :=
  msgTelemetry :: src.bytes ++ payload

def encodeAudioLevel (src : SourceId) (levelDb : UInt32) : Bytes :=
  msgAudioLevel :: src.bytes ++ toLe 4 levelDb.toNat

def encodeAudioData (src : SourceId) (sampleRate : UInt32) (channels : UInt8) (pcmData : Bytes) :
    Bytes :=
  msgAudioData :: src.bytes ++ toLe 4 sampleRate.toNat ++ channels :: pcmData

def encodePeerEvent (json : Bytes) : Bytes := msgPeerEvent :: json

def encodeServerStats (json : Bytes) : Bytes := msgServerStats :: json

namespace BrowserMessage

def encode : BrowserMessage → Bytes
  | cameraList json => encodeCameraList json
  | videoInit src codec width height initSegment =>
    encodeVideoInit src codec width height initSegment
  | videoSegment src segment => encodeVideoSegment src segment
  | telemetry src json => encodeTelemetry src json
  | audioLevel src levelDb => encodeAudioLevel src levelDb
  | audioData src sampleRate channels pcmData => encodeAudioData src sampleRate channels pcmData
  | peerEvent json => encodePeerEvent json
  | serverStats json => encodeServerStats json

/-- What has room in the fields of its message. -/
def Fits : BrowserMessage → Prop
  | videoInit _ codec width height _ =>
    codec.length ≤ 255 ∧ width.toNat < 2 ^ 16 ∧ height.toNat < 2 ^ 16
  | _ => True

/-! ## Reading -/

def takeSource (bs : Bytes) : Option (SourceId × Bytes) :=
  if h : (bs.take 8).length = 8 then some (⟨bs.take 8, h⟩, bs.drop 8) else none

/-- A number of some little-endian bytes. -/
def takeLe (w : Nat) (bs : Bytes) : Option (Nat × Bytes) :=
  (takeExact w bs).map fun (digits, rest) => (ofLe digits, rest)

/-- `src(8) + codec_len(1) + codec + w(2LE) + h(2LE) + init_segment` -/
def parseVideoInit (body : Bytes) : Option BrowserMessage := do
  let (src, body) ← takeSource body
  let (codecLen, body) ← takeLe 1 body
  let (codec, body) ← takeExact codecLen body
  let (width, body) ← takeLe 2 body
  let (height, initSegment) ← takeLe 2 body
  return .videoInit src codec (.ofNat width) (.ofNat height) initSegment

/-- `src(8) + f32LE` -/
def parseAudioLevel (body : Bytes) : Option BrowserMessage := do
  let (src, body) ← takeSource body
  let (levelDb, rest) ← takeLe 4 body
  if rest.isEmpty then return .audioLevel src (.ofNat levelDb) else none

/-- `src(8) + sr(4LE) + ch(1) + pcm_data` -/
def parseAudioData (body : Bytes) : Option BrowserMessage := do
  let (src, body) ← takeSource body
  let (sampleRate, body) ← takeLe 4 body
  let (channels, pcmData) ← takeLe 1 body
  return .audioData src (.ofNat sampleRate) (.ofNat channels) pcmData

/-- Read a message by the protocol. -/
def parse : Bytes → Option BrowserMessage
  | [] => none
  | type :: body =>
    if type = msgCameraList then some (.cameraList body)
    else if type = msgVideoInit then parseVideoInit body
    else if type = msgVideoSegment then
      (takeSource body).map fun (src, segment) => .videoSegment src segment
    else if type = msgTelemetry then
      (takeSource body).map fun (src, json) => .telemetry src json
    else if type = msgAudioLevel then parseAudioLevel body
    else if type = msgAudioData then parseAudioData body
    else if type = msgPeerEvent then some (.peerEvent body)
    else if type = msgServerStats then some (.serverStats body)
    else none

variable {bs body rest : Bytes} {m : BrowserMessage} {src : SourceId} {n w : Nat}

theorem takeSource_eq_some : takeSource bs = some (src, rest) ↔ bs = src.bytes ++ rest := by
  rw [takeSource]
  constructor
  · intro h
    split at h
    · obtain ⟨rfl, rfl⟩ := Prod.mk.inj (Option.some.inj h)
      exact (List.take_append_drop 8 bs).symm
    · cases h
  · rintro rfl
    obtain ⟨bytes, hlen⟩ := src
    have htake : (bytes ++ rest).take 8 = bytes := List.take_left' hlen
    simp only [htake, hlen, dite_true, List.drop_left' hlen]

theorem takeLe_eq_some : takeLe w bs = some (n, rest) ↔ bs = toLe w n ++ rest ∧ n < 256 ^ w := by
  rw [takeLe, Option.map_eq_some_iff]
  constructor
  · rintro ⟨⟨digits, rest'⟩, htake, heq⟩
    obtain ⟨rfl, rfl⟩ := Prod.mk.inj heq
    obtain ⟨rfl, hlen⟩ := takeExact_eq_some.mp htake
    refine ⟨by rw [← hlen, toLe_ofLe], ?_⟩
    have hmod := ofLe_toLe w (ofLe digits)
    rw [← hlen, toLe_ofLe] at hmod
    rw [← hlen, hmod]
    exact Nat.mod_lt _ (Nat.pow_pos (by decide))
  · rintro ⟨rfl, hlt⟩
    refine ⟨_, takeExact_append rest (toLe_length w n), ?_⟩
    show (ofLe (toLe w n), rest) = (n, rest)
    rw [ofLe_toLe_of_lt hlt]

/-! ## Messages that fit -/

/-- A message that fits, field by field. -/
theorem encodeVideoInit_of_fits {codec initSegment : Bytes} {width height : UInt32}
    (h : (videoInit src codec width height initSegment).Fits) :
    encodeVideoInit src codec width height initSegment = msgVideoInit ::
      (src.bytes ++ (toLe 1 codec.length ++ (codec ++
        (toLe 2 width.toNat ++ (toLe 2 height.toNat ++ initSegment))))) := by
  obtain ⟨hcodec, hwidth, hheight⟩ := h
  have hlen : (UInt8.ofNat (min codec.length 255)).toNat = codec.length := by
    rw [Nat.min_eq_left hcodec, UInt8.toNat_ofNat']
    exact Nat.mod_eq_of_lt (Nat.lt_succ_of_le hcodec)
  have hbyte : toLe 1 codec.length = [UInt8.ofNat (min codec.length 255)] := by
    rw [Nat.min_eq_left hcodec]
    rfl
  have hlow : ∀ n : UInt32, n.toNat < 2 ^ 16 → n.toUInt16.toNat = n.toNat := fun n hn =>
    Nat.mod_eq_of_lt hn
  rw [encodeVideoInit, hlen, List.take_length, hlow width hwidth, hlow height hheight, hbyte]
  simp only [List.cons_append, List.append_assoc, List.nil_append]

theorem parseVideoInit_eq_some : parseVideoInit body = some m ↔
    ∃ src codec width height initSegment, m = .videoInit src codec width height initSegment ∧
      m.Fits ∧ m.encode = msgVideoInit :: body := by
  constructor
  · intro h
    obtain ⟨⟨src, body⟩, hsrc, h⟩ := Option.bind_eq_some_iff.mp h
    obtain ⟨⟨codecLen, body⟩, hcodecLen, h⟩ := Option.bind_eq_some_iff.mp h
    obtain ⟨⟨codec, body⟩, hcodec, h⟩ := Option.bind_eq_some_iff.mp h
    obtain ⟨⟨width, body⟩, hwidth, h⟩ := Option.bind_eq_some_iff.mp h
    obtain ⟨⟨height, initSegment⟩, hheight, h⟩ := Option.bind_eq_some_iff.mp h
    obtain rfl := Option.some.inj h
    obtain rfl := takeSource_eq_some.mp hsrc
    obtain ⟨rfl, hcodecLt⟩ := takeLe_eq_some.mp hcodecLen
    obtain ⟨rfl, rfl⟩ := takeExact_eq_some.mp hcodec
    obtain ⟨rfl, hwidthLt⟩ := takeLe_eq_some.mp hwidth
    obtain ⟨rfl, hheightLt⟩ := takeLe_eq_some.mp hheight
    have hnat : ∀ n, n < 256 ^ 2 → (UInt32.ofNat n).toNat = n := fun n hn =>
      UInt32.toNat_ofNat_of_lt' (Nat.lt_trans hn (by decide))
    have hfits : (videoInit src codec (.ofNat width) (.ofNat height) initSegment).Fits :=
      ⟨Nat.le_of_lt_succ hcodecLt, (hnat width hwidthLt).symm ▸ hwidthLt,
        (hnat height hheightLt).symm ▸ hheightLt⟩
    refine ⟨src, codec, _, _, initSegment, rfl, hfits, ?_⟩
    rw [encode, encodeVideoInit_of_fits hfits, hnat width hwidthLt, hnat height hheightLt]
  · rintro ⟨src, codec, width, height, initSegment, rfl, hfits, hbody⟩
    rw [encode, encodeVideoInit_of_fits hfits] at hbody
    obtain rfl := (List.cons.inj hbody).2
    obtain ⟨hcodec, hwidth, hheight⟩ := hfits
    refine Option.bind_eq_some_iff.mpr ⟨_, takeSource_eq_some.mpr rfl, ?_⟩
    refine Option.bind_eq_some_iff.mpr
      ⟨_, takeLe_eq_some.mpr ⟨rfl, Nat.lt_succ_of_le hcodec⟩, ?_⟩
    refine Option.bind_eq_some_iff.mpr ⟨_, takeExact_append _ rfl, ?_⟩
    refine Option.bind_eq_some_iff.mpr ⟨_, takeLe_eq_some.mpr ⟨rfl, hwidth⟩, ?_⟩
    refine Option.bind_eq_some_iff.mpr ⟨_, takeLe_eq_some.mpr ⟨rfl, hheight⟩, ?_⟩
    show some (videoInit src codec (.ofNat width.toNat) (.ofNat height.toNat) initSegment) = _
    rw [UInt32.ofNat_toNat, UInt32.ofNat_toNat]

theorem parseAudioLevel_eq_some : parseAudioLevel body = some m ↔
    ∃ src levelDb, m = .audioLevel src levelDb ∧ m.encode = msgAudioLevel :: body := by
  constructor
  · intro h
    obtain ⟨⟨src, body⟩, hsrc, h⟩ := Option.bind_eq_some_iff.mp h
    obtain ⟨⟨levelDb, rest⟩, hlevel, h⟩ := Option.bind_eq_some_iff.mp h
    split at h
    next hrest =>
      split at h
      · next hempty =>
        obtain rfl := Option.some.inj h
        obtain rfl := takeSource_eq_some.mp hsrc
        obtain ⟨rfl, hlt⟩ := takeLe_eq_some.mp hlevel
        obtain ⟨rfl, rfl⟩ := Prod.mk.inj hrest
        refine ⟨src, _, rfl, ?_⟩
        rw [encode, encodeAudioLevel, UInt32.toNat_ofNat_of_lt' hlt, List.isEmpty_iff.mp hempty,
          List.append_nil, List.cons_append]
      · cases h
  · rintro ⟨src, levelDb, rfl, hbody⟩
    obtain rfl := (List.cons.inj hbody).2
    refine Option.bind_eq_some_iff.mpr ⟨_, takeSource_eq_some.mpr rfl, ?_⟩
    refine Option.bind_eq_some_iff.mpr
      ⟨_, takeLe_eq_some.mpr ⟨(List.append_nil _).symm, levelDb.toNat_lt⟩, ?_⟩
    show some (audioLevel src (.ofNat levelDb.toNat)) = _
    rw [UInt32.ofNat_toNat]

theorem parseAudioData_eq_some : parseAudioData body = some m ↔
    ∃ src sampleRate channels pcmData, m = .audioData src sampleRate channels pcmData ∧
      m.encode = msgAudioData :: body := by
  constructor
  · intro h
    obtain ⟨⟨src, body⟩, hsrc, h⟩ := Option.bind_eq_some_iff.mp h
    obtain ⟨⟨sampleRate, body⟩, hrate, h⟩ := Option.bind_eq_some_iff.mp h
    obtain ⟨⟨channels, pcmData⟩, hchannels, h⟩ := Option.bind_eq_some_iff.mp h
    obtain rfl := Option.some.inj h
    obtain rfl := takeSource_eq_some.mp hsrc
    obtain ⟨rfl, hlt⟩ := takeLe_eq_some.mp hrate
    obtain ⟨rfl, -⟩ := takeLe_eq_some.mp hchannels
    refine ⟨src, _, _, pcmData, rfl, ?_⟩
    rw [encode, encodeAudioData, UInt32.toNat_ofNat_of_lt' hlt, List.cons_append,
      List.cons_append, List.append_assoc]
    rfl
  · rintro ⟨src, sampleRate, channels, pcmData, rfl, hbody⟩
    rw [encode, encodeAudioData, List.cons_append, List.cons_append, List.append_assoc] at hbody
    obtain rfl := (List.cons.inj hbody).2
    refine Option.bind_eq_some_iff.mpr ⟨_, takeSource_eq_some.mpr rfl, ?_⟩
    refine Option.bind_eq_some_iff.mpr
      ⟨_, takeLe_eq_some.mpr ⟨rfl, sampleRate.toNat_lt⟩, ?_⟩
    have hchannel : takeLe 1 (channels :: pcmData) = some (channels.toNat, pcmData) := by
      refine takeLe_eq_some.mpr ⟨?_, channels.toNat_lt⟩
      show channels :: pcmData = UInt8.ofNat channels.toNat :: pcmData
      rw [UInt8.ofNat_toNat]
    refine Option.bind_eq_some_iff.mpr ⟨_, hchannel, ?_⟩
    show some (audioData src (.ofNat sampleRate.toNat) (.ofNat channels.toNat) pcmData) = _
    rw [UInt32.ofNat_toNat, UInt8.ofNat_toNat]

/-- A message with a source and the rest of the bytes. -/
theorem map_takeSource_eq_some {f : SourceId → Bytes → BrowserMessage} :
    (takeSource body).map (fun (src, rest) => f src rest) = some m ↔
      ∃ src rest, m = f src rest ∧ body = src.bytes ++ rest := by
  rw [Option.map_eq_some_iff]
  constructor
  · rintro ⟨⟨src, rest⟩, hsrc, rfl⟩
    exact ⟨src, rest, rfl, takeSource_eq_some.mp hsrc⟩
  · rintro ⟨src, rest, rfl, hbody⟩
    exact ⟨(src, rest), takeSource_eq_some.mpr hbody, rfl⟩

/-- What is parsed is what was encoded. -/
theorem encode_of_parse (h : parse bs = some m) : m.encode = bs ∧ m.Fits := by
  cases bs with
  | nil => cases h
  | cons type body =>
    rw [parse] at h
    split_ifs at h with hlist hinit hsegment htelemetry hlevel hdata hpeer hstats
    · exact Option.some.inj h ▸ ⟨hlist ▸ rfl, trivial⟩
    · obtain ⟨src, codec, width, height, initSegment, rfl, hfits, hbody⟩ :=
        parseVideoInit_eq_some.mp h
      exact ⟨hinit ▸ hbody, hfits⟩
    · obtain ⟨src, segment, rfl, rfl⟩ := map_takeSource_eq_some.mp h
      exact ⟨hsegment ▸ rfl, trivial⟩
    · obtain ⟨src, json, rfl, rfl⟩ := map_takeSource_eq_some.mp h
      exact ⟨htelemetry ▸ rfl, trivial⟩
    · obtain ⟨src, levelDb, rfl, hbody⟩ := parseAudioLevel_eq_some.mp h
      exact ⟨hlevel ▸ hbody, trivial⟩
    · obtain ⟨src, sampleRate, channels, pcmData, rfl, hbody⟩ := parseAudioData_eq_some.mp h
      exact ⟨hdata ▸ hbody, trivial⟩
    · exact Option.some.inj h ▸ ⟨hpeer ▸ rfl, trivial⟩
    · exact Option.some.inj h ▸ ⟨hstats ▸ rfl, trivial⟩

/-- A message that fits is parsed as itself. -/
theorem parse_encode (hfits : m.Fits) : parse m.encode = some m := by
  cases m with
  | cameraList json => rfl
  | videoInit src codec width height initSegment =>
    exact parseVideoInit_eq_some.mpr ⟨_, _, _, _, _, rfl, hfits, rfl⟩
  | videoSegment src segment => exact map_takeSource_eq_some.mpr ⟨src, segment, rfl, rfl⟩
  | telemetry src json => exact map_takeSource_eq_some.mpr ⟨src, json, rfl, rfl⟩
  | audioLevel src levelDb => exact parseAudioLevel_eq_some.mpr ⟨_, _, rfl, rfl⟩
  | audioData src sampleRate channels pcmData =>
    exact parseAudioData_eq_some.mpr ⟨_, _, _, _, rfl, rfl⟩
  | peerEvent json => rfl
  | serverStats json => rfl

/-- **The protocol is unambiguous.** Bytes are parsed as a message if and only if the message fits
and is encoded as these bytes. -/
theorem parse_eq_some (bs : Bytes) (m : BrowserMessage) :
    parse bs = some m ↔ m.encode = bs ∧ m.Fits :=
  ⟨encode_of_parse, fun ⟨hencode, hfits⟩ => hencode ▸ parse_encode hfits⟩

end BrowserMessage

/-! ## The video of a client -/

/-- What `handle_ws` sends for a message of the muxer. -/
def MuxedVideo.toBrowser : MuxedVideo → BrowserMessage
  | .init source cached =>
    .videoInit source cached.codec.toUTF8.data.toList cached.width cached.height cached.data
  | .segment source data _ => .videoSegment source data

/-- The codec and the size that every init is sent with. -/
structure CachedInit.Standard (init : CachedInit) : Prop where
  codec : init.codec = "avc1.640028"
  width : init.width = 1280
  height : init.height = 720

def MuxedVideo.Standard : MuxedVideo → Prop
  | .init _ cached => cached.Standard
  | .segment .. => True

theorem MuxedVideo.Standard.fits {m : MuxedVideo} (h : m.Standard) : m.toBrowser.Fits := by
  cases m with
  | segment => trivial
  | init source cached =>
    obtain ⟨hcodec, hwidth, hheight⟩ := h
    rw [toBrowser, hcodec, hwidth, hheight]
    exact ⟨by decide, by decide, by decide⟩

structure MuxResult.Standard (r : MuxResult) : Prop where
  codec : r.codec = some "avc1.640028"
  width : r.width = some 1280
  height : r.height = some 720

namespace Fmp4World

/-- The muxer has the size it is made with. -/
structure Sized (w : Fmp4World) : Prop where
  width : w.muxer.width = 1280
  height : w.muxer.height = 720

variable {w : Fmp4World} {result : MuxResult}

theorem Sized.readOutput (h : w.Sized) (hresult : result.Standard) (during : List Activity) :
    (w.readOutput during result).1.Sized ∧ (w.readOutput during result).2.Standard := by
  rw [Fmp4World.readOutput]
  split
  · exact ⟨h, hresult⟩
  · simp only []
    split
    · rw [readMedia]
      refine ⟨?_, ⟨hresult.codec, hresult.width, hresult.height⟩⟩
      split <;> exact ⟨h.width, h.height⟩
    · rw [readInit]
      split
      · exact ⟨⟨h.width, h.height⟩, hresult⟩
      · exact ⟨⟨h.width, h.height⟩, ⟨hresult.codec, hresult.width, hresult.height⟩⟩

theorem Sized.feedAndRead (h : w.Sized) (hresult : result.Standard) (payload : Bytes)
    (env : MuxEnv) :
    (w.feedAndRead payload env result).1.Sized ∧ (w.feedAndRead payload env result).2.Standard := by
  rw [Fmp4World.feedAndRead]
  split
  · exact h.readOutput hresult env.during
  · next tx _ =>
    have hsent : (w.modifyProcess tx fun p => p.send payload).Sized := ⟨h.width, h.height⟩
    split
    · exact hsent.readOutput hresult env.during
    · exact ⟨⟨h.width, h.height⟩, hresult⟩

theorem Sized.muxFrame (h : w.Sized) (payload : Bytes) (isKeyframe : Bool) (env : MuxEnv) :
    (w.muxFrame payload isKeyframe env).1.Sized ∧
      (w.muxFrame payload isKeyframe env).2.Standard := by
  have hblank : w.blank.Standard :=
    ⟨rfl, congrArg some h.width, congrArg some h.height⟩
  have hkeyed : ({ w with muxer := { w.muxer with needsKeyframe := false } } : Fmp4World).Sized :=
    ⟨h.width, h.height⟩
  rw [Fmp4World.muxFrame]
  simp only []
  split
  · exact ⟨⟨h.width, h.height⟩, hblank⟩
  · split
    · exact ⟨h, hblank⟩
    · split
      · exact hkeyed.feedAndRead hblank payload env
      · split
        · exact ⟨hkeyed, hblank⟩
        · have hstarted : ({ w with muxer := { w.muxer with needsKeyframe := false } } :
              Fmp4World).startFfmpeg.Sized := ⟨h.width, h.height⟩
          exact hstarted.feedAndRead hblank payload env

end Fmp4World

/-- What is published of a result. -/
theorem Publication.standard_ofResult {result : MuxResult} (h : result.Standard)
    (source : SourceId) (session : Nat) :
    ∀ m ∈ (Publication.ofResult source session result).messages, m.Standard := by
  intro m hm
  rw [ofResult, h.codec, h.width, h.height] at hm
  cases hinit : result.initSegment with
  | none =>
    rw [hinit] at hm
    cases hsegment : result.mediaSegment <;> rw [hsegment] at hm <;>
      simp [ofSegment, messages] at hm
    rw [hm]
    trivial
  | some data =>
    rw [hinit] at hm
    rcases List.mem_cons.mp hm with rfl | hm
    · exact ⟨rfl, rfl, rfl⟩
    · cases hsegment : result.mediaSegment <;> rw [hsegment] at hm <;>
        simp [segmentMessages] at hm
      rw [hm]
      trivial

namespace VideoFeed

/-- Everything in the feed has the size of the muxers. -/
structure Standard (s : VideoFeed) : Prop where
  muxers : ∀ source, (s.feed source).world.Sized
  publication : ∀ m ∈ s.publication.messages, m.Standard
  inits : ∀ source init, s.inits.lookup source = some init → init.Standard
  sent : ∀ m ∈ s.videoTx.sent, m.Standard
  clients : ∀ i c, s.clients i = some c → ∀ m ∈ c.forwarded, m.Standard

variable {s t : VideoFeed}

theorem Standard.setClient (h : s.Standard) {i : Nat} {c : Client}
    (hc : ∀ m ∈ c.forwarded, m.Standard) : (s.setClient i c).Standard :=
  { h with
    clients := fun j d hj => by
      have hj : Function.update s.clients i (some c) j = some d := hj
      by_cases hji : j = i
      · rw [hji, Function.update_self] at hj
        exact Option.some.inj hj ▸ hc
      · rw [Function.update_of_ne hji] at hj
        exact h.clients j d hj }

theorem Standard.setMuxer (h : s.Standard) {source : SourceId} {run : MuxerRun}
    (hrun : run.world.Sized) :
    ({ s with muxers := Function.update s.muxers source (some run) } : VideoFeed).Standard :=
  { h with
    muxers := fun k => by
      show ((Function.update s.muxers source (some run) k).getD {}).world.Sized
      by_cases hk : k = source
      · rw [hk, Function.update_self]
        exact hrun
      · rw [Function.update_of_ne hk]
        exact h.muxers k }

/-- One more message is forwarded. -/
theorem standard_concat {messages : List MuxedVideo} (h : ∀ m ∈ messages, m.Standard)
    {m : MuxedVideo} (hm : m.Standard) : ∀ m' ∈ messages ++ [m], m'.Standard := by
  intro m' hm'
  rcases List.mem_append.mp hm' with hm' | hm'
  · exact h m' hm'
  · exact List.mem_singleton.mp hm' ▸ hm

theorem standard_sendInits {c : Client} (h : ∀ m ∈ c.forwarded, m.Standard)
    {order : List (Sigma fun _ : SourceId => CachedInit)} (horder : ∀ e ∈ order, e.2.Standard) :
    ∀ m ∈ (c.sendInits order).forwarded, m.Standard := by
  intro m hm
  rw [sendInits_forwarded] at hm
  rcases List.mem_append.mp hm with hm | hm
  · exact h m hm
  · obtain ⟨e, he, rfl⟩ := List.mem_map.mp hm
    exact horder e he

/-- What a client does with what it has received. -/
theorem standard_receive {c : Client} (h : ∀ m ∈ c.forwarded, m.Standard)
    {received : Received MuxedVideo} (hreceived : ∀ m, received = .message m → m.Standard)
    (next : Nat) : ∀ m ∈ (c.receive received next).forwarded, m.Standard := by
  cases received with
  | lagged n => exact h
  | message m =>
    cases m with
    | init source cached => exact standard_concat h (hreceived _ rfl)
    | segment source data session =>
      rw [Client.receive]
      dsimp only
      split
      · exact standard_concat h trivial
      · exact h

theorem standard_publish (h : s.Standard) (hstep : s.publish = some t) : t.Standard := by
  have hpublication := h.publication
  rw [publish] at hstep
  split at hstep
  · cases hstep
  · next source cached segment heq =>
    rw [heq] at hpublication
    obtain rfl := Option.some.inj hstep
    refine { h with publication := hpublication, inits := fun k init hk => ?_ }
    rcases HashMap.lookup_insert_eq_some.mp hk with ⟨-, rfl⟩ | ⟨-, hold⟩
    · exact hpublication _ List.mem_cons_self
    · exact h.inits k init hold
  · next source cached segment heq =>
    rw [heq] at hpublication
    obtain rfl := Option.some.inj hstep
    obtain ⟨hinit, hrest⟩ := List.forall_mem_cons.mp hpublication
    refine { h with publication := ?_, sent := standard_concat h.sent hinit }
    cases segment with
    | none => exact fun _ hm => absurd hm List.not_mem_nil
    | some data => exact hrest
  · next source data session heq =>
    obtain rfl := Option.some.inj hstep
    exact
      { h with
        publication := fun _ hm => absurd hm List.not_mem_nil
        sent := standard_concat h.sent trivial }

/-- Every step leaves all inits standard. -/
theorem standard_step {event : FeedEvent} (h : s.Standard) (hstep : s.step event = some t) :
    t.Standard := by
  cases event with
  | frame frame env =>
    simp only [step] at hstep
    split at hstep
    · split at hstep
      · obtain rfl := Option.some.inj hstep
        obtain ⟨hworld, hresult⟩ := (h.muxers frame.source).muxFrame frame.payload
          frame.flags.isKeyframe env
        exact { h.setMuxer hworld with publication := Publication.standard_ofResult hresult _ _ }
      · exact Option.some.inj hstep ▸ h
    · cases hstep
  | lagged =>
    simp only [step] at hstep
    split at hstep
    · obtain rfl := Option.some.inj hstep
      refine { h with muxers := fun source => ?_ }
      have hbefore := h.muxers source
      rw [feed] at hbefore ⊢
      cases hrun : s.muxers source with
      | none =>
        simp only [hrun]
        exact ⟨rfl, rfl⟩
      | some run =>
        rw [hrun] at hbefore
        simp only [hrun]
        exact ⟨hbefore.width, hbefore.height⟩
    · cases hstep
  | act source pid activity =>
    obtain ⟨run, hrun, rfl⟩ := Option.map_eq_some_iff.mp hstep
    refine h.setMuxer ?_
    have hbefore := h.muxers source
    rw [MuxerRun.step] at hrun
    split at hrun
    · exact Option.some.inj hrun ▸ ⟨hbefore.width, hbefore.height⟩
    · cases hrun
  | publish => exact standard_publish h hstep
  | join i =>
    simp only [step] at hstep
    split at hstep
    · exact Option.some.inj hstep ▸ h.setClient fun _ hm => absurd hm List.not_mem_nil
    · cases hstep
  | sendInits i order =>
    simp only [step] at hstep
    split at hstep
    · next c hc =>
      split at hstep
      · next hjoining =>
        refine Option.some.inj hstep ▸ h.setClient (standard_sendInits (h.clients i c hc) ?_)
        exact fun e he => h.inits e.1 e.2 (HashMap.mem_entries_iff.mp (hjoining.2.mem_iff.mp he))
      · cases hstep
    · cases hstep
  | receive i =>
    simp only [step] at hstep
    split at hstep
    · next c hc =>
      split at hstep
      · obtain ⟨⟨received, next⟩, hrecv, rfl⟩ := Option.map_eq_some_iff.mp hstep
        refine h.setClient (standard_receive (h.clients i c hc) ?_ next)
        rintro m rfl
        obtain ⟨-, hunread, -⟩ := Broadcast.recv_message hrecv
        refine h.sent m (List.mem_of_mem_drop (i := c.videoRx) ?_)
        rw [show s.videoTx.sent.drop c.videoRx = _ from hunread]
        exact List.mem_cons_self
      · cases hstep
    · cases hstep
  | fetch i =>
    simp only [step] at hstep
    split at hstep
    · next c hc =>
      split at hstep
      · next source data session hphase =>
        refine Option.some.inj hstep ▸ h.setClient ?_
        cases hcached : s.inits.lookup source with
        | none => exact h.clients i c hc
        | some cached =>
          have hinit : (MuxedVideo.init source cached).Standard := h.inits source cached hcached
          exact standard_concat (standard_concat (h.clients i c hc) hinit) trivial
      · cases hstep
    · cases hstep
  | leave i =>
    obtain rfl := Option.some.inj hstep
    refine { h with clients := fun j c hj => ?_ }
    have hj : Function.update s.clients i none j = some c := hj
    by_cases hji : j = i
    · rw [hji, Function.update_self] at hj
      cases hj
    · rw [Function.update_of_ne hji] at hj
      exact h.clients j c hj

/-- **The browser reads what was muxed.** In every run, every message that a client has forwarded is
parsed as the message it was, with its codec, its size and its data. -/
theorem feed_parses (capacity : Nat) (events : List FeedEvent) :
    Always step
      (fun s => ∀ i c, s.clients i = some c → ∀ m ∈ c.forwarded,
        BrowserMessage.parse m.toBrowser.encode = some m.toBrowser)
      { videoTx := { capacity } } events := by
  have hstandard : Always step Standard { videoTx := { capacity } } events := by
    refine always_of_step ?_ (fun _ _ _ h hstep => standard_step h hstep) events
    exact
      { muxers := fun _ => ⟨rfl, rfl⟩
        publication := nofun
        inits := fun _ _ h => nomatch (AList.lookup_empty _).symm.trans h
        sent := nofun
        clients := nofun }
  refine hstandard.mono fun s h i c hc m hm => ?_
  exact BrowserMessage.parse_encode (h.clients i c hc m hm).fits

end VideoFeed

end Kodama
