import Kodama.Lib.Bytes

/-!
# Frames (crates/kodama/src/frame.rs, protocol.rs)

The data model every component shares: a `Frame` carries the bytes of one capture of one
channel of one source, with its flags and its timestamp. `SourceId` keeps its eight bytes
with the proof that there are eight, so every later encoding has a fixed width.

`Channel.unknown` may carry any byte, as the enum of the source may; the constructors and
the decoder only produce the *canonical* ones (`Channel.ofU8_canonical`), and exactly these
survive a trip through their wire byte (`Channel.ofU8_asU8_iff`).
-/

namespace Kodama

open Lib

/-- What a fallible call returns: a value, or the text of its error (`anyhow::Result`). -/
abbrev Result (α : Type) := Except String α

/-- What a successful call of calls went through. -/
theorem Result.bind_eq_ok {α β : Type} {x : Result α} {f : α → Result β} {b : β} :
    x >>= f = .ok b ↔ ∃ a, x = .ok a ∧ f a = .ok b := by
  cases x with
  | error e =>
    constructor
    · intro h
      cases h
    · rintro ⟨a, h, -⟩
      cases h
  | ok a => exact ⟨fun h => ⟨a, rfl, h⟩, fun ⟨_, rfl, h⟩ => h⟩

/-- Frame header size in bytes (source + channel + flags + timestamp). -/
def frameHeaderSize : Nat := 8 + 1 + 1 + 8

/-- Maximum frame payload size (2 MB). -/
def maxFramePayloadSize : Nat := 2 * 1024 * 1024

/-- Identifies a camera/source: the first 8 bytes of its node id. -/
structure SourceId where
  bytes : Bytes
  length_eq : bytes.length = 8
deriving DecidableEq

/-- A lower-case hexadecimal digit. -/
def hexDigit (n : Nat) : Char :=
  if n < 10 then Char.ofNat (48 + n) else Char.ofNat (87 + n)

/-- `Display for SourceId`: `{:02x}` of each byte. -/
def SourceId.display (s : SourceId) : String :=
  String.ofList (s.bytes.flatMap fun b => [hexDigit (b.toNat / 16), hexDigit (b.toNat % 16)])

theorem hexDigit_inj : ∀ m n : Fin 16, hexDigit m.val = hexDigit n.val → m = n := by decide

theorem hexByte_inj {b c : UInt8} (h : [hexDigit (b.toNat / 16), hexDigit (b.toNat % 16)] =
    [hexDigit (c.toNat / 16), hexDigit (c.toNat % 16)]) : b = c := by
  have hb := b.toNat_lt
  have hc := c.toNat_lt
  obtain ⟨hhigh, hlow⟩ : hexDigit (b.toNat / 16) = hexDigit (c.toNat / 16) ∧
      hexDigit (b.toNat % 16) = hexDigit (c.toNat % 16) := by simpa using h
  have hhigh := hexDigit_inj ⟨b.toNat / 16, by omega⟩ ⟨c.toNat / 16, by omega⟩ hhigh
  have hlow := hexDigit_inj ⟨b.toNat % 16, by omega⟩ ⟨c.toNat % 16, by omega⟩ hlow
  rw [Fin.mk.injEq] at hhigh hlow
  exact UInt8.toNat_inj.mp (by omega)

/-- The text of a source id determines it, so two sources never share a directory. -/
theorem SourceId.display_injective {s s' : SourceId} (h : s.display = s'.display) : s = s' := by
  have hbytes : ∀ bs bs' : Bytes,
      (bs.flatMap fun b => [hexDigit (b.toNat / 16), hexDigit (b.toNat % 16)]) =
        (bs'.flatMap fun b => [hexDigit (b.toNat / 16), hexDigit (b.toNat % 16)]) → bs = bs' := by
    intro bs
    induction bs with
    | nil =>
      rintro (_ | ⟨c, bs'⟩) h
      · rfl
      · cases h
    | cons b bs ih =>
      rintro (_ | ⟨c, bs'⟩) h
      · cases h
      · rw [List.flatMap_cons, List.flatMap_cons] at h
        obtain ⟨hhead, htail⟩ := List.append_inj h rfl
        rw [hexByte_inj hhead, ih bs' htail]
  obtain ⟨bs, hlen⟩ := s
  obtain ⟨bs', hlen'⟩ := s'
  obtain rfl : bs = bs' := hbytes bs bs' (String.ofList_inj.mp h)
  rfl

/-- Channel types within a source. -/
inductive Channel where
  | video
  | audio
  | telemetry
  | unknown (v : UInt8)
deriving DecidableEq

namespace Channel

/-- The wire-format byte of a channel. -/
def asU8 : Channel → UInt8
  | video => 0
  | audio => 1
  | telemetry => 2
  | unknown v => v

/-- `From<u8> for Channel`. -/
def ofU8 (value : UInt8) : Channel :=
  if value = 0 then video
  else if value = 1 then audio
  else if value = 2 then telemetry
  else unknown value

/-- The channels the constructors and the decoder produce. -/
def Canonical : Channel → Prop
  | unknown v => 3 ≤ v
  | _ => True

instance : DecidablePred Canonical
  | video => .isTrue trivial
  | audio => .isTrue trivial
  | telemetry => .isTrue trivial
  | unknown v => inferInstanceAs (Decidable (3 ≤ v))

theorem three_le_iff {v : UInt8} : 3 ≤ v ↔ v ≠ 0 ∧ v ≠ 1 ∧ v ≠ 2 := by
  rw [UInt8.le_iff_toNat_le, ← UInt8.toNat_inj.ne, ← UInt8.toNat_inj.ne, ← UInt8.toNat_inj.ne]
  show 3 ≤ v.toNat ↔ v.toNat ≠ 0 ∧ v.toNat ≠ 1 ∧ v.toNat ≠ 2
  omega

theorem ofU8_canonical (value : UInt8) : (ofU8 value).Canonical := by
  rw [ofU8]
  split
  · trivial
  · next h0 =>
    split
    · trivial
    · next h1 =>
      split
      · trivial
      · next h2 => exact three_le_iff.mpr ⟨h0, h1, h2⟩

@[simp] theorem asU8_ofU8 (value : UInt8) : (ofU8 value).asU8 = value := by
  rw [ofU8]
  repeat' split
  all_goals simp_all [asU8]

/-- A channel survives its wire byte exactly when it is canonical. -/
theorem ofU8_asU8_iff {c : Channel} : ofU8 c.asU8 = c ↔ c.Canonical := by
  constructor
  · intro h
    exact h ▸ ofU8_canonical _
  · intro h
    cases c with
    | video => rfl
    | audio => rfl
    | telemetry => rfl
    | unknown v =>
      obtain ⟨h0, h1, h2⟩ := three_le_iff.mp h
      show ofU8 v = unknown v
      rw [ofU8, if_neg h0, if_neg h1, if_neg h2]

end Channel

/-- Frame flags. -/
structure FrameFlags where
  bits : UInt8
deriving DecidableEq

namespace FrameFlags

/-- Flag bit of a keyframe. -/
def KEYFRAME : UInt8 := 0b0000_0001

/-- `FrameFlags::default`. -/
def default : FrameFlags := ⟨0⟩

def isKeyframe (flags : FrameFlags) : Bool := flags.bits &&& KEYFRAME != 0

def keyframe : FrameFlags := ⟨KEYFRAME⟩

end FrameFlags

/-- A single frame of data (video, audio, or telemetry). -/
structure Frame where
  source : SourceId
  channel : Channel
  flags : FrameFlags
  /-- Timestamp in microseconds since stream start. -/
  timestampUs : UInt64
  payload : Bytes
deriving DecidableEq

namespace Frame

/-- `Frame::video`; the caller sets the timestamp. -/
def video (source : SourceId) (payload : Bytes) (keyframe : Bool) : Frame :=
  let flags := if keyframe then FrameFlags.keyframe else FrameFlags.default
  ⟨source, .video, flags, 0, payload⟩

/-- `Frame::audio`. -/
def audio (source : SourceId) (payload : Bytes) : Frame :=
  ⟨source, .audio, FrameFlags.default, 0, payload⟩

/-- `Frame::telemetry`. -/
def telemetry (source : SourceId) (payload : Bytes) : Frame :=
  ⟨source, .telemetry, FrameFlags.default, 0, payload⟩

/-- `Frame::with_timestamp`. -/
def withTimestamp (frame : Frame) (timestampUs : UInt64) : Frame :=
  { frame with timestampUs }

end Frame

end Kodama
