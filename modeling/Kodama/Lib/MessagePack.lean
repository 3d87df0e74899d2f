import Kodama.Lib.Bytes

/-!
# MessagePack numbers and strings

An unsigned integer of at most 32 bits takes 1, 2, 3 or 5 bytes, the fewer the smaller it is; a
string takes a header of 1, 2, 3 or 5 bytes, by its length, and its UTF-8 bytes.
-/

namespace Lib.MessagePack

/-- The bytes that an unsigned integer of at most 32 bits takes. -/
def uintLen (n : Nat) : Nat :=
  if n < 2 ^ 7 then 1 else if n < 2 ^ 8 then 2 else if n < 2 ^ 16 then 3 else 5

def packUInt (n : Nat) : Bytes :=
  if n < 2 ^ 7 then [UInt8.ofNat n]
  else if n < 2 ^ 8 then 0xcc :: toBe 1 n
  else if n < 2 ^ 16 then 0xcd :: toBe 2 n
  else 0xce :: toBe 4 n

theorem packUInt_length (n : Nat) : (packUInt n).length = uintLen n := by
  rw [packUInt, uintLen]
  split_ifs
  · rfl
  · rw [List.length_cons, toBe_length]
  · rw [List.length_cons, toBe_length]
  · rw [List.length_cons, toBe_length]

/-- The header of a string of some bytes. -/
def strHeader (len : Nat) : Bytes :=
  if len < 2 ^ 5 then [UInt8.ofNat (0xa0 + len)]
  else if len < 2 ^ 8 then 0xd9 :: toBe 1 len
  else if len < 2 ^ 16 then 0xda :: toBe 2 len
  else 0xdb :: toBe 4 len

def packStr (s : String) : Bytes := strHeader s.utf8ByteSize ++ s.toByteArray.data.toList

theorem packStr_length (s : String) :
    (packStr s).length = (strHeader s.utf8ByteSize).length + s.utf8ByteSize := by
  rw [packStr, List.length_append, Array.length_toList]
  rfl

end Lib.MessagePack
