import Kodama.Lib.Bytes
import Mathlib.Data.List.Infix

/-!
# Chains of size-prefixed boxes

The box layer of ISO base media files: a box starts with its length in four big-endian
bytes and its type in the next four, and a file is a chain of boxes. `Box` carries the proof
that its length field is right, so a reader finds the end of the first box of a chain whatever
follows it (`size_of_prefix`), and a length field that fits makes a box (`exists_of_size`).
-/

namespace Lib

/-- A box: length and type in its first eight bytes. -/
structure Box where
  bytes : Bytes
  header : 8 ≤ bytes.length
  size_eq : ofBe (bytes.take 4) = bytes.length

namespace Box

/-- The four bytes of a box's type. -/
def type (box : Box) : Bytes := (box.bytes.drop 4).take 4

/-- Boxes one after the other. -/
def chain (boxes : List Box) : Bytes := boxes.flatMap bytes

@[simp] theorem chain_nil : chain [] = [] := rfl

@[simp] theorem chain_cons (box : Box) (boxes : List Box) :
    chain (box :: boxes) = box.bytes ++ chain boxes :=
  List.flatMap_cons

@[simp] theorem chain_append (boxes boxes' : List Box) :
    chain (boxes ++ boxes') = chain boxes ++ chain boxes' :=
  List.flatMap_append

variable {box : Box} {data : Bytes}

/-- The length field of a box can be read whatever follows it. -/
theorem size_of_prefix (h : box.bytes <+: data) : ofBe (data.take 4) = box.bytes.length := by
  obtain ⟨rest, rfl⟩ := h
  have := box.header
  rw [List.take_append_of_le_length (by omega), box.size_eq]

theorem type_of_prefix (h : box.bytes <+: data) : (data.drop 4).take 4 = box.type := by
  obtain ⟨rest, rfl⟩ := h
  have := box.header
  rw [List.drop_append_of_le_length (by omega), List.take_append_of_le_length, type]
  rw [List.length_drop]
  omega

/-- A length field that fits the data is the one of a box. -/
theorem exists_of_size (h8 : 8 ≤ ofBe (data.take 4))
    (hle : ofBe (data.take 4) ≤ data.length) :
    ∃ box : Box, box.bytes <+: data ∧ box.bytes.length = ofBe (data.take 4) := by
  have hlen := List.length_take_of_le hle
  refine ⟨⟨data.take (ofBe (data.take 4)), by omega, ?_⟩, List.take_prefix _ _, hlen⟩
  rw [List.take_take, Nat.min_eq_left (by omega), hlen]

end Box

end Lib
