import Mathlib.Algebra.Order.Group.Nat
import Mathlib.Tactic.Ring

/-!
# Byte strings

Fixed-width integers in both byte orders, exact reads, and streams of records.

- `toLe w n` / `ofLe`: `w` little-endian bytes of `n`, and back; `toBe` / `ofBe` are the
  same digits reversed. Writing keeps `n` modulo `256 ^ w`, reading bytes back loses
  nothing.
- `takeExact n bs`: the first `n` bytes and the rest, or nothing if there are fewer.
- `decodeMany dec n bs`: `n` successive calls of a decoder that returns a value and the
  unread rest. Against an encoder that `dec` undoes whatever follows, decoding a
  concatenation returns the encoded list (`decodeMany_flatMap`).
-/

namespace Lib

/-- A byte string. -/
abbrev Bytes := List UInt8

/-! ## Little- and big-endian integers -/

/-- `w` little-endian bytes of `n` (higher digits are cut off). -/
def toLe : Nat → Nat → Bytes
  | 0, _ => []
  | w + 1, n => UInt8.ofNat n :: toLe w (n / 256)

/-- The value of little-endian bytes. -/
def ofLe : Bytes → Nat
  | [] => 0
  | b :: bs => b.toNat + 256 * ofLe bs

/-- `w` big-endian bytes of `n`. -/
def toBe (w n : Nat) : Bytes := (toLe w n).reverse

/-- The value of big-endian bytes. -/
def ofBe (bs : Bytes) : Nat := ofLe bs.reverse

@[simp] theorem toLe_length : ∀ w n, (toLe w n).length = w
  | 0, _ => rfl
  | w + 1, n => by rw [toLe, List.length_cons, toLe_length w]

@[simp] theorem toBe_length (w n : Nat) : (toBe w n).length = w := by
  rw [toBe, List.length_reverse, toLe_length]

theorem ofLe_toLe : ∀ w n, ofLe (toLe w n) = n % 256 ^ w
  | 0, n => by rw [toLe, ofLe, Nat.pow_zero, Nat.mod_one]
  | w + 1, n => by
    have hb : (UInt8.ofNat n).toNat = n % 256 := UInt8.toNat_ofNat'
    rw [toLe, ofLe, ofLe_toLe w, hb, Nat.pow_succ', Nat.mod_mul]

theorem ofBe_toBe (w n : Nat) : ofBe (toBe w n) = n % 256 ^ w := by
  rw [ofBe, toBe, List.reverse_reverse, ofLe_toLe]

/-- A number that fits into its bytes is read back. -/
theorem ofLe_toLe_of_lt {w n : Nat} (h : n < 256 ^ w) : ofLe (toLe w n) = n := by
  rw [ofLe_toLe, Nat.mod_eq_of_lt h]

theorem ofBe_toBe_of_lt {w n : Nat} (h : n < 256 ^ w) : ofBe (toBe w n) = n := by
  rw [ofBe_toBe, Nat.mod_eq_of_lt h]

/-- A 64-bit number is read back from its 8 bytes. -/
theorem ofNat_ofLe_toLe (t : UInt64) : UInt64.ofNat (ofLe (toLe 8 t.toNat)) = t := by
  have hlt : t.toNat < 256 ^ 8 := t.toNat_lt
  rw [ofLe_toLe_of_lt hlt, UInt64.ofNat_toNat]

theorem ofNat_ofBe_toBe (t : UInt64) : UInt64.ofNat (ofBe (toBe 8 t.toNat)) = t := by
  rw [ofBe, toBe, List.reverse_reverse, ofNat_ofLe_toLe]

theorem toLe_ofLe : ∀ bs : Bytes, toLe bs.length (ofLe bs) = bs
  | [] => rfl
  | b :: bs => by
    have hb := b.toNat_lt
    have hdiv : (b.toNat + 256 * ofLe bs) / 256 = ofLe bs := by omega
    have hhead : UInt8.ofNat (b.toNat + 256 * ofLe bs) = b := by
      refine UInt8.toNat_inj.mp ?_
      rw [UInt8.toNat_ofNat']
      show (b.toNat + 256 * ofLe bs) % 256 = b.toNat
      omega
    rw [List.length_cons, ofLe, toLe, hdiv, hhead, toLe_ofLe bs]

/-- Reading bytes and writing them again loses nothing. -/
theorem toBe_ofBe {w : Nat} {bs : Bytes} (h : bs.length = w) : toBe w (ofBe bs) = bs := by
  rw [← h, toBe, ofBe, ← List.length_reverse, toLe_ofLe, List.reverse_reverse]

theorem ofBe_lt {w : Nat} {bs : Bytes} (h : bs.length = w) : ofBe bs < 256 ^ w := by
  have hmod := ofBe_toBe w (ofBe bs)
  rw [toBe_ofBe h] at hmod
  rw [hmod]
  exact Nat.mod_lt _ (Nat.pow_pos (by decide))

/-! ## Exact reads -/

/-- The first `n` bytes and the rest. -/
def takeExact (n : Nat) (bs : Bytes) : Option (Bytes × Bytes) :=
  if n ≤ bs.length then some (bs.take n, bs.drop n) else none

theorem takeExact_append {n : Nat} {xs : Bytes} (rest : Bytes) (h : xs.length = n) :
    takeExact n (xs ++ rest) = some (xs, rest) := by
  have hle : n ≤ (xs ++ rest).length := by
    rw [List.length_append]
    omega
  rw [takeExact, if_pos hle, List.take_left' h, List.drop_left' h]

theorem takeExact_eq_some {n : Nat} {bs xs rest : Bytes} :
    takeExact n bs = some (xs, rest) ↔ bs = xs ++ rest ∧ xs.length = n := by
  constructor
  · intro h
    rw [takeExact] at h
    split at h
    · next hle =>
      obtain ⟨rfl, rfl⟩ := Prod.mk.inj (Option.some.inj h)
      exact ⟨(List.take_append_drop n bs).symm, List.length_take_of_le hle⟩
    · cases h
  · rintro ⟨rfl, h⟩
    exact takeExact_append rest h

/-! ## Streams of records -/

section Decode

universe u v

variable {ε : Type u} {α : Type v}

/-- `n` successive calls of a decoder. -/
def decodeMany (dec : Bytes → Except ε (α × Bytes)) : Nat → Bytes → Except ε (List α × Bytes)
  | 0, bs => .ok ([], bs)
  | n + 1, bs =>
    match dec bs with
    | .error e => .error e
    | .ok (a, rest) =>
      match decodeMany dec n rest with
      | .error e => .error e
      | .ok (as, rest') => .ok (a :: as, rest')

variable {dec : Bytes → Except ε (α × Bytes)} {enc : α → Bytes}

theorem decodeMany_succ_ok {n : Nat} {bs rest : Bytes} {a : α} (h : dec bs = .ok (a, rest))
    {as : List α} {rest' : Bytes} (hrest : decodeMany dec n rest = .ok (as, rest')) :
    decodeMany dec (n + 1) bs = .ok (a :: as, rest') := by
  simp only [decodeMany, h, hrest]

/-- What a successful run of the decoder went through. -/
theorem decodeMany_succ_eq_ok {n : Nat} {bs rest : Bytes} {as : List α} :
    decodeMany dec (n + 1) bs = .ok (as, rest) ↔
      ∃ a mid as', dec bs = .ok (a, mid) ∧ decodeMany dec n mid = .ok (as', rest) ∧
        as = a :: as' := by
  constructor
  · intro h
    rw [decodeMany] at h
    cases hd : dec bs with
    | error e =>
      rw [hd] at h
      cases h
    | ok p =>
      obtain ⟨a, mid⟩ := p
      rw [hd] at h
      cases hm : decodeMany dec n mid with
      | error e =>
        simp only [hm] at h
        cases h
      | ok q =>
        obtain ⟨as', rest'⟩ := q
        simp only [hm, Except.ok.injEq, Prod.mk.injEq] at h
        obtain ⟨rfl, rfl⟩ := h
        exact ⟨a, mid, as', rfl, hm, rfl⟩
  · rintro ⟨a, mid, as', hd, hm, rfl⟩
    exact decodeMany_succ_ok hd hm

/-- A decoder that undoes `enc` on each element, whatever follows it, undoes it on a
concatenation and leaves what follows that. -/
theorem decodeMany_flatMap (as : List α)
    (h : ∀ a ∈ as, ∀ rest, dec (enc a ++ rest) = .ok (a, rest)) (rest : Bytes) :
    decodeMany dec as.length (as.flatMap enc ++ rest) = .ok (as, rest) := by
  induction as with
  | nil => rfl
  | cons a as ih =>
    rw [List.flatMap_cons, List.append_assoc, List.length_cons]
    exact decodeMany_succ_ok (h a List.mem_cons_self _)
      (ih fun b hb => h b (List.mem_cons_of_mem _ hb))

/-- A decoder that accepts only encodings accepts only their concatenations. -/
theorem decodeMany_exact (h : ∀ bs a rest, dec bs = .ok (a, rest) → bs = enc a ++ rest) {n : Nat}
    {bs rest : Bytes} {as : List α} (hdec : decodeMany dec n bs = .ok (as, rest)) :
    bs = as.flatMap enc ++ rest ∧ as.length = n := by
  induction n generalizing bs as with
  | zero =>
    obtain ⟨rfl, rfl⟩ := Prod.mk.inj (Except.ok.inj hdec)
    exact ⟨rfl, rfl⟩
  | succ n ih =>
    obtain ⟨a, mid, as', hone, hrest, rfl⟩ := decodeMany_succ_eq_ok.mp hdec
    obtain ⟨rfl, rfl⟩ := ih hrest
    refine ⟨?_, rfl⟩
    rw [h bs a _ hone, List.flatMap_cons, List.append_assoc]

end Decode

end Lib
