import Kodama.Lib.HashMap
import Kodama.Lib.Bytes
import Mathlib.Logic.Function.Basic

/-!
# A file system of names and inodes

`FileSystem π` maps paths of any type `π` to inodes, and inodes to contents. It follows the
POSIX calls programs make through `std::fs`: opening with `create | truncate` empties the
file a name stands for, so another handle on that file sees it emptied; `remove` takes away
a name and `rename` moves one over another, while open handles keep their inodes; a write
goes to the position of its handle, and past the end of the file fills the gap with zeros.

The structure carries its own well-formedness: named inodes have been allocated, and no
inode has two names. So a fresh inode is nobody's (`lookup_ne_next`), and two different
names never share contents (`names_inj`).

`BufWriter` is the standard library's buffered writer on a handle, with its capacity and
its order of buffering and flushing. `BufWriter.Holds` says what it has been given so far;
`writeAll_holds` and `flush_holds` are the rules for a file that is written from its start
to its end.
-/

namespace Lib

universe u

/-- A path, as a directory and the name of a file in it. -/
structure PathBuf where
  dir : String
  file : String
deriving DecidableEq

/-- What a file holds. -/
structure Inode where
  data : Bytes := []
  executable : Bool := false
deriving DecidableEq

/-- An open file and the position of the next write. -/
structure Handle where
  inode : Nat
  pos : Nat
deriving DecidableEq

/-- Names, contents, and the next inode to allocate. -/
structure FileSystem (π : Type u) [DecidableEq π] where
  names : HashMap π Nat
  inodes : Nat → Inode
  next : Nat
  named_lt : ∀ p i, names.lookup p = some i → i < next
  names_inj : ∀ p q i, names.lookup p = some i → names.lookup q = some i → p = q

namespace FileSystem

variable {π : Type u} [DecidableEq π]

/-- A file system without files. -/
def empty : FileSystem π where
  names := ∅
  inodes _ := {}
  next := 0
  named_lt _ _ h := absurd ((AList.lookup_empty _).symm.trans h) (by simp)
  names_inj _ _ _ h := absurd ((AList.lookup_empty _).symm.trans h) (by simp)

/-- Replace the contents of one inode. -/
def setInode (fs : FileSystem π) (i : Nat) (node : Inode) : FileSystem π :=
  { fs with inodes := Function.update fs.inodes i node }

/-- The content of an inode. -/
def data (fs : FileSystem π) (i : Nat) : Bytes := (fs.inodes i).data

/-- `Path::exists`. -/
def hasPath (fs : FileSystem π) (p : π) : Bool := (fs.names.lookup p).isSome

/-- The file a path names. -/
def file (fs : FileSystem π) (p : π) : Option Inode := (fs.names.lookup p).map fs.inodes

/-- The content of a file by its path. -/
def read (fs : FileSystem π) (p : π) : Option Bytes := (fs.names.lookup p).map fs.data

/-- The length of a file by its path; 0 if there is none. -/
def fileLength (fs : FileSystem π) (p : π) : Nat :=
  HashMap.sumAt (fun _ i => (fs.data i).length) fs.names p

theorem lookup_ne_next (fs : FileSystem π) (p : π) : fs.names.lookup p ≠ some fs.next :=
  fun h => Nat.lt_irrefl _ (fs.named_lt p _ h)

/-- A new name for a newly allocated, empty inode. -/
def allocate (fs : FileSystem π) (p : π) : FileSystem π where
  names := fs.names.insert p fs.next
  inodes := Function.update fs.inodes fs.next {}
  next := fs.next + 1
  named_lt q i h := by
    rw [HashMap.lookup_insert_ite] at h
    split at h
    · obtain rfl := Option.some.inj h
      exact Nat.lt_succ_self _
    · exact Nat.lt_succ_of_lt (fs.named_lt q i h)
  names_inj q r i hq hr := by
    rw [HashMap.lookup_insert_ite] at hq hr
    split at hq <;> split at hr
    · next hqp hrp => rw [hqp, hrp]
    · obtain rfl := Option.some.inj hq
      exact absurd hr (fs.lookup_ne_next r)
    · obtain rfl := Option.some.inj hr
      exact absurd hq (fs.lookup_ne_next q)
    · exact fs.names_inj q r i hq hr

/-- `open` with `write | create | truncate`. -/
def create (fs : FileSystem π) (p : π) : FileSystem π × Handle :=
  match fs.names.lookup p with
  | some i => (fs.setInode i { fs.inodes i with data := [] }, ⟨i, 0⟩)
  | none => (fs.allocate p, ⟨fs.next, 0⟩)

/-- `remove_file`; `none` when there is no such file. -/
def remove (fs : FileSystem π) (p : π) : Option (FileSystem π) :=
  match fs.names.lookup p with
  | none => none
  | some _ => some { fs with
      names := fs.names.erase p
      named_lt := fun q i h => by
        rw [HashMap.lookup_erase_ite] at h
        split at h
        · cases h
        · exact fs.named_lt q i h
      names_inj := fun q r i hq hr => by
        rw [HashMap.lookup_erase_ite] at hq hr
        split at hq <;> split at hr
        · cases hq
        · cases hq
        · cases hr
        · exact fs.names_inj q r i hq hr }

/-- `rename`; replaces what the new name stood for. -/
def rename (fs : FileSystem π) (p q : π) : Option (FileSystem π) :=
  match hp : fs.names.lookup p with
  | none => none
  | some i => some { fs with
      names := (fs.names.erase p).insert q i
      named_lt := fun r j h => by
        rw [HashMap.lookup_insert_ite, HashMap.lookup_erase_ite] at h
        split at h
        · obtain rfl := Option.some.inj h
          exact fs.named_lt p i hp
        · split at h
          · cases h
          · exact fs.named_lt r j h
      names_inj := fun r s j hr hs => by
        have old : ∀ t, t ≠ q → ((fs.names.erase p).insert q i).lookup t = some j →
            t ≠ p ∧ fs.names.lookup t = some j := by
          intro t htq ht
          rw [HashMap.lookup_insert_ite, if_neg htq, HashMap.lookup_erase_ite] at ht
          split at ht
          · cases ht
          · next htp => exact ⟨htp, ht⟩
        have new : ∀ t, t ≠ q → ((fs.names.erase p).insert q i).lookup q = some j →
            ((fs.names.erase p).insert q i).lookup t = some j → False := by
          intro t htq hq ht
          obtain ⟨htp, ht⟩ := old t htq ht
          rw [AList.lookup_insert] at hq
          obtain rfl := Option.some.inj hq
          exact htp (fs.names_inj t p i ht hp)
        by_cases hrq : r = q
        · by_cases hsq : s = q
          · rw [hrq, hsq]
          · exact (new s hsq (hrq ▸ hr) hs).elim
        · by_cases hsq : s = q
          · exact (new r hrq (hsq ▸ hs) hr).elim
          · exact fs.names_inj r s j (old r hrq hr).2 (old s hsq hs).2 }

/-- What a file becomes when `bytes` are written over it at a position; writing nothing
changes nothing. -/
def overwrite (content : Bytes) (pos : Nat) (bytes : Bytes) : Bytes :=
  if bytes = [] then content
  else
    content.take pos ++ List.replicate (pos - content.length) 0 ++ bytes ++
      content.drop (pos + bytes.length)

/-- `write_all` on a handle. -/
def write (fs : FileSystem π) (h : Handle) (bytes : Bytes) : FileSystem π × Handle :=
  (fs.setInode h.inode
    { fs.inodes h.inode with data := overwrite (fs.data h.inode) h.pos bytes },
    ⟨h.inode, h.pos + bytes.length⟩)

/-- `set_permissions` with the executable bits. -/
def setExecutable (fs : FileSystem π) (p : π) : Option (FileSystem π) :=
  (fs.names.lookup p).map fun i => fs.setInode i { fs.inodes i with executable := true }

/-! ## Frame rules -/

/-- Nothing but the contents of one inode differs. -/
structure SameBut (fs fs' : FileSystem π) (i : Nat) : Prop where
  names : fs'.names = fs.names
  next : fs'.next = fs.next
  inodes : ∀ j, j ≠ i → fs'.inodes j = fs.inodes j

theorem SameBut.refl (fs : FileSystem π) (i : Nat) : SameBut fs fs i := ⟨rfl, rfl, fun _ _ => rfl⟩

theorem SameBut.trans {fs fs' fs'' : FileSystem π} {i : Nat} (h : SameBut fs fs' i)
    (h' : SameBut fs' fs'' i) : SameBut fs fs'' i where
  names := h'.names.trans h.names
  next := h'.next.trans h.next
  inodes j hj := (h'.inodes j hj).trans (h.inodes j hj)

theorem SameBut.data {fs fs' : FileSystem π} {i j : Nat} (h : SameBut fs fs' i) (hj : j ≠ i) :
    fs'.data j = fs.data j :=
  congrArg Inode.data (h.inodes j hj)

theorem setInode_sameBut (fs : FileSystem π) (i : Nat) (node : Inode) :
    SameBut fs (fs.setInode i node) i :=
  ⟨rfl, rfl, fun _ hj => Function.update_of_ne hj _ _⟩

@[simp] theorem setInode_inodes (fs : FileSystem π) (i : Nat) (node : Inode) :
    (fs.setInode i node).inodes i = node :=
  Function.update_self _ _ _

theorem write_sameBut (fs : FileSystem π) (h : Handle) (bytes : Bytes) :
    SameBut fs (fs.write h bytes).1 h.inode :=
  setInode_sameBut _ _ _

theorem write_data (fs : FileSystem π) (h : Handle) (bytes : Bytes) :
    (fs.write h bytes).1.data h.inode = overwrite (fs.data h.inode) h.pos bytes := by
  rw [write, data, setInode_inodes]

/-- Writing at the end appends. -/
theorem overwrite_end (content bytes : Bytes) :
    overwrite content content.length bytes = content ++ bytes := by
  rw [overwrite]
  split
  · next h => rw [h, List.append_nil]
  · rw [List.take_length, Nat.sub_self, List.replicate_zero, List.append_nil,
      List.drop_eq_nil_of_le (Nat.le_add_right _ _), List.append_nil]

/-- Writing inside a file replaces the bytes from there on. -/
theorem overwrite_inside (pre : Bytes) {old bytes : Bytes} (post : Bytes)
    (h : bytes.length = old.length) :
    overwrite (pre ++ old ++ post) pre.length bytes = pre ++ bytes ++ post := by
  rw [overwrite]
  split
  · next hnil =>
    subst hnil
    rw [List.eq_nil_of_length_eq_zero (Nat.eq_zero_of_le_zero (Nat.le_of_eq h.symm))]
  · have htake : (pre ++ old ++ post).take pre.length = pre := by
      rw [List.append_assoc, List.take_left]
    have hdrop : (pre ++ old ++ post).drop (pre.length + bytes.length) = post := by
      rw [h, ← List.length_append, List.drop_left]
    have hgap : pre.length - (pre ++ old ++ post).length = 0 := by
      rw [List.append_assoc, List.length_append]
      omega
    rw [htake, hdrop, hgap, List.replicate_zero, List.append_nil]

theorem lookup_create (fs : FileSystem π) (p q : π) :
    (fs.create p).1.names.lookup q =
      if q = p then some (fs.create p).2.inode else fs.names.lookup q := by
  rw [create]
  split
  · next i hp =>
    show fs.names.lookup q = _
    split
    · next hq => rw [hq, hp]
    · rfl
  · exact HashMap.lookup_insert_ite _ _ _ _

@[simp] theorem create_pos (fs : FileSystem π) (p : π) : (fs.create p).2.pos = 0 := by
  rw [create]
  split <;> rfl

theorem create_inode_old {fs : FileSystem π} {p : π} {i : Nat} (h : fs.names.lookup p = some i) :
    (fs.create p).2.inode = i := by
  simp only [create, h]

theorem create_inode_new {fs : FileSystem π} {p : π} (h : fs.names.lookup p = none) :
    (fs.create p).2.inode = fs.next := by
  simp only [create, h]

@[simp] theorem create_data (fs : FileSystem π) (p : π) :
    (fs.create p).1.data (fs.create p).2.inode = [] := by
  rw [create]
  split
  · rw [data, setInode_inodes]
  · show ((Function.update fs.inodes fs.next {}) fs.next).data = []
    rw [Function.update_self]

theorem create_inodes {fs : FileSystem π} {p : π} {i : Nat} (h : i ≠ (fs.create p).2.inode) :
    (fs.create p).1.inodes i = fs.inodes i := by
  rw [create] at h ⊢
  split at h
  · exact Function.update_of_ne h _ _
  · exact Function.update_of_ne h _ _

/-- Other files are not touched. -/
theorem create_data_other {fs : FileSystem π} {p q : π} {i : Nat} (hq : q ≠ p)
    (hi : fs.names.lookup q = some i) : (fs.create p).1.data i = fs.data i := by
  refine congrArg Inode.data (create_inodes ?_)
  rintro rfl
  have hq' := (fs.lookup_create p q).trans (if_neg hq)
  have hp' := (fs.lookup_create p p).trans (if_pos rfl)
  exact hq ((fs.create p).1.names_inj _ _ _ (hq'.trans hi) hp')

theorem create_next (fs : FileSystem π) (p : π) : fs.next ≤ (fs.create p).1.next := by
  rw [create]
  split
  · exact Nat.le_refl _
  · exact Nat.le_succ _

theorem create_lt (fs : FileSystem π) (p : π) : (fs.create p).2.inode < (fs.create p).1.next := by
  have h := fs.lookup_create p p
  rw [if_pos rfl] at h
  exact (fs.create p).1.named_lt p _ h

/-- A created file that had no name before is different from every allocated one. -/
theorem create_inode_ne {fs : FileSystem π} {p : π} {i : Nat} (hp : fs.names.lookup p ≠ some i)
    (hi : i < fs.next) : (fs.create p).2.inode ≠ i := by
  cases hlook : fs.names.lookup p with
  | some j =>
    rw [create_inode_old hlook]
    rintro rfl
    exact hp hlook
  | none =>
    rw [create_inode_new hlook]
    exact Nat.ne_of_gt hi

variable {fs fs' : FileSystem π} {p q : π}

theorem lookup_remove (h : fs.remove p = some fs') (r : π) :
    fs'.names.lookup r = if r = p then none else fs.names.lookup r := by
  unfold remove at h
  split at h
  · cases h
  · obtain rfl := Option.some.inj h
    exact HashMap.lookup_erase_ite _ _ _

theorem remove_inodes (h : fs.remove p = some fs') :
    fs'.inodes = fs.inodes ∧ fs'.next = fs.next := by
  unfold remove at h
  split at h
  · cases h
  · obtain rfl := Option.some.inj h
    exact ⟨rfl, rfl⟩

theorem remove_isSome : (fs.remove p).isSome = fs.hasPath p := by
  rw [remove, hasPath]
  split <;> simp_all

/-- A file that is there can be removed. -/
theorem exists_remove {i : Nat} (h : fs.names.lookup p = some i) :
    ∃ fs', fs.remove p = some fs' := by
  rw [← Option.isSome_iff_exists, remove_isSome, hasPath, h]
  rfl

/-- The second file system is the first without some paths; no contents differ. -/
structure Without (fs fs' : FileSystem π) (gone : π → Prop) : Prop where
  inodes : fs'.inodes = fs.inodes
  next : fs'.next = fs.next
  lookup : ∀ p i, fs'.names.lookup p = some i ↔ fs.names.lookup p = some i ∧ ¬ gone p

theorem Without.refl (fs : FileSystem π) : Without fs fs fun _ => False where
  inodes := rfl
  next := rfl
  lookup _ _ := (and_iff_left not_false).symm

theorem Without.trans {fs₁ fs₂ : FileSystem π} {gone₁ gone₂ : π → Prop}
    (h₁ : Without fs fs₁ gone₁) (h₂ : Without fs₁ fs₂ gone₂) :
    Without fs fs₂ fun p => gone₁ p ∨ gone₂ p where
  inodes := h₂.inodes.trans h₁.inodes
  next := h₂.next.trans h₁.next
  lookup p i := by rw [h₂.lookup, h₁.lookup, and_assoc, not_or]

/-- Only the paths that are there matter. -/
theorem Without.congr {gone gone' : π → Prop} (h : Without fs fs' gone)
    (hgone : ∀ p i, fs.names.lookup p = some i → (gone p ↔ gone' p)) : Without fs fs' gone' where
  inodes := h.inodes
  next := h.next
  lookup p i := (h.lookup p i).trans (and_congr_right fun hp => not_congr (hgone p i hp))

theorem remove_without (h : fs.remove p = some fs') : Without fs fs' (· = p) where
  inodes := (remove_inodes h).1
  next := (remove_inodes h).2
  lookup q i := by
    rw [lookup_remove h]
    by_cases hq : q = p
    · simp [hq]
    · simp [hq]

theorem lookup_rename (h : fs.rename p q = some fs') :
    ∃ i, fs.names.lookup p = some i ∧ ∀ r, fs'.names.lookup r =
      if r = q then some i else if r = p then none else fs.names.lookup r := by
  unfold rename at h
  split at h
  · cases h
  · next i hp =>
    obtain rfl := Option.some.inj h
    refine ⟨i, hp, fun r => ?_⟩
    rw [HashMap.lookup_insert_ite, HashMap.lookup_erase_ite]

theorem rename_inodes (h : fs.rename p q = some fs') :
    fs'.inodes = fs.inodes ∧ fs'.next = fs.next := by
  unfold rename at h
  split at h
  · cases h
  · obtain rfl := Option.some.inj h
    exact ⟨rfl, rfl⟩

theorem rename_eq_none : fs.rename p q = none ↔ fs.names.lookup p = none := by
  unfold rename
  split <;> simp_all

theorem setExecutable_eq_some (h : fs.setExecutable p = some fs') :
    ∃ i, fs.names.lookup p = some i ∧
      fs' = fs.setInode i { fs.inodes i with executable := true } := by
  obtain ⟨i, hp, rfl⟩ := Option.map_eq_some_iff.mp h
  exact ⟨i, hp, rfl⟩

end FileSystem

/-! ## Buffered writers -/

/-- A buffered writer: a handle, and the bytes that have not reached it yet. -/
structure BufWriter where
  file : Handle
  buf : Bytes := []
deriving DecidableEq

namespace BufWriter

variable {π : Type u} [DecidableEq π]

/-- The default capacity, 8 KiB. -/
def capacity : Nat := 8 * 1024

/-- `flush`. -/
def flush (w : BufWriter) (fs : FileSystem π) : FileSystem π × BufWriter :=
  let r := fs.write w.file w.buf
  (r.1, ⟨r.2, []⟩)

/-- `write_all`: what does not fit after the buffered bytes is preceded by a flush, and what
does not fit into the buffer at all goes to the file directly. -/
def writeAll (w : BufWriter) (fs : FileSystem π) (bytes : Bytes) : FileSystem π × BufWriter :=
  let r := if capacity - w.buf.length < bytes.length then w.flush fs else (fs, w)
  if capacity ≤ bytes.length then
    let direct := r.1.write r.2.file bytes
    (direct.1, ⟨direct.2, r.2.buf⟩)
  else (r.1, { r.2 with buf := r.2.buf ++ bytes })

/-- A `write_all` that fails: these bytes were taken before, and of all that was then in the
buffer a part has reached the file. -/
def writePart (w : BufWriter) (fs : FileSystem π) (bytes : Bytes) (flushed : Nat) :
    FileSystem π × BufWriter :=
  let buf := w.buf ++ bytes
  let r := fs.write w.file (buf.take flushed)
  (r.1, ⟨r.2, buf.drop flushed⟩)

/-- The writer has been given exactly `content` since the file was empty. -/
structure Holds (w : BufWriter) (fs : FileSystem π) (content : Bytes) : Prop where
  pos : w.file.pos = (fs.data w.file.inode).length
  data : fs.data w.file.inode ++ w.buf = content

variable {w : BufWriter} {fs : FileSystem π} {content : Bytes}

theorem flush_sameBut (w : BufWriter) (fs : FileSystem π) :
    fs.SameBut (w.flush fs).1 w.file.inode :=
  fs.write_sameBut _ _

@[simp] theorem flush_inode (w : BufWriter) (fs : FileSystem π) :
    (w.flush fs).2.file.inode = w.file.inode := rfl

@[simp] theorem flush_buf (w : BufWriter) (fs : FileSystem π) : (w.flush fs).2.buf = [] := rfl

/-- After a flush the file itself holds everything. -/
theorem flush_data (h : w.Holds fs content) : (w.flush fs).1.data w.file.inode = content := by
  show (fs.write w.file w.buf).1.data w.file.inode = content
  rw [fs.write_data, h.pos, FileSystem.overwrite_end, h.data]

theorem flush_holds (h : w.Holds fs content) : (w.flush fs).2.Holds (w.flush fs).1 content where
  pos := by
    show w.file.pos + w.buf.length = ((w.flush fs).1.data w.file.inode).length
    rw [flush_data h, h.pos, ← h.data, List.length_append]
  data := by
    rw [flush_inode, flush_buf, flush_data h, List.append_nil]

/-- A write through the handle, with an empty buffer. -/
theorem write_holds (h : w.Holds fs content) (hbuf : w.buf = []) (bytes : Bytes) :
    (⟨(fs.write w.file bytes).2, []⟩ : BufWriter).Holds (fs.write w.file bytes).1
      (content ++ bytes) := by
  have hdata : (fs.write w.file bytes).1.data w.file.inode = content ++ bytes := by
    rw [fs.write_data, h.pos, FileSystem.overwrite_end, ← h.data, hbuf, List.append_nil]
  constructor
  · show w.file.pos + bytes.length = ((fs.write w.file bytes).1.data w.file.inode).length
    rw [hdata, List.length_append, h.pos, ← h.data, hbuf, List.append_nil]
  · show (fs.write w.file bytes).1.data w.file.inode ++ [] = content ++ bytes
    rw [hdata, List.append_nil]

/-- `write_all` adds its bytes, whichever way they go; only its own file changes. -/
theorem writeAll_holds (h : w.Holds fs content) (bytes : Bytes) :
    (w.writeAll fs bytes).2.Holds (w.writeAll fs bytes).1 (content ++ bytes) := by
  have hroom : ∃ fs' w', (if capacity - w.buf.length < bytes.length then w.flush fs else (fs, w)) =
      (fs', w') ∧ w'.Holds fs' content ∧ (capacity ≤ bytes.length → w'.buf = []) := by
    split
    · exact ⟨_, _, rfl, flush_holds h, fun _ => rfl⟩
    · next hfit =>
      refine ⟨fs, w, rfl, h, fun hlarge => List.eq_nil_of_length_eq_zero ?_⟩
      have : 0 < capacity := by decide
      omega
  obtain ⟨fs', w', heq, hw', hempty⟩ := hroom
  simp only [writeAll, heq]
  split
  · next hlarge =>
    rw [hempty hlarge]
    exact write_holds hw' (hempty hlarge) bytes
  · refine ⟨hw'.pos, ?_⟩
    show fs'.data w'.file.inode ++ (w'.buf ++ bytes) = content ++ bytes
    rw [← List.append_assoc, hw'.data]

theorem writePart_holds (h : w.Holds fs content) (bytes : Bytes) (flushed : Nat) :
    (w.writePart fs bytes flushed).2.Holds (w.writePart fs bytes flushed).1
      (content ++ bytes) := by
  have hdata : (w.writePart fs bytes flushed).1.data w.file.inode =
      fs.data w.file.inode ++ (w.buf ++ bytes).take flushed := by
    show (fs.write w.file ((w.buf ++ bytes).take flushed)).1.data w.file.inode = _
    rw [fs.write_data, h.pos, FileSystem.overwrite_end]
  constructor
  · show w.file.pos + ((w.buf ++ bytes).take flushed).length =
      ((w.writePart fs bytes flushed).1.data w.file.inode).length
    rw [hdata, List.length_append, h.pos]
  · show (w.writePart fs bytes flushed).1.data w.file.inode ++ (w.buf ++ bytes).drop flushed = _
    rw [hdata, List.append_assoc, List.take_append_drop, ← List.append_assoc, h.data]

theorem writeAll_sameBut (w : BufWriter) (fs : FileSystem π) (bytes : Bytes) :
    fs.SameBut (w.writeAll fs bytes).1 w.file.inode ∧
      (w.writeAll fs bytes).2.file.inode = w.file.inode := by
  have hroom : ∃ fs' w', (if capacity - w.buf.length < bytes.length then w.flush fs else (fs, w)) =
      (fs', w') ∧ fs.SameBut fs' w.file.inode ∧ w'.file.inode = w.file.inode := by
    split
    · exact ⟨_, _, rfl, flush_sameBut w fs, rfl⟩
    · exact ⟨fs, w, rfl, .refl _ _, rfl⟩
  obtain ⟨fs', w', heq, hsame, hinode⟩ := hroom
  simp only [writeAll, heq]
  split
  · refine ⟨hsame.trans ?_, hinode⟩
    rw [← hinode]
    exact fs'.write_sameBut _ _
  · exact ⟨hsame, hinode⟩

/-- Two writes add the bytes of both, and change the same file only. -/
theorem writeAll_twice_holds (h : w.Holds fs content) (first second : Bytes) :
    let r := w.writeAll fs first
    (r.2.writeAll r.1 second).2.Holds (r.2.writeAll r.1 second).1
      (content ++ (first ++ second)) := by
  rw [← List.append_assoc]
  exact writeAll_holds (writeAll_holds h first) second

theorem writeAll_twice_sameBut (w : BufWriter) (fs : FileSystem π) (first second : Bytes) :
    let r := w.writeAll fs first
    fs.SameBut (r.2.writeAll r.1 second).1 w.file.inode ∧
      (r.2.writeAll r.1 second).2.file.inode = w.file.inode := by
  obtain ⟨hsame₁, hinode₁⟩ := writeAll_sameBut w fs first
  obtain ⟨hsame₂, hinode₂⟩ :=
    writeAll_sameBut (w.writeAll fs first).2 (w.writeAll fs first).1 second
  rw [hinode₁] at hsame₂ hinode₂
  exact ⟨hsame₁.trans hsame₂, hinode₂⟩

/-- A writer is not concerned by what happens to other files. -/
theorem Holds.of_data {fs' : FileSystem π} (h : w.Holds fs content)
    (hdata : fs'.data w.file.inode = fs.data w.file.inode) : w.Holds fs' content where
  pos := by rw [hdata, h.pos]
  data := by rw [hdata, h.data]

end BufWriter

end Lib
