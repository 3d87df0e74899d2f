import Kodama.Lib.Machine
import Kodama.Lib.FileSystem
import Kodama.Core.Frame

/-!
# Firmware update (apps/kodama-firmware/src/update.rs)

`UpdateState::execute`, one file-system step at a time: download to the staging path with
an incremental hash, compare the hash, `chmod`, rename the running binary to the backup
path, rename the staging file to the binary path, exit. Every step of the operating system
may fail, a write may stop half way, and the power may go between any two steps, so a crash
is simply the state after some prefix of a run.

- `execute_crash_safe`: at every point of a run the binary path names the old binary or the
  complete, verified new one, or, between the two renames, nothing, while the backup path
  names the old binary; the `ExecStartPre` line of the systemd unit turns this last case
  into the first. A run that fails leaves the old binary in place unless the rollback
  rename fails as well.

SHA-256 is a parameter.
-/

namespace Kodama

open Lib

/-- Maximum download size (100 MB). -/
def maxDownloadSize : Nat := 100 * 1024 * 1024

/-- `str::to_lowercase`, on the letters of ASCII: a SHA-256 in hex has no others. -/
def toLowercase (s : String) : String := String.ofList (s.toList.map Char.toLower)

/-- The OS error of a call on a name that does not exist. -/
def noSuchFile : String := "No such file or directory (os error 2)"

/-- What an update was asked to do, and where. -/
structure UpdateState where
  url : String
  expectedSha256 : String
  binaryPath : PathBuf
  stagingPath : PathBuf
  backupPath : PathBuf
deriving DecidableEq

/-- The state for a running executable: staging and backup files beside it. -/
def UpdateState.beside (binaryPath : PathBuf) (url sha256 : String) : UpdateState where
  url := url
  expectedSha256 := toLowercase sha256
  binaryPath := binaryPath
  stagingPath := ⟨binaryPath.dir, "kodama-firmware.new"⟩
  backupPath := ⟨binaryPath.dir, "kodama-firmware.prev"⟩

/-- `UpdateState::new`, given what `current_exe` answers. -/
def UpdateState.new (currentExe : Option PathBuf) (url sha256 : String) : Result UpdateState :=
  match currentExe with
  | none => .error "Failed to determine current executable path"
  | some binaryPath => .ok (.beside binaryPath url sha256)

/-- Where a run of `execute` stands: the name of its next step, or how it ended. -/
inductive UpdatePhase where
  | connect
  | removeStaging
  | createStaging
  | download
  | flush
  | sync
  | verify
  /-- Remove the staging file, then fail. -/
  | discard (error : String)
  | chmod
  | checkBinary
  | backup
  | install
  | rollback (error : String)
  | failed (error : String)
  /-- `exit(42)`: systemd restarts with what the binary path names. -/
  | exited
deriving DecidableEq

/-- A run of `execute`. `received` is what the hasher has been fed, and `file` the open
staging file. -/
structure UpdateTask where
  state : UpdateState
  phase : UpdatePhase := .connect
  file : Handle := ⟨0, 0⟩
  received : Bytes := []
deriving DecidableEq

/-- What the network and the operating system answer to the next step. -/
inductive UpdateEvent where
  | respond (contentLength : Option Nat)
  | requestError (error : String)
  /-- A chunk arrives; writing it succeeds, or fails after some of its bytes. -/
  | chunk (bytes : Bytes) (stopsAfter : Option Nat)
  | streamError
  | streamEnd
  | hash
  | fsOk
  | fsErr (error : String)
deriving DecidableEq

namespace UpdateTask

/-- `bail!`. -/
def fail (t : UpdateTask) (error : String) : UpdateTask := { t with phase := .failed error }

/-- One chunk of the stream. -/
def receive (t : UpdateTask) (fs : FileSystem PathBuf) (bytes : Bytes)
    (stopsAfter : Option Nat) : FileSystem PathBuf × UpdateTask :=
  if maxDownloadSize < t.received.length + bytes.length then
    (fs, { t with phase := .discard s!"Download exceeded max size ({maxDownloadSize} bytes)" })
  else
    match stopsAfter with
    | none =>
      let r := fs.write t.file bytes
      (r.1, { t with file := r.2, received := t.received ++ bytes })
    | some k =>
      let r := fs.write t.file (bytes.take k)
      (r.1, { t with file := r.2 }.fail "Failed to write to staging file")

/-- One step of `execute` (with `download_and_verify`). -/
def step (sha256Hex : Bytes → String) (fs : FileSystem PathBuf) (t : UpdateTask)
    (event : UpdateEvent) : Option (FileSystem PathBuf × UpdateTask) :=
  match t.phase, event with
  | .connect, .requestError error => some (fs, t.fail error)
  | .connect, .respond none => some (fs, { t with phase := .removeStaging })
  | .connect, .respond (some len) =>
    if maxDownloadSize < len then
      some (fs, t.fail s!"Download too large: {len} bytes (max {maxDownloadSize} bytes)")
    else some (fs, { t with phase := .removeStaging })
  -- the result of this removal is ignored, as is that in `discard`
  | .removeStaging, .fsOk =>
    some ((fs.remove t.state.stagingPath).getD fs, { t with phase := .createStaging })
  | .removeStaging, .fsErr _ => some (fs, { t with phase := .createStaging })
  | .createStaging, .fsOk =>
    let r := fs.create t.state.stagingPath
    some (r.1, { t with phase := .download, file := r.2, received := [] })
  | .createStaging, .fsErr _ => some (fs, t.fail "Failed to create staging file")
  | .download, .chunk bytes stopsAfter => some (t.receive fs bytes stopsAfter)
  | .download, .streamError => some (fs, t.fail "Error reading download stream")
  | .download, .streamEnd => some (fs, { t with phase := .flush })
  | .flush, .fsOk => some (fs, { t with phase := .sync })
  | .flush, .fsErr error => some (fs, t.fail error)
  | .sync, .fsOk => some (fs, { t with phase := .verify })
  | .sync, .fsErr _ => some (fs, t.fail "Failed to fsync staging file")
  | .verify, .hash =>
    if sha256Hex t.received = t.state.expectedSha256 then some (fs, { t with phase := .chmod })
    else
      let error :=
        s!"SHA256 mismatch: expected {t.state.expectedSha256}, got {sha256Hex t.received}"
      some (fs, { t with phase := .discard error })
  | .discard error, .fsOk => some ((fs.remove t.state.stagingPath).getD fs, t.fail error)
  | .discard error, .fsErr _ => some (fs, t.fail error)
  | .chmod, .fsOk =>
    match fs.setExecutable t.state.stagingPath with
    | some fs => some (fs, { t with phase := .checkBinary })
    | none => some (fs, t.fail "Failed to chmod staging binary")
  | .chmod, .fsErr _ => some (fs, t.fail "Failed to chmod staging binary")
  -- `exists` answers false when it cannot tell
  | .checkBinary, .fsOk =>
    some (fs, { t with phase := if fs.hasPath t.state.binaryPath then .backup else .install })
  | .checkBinary, .fsErr _ => some (fs, { t with phase := .install })
  | .backup, .fsOk =>
    match fs.rename t.state.binaryPath t.state.backupPath with
    | some fs => some (fs, { t with phase := .install })
    | none => some (fs, t.fail "Failed to backup current binary")
  | .backup, .fsErr _ => some (fs, t.fail "Failed to backup current binary")
  | .install, .fsOk =>
    match fs.rename t.state.stagingPath t.state.binaryPath with
    | some fs => some (fs, { t with phase := .exited })
    | none =>
      some (fs, { t with phase := .rollback s!"Failed to install new binary: {noSuchFile}" })
  | .install, .fsErr error =>
    some (fs, { t with phase := .rollback s!"Failed to install new binary: {error}" })
  | .rollback error, .fsOk =>
    some (if fs.hasPath t.state.backupPath then
      (fs.rename t.state.backupPath t.state.binaryPath).getD fs else fs, t.fail error)
  | .rollback error, .fsErr _ => some (fs, t.fail error)
  | _, _ => none

/-- A run of `execute`, as a machine on the file system and the task. -/
def runStep (sha256Hex : Bytes → String) (s : FileSystem PathBuf × UpdateTask)
    (event : UpdateEvent) : Option (FileSystem PathBuf × UpdateTask) :=
  s.2.step sha256Hex s.1 event

/-! ## What holds between two steps -/

/-- A path names the inode `i`, which is not `i₀` and holds some bytes. -/
structure StagedAt (i₀ : Nat) (fs : FileSystem PathBuf) (path : PathBuf) (i : Nat)
    (bytes : Bytes) : Prop where
  name : fs.names.lookup path = some i
  other : i ≠ i₀
  data : fs.data i = bytes

/-- The staging path names the file this run downloads into, with what was received. -/
abbrev Staged (i₀ : Nat) (fs : FileSystem PathBuf) (t : UpdateTask) : Prop :=
  StagedAt i₀ fs t.state.stagingPath t.file.inode t.received

/-- The downloaded bytes have the expected hash. -/
def Verified (sha256Hex : Bytes → String) (t : UpdateTask) : Prop :=
  sha256Hex t.received = t.state.expectedSha256

/-- The old binary `i₀` is at the binary path. -/
def InPlace (i₀ : Nat) (fs : FileSystem PathBuf) (t : UpdateTask) : Prop :=
  fs.names.lookup t.state.binaryPath = some i₀

/-- The old binary `i₀` is at the backup path, and nothing is at the binary path (unless
the two paths are one). -/
def SetAside (i₀ : Nat) (fs : FileSystem PathBuf) (t : UpdateTask) : Prop :=
  fs.names.lookup t.state.backupPath = some i₀ ∧
    (t.state.binaryPath = t.state.backupPath ∨ fs.names.lookup t.state.binaryPath = none)

/-- Where the old binary and the download are, phase by phase. -/
def PhaseInv (sha256Hex : Bytes → String) (i₀ : Nat) (fs : FileSystem PathBuf)
    (t : UpdateTask) : Prop :=
  match t.phase with
  | .connect | .removeStaging | .createStaging | .discard _ => InPlace i₀ fs t
  | .download => InPlace i₀ fs t ∧ Staged i₀ fs t ∧ t.file.pos = t.received.length
  | .flush | .sync | .verify => InPlace i₀ fs t ∧ Staged i₀ fs t
  | .chmod => InPlace i₀ fs t ∧ Staged i₀ fs t ∧ Verified sha256Hex t
  | .checkBinary | .backup =>
    InPlace i₀ fs t ∧ Staged i₀ fs t ∧ Verified sha256Hex t ∧
      (fs.inodes t.file.inode).executable = true
  | .install =>
    SetAside i₀ fs t ∧ Staged i₀ fs t ∧ Verified sha256Hex t ∧
      (fs.inodes t.file.inode).executable = true
  | .rollback _ => SetAside i₀ fs t
  | .failed _ => InPlace i₀ fs t ∨ SetAside i₀ fs t
  | .exited =>
    fs.names.lookup t.state.binaryPath = some t.file.inode ∧
      fs.inodes t.file.inode = ⟨t.received, true⟩ ∧ Verified sha256Hex t

/-- The invariant of a run that started with the file `old`, inode `i₀`, at its binary
path. -/
structure RunInv (sha256Hex : Bytes → String) (state : UpdateState) (i₀ : Nat) (old : Inode)
    (s : FileSystem PathBuf × UpdateTask) : Prop where
  state : s.2.state = state
  old : s.1.inodes i₀ = old
  phase : PhaseInv sha256Hex i₀ s.1 s.2

/-- `exists` on the binary path does not fail. -/
def CheckAnswers (s : FileSystem PathBuf × UpdateTask) (event : UpdateEvent)
    (_ : FileSystem PathBuf × UpdateTask) : Prop :=
  s.2.phase = .checkBinary → event = .fsOk

instance (s : FileSystem PathBuf × UpdateTask) (event : UpdateEvent)
    (s' : FileSystem PathBuf × UpdateTask) : Decidable (CheckAnswers s event s') :=
  inferInstanceAs (Decidable (s.2.phase = .checkBinary → event = .fsOk))

variable {sha256Hex : Bytes → String} {i₀ : Nat} {old : Inode} {fs fs' : FileSystem PathBuf}
  {t : UpdateTask}

/-! ## The file-system steps -/

/-- Removing the staging file, or failing to. -/
theorem inPlace_remove (hbin : t.state.stagingPath ≠ t.state.binaryPath) (h : InPlace i₀ fs t) :
    InPlace i₀ ((fs.remove t.state.stagingPath).getD fs) t ∧
      ((fs.remove t.state.stagingPath).getD fs).inodes = fs.inodes := by
  cases hrem : fs.remove t.state.stagingPath with
  | none => exact ⟨h, rfl⟩
  | some fs' =>
    refine ⟨?_, (FileSystem.remove_inodes hrem).1⟩
    show fs'.names.lookup t.state.binaryPath = some i₀
    rw [FileSystem.lookup_remove hrem, if_neg hbin.symm]
    exact h

/-- Creating the staging file never touches the old binary. -/
theorem staged_create (hbin : t.state.stagingPath ≠ t.state.binaryPath) (h : InPlace i₀ fs t) :
    let r := fs.create t.state.stagingPath
    let t' : UpdateTask := { t with phase := .download, file := r.2, received := [] }
    InPlace i₀ r.1 t' ∧ Staged i₀ r.1 t' ∧ r.1.inodes i₀ = fs.inodes i₀ := by
  intro r t'
  have hother : r.2.inode ≠ i₀ := by
    refine FileSystem.create_inode_ne (fun hs => hbin ?_) (fs.named_lt _ _ h)
    exact fs.names_inj _ _ _ hs h
  refine ⟨?_, ⟨?_, hother, fs.create_data _⟩, FileSystem.create_inodes hother.symm⟩
  · show r.1.names.lookup t.state.binaryPath = some i₀
    rw [fs.lookup_create, if_neg hbin.symm]
    exact h
  · show r.1.names.lookup t.state.stagingPath = some r.2.inode
    rw [fs.lookup_create, if_pos rfl]

/-- Writing into the staging file. -/
theorem write_inPlace (h : InPlace i₀ fs t) (hst : Staged i₀ fs t) (bytes : Bytes) :
    InPlace i₀ (fs.write t.file bytes).1 t ∧
      (fs.write t.file bytes).1.inodes i₀ = fs.inodes i₀ := by
  have hsame := fs.write_sameBut t.file bytes
  refine ⟨?_, hsame.inodes i₀ hst.other.symm⟩
  rw [InPlace, hsame.names]
  exact h

/-- A chunk that is written completely extends the staged download. -/
theorem staged_write (hst : Staged i₀ fs t) (hpos : t.file.pos = t.received.length)
    (bytes : Bytes) :
    Staged i₀ (fs.write t.file bytes).1
      { t with file := (fs.write t.file bytes).2, received := t.received ++ bytes } where
  name := by
    rw [(fs.write_sameBut t.file bytes).names]
    exact hst.name
  other := hst.other
  data := by
    show (fs.write t.file bytes).1.data t.file.inode = t.received ++ bytes
    rw [fs.write_data, hpos, hst.data, FileSystem.overwrite_end]

/-- `chmod` on the staging path. -/
theorem staged_setExecutable (h : InPlace i₀ fs t) (hst : Staged i₀ fs t)
    (hch : fs.setExecutable t.state.stagingPath = some fs') :
    InPlace i₀ fs' t ∧ Staged i₀ fs' t ∧ (fs'.inodes t.file.inode).executable = true ∧
      fs'.inodes i₀ = fs.inodes i₀ := by
  obtain ⟨i, hi, rfl⟩ := FileSystem.setExecutable_eq_some hch
  obtain rfl := Option.some.inj (hst.name.symm.trans hi)
  have hsame := fs.setInode_sameBut t.file.inode
    { fs.inodes t.file.inode with executable := true }
  refine ⟨h, ⟨hst.name, hst.other, ?_⟩, ?_, hsame.inodes i₀ hst.other.symm⟩
  · rw [FileSystem.data, FileSystem.setInode_inodes]
    exact hst.data
  · rw [FileSystem.setInode_inodes]

/-- The backup rename sets the old binary aside. -/
theorem setAside_rename (hbin : t.state.stagingPath ≠ t.state.binaryPath)
    (hback : t.state.stagingPath ≠ t.state.backupPath) (h : InPlace i₀ fs t)
    (hst : Staged i₀ fs t)
    (hren : fs.rename t.state.binaryPath t.state.backupPath = some fs') :
    SetAside i₀ fs' t ∧ Staged i₀ fs' t := by
  obtain ⟨i, hi, hlook⟩ := FileSystem.lookup_rename hren
  obtain rfl := Option.some.inj (h.symm.trans hi)
  refine ⟨⟨?_, ?_⟩, ⟨?_, hst.other, ?_⟩⟩
  · rw [hlook, if_pos rfl]
  · by_cases heq : t.state.binaryPath = t.state.backupPath
    · exact .inl heq
    · right
      rw [hlook, if_neg heq, if_pos rfl]
  · rw [hlook, if_neg hback, if_neg hbin]
    exact hst.name
  · rw [FileSystem.data, (FileSystem.rename_inodes hren).1]
    exact hst.data

/-- The rollback rename puts the old binary back. -/
theorem inPlace_rollback (h : SetAside i₀ fs t) :
    InPlace i₀ (if fs.hasPath t.state.backupPath then
      (fs.rename t.state.backupPath t.state.binaryPath).getD fs else fs) t ∧
    (if fs.hasPath t.state.backupPath then
      (fs.rename t.state.backupPath t.state.binaryPath).getD fs else fs).inodes = fs.inodes := by
  have hpath : fs.hasPath t.state.backupPath = true := by
    rw [FileSystem.hasPath, h.1]
    rfl
  rw [if_pos hpath]
  cases hren : fs.rename t.state.backupPath t.state.binaryPath with
  | none =>
    rw [FileSystem.rename_eq_none, h.1] at hren
    cases hren
  | some fs' =>
    obtain ⟨i, hi, hlook⟩ := FileSystem.lookup_rename hren
    obtain rfl := Option.some.inj (h.1.symm.trans hi)
    refine ⟨?_, (FileSystem.rename_inodes hren).1⟩
    show fs'.names.lookup t.state.binaryPath = some i₀
    rw [hlook, if_pos rfl]

/-! ## The invariant of a run -/

/-- A step that fails the run leaves the old binary at the binary path, unless it is a
rollback whose rename fails; then the backup path has it. -/
def ErrKeepsOld (old : Inode) (s : FileSystem PathBuf × UpdateTask) (event : UpdateEvent)
    (s' : FileSystem PathBuf × UpdateTask) : Prop :=
  ∀ error, s'.2.phase = .failed error →
    s'.1.file s'.2.state.binaryPath = some old ∨
      s.2.phase = .rollback error ∧ (∃ osError, event = .fsErr osError) ∧
        s'.1.file s'.2.state.backupPath = some old

theorem file_of_lookup {p : PathBuf} {i : Nat} (h : fs.names.lookup p = some i) :
    fs.file p = some (fs.inodes i) := by
  rw [FileSystem.file, h]
  rfl

section Run

variable {state : UpdateState} {s s' : FileSystem PathBuf × UpdateTask} {event : UpdateEvent}

/-- A failure with the old binary in place. -/
theorem stepOk_of_fail (hold : fs.inodes i₀ = old) (hplace : InPlace i₀ fs t) (error : String) :
    RunInv sha256Hex t.state i₀ old (fs, t.fail error) ∧
      ErrKeepsOld old s event (fs, t.fail error) := by
  refine ⟨⟨rfl, hold, .inl hplace⟩, fun _ _ => .inl ?_⟩
  show fs.file t.state.binaryPath = some old
  rw [file_of_lookup hplace, hold]

/-- A chunk, written completely, in part, or refused. -/
theorem inv_receive (hold : fs.inodes i₀ = old) (hplace : InPlace i₀ fs t)
    (hst : Staged i₀ fs t) (hpos : t.file.pos = t.received.length) (heq : t.phase = .download)
    (bytes : Bytes) (stopsAfter : Option Nat) :
    RunInv sha256Hex t.state i₀ old (t.receive fs bytes stopsAfter) ∧
      ErrKeepsOld old s event (t.receive fs bytes stopsAfter) := by
  unfold receive
  split
  · exact ⟨⟨rfl, hold, hplace⟩, nofun⟩
  · split
    · obtain ⟨hplace', hnode⟩ := write_inPlace hplace hst bytes
      refine ⟨⟨rfl, hnode.trans hold, ?_⟩, fun error herr => ?_⟩
      · simp only [PhaseInv, heq]
        refine ⟨hplace', staged_write hst hpos bytes, ?_⟩
        show t.file.pos + bytes.length = (t.received ++ bytes).length
        rw [hpos, List.length_append]
      · rw [show t.phase = .failed error from herr] at heq
        cases heq
    · next k =>
      obtain ⟨hplace', hnode⟩ := write_inPlace hplace hst (bytes.take k)
      exact stepOk_of_fail (t := { t with file := (fs.write t.file (bytes.take k)).2 })
        (hnode.trans hold) hplace' _

/-- A step of the phase before the download: the old binary stays where it is. -/
theorem inv_connect (heq : t.phase = .connect) (hold : fs.inodes i₀ = old)
    (hplace : InPlace i₀ fs t) (h : t.step sha256Hex fs event = some s') :
    RunInv sha256Hex t.state i₀ old s' ∧ ErrKeepsOld old s event s' := by
  unfold step at h
  cases event with
  | requestError error =>
    simp only [heq] at h
    obtain rfl := Option.some.inj h
    exact stepOk_of_fail hold hplace error
  | respond contentLength =>
    cases contentLength with
    | none =>
      simp only [heq] at h
      obtain rfl := Option.some.inj h
      exact ⟨⟨rfl, hold, hplace⟩, nofun⟩
    | some len =>
      simp only [heq] at h
      split at h
      · obtain rfl := Option.some.inj h
        exact stepOk_of_fail hold hplace _
      · obtain rfl := Option.some.inj h
        exact ⟨⟨rfl, hold, hplace⟩, nofun⟩
  | _ => simp only [heq, reduceCtorEq] at h

theorem inv_removeStaging (hbin : t.state.stagingPath ≠ t.state.binaryPath)
    (heq : t.phase = .removeStaging) (hold : fs.inodes i₀ = old) (hplace : InPlace i₀ fs t)
    (h : t.step sha256Hex fs event = some s') :
    RunInv sha256Hex t.state i₀ old s' ∧ ErrKeepsOld old s event s' := by
  unfold step at h
  cases event with
  | fsOk =>
    simp only [heq] at h
    obtain rfl := Option.some.inj h
    obtain ⟨hplace', hinodes⟩ := inPlace_remove hbin hplace
    exact ⟨⟨rfl, (congrFun hinodes i₀).trans hold, hplace'⟩, nofun⟩
  | fsErr error =>
    simp only [heq] at h
    obtain rfl := Option.some.inj h
    exact ⟨⟨rfl, hold, hplace⟩, nofun⟩
  | _ => simp only [heq, reduceCtorEq] at h

theorem inv_createStaging (hbin : t.state.stagingPath ≠ t.state.binaryPath)
    (heq : t.phase = .createStaging) (hold : fs.inodes i₀ = old) (hplace : InPlace i₀ fs t)
    (h : t.step sha256Hex fs event = some s') :
    RunInv sha256Hex t.state i₀ old s' ∧ ErrKeepsOld old s event s' := by
  unfold step at h
  cases event with
  | fsOk =>
    simp only [heq] at h
    obtain rfl := Option.some.inj h
    obtain ⟨hplace', hst, hnode⟩ := staged_create hbin hplace
    exact ⟨⟨rfl, hnode.trans hold, hplace', hst, fs.create_pos _⟩, nofun⟩
  | fsErr error =>
    simp only [heq] at h
    obtain rfl := Option.some.inj h
    exact stepOk_of_fail hold hplace _
  | _ => simp only [heq, reduceCtorEq] at h

theorem inv_download (heq : t.phase = .download) (hold : fs.inodes i₀ = old)
    (hplace : InPlace i₀ fs t) (hst : Staged i₀ fs t) (hpos : t.file.pos = t.received.length)
    (h : t.step sha256Hex fs event = some s') :
    RunInv sha256Hex t.state i₀ old s' ∧ ErrKeepsOld old s event s' := by
  unfold step at h
  cases event with
  | chunk bytes stopsAfter =>
    simp only [heq] at h
    obtain rfl := Option.some.inj h
    exact inv_receive hold hplace hst hpos heq bytes stopsAfter
  | streamError =>
    simp only [heq] at h
    obtain rfl := Option.some.inj h
    exact stepOk_of_fail hold hplace _
  | streamEnd =>
    simp only [heq] at h
    obtain rfl := Option.some.inj h
    exact ⟨⟨rfl, hold, hplace, hst⟩, nofun⟩
  | _ => simp only [heq, reduceCtorEq] at h

/-- `flush` and `sync_all`: the staged download waits for its verification. -/
theorem inv_flush_sync (heq : t.phase = .flush ∨ t.phase = .sync) (hold : fs.inodes i₀ = old)
    (hplace : InPlace i₀ fs t) (hst : Staged i₀ fs t)
    (h : t.step sha256Hex fs event = some s') :
    RunInv sha256Hex t.state i₀ old s' ∧ ErrKeepsOld old s event s' := by
  unfold step at h
  cases event with
  | fsOk =>
    rcases heq with heq | heq
    all_goals
      simp only [heq] at h
      obtain rfl := Option.some.inj h
      exact ⟨⟨rfl, hold, hplace, hst⟩, nofun⟩
  | fsErr error =>
    rcases heq with heq | heq
    all_goals
      simp only [heq] at h
      obtain rfl := Option.some.inj h
      exact stepOk_of_fail hold hplace _
  | _ => rcases heq with heq | heq <;> simp only [heq, reduceCtorEq] at h

/-- Only a download with the expected hash goes on. -/
theorem inv_verify (heq : t.phase = .verify) (hold : fs.inodes i₀ = old)
    (hplace : InPlace i₀ fs t) (hst : Staged i₀ fs t)
    (h : t.step sha256Hex fs event = some s') :
    RunInv sha256Hex t.state i₀ old s' ∧ ErrKeepsOld old s event s' := by
  unfold step at h
  cases event with
  | hash =>
    simp only [heq] at h
    split at h
    · next hhash =>
      obtain rfl := Option.some.inj h
      exact ⟨⟨rfl, hold, hplace, hst, hhash⟩, nofun⟩
    · obtain rfl := Option.some.inj h
      exact ⟨⟨rfl, hold, hplace⟩, nofun⟩
  | _ => simp only [heq, reduceCtorEq] at h

theorem inv_discard {error : String} (hbin : t.state.stagingPath ≠ t.state.binaryPath)
    (heq : t.phase = .discard error) (hold : fs.inodes i₀ = old) (hplace : InPlace i₀ fs t)
    (h : t.step sha256Hex fs event = some s') :
    RunInv sha256Hex t.state i₀ old s' ∧ ErrKeepsOld old s event s' := by
  unfold step at h
  cases event with
  | fsOk =>
    simp only [heq] at h
    obtain rfl := Option.some.inj h
    obtain ⟨hplace', hinodes⟩ := inPlace_remove hbin hplace
    exact stepOk_of_fail ((congrFun hinodes i₀).trans hold) hplace' _
  | fsErr osError =>
    simp only [heq] at h
    obtain rfl := Option.some.inj h
    exact stepOk_of_fail hold hplace _
  | _ => simp only [heq, reduceCtorEq] at h

theorem inv_chmod (heq : t.phase = .chmod) (hold : fs.inodes i₀ = old)
    (hplace : InPlace i₀ fs t) (hst : Staged i₀ fs t) (hver : Verified sha256Hex t)
    (h : t.step sha256Hex fs event = some s') :
    RunInv sha256Hex t.state i₀ old s' ∧ ErrKeepsOld old s event s' := by
  unfold step at h
  cases event with
  | fsOk =>
    simp only [heq] at h
    split at h
    · next fs' hch =>
      obtain rfl := Option.some.inj h
      obtain ⟨hplace', hst', hexec, hnode⟩ := staged_setExecutable hplace hst hch
      exact ⟨⟨rfl, hnode.trans hold, hplace', hst', hver, hexec⟩, nofun⟩
    · obtain rfl := Option.some.inj h
      exact stepOk_of_fail hold hplace _
  | fsErr error =>
    simp only [heq] at h
    obtain rfl := Option.some.inj h
    exact stepOk_of_fail hold hplace _
  | _ => simp only [heq, reduceCtorEq] at h

/-- The check finds the old binary, so the backup comes next. -/
theorem inv_checkBinary (hcheck : event = .fsOk) (heq : t.phase = .checkBinary)
    (hold : fs.inodes i₀ = old) (hplace : InPlace i₀ fs t) (hst : Staged i₀ fs t)
    (hver : Verified sha256Hex t) (hexec : (fs.inodes t.file.inode).executable = true)
    (h : t.step sha256Hex fs event = some s') :
    RunInv sha256Hex t.state i₀ old s' ∧ ErrKeepsOld old s event s' := by
  have hpath : fs.hasPath t.state.binaryPath = true := by
    rw [FileSystem.hasPath, show fs.names.lookup t.state.binaryPath = some i₀ from hplace]
    rfl
  unfold step at h
  subst hcheck
  simp only [heq] at h
  rw [if_pos hpath] at h
  obtain rfl := Option.some.inj h
  refine ⟨⟨rfl, hold, hplace, hst, hver, hexec⟩, ?_⟩
  rintro _ ⟨⟩

theorem inv_backup (hbin : t.state.stagingPath ≠ t.state.binaryPath)
    (hback : t.state.stagingPath ≠ t.state.backupPath) (heq : t.phase = .backup)
    (hold : fs.inodes i₀ = old) (hplace : InPlace i₀ fs t) (hst : Staged i₀ fs t)
    (hver : Verified sha256Hex t) (hexec : (fs.inodes t.file.inode).executable = true)
    (h : t.step sha256Hex fs event = some s') :
    RunInv sha256Hex t.state i₀ old s' ∧ ErrKeepsOld old s event s' := by
  unfold step at h
  cases event with
  | fsOk =>
    simp only [heq] at h
    split at h
    · next fs' hren =>
      obtain rfl := Option.some.inj h
      -- the old binary is at the backup path now, the download still in staging
      obtain ⟨haside, hst'⟩ := setAside_rename hbin hback hplace hst hren
      have hinodes := (FileSystem.rename_inodes hren).1
      refine ⟨⟨rfl, (congrFun hinodes i₀).trans hold, haside, hst', hver, ?_⟩, nofun⟩
      rw [hinodes]
      exact hexec
    · obtain rfl := Option.some.inj h
      exact stepOk_of_fail hold hplace _
  | fsErr error =>
    simp only [heq] at h
    obtain rfl := Option.some.inj h
    exact stepOk_of_fail hold hplace _
  | _ => simp only [heq, reduceCtorEq] at h

/-- The install rename puts the verified download at the binary path; if it fails, a
rollback follows. -/
theorem inv_install (heq : t.phase = .install) (hold : fs.inodes i₀ = old)
    (haside : SetAside i₀ fs t) (hst : Staged i₀ fs t) (hver : Verified sha256Hex t)
    (hexec : (fs.inodes t.file.inode).executable = true)
    (h : t.step sha256Hex fs event = some s') :
    RunInv sha256Hex t.state i₀ old s' ∧ ErrKeepsOld old s event s' := by
  unfold step at h
  cases event with
  | fsOk =>
    simp only [heq] at h
    split at h
    · next fs' hren =>
      obtain rfl := Option.some.inj h
      -- the rename moves the task's own file, with what it has verified
      obtain ⟨i, hi, hlook⟩ := FileSystem.lookup_rename hren
      obtain rfl := Option.some.inj (hst.name.symm.trans hi)
      have hinodes := (FileSystem.rename_inodes hren).1
      refine ⟨⟨rfl, (congrFun hinodes i₀).trans hold, ?_, ?_, hver⟩, nofun⟩
      · exact (hlook _).trans (if_pos rfl)
      · show fs'.inodes t.file.inode = ⟨t.received, true⟩
        rw [hinodes, ← hst.data, ← hexec]
        rfl
    · obtain rfl := Option.some.inj h
      exact ⟨⟨rfl, hold, haside⟩, nofun⟩
  | fsErr error =>
    simp only [heq] at h
    obtain rfl := Option.some.inj h
    exact ⟨⟨rfl, hold, haside⟩, nofun⟩
  | _ => simp only [heq, reduceCtorEq] at h

/-- The rollback puts the old binary back, or fails and leaves it at the backup path. -/
theorem inv_rollback {error : String} (heq : t.phase = .rollback error)
    (hold : fs.inodes i₀ = old) (haside : SetAside i₀ fs t)
    (h : t.step sha256Hex fs event = some s') :
    RunInv sha256Hex t.state i₀ old s' ∧ ErrKeepsOld old (fs, t) event s' := by
  unfold step at h
  cases event with
  | fsOk =>
    simp only [heq] at h
    obtain rfl := Option.some.inj h
    obtain ⟨hplace, hinodes⟩ := inPlace_rollback haside
    exact stepOk_of_fail ((congrFun hinodes i₀).trans hold) hplace _
  | fsErr osError =>
    simp only [heq] at h
    obtain rfl := Option.some.inj h
    refine ⟨⟨rfl, hold, .inr haside⟩, ?_⟩
    rintro _ ⟨⟩
    refine .inr ⟨heq, ⟨_, rfl⟩, ?_⟩
    show fs.file t.state.backupPath = some old
    rw [file_of_lookup haside.1, hold]
  | _ => simp only [heq, reduceCtorEq] at h

/-- One step keeps the invariant, and fails only with the old binary kept. -/
theorem inv_step (hbin : state.stagingPath ≠ state.binaryPath)
    (hback : state.stagingPath ≠ state.backupPath) (hinv : RunInv sha256Hex state i₀ old s)
    (hcheck : CheckAnswers s event s') (h : runStep sha256Hex s event = some s') :
    RunInv sha256Hex state i₀ old s' ∧ ErrKeepsOld old s event s' := by
  obtain ⟨fs, t⟩ := s
  obtain ⟨rfl, hold, hphase⟩ := hinv
  replace hold : fs.inodes i₀ = old := hold
  replace hphase : PhaseInv sha256Hex i₀ fs t := hphase
  replace hcheck : t.phase = .checkBinary → event = .fsOk := hcheck
  replace h : t.step sha256Hex fs event = some s' := h
  unfold PhaseInv at hphase
  cases heq : t.phase with
  | connect => exact inv_connect heq hold (by simpa only [heq] using hphase) h
  | removeStaging => exact inv_removeStaging hbin heq hold (by simpa only [heq] using hphase) h
  | createStaging => exact inv_createStaging hbin heq hold (by simpa only [heq] using hphase) h
  | download =>
    simp only [heq] at hphase
    exact inv_download heq hold hphase.1 hphase.2.1 hphase.2.2 h
  | flush =>
    simp only [heq] at hphase
    exact inv_flush_sync (.inl heq) hold hphase.1 hphase.2 h
  | sync =>
    simp only [heq] at hphase
    exact inv_flush_sync (.inr heq) hold hphase.1 hphase.2 h
  | verify =>
    simp only [heq] at hphase
    exact inv_verify heq hold hphase.1 hphase.2 h
  | discard error => exact inv_discard hbin heq hold (by simpa only [heq] using hphase) h
  | chmod =>
    simp only [heq] at hphase
    exact inv_chmod heq hold hphase.1 hphase.2.1 hphase.2.2 h
  | checkBinary =>
    simp only [heq] at hphase
    obtain ⟨hplace, hst, hver, hexec⟩ := hphase
    exact inv_checkBinary (hcheck heq) heq hold hplace hst hver hexec h
  | backup =>
    simp only [heq] at hphase
    obtain ⟨hplace, hst, hver, hexec⟩ := hphase
    exact inv_backup hbin hback heq hold hplace hst hver hexec h
  | install =>
    simp only [heq] at hphase
    obtain ⟨haside, hst, hver, hexec⟩ := hphase
    exact inv_install heq hold haside hst hver hexec h
  | rollback error => exact inv_rollback heq hold (by simpa only [heq] using hphase) h
  | failed error =>
    unfold step at h
    cases event <;> simp only [heq, reduceCtorEq] at h
  | exited =>
    unfold step at h
    cases event <;> simp only [heq, reduceCtorEq] at h

end Run

/-! ## Crash safety -/

/-- `ExecStartPre` of the systemd unit: when the binary is missing and a backup exists, move
the backup to the binary's place. -/
def execStartPre (fs : FileSystem PathBuf) (state : UpdateState) : FileSystem PathBuf :=
  if fs.hasPath state.binaryPath then fs
  else if fs.hasPath state.backupPath then
    (fs.rename state.backupPath state.binaryPath).getD fs
  else fs

/-- The binary path names the old binary, or a verified new one, complete and executable. -/
def Bootable (sha256Hex : Bytes → String) (old : Inode) (fs : FileSystem PathBuf)
    (t : UpdateTask) : Prop :=
  fs.file t.state.binaryPath = some old ∨
    fs.file t.state.binaryPath = some ⟨t.received, true⟩ ∧ Verified sha256Hex t

/-- The run is past its backup rename and not past its install rename. -/
def BetweenRenames (t : UpdateTask) : Prop :=
  t.phase = .install ∨ ∃ error, t.phase = .rollback error ∨ t.phase = .failed error

/-- What the file system looks like after a crash: bootable, or, between the two renames,
without a binary but with the old one at the backup path; and bootable in any case once
`ExecStartPre` has run. -/
def CrashSafe (sha256Hex : Bytes → String) (old : Inode)
    (s : FileSystem PathBuf × UpdateTask) : Prop :=
  (Bootable sha256Hex old s.1 s.2 ∨
    BetweenRenames s.2 ∧ s.1.file s.2.state.binaryPath = none ∧
      s.1.file s.2.state.backupPath = some old) ∧
  Bootable sha256Hex old (execStartPre s.1 s.2.state) s.2

theorem execStartPre_of_present {state : UpdateState} {i : Nat}
    (h : fs.names.lookup state.binaryPath = some i) : execStartPre fs state = fs := by
  rw [execStartPre, FileSystem.hasPath, h]
  rfl

/-- `ExecStartPre` restores a binary that was set aside. -/
theorem execStartPre_restores (h : SetAside i₀ fs t) :
    (execStartPre fs t.state).file t.state.binaryPath = some (fs.inodes i₀) := by
  by_cases hpath : fs.hasPath t.state.binaryPath = true
  · have hlook : fs.names.lookup t.state.binaryPath = some i₀ := by
      rcases h.2 with heq | hnone
      · rw [heq]
        exact h.1
      · rw [FileSystem.hasPath, hnone] at hpath
        cases hpath
    rw [execStartPre, if_pos hpath]
    exact file_of_lookup hlook
  · rw [execStartPre, if_neg hpath]
    obtain ⟨hplace, hinodes⟩ := inPlace_rollback h
    rw [file_of_lookup hplace, hinodes]

/-- A state of the run without its old binary in place is bootable after `ExecStartPre`, and
its backup path has the old binary. -/
theorem crashSafe_of_setAside (h : SetAside i₀ fs t) (hold : fs.inodes i₀ = old)
    (hphase : BetweenRenames t) : CrashSafe sha256Hex old (fs, t) := by
  constructor
  · rcases h.2 with heq | hnone
    · left
      left
      rw [heq, file_of_lookup h.1, hold]
    · right
      refine ⟨hphase, ?_, ?_⟩
      · rw [FileSystem.file, hnone]
        rfl
      · rw [file_of_lookup h.1, hold]
  · left
    rw [execStartPre_restores h, hold]

theorem crashSafe_of_bootable {i : Nat} (hlook : fs.names.lookup t.state.binaryPath = some i)
    (h : Bootable sha256Hex old fs t) : CrashSafe sha256Hex old (fs, t) := by
  refine ⟨.inl h, ?_⟩
  rw [execStartPre_of_present hlook]
  exact h

theorem crashSafe_of_inPlace (h : InPlace i₀ fs t) (hold : fs.inodes i₀ = old) :
    CrashSafe sha256Hex old (fs, t) := by
  refine crashSafe_of_bootable h (.inl ?_)
  rw [file_of_lookup h, hold]

theorem crashSafe_of_inv {state : UpdateState} {s : FileSystem PathBuf × UpdateTask}
    (hinv : RunInv sha256Hex state i₀ old s) : CrashSafe sha256Hex old s := by
  obtain ⟨fs, t⟩ := s
  obtain ⟨-, hold, hphase⟩ := hinv
  replace hphase : PhaseInv sha256Hex i₀ fs t := hphase
  unfold PhaseInv at hphase
  split at hphase
  · exact crashSafe_of_inPlace hphase hold
  · exact crashSafe_of_inPlace hphase hold
  · exact crashSafe_of_inPlace hphase hold
  · exact crashSafe_of_inPlace hphase hold
  · exact crashSafe_of_inPlace hphase.1 hold
  · exact crashSafe_of_inPlace hphase.1 hold
  · exact crashSafe_of_inPlace hphase.1 hold
  · exact crashSafe_of_inPlace hphase.1 hold
  · exact crashSafe_of_inPlace hphase.1 hold
  · exact crashSafe_of_inPlace hphase.1 hold
  · exact crashSafe_of_inPlace hphase.1 hold
  · next heq => exact crashSafe_of_setAside hphase.1 hold (.inl heq)
  · next error heq => exact crashSafe_of_setAside hphase hold (.inr ⟨error, .inl heq⟩)
  · next error heq =>
    rcases hphase with hplace | haside
    · exact crashSafe_of_inPlace hplace hold
    · exact crashSafe_of_setAside haside hold (.inr ⟨error, .inr heq⟩)
  · -- exited: the new binary is complete and executable
    obtain ⟨hlook, hnode, hver⟩ := hphase
    refine crashSafe_of_bootable hlook (.inr ⟨?_, hver⟩)
    rw [file_of_lookup hlook, hnode]

theorem beside_paths {exe : PathBuf} (hexe : exe.file ≠ "kodama-firmware.new")
    (url sha256 : String) :
    (UpdateState.beside exe url sha256).stagingPath ≠
      (UpdateState.beside exe url sha256).binaryPath ∧
      (UpdateState.beside exe url sha256).stagingPath ≠
        (UpdateState.beside exe url sha256).backupPath := by
  constructor
  · intro heq
    exact hexe (congrArg PathBuf.file heq).symm
  · intro heq
    exact absurd (congrArg PathBuf.file heq) (by simp [UpdateState.beside])

/-- **Crash safety.** A run of `execute` for the binary `exe` (not itself named like the
staging file), whatever fails in it as long as `exists` answers for the binary path: at
every point the binary path names the old binary or the verified new one, or, between the
two renames, nothing, while the backup path names the old binary, and `ExecStartPre` leaves
the old or the verified new binary at the binary path. A run that fails keeps the old
binary there, or at the backup path when the rollback rename failed too. -/
theorem execute_crash_safe (sha256Hex : Bytes → String) (exe : PathBuf) (url sha256 : String)
    (fs : FileSystem PathBuf) (old : Inode) (hexe : exe.file ≠ "kodama-firmware.new")
    (hold : fs.file exe = some old) (events : List UpdateEvent)
    (hchecks : Machine.EachStep (runStep sha256Hex) CheckAnswers
      (fs, { state := .beside exe url sha256 }) events) :
    Machine.Always (runStep sha256Hex) (CrashSafe sha256Hex old)
        (fs, { state := .beside exe url sha256 }) events ∧
      Machine.EachStep (runStep sha256Hex) (ErrKeepsOld old)
        (fs, { state := .beside exe url sha256 }) events := by
  obtain ⟨i₀, hlook, hnode⟩ := Option.map_eq_some_iff.mp hold
  obtain ⟨hbin, hback⟩ := beside_paths hexe url sha256
  have hinit : RunInv sha256Hex (.beside exe url sha256) i₀ old
      (fs, { state := .beside exe url sha256 }) := ⟨rfl, hnode, hlook⟩
  have hinv : Machine.Always (runStep sha256Hex)
      (RunInv sha256Hex (.beside exe url sha256) i₀ old)
      (fs, { state := .beside exe url sha256 }) events :=
    Machine.always_of_eachStep hinit
      (fun _ _ _ hi hc h => (inv_step hbin hback hi hc h).1) hchecks
  refine ⟨hinv.mono fun _ hi => crashSafe_of_inv hi, hchecks.mono hinv ?_⟩
  intro s event s' hi h hc
  exact (inv_step hbin hback hi hc h).2

/-! ## Sample runs -/

/-- The hash of the sample image `[1]`. -/
def sampleHash : String := "4bf5122f344554c53bde2ebb8cd2b7e3d1600ad631c385a5d7cce23c7785459a"

/-- SHA-256 on the sample downloads. -/
def sampleSha256 (bytes : Bytes) : String :=
  if bytes = [1] then sampleHash
  else if bytes = [2] then "dbc1b4c900ffe48d575b5da5c638040125f65db0fe3e24494b76ea986457d986"
  else ""

/-- The sample binary's path. -/
def sampleExe : PathBuf := ⟨"/home/yurei/kodama", "kodama-firmware"⟩

/-- A file system with a binary and the backup of an earlier update. -/
def sampleFs : FileSystem PathBuf :=
  let r := FileSystem.empty.create sampleExe
  let b := (r.1.setInode 0 ⟨[10], true⟩).create ⟨sampleExe.dir, "kodama-firmware.prev"⟩
  b.1.setInode 1 ⟨[9], true⟩

/-- The run that asks for the image `[1]`, before its first step. -/
def sampleTask : UpdateTask where
  state := .beside sampleExe "https://updates/kodama-firmware" sampleHash

/-- Download and verify `[1]`, up to the check for the binary. -/
def sampleDownload : List UpdateEvent :=
  [.respond (some 1), .fsOk, .fsOk, .chunk [1] none, .streamEnd, .fsOk, .fsOk, .hash, .fsOk]

theorem execute_crash_safe_sample :
    Machine.Always (runStep sampleSha256) (CrashSafe sampleSha256 ⟨[10], true⟩)
        (sampleFs, sampleTask) (sampleDownload ++ [.fsOk, .fsOk, .fsErr "EIO", .fsErr "EIO"]) ∧
      Machine.EachStep (runStep sampleSha256) (ErrKeepsOld ⟨[10], true⟩)
        (sampleFs, sampleTask) (sampleDownload ++ [.fsOk, .fsOk, .fsErr "EIO", .fsErr "EIO"]) :=
  execute_crash_safe sampleSha256 sampleExe _ _ sampleFs ⟨[10], true⟩ (by decide) (by decide) _
    (by decide)

/-- What the sample binary's path names, and whether the run has failed. -/
def observe (s : FileSystem PathBuf × UpdateTask) : Option Inode × Bool :=
  (s.1.file sampleExe, match s.2.phase with | .failed _ => true | _ => false)

/-- The binary path names nothing after the backup rename; it still names nothing after the
run has failed with both later renames failing; and when `exists` fails and the install
rename fails, the rollback puts the backup of an earlier update in the old binary's place. -/
theorem execute_losesBinary :
    ¬ Machine.Always (runStep sampleSha256)
        (fun s => s.1.file sampleExe = some ⟨[10], true⟩ ∨ s.1.file sampleExe = some ⟨[1], true⟩)
        (sampleFs, sampleTask) (sampleDownload ++ [.fsOk, .fsOk]) ∧
      ¬ Machine.Always (runStep sampleSha256)
        (fun s => (observe s).2 = true → s.1.file sampleExe = some ⟨[10], true⟩)
        (sampleFs, sampleTask) (sampleDownload ++ [.fsOk, .fsOk, .fsErr "EIO", .fsErr "EIO"]) ∧
      ¬ Machine.Always (runStep sampleSha256)
        (fun s => (observe s).2 = true → s.1.file sampleExe = some ⟨[10], true⟩)
        (sampleFs, sampleTask) (sampleDownload ++ [.fsErr "EIO", .fsErr "EIO", .fsOk]) := by
  refine ⟨fun h => ?_, fun h => ?_, fun h => ?_⟩
  · obtain ⟨s, hs, hobs⟩ := h.observed (f := observe) (b := (none, false)) (by decide)
    obtain ⟨hfile, -⟩ := Prod.mk.inj hobs
    rw [hfile] at hs
    revert hs
    decide
  · obtain ⟨s, hs, hobs⟩ := h.observed (f := observe) (b := (none, true)) (by decide)
    obtain ⟨hfile, -⟩ := Prod.mk.inj hobs
    have hold := hs (congrArg Prod.snd hobs)
    rw [hfile] at hold
    cases hold
  · obtain ⟨s, hs, hobs⟩ := h.observed (f := observe) (b := (some ⟨[9], true⟩, true)) (by decide)
    obtain ⟨hfile, -⟩ := Prod.mk.inj hobs
    have hold := hs (congrArg Prod.snd hobs)
    rw [hfile] at hold
    revert hold
    decide

end UpdateTask

end Kodama
