import Kodama.Firmware.Update

/-!
# Concurrent firmware updates (apps/kodama-firmware/src/camera.rs, `execute_update_firmware`)

Every `UpdateFirmware` command spawns a task that runs `UpdateState::execute`; nothing keeps
two of them apart. All tasks derive the same staging path from the running binary, and the
hash is taken of the download stream, not of the file that is installed.

- `installsVerified_of_undisturbed`: in any interleaving, every final rename installs
  exactly the bytes its task downloaded and verified, as long as no task truncates the file
  of another update in progress and each final rename finds the staging path naming the
  file its own task created.

The steps are those of `UpdateTask.step`; the process ends with the first `exit`.
-/

namespace Kodama

open Lib

namespace UpdatePhase

/-- The task has created its staging file and not installed it or given up. -/
def inProgress : UpdatePhase → Bool
  | .download | .flush | .sync | .verify | .chmod | .checkBinary | .backup | .install => true
  | _ => false

/-- The task is past its comparison of hashes. -/
def hashChecked : UpdatePhase → Bool
  | .chmod | .checkBinary | .backup | .install => true
  | _ => false

theorem inProgress_of_hashChecked {phase : UpdatePhase} (h : phase.hashChecked = true) :
    phase.inProgress = true := by
  cases phase <;> first | rfl | cases h

end UpdatePhase

/-- The camera process with its update tasks. -/
structure UpdateDaemon where
  fs : FileSystem PathBuf
  tasks : HashMap Nat UpdateTask
  exited : Bool

inductive DaemonEvent where
  /-- An `UpdateFirmware` command; `currentExe` is what `current_exe` answers. -/
  | command (t : Nat) (currentExe : Option PathBuf) (url sha256 : String)
  | task (t : Nat) (event : UpdateEvent)
deriving DecidableEq

namespace UpdateDaemon

/-- One event: a command spawns a task (or is answered with an error), or a task takes a
step. -/
def step (sha256Hex : Bytes → String) (d : UpdateDaemon) (event : DaemonEvent) :
    Option UpdateDaemon :=
  if d.exited then none
  else
    match event with
    | .command t currentExe url sha256 =>
      if d.tasks.lookup t = none then
        match UpdateState.new currentExe url sha256 with
        | .ok state => some { d with tasks := d.tasks.insert t { state := state } }
        | .error _ => some d
      else none
    | .task t event =>
      (d.tasks.lookup t).bind fun task =>
        (task.step sha256Hex d.fs event).map fun r =>
          { fs := r.1, tasks := d.tasks.insert t r.2, exited := r.2.phase = .exited }

/-- A task that installs leaves at the binary path exactly what it downloaded, and that has
the hash it expected. -/
def InstallsVerified (sha256Hex : Bytes → String) (d : UpdateDaemon) (event : DaemonEvent)
    (d' : UpdateDaemon) : Prop :=
  ∀ e ∈ d.tasks.entries, event = .task e.1 .fsOk → e.2.phase = .install → d'.exited = true →
    d'.fs.read e.2.state.binaryPath = some e.2.received ∧
      sha256Hex e.2.received = e.2.state.expectedSha256

/-- Creating a staging file does not truncate the file of an update in progress, and a final
rename finds its own file at the staging path. -/
def Undisturbed (d : UpdateDaemon) (event : DaemonEvent) (_ : UpdateDaemon) : Prop :=
  ∀ e ∈ d.tasks.entries, event = .task e.1 .fsOk →
    (e.2.phase = .createStaging → ∀ e' ∈ d.tasks.entries, e'.2.phase.inProgress = true →
      d.fs.names.lookup e.2.state.stagingPath ≠ some e'.2.file.inode) ∧
    (e.2.phase = .install →
      d.fs.names.lookup e.2.state.stagingPath = some e.2.file.inode)

instance (sha256Hex : Bytes → String) (d : UpdateDaemon) (event : DaemonEvent)
    (d' : UpdateDaemon) : Decidable (InstallsVerified sha256Hex d event d') :=
  inferInstanceAs (Decidable (∀ e ∈ d.tasks.entries, event = .task e.1 .fsOk → _ = _ →
    _ = _ → _ = _ ∧ _ = _))

instance (d : UpdateDaemon) (event : DaemonEvent) (d' : UpdateDaemon) :
    Decidable (Undisturbed d event d') :=
  inferInstanceAs (Decidable (∀ e ∈ d.tasks.entries, event = .task e.1 .fsOk →
    (_ = _ → ∀ e' ∈ d.tasks.entries, _ = _ → _ ≠ _) ∧ (_ = _ → _ = _)))

/-! ## What one step of a task does to the files -/

variable {sha256Hex : Bytes → String} {fs fs' : FileSystem PathBuf} {task task' : UpdateTask}
  {event : UpdateEvent}

theorem data_remove_getD (fs : FileSystem PathBuf) (p : PathBuf) :
    ((fs.remove p).getD fs).data = fs.data ∧ ((fs.remove p).getD fs).next = fs.next := by
  cases hrem : fs.remove p with
  | none => exact ⟨rfl, rfl⟩
  | some fs' =>
    obtain ⟨hinodes, hnext⟩ := FileSystem.remove_inodes hrem
    exact ⟨funext fun i => congrArg Inode.data (congrFun hinodes i), hnext⟩

theorem data_rename {p q : PathBuf} (h : fs.rename p q = some fs') :
    fs'.data = fs.data ∧ fs'.next = fs.next := by
  obtain ⟨hinodes, hnext⟩ := FileSystem.rename_inodes h
  exact ⟨funext fun i => congrArg Inode.data (congrFun hinodes i), hnext⟩

theorem data_setExecutable {p : PathBuf} (h : fs.setExecutable p = some fs') :
    fs'.data = fs.data ∧ fs'.next = fs.next := by
  obtain ⟨i, -, rfl⟩ := FileSystem.setExecutable_eq_some h
  refine ⟨funext fun j => ?_, rfl⟩
  by_cases hj : j = i
  · subst hj
    rw [FileSystem.data, FileSystem.setInode_inodes]
    rfl
  · exact (fs.setInode_sameBut i _).data hj

theorem data_rollback (fs : FileSystem PathBuf) (p q : PathBuf) :
    (if fs.hasPath p then (fs.rename p q).getD fs else fs).data = fs.data ∧
      (if fs.hasPath p then (fs.rename p q).getD fs else fs).next = fs.next := by
  split
  · cases hren : fs.rename p q with
    | none => exact ⟨rfl, rfl⟩
    | some fs' => exact data_rename hren
  · exact ⟨rfl, rfl⟩

/-- A step that changes no content and moves the task to another phase. -/
def Moves (sha256Hex : Bytes → String) (fs fs' : FileSystem PathBuf) (task task' : UpdateTask) :
    Prop :=
  ∃ phase, task' = { task with phase := phase } ∧ (fs'.data = fs.data ∧ fs'.next = fs.next) ∧
    (phase.inProgress = true → task.phase.inProgress = true ∧ phase ≠ .download) ∧
    (phase.hashChecked = true → task.phase.hashChecked = true ∨ task.Verified sha256Hex)

theorem moves_of_inactive {phase : UpdatePhase} (hdata : fs'.data = fs.data ∧ fs'.next = fs.next)
    (hphase : phase.inProgress = false) :
    Moves sha256Hex fs fs' task { task with phase := phase } := by
  refine ⟨phase, rfl, hdata, fun h => ?_, fun h => ?_⟩
  · rw [hphase] at h
    cases h
  · rw [UpdatePhase.inProgress_of_hashChecked h] at hphase
    cases hphase

theorem moves_of_active {phase : UpdatePhase} (hdata : fs'.data = fs.data ∧ fs'.next = fs.next)
    (hold : task.phase.inProgress = true) (hnew : phase ≠ .download)
    (hchecked : phase.hashChecked = true →
      task.phase.hashChecked = true ∨ task.Verified sha256Hex) :
    Moves sha256Hex fs fs' task { task with phase := phase } :=
  ⟨phase, rfl, hdata, fun _ => ⟨hold, hnew⟩, hchecked⟩

/-- One step of a task creates the staging file, handles a chunk, or moves the task on
without changing a content. -/
theorem taskStep_cases (h : task.step sha256Hex fs event = some (fs', task')) :
    (task.phase = .createStaging ∧ event = .fsOk ∧ fs' = (fs.create task.state.stagingPath).1 ∧
      task' = { task with
        phase := .download, file := (fs.create task.state.stagingPath).2, received := [] }) ∨
    (∃ bytes stopsAfter, task.phase = .download ∧
      (fs', task') = task.receive fs bytes stopsAfter) ∨
    Moves sha256Hex fs fs' task task' := by
  have moved : ∀ {fs₁ task₁}, some (fs₁, task₁) = some (fs', task') →
      Moves sha256Hex fs fs₁ task task₁ →
      (task.phase = .createStaging ∧ event = .fsOk ∧
        fs' = (fs.create task.state.stagingPath).1 ∧ task' = { task with
          phase := .download, file := (fs.create task.state.stagingPath).2, received := [] }) ∨
      (∃ bytes stopsAfter, task.phase = .download ∧
        (fs', task') = task.receive fs bytes stopsAfter) ∨
      Moves sha256Hex fs fs' task task' := by
    rintro _ _ ⟨⟩ hmoves
    exact .inr (.inr hmoves)
  have same : fs.data = fs.data ∧ fs.next = fs.next := ⟨rfl, rfl⟩
  unfold UpdateTask.step at h
  split at h
  · exact moved h (moves_of_inactive same rfl)
  · exact moved h (moves_of_inactive same rfl)
  · split at h
    · exact moved h (moves_of_inactive same rfl)
    · exact moved h (moves_of_inactive same rfl)
  · exact moved h (moves_of_inactive (data_remove_getD fs _) rfl)
  · exact moved h (moves_of_inactive same rfl)
  · next heq =>
    obtain ⟨rfl, rfl⟩ := Prod.mk.inj (Option.some.inj h)
    exact .inl ⟨heq, rfl, rfl, rfl⟩
  · exact moved h (moves_of_inactive same rfl)
  · next bytes stopsAfter heq =>
    exact .inr (.inl ⟨bytes, stopsAfter, heq, (Option.some.inj h).symm⟩)
  · exact moved h (moves_of_inactive same rfl)
  · next heq => exact moved h (moves_of_active same (by rw [heq]; rfl) nofun nofun)
  · next heq => exact moved h (moves_of_active same (by rw [heq]; rfl) nofun nofun)
  · exact moved h (moves_of_inactive same rfl)
  · next heq => exact moved h (moves_of_active same (by rw [heq]; rfl) nofun nofun)
  · exact moved h (moves_of_inactive same rfl)
  · next heq =>
    split at h
    · next hhash =>
      exact moved h (moves_of_active same (by rw [heq]; rfl) nofun fun _ => .inr hhash)
    · exact moved h (moves_of_inactive same rfl)
  · exact moved h (moves_of_inactive (data_remove_getD fs _) rfl)
  · exact moved h (moves_of_inactive same rfl)
  · next heq =>
    split at h
    · next fs₁ hch =>
      exact moved h (moves_of_active (data_setExecutable hch) (by rw [heq]; rfl) nofun
        fun _ => .inl (by rw [heq]; rfl))
    · exact moved h (moves_of_inactive same rfl)
  · exact moved h (moves_of_inactive same rfl)
  · next heq =>
    refine moved h (moves_of_active same (by rw [heq]; rfl) ?_ fun _ => .inl (by rw [heq]; rfl))
    split <;> nofun
  · next heq =>
    exact moved h (moves_of_active same (by rw [heq]; rfl) nofun
      fun _ => .inl (by rw [heq]; rfl))
  · next heq =>
    split at h
    · next fs₁ hren =>
      exact moved h (moves_of_active (data_rename hren) (by rw [heq]; rfl) nofun
        fun _ => .inl (by rw [heq]; rfl))
    · exact moved h (moves_of_inactive same rfl)
  · exact moved h (moves_of_inactive same rfl)
  · split at h
    · next fs₁ hren => exact moved h (moves_of_inactive (data_rename hren) rfl)
    · exact moved h (moves_of_inactive same rfl)
  · exact moved h (moves_of_inactive same rfl)
  · exact moved h (moves_of_inactive (data_rollback fs _ _) rfl)
  · exact moved h (moves_of_inactive same rfl)
  · cases h

/-! ## The files of the updates in progress -/

/-- The file of an update in progress holds what was received, its handle is at the end
while the download runs, and past the comparison of hashes the hash is the expected one. -/
structure Downloaded (sha256Hex : Bytes → String) (fs : FileSystem PathBuf) (task : UpdateTask) :
    Prop where
  allocated : task.file.inode < fs.next
  data : fs.data task.file.inode = task.received
  pos : task.phase = .download → task.file.pos = task.received.length
  checked : task.phase.hashChecked = true → task.Verified sha256Hex

/-- Updates in progress hold their downloads, in files of their own. -/
structure Separate (sha256Hex : Bytes → String) (d : UpdateDaemon) : Prop where
  downloaded : ∀ t task, d.tasks.lookup t = some task → task.phase.inProgress = true →
    Downloaded sha256Hex d.fs task
  distinct : ∀ t₁ t₂ task₁ task₂, d.tasks.lookup t₁ = some task₁ →
    d.tasks.lookup t₂ = some task₂ → task₁.phase.inProgress = true →
    task₂.phase.inProgress = true → task₁.file.inode = task₂.file.inode → t₁ = t₂

/-- A step that does not touch the content of a task's file keeps its download. -/
theorem Downloaded.frame (h : Downloaded sha256Hex fs task)
    (hdata : fs'.data task.file.inode = fs.data task.file.inode) (hnext : fs.next ≤ fs'.next) :
    Downloaded sha256Hex fs' task where
  allocated := Nat.lt_of_lt_of_le h.allocated hnext
  data := hdata.trans h.data
  pos := h.pos
  checked := h.checked

/-- Moving on keeps the download. -/
theorem Downloaded.move (h : Downloaded sha256Hex fs task) {phase : UpdatePhase}
    (hdata : fs'.data = fs.data ∧ fs'.next = fs.next) (hphase : phase ≠ .download)
    (hchecked : phase.hashChecked = true →
      task.phase.hashChecked = true ∨ task.Verified sha256Hex) :
    Downloaded sha256Hex fs' { task with phase := phase } where
  allocated := Nat.lt_of_lt_of_le h.allocated (Nat.le_of_eq hdata.2.symm)
  data := (congrFun hdata.1 _).trans h.data
  pos := fun heq => absurd heq hphase
  checked := fun hc => (hchecked hc).elim h.checked id

/-- What handling a chunk does to the files, and to the task when it goes on. -/
theorem receive_spec (h : Downloaded sha256Hex fs task) (hphase : task.phase = .download)
    (bytes : Bytes) (stopsAfter : Option Nat) :
    fs.SameBut (task.receive fs bytes stopsAfter).1 task.file.inode ∧
      (task.receive fs bytes stopsAfter).2.file.inode = task.file.inode ∧
      ((task.receive fs bytes stopsAfter).2.phase.inProgress = true →
        Downloaded sha256Hex (task.receive fs bytes stopsAfter).1
          (task.receive fs bytes stopsAfter).2) := by
  unfold UpdateTask.receive
  split
  · exact ⟨.refl _ _, rfl, nofun⟩
  · split
    · -- a chunk goes to the end of what was received
      have hsame := fs.write_sameBut task.file bytes
      refine ⟨hsame, rfl, fun _ => ?_⟩
      constructor
      · show task.file.inode < (fs.write task.file bytes).1.next
        rw [hsame.next]
        exact h.allocated
      · show (fs.write task.file bytes).1.data task.file.inode = task.received ++ bytes
        rw [fs.write_data, h.pos hphase, h.data, FileSystem.overwrite_end]
      · intro _
        show task.file.pos + bytes.length = (task.received ++ bytes).length
        rw [h.pos hphase, List.length_append]
      · intro hc
        have hc : task.phase.hashChecked = true := hc
        rw [hphase] at hc
        cases hc
    · exact ⟨fs.write_sameBut _ _, rfl, nofun⟩

variable {d d' : UpdateDaemon} {ev : DaemonEvent}

/-- Replacing one task's record, and the file system, keeps the updates separate: the other
tasks in progress keep their files, and the new record has one of its own. -/
theorem separate_insert (hsep : d.Separate sha256Hex) {t : Nat} {exited : Bool}
    (hothers : ∀ t₂ task₂, t₂ ≠ t → d.tasks.lookup t₂ = some task₂ →
      task₂.phase.inProgress = true →
      fs'.data task₂.file.inode = d.fs.data task₂.file.inode ∧
        (task'.phase.inProgress = true → task₂.file.inode ≠ task'.file.inode))
    (hnext : d.fs.next ≤ fs'.next)
    (hown : task'.phase.inProgress = true → Downloaded sha256Hex fs' task') :
    Separate sha256Hex ⟨fs', d.tasks.insert t task', exited⟩ where
  downloaded := HashMap.forall_lookup_insert hown fun t₂ task₂ hne h₂ hp₂ =>
    (hsep.downloaded t₂ task₂ h₂ hp₂).frame (hothers t₂ task₂ hne h₂ hp₂).1 hnext
  distinct := by
    intro t₁ t₂ task₁ task₂ h₁ h₂ hp₁ hp₂ hfile
    rw [HashMap.lookup_insert_ite] at h₁ h₂
    split at h₁ <;> split at h₂
    · next h₁t h₂t => rw [h₁t, h₂t]
    · next h₂t =>
      obtain rfl := Option.some.inj h₁
      exact absurd hfile.symm ((hothers t₂ task₂ h₂t h₂ hp₂).2 hp₁)
    · next h₁t _ =>
      obtain rfl := Option.some.inj h₂
      exact absurd hfile ((hothers t₁ task₁ h₁t h₁ hp₁).2 hp₂)
    · exact hsep.distinct t₁ t₂ task₁ task₂ h₁ h₂ hp₁ hp₂ hfile

theorem separate_command (hsep : d.Separate sha256Hex) {t : Nat} {state : UpdateState}
    {exited : Bool} :
    Separate sha256Hex ⟨d.fs, d.tasks.insert t { state := state }, exited⟩ :=
  separate_insert hsep (fun _ _ _ _ _ => ⟨rfl, nofun⟩) (Nat.le_refl _) nofun

/-- A step of one task keeps the updates separate, if it does not create its staging file
over the file of another. -/
theorem separate_taskStep (hsep : d.Separate sha256Hex) {t : Nat} {exited : Bool}
    (ht : d.tasks.lookup t = some task)
    (hcreate : task.phase = .createStaging → event = .fsOk → ∀ t₂ task₂,
      d.tasks.lookup t₂ = some task₂ → task₂.phase.inProgress = true →
      d.fs.names.lookup task.state.stagingPath ≠ some task₂.file.inode)
    (h : task.step sha256Hex d.fs event = some (fs', task')) :
    Separate sha256Hex ⟨fs', d.tasks.insert t task', exited⟩ := by
  have other : ∀ t₂ task₂, t₂ ≠ t → d.tasks.lookup t₂ = some task₂ →
      task₂.phase.inProgress = true → task.phase.inProgress = true →
      task₂.file.inode ≠ task.file.inode :=
    fun t₂ task₂ hne h₂ hp₂ hp hfile => hne (hsep.distinct t₂ t task₂ task h₂ ht hp₂ hp hfile)
  rcases taskStep_cases h with ⟨hphase, rfl, rfl, rfl⟩ | ⟨bytes, stopsAfter, hphase, heq⟩ |
    ⟨phase, rfl, hdata, hactive, hchecked⟩
  · -- the staging file is a new one, or a file of no update in progress
    have hfresh : ∀ t₂ task₂, d.tasks.lookup t₂ = some task₂ → task₂.phase.inProgress = true →
        task₂.file.inode ≠ (d.fs.create task.state.stagingPath).2.inode := fun t₂ task₂ h₂ hp₂ =>
      (FileSystem.create_inode_ne (hcreate hphase rfl t₂ task₂ h₂ hp₂)
        (hsep.downloaded t₂ task₂ h₂ hp₂).allocated).symm
    refine separate_insert hsep (fun t₂ task₂ _ h₂ hp₂ => ⟨?_, fun _ => hfresh t₂ task₂ h₂ hp₂⟩)
      (d.fs.create_next _) fun _ => ?_
    · exact congrArg Inode.data (FileSystem.create_inodes (hfresh t₂ task₂ h₂ hp₂))
    · exact ⟨d.fs.create_lt _, d.fs.create_data _, fun _ => d.fs.create_pos _, nofun⟩
  · -- a chunk goes to the task's own file, which is nobody else's
    have hp : task.phase.inProgress = true := by
      rw [hphase]
      rfl
    obtain ⟨hsame, hfile, hown⟩ :=
      receive_spec (hsep.downloaded t task ht hp) hphase bytes stopsAfter
    rw [← heq] at hsame hfile hown
    refine separate_insert hsep (fun t₂ task₂ hne h₂ hp₂ => ?_)
      (Nat.le_of_eq hsame.next.symm) hown
    have hne₂ := other t₂ task₂ hne h₂ hp₂ hp
    exact ⟨hsame.data hne₂, fun _ => hfile ▸ hne₂⟩
  · refine separate_insert hsep (fun t₂ task₂ hne h₂ hp₂ => ⟨congrFun hdata.1 _, fun hp' => ?_⟩)
      (Nat.le_of_eq hdata.2.symm) fun hp' => ?_
    · exact other t₂ task₂ hne h₂ hp₂ (hactive hp').1
    · exact (hsep.downloaded t task ht (hactive hp').1).move hdata (hactive hp').2 hchecked

theorem separate_step (hsep : d.Separate sha256Hex) (hund : Undisturbed d ev d')
    (h : d.step sha256Hex ev = some d') : d'.Separate sha256Hex := by
  unfold step at h
  split at h
  · cases h
  · split at h
    · split at h
      · split at h
        · obtain rfl := Option.some.inj h
          exact separate_command hsep
        · obtain rfl := Option.some.inj h
          exact hsep
      · cases h
    · next t event =>
      obtain ⟨task, ht, h⟩ := Option.bind_eq_some_iff.mp h
      obtain ⟨⟨fs', task'⟩, hstep, rfl⟩ := Option.map_eq_some_iff.mp h
      refine separate_taskStep hsep ht ?_ hstep
      rintro hphase rfl t₂ task₂ h₂ hp₂
      exact (hund ⟨t, task⟩ (HashMap.mem_entries_iff.mpr ht) rfl).1 hphase ⟨t₂, task₂⟩
        (HashMap.mem_entries_iff.mpr h₂) hp₂

/-- The final rename of a task whose file is at the staging path. -/
theorem installsVerified_step (hsep : d.Separate sha256Hex) (hund : Undisturbed d ev d')
    (h : d.step sha256Hex ev = some d') : InstallsVerified sha256Hex d ev d' := by
  rintro ⟨t, task⟩ hmem rfl hphase hexit
  have ht : d.tasks.lookup t = some task := HashMap.mem_entries_iff.mp hmem
  have hphase : task.phase = .install := hphase
  have hname : d.fs.names.lookup task.state.stagingPath = some task.file.inode :=
    (hund ⟨t, task⟩ hmem rfl).2 hphase
  have hdown := hsep.downloaded t task ht (by rw [hphase]; rfl)
  unfold step at h
  split at h
  · cases h
  · obtain ⟨task', ht', h⟩ := Option.bind_eq_some_iff.mp h
    obtain rfl := Option.some.inj (ht.symm.trans ht')
    obtain ⟨⟨fs', task'⟩, hstep, rfl⟩ := Option.map_eq_some_iff.mp h
    simp only [UpdateTask.step, hphase] at hstep
    split at hstep
    · next fs₁ hren =>
      obtain ⟨rfl, rfl⟩ := Prod.mk.inj (Option.some.inj hstep)
      -- what is at the staging path is the task's file, and so its download
      obtain ⟨i, hi, hlook⟩ := FileSystem.lookup_rename hren
      obtain rfl := Option.some.inj (hname.symm.trans hi)
      refine ⟨?_, hdown.checked (by rw [hphase]; rfl)⟩
      show fs₁.read task.state.binaryPath = some task.received
      rw [FileSystem.read, hlook, if_pos rfl, Option.map_some, (data_rename hren).1, hdown.data]
    · obtain ⟨rfl, rfl⟩ := Prod.mk.inj (Option.some.inj hstep)
      cases hexit

/-- **When only verified firmware is installed.** In any interleaving of any number of
update tasks, started from a process without update tasks, in which no task truncates the
file of another update in progress and each final rename finds its task's own file at the
staging path, every final rename installs what its task downloaded and verified. -/
theorem installsVerified_of_undisturbed (sha256Hex : Bytes → String) (fs : FileSystem PathBuf)
    (events : List DaemonEvent)
    (hund : Machine.EachStep (step sha256Hex) Undisturbed ⟨fs, ∅, false⟩ events) :
    Machine.EachStep (step sha256Hex) (InstallsVerified sha256Hex) ⟨fs, ∅, false⟩ events := by
  have hinit : Separate sha256Hex ⟨fs, ∅, false⟩ :=
    ⟨fun _ _ h => absurd ((AList.lookup_empty _).symm.trans h) (by simp),
      fun _ _ _ _ h => absurd ((AList.lookup_empty _).symm.trans h) (by simp)⟩
  have hsep : Machine.Always (step sha256Hex) (Separate sha256Hex) ⟨fs, ∅, false⟩ events :=
    Machine.always_of_eachStep hinit (fun _ _ _ hi hu h => separate_step hi hu h) hund
  exact hund.mono hsep fun _ _ _ hi h hu => installsVerified_step hi hu h

/-- One command for the image `[1]`, and a second one whose request fails while the first
is being downloaded. -/
def sampleUpdates : List DaemonEvent :=
  [.command 0 (some UpdateTask.sampleExe) "u" UpdateTask.sampleHash,
    .command 1 (some UpdateTask.sampleExe) "u" UpdateTask.sampleHash] ++
  (UpdateTask.sampleDownload.map fun e => .task 0 e) ++
  [.task 1 (.requestError "timeout"), .task 0 .fsOk, .task 0 .fsOk, .task 0 .fsOk]

theorem installsVerified_sampleUpdates :
    Machine.EachStep (step UpdateTask.sampleSha256) (InstallsVerified UpdateTask.sampleSha256)
      ⟨UpdateTask.sampleFs, ∅, false⟩ sampleUpdates :=
  installsVerified_of_undisturbed UpdateTask.sampleSha256 UpdateTask.sampleFs sampleUpdates
    (by decide)

/-- Two commands: the first download is verified, then the second task removes and creates
the staging file and writes its first chunk, and then the first task installs that. -/
theorem racingUpdates_installUnverified :
    ¬ Machine.EachStep (step UpdateTask.sampleSha256) (InstallsVerified UpdateTask.sampleSha256)
      ⟨UpdateTask.sampleFs, ∅, false⟩
      ([.command 0 (some UpdateTask.sampleExe) "u" UpdateTask.sampleHash,
        .command 1 (some UpdateTask.sampleExe) "v"
          "dbc1b4c900ffe48d575b5da5c638040125f65db0fe3e24494b76ea986457d986"] ++
      [.task 0 (.respond none), .task 0 .fsOk, .task 0 .fsOk, .task 0 (.chunk [1] none),
        .task 0 .streamEnd, .task 0 .fsOk, .task 0 .fsOk, .task 0 .hash,
        .task 1 (.respond none), .task 1 .fsOk, .task 1 .fsOk, .task 1 (.chunk [2] none),
        .task 0 .fsOk, .task 0 .fsOk, .task 0 .fsOk, .task 0 .fsOk]) := by
  decide

end UpdateDaemon

end Kodama
