import Kodama.Web.Fmp4

/-!
# What FFmpeg is fed (crates/kodama/src/web/fmp4.rs)

A call of `mux_frame` sends its payload to the process that runs, or starts one if it has a
keyframe. Two guards keep other frames out: `needs_keyframe`, which is set whenever a process is
abandoned and cleared by the next keyframe, and the absence of a process, which is still there
where that keyframe could not start one.

As long as a process runs neither guard may hold a frame back, which is so because
`needs_keyframe` is set only while there is no process (`Fmp4World.Waits`). Where in the calls the
payloads of each process are from then follows for every run (`MuxerRun.fed_from_keyframe`).
-/

namespace Kodama

open Lib Lib.Machine

/-- The arguments of a call of `mux_frame`. -/
structure MuxCall where
  payload : Bytes
  isKeyframe : Bool
deriving DecidableEq

def MuxEvent.call : MuxEvent → Option MuxCall
  | .mux payload isKeyframe _ => some ⟨payload, isKeyframe⟩
  | .reset => none
  | .act _ _ => none

namespace Ffmpeg

@[simp] theorem act_stdin (p : Ffmpeg) (a : Activity) : (p.act a).stdin = p.stdin := by
  cases a with
  | write bytes => rfl
  | read n =>
    rw [act]
    split <;> rfl
  | disconnect => rfl

@[simp] theorem foldl_act_stdin (p : Ffmpeg) (as : List Activity) :
    (as.foldl act p).stdin = p.stdin := foldl_act act_stdin p as

@[simp] theorem drain_stdin (p : Ffmpeg) : p.drain.stdin = p.stdin := rfl

end Ffmpeg

namespace Fmp4World

variable {w w' : Fmp4World} {pid rx : Nat} {result : MuxResult}

/-- A keyframe is waited for only without a process. -/
def Waits (w : Fmp4World) : Prop := w.muxer.needsKeyframe = true → w.muxer.ffmpeg = none

theorem modifyProcess_stdin {f : Ffmpeg → Ffmpeg} (hf : ∀ p, (f p).stdin = p.stdin) (k : Nat) :
    ((w.modifyProcess pid f).process k).stdin = (w.process k).stdin := by
  by_cases hk : k = pid
  · rw [hk, modifyProcess_self, hf]
  · rw [modifyProcess_of_ne f hk]

/-- Nothing is sent or started, and at most the process is abandoned. -/
structure Unfed (w w' : Fmp4World) : Prop where
  started : w'.started = w.started
  stdin : ∀ k, (w'.process k).stdin = (w.process k).stdin
  muxer : w'.muxer.ffmpeg = none ∨
    w'.muxer.ffmpeg = w.muxer.ffmpeg ∧ w'.muxer.needsKeyframe = w.muxer.needsKeyframe

theorem Unfed.waits (h : w.Unfed w') (hwaits : w.Waits) : w'.Waits := by
  intro hneeds
  obtain hnone | ⟨hsame, hneeds'⟩ := h.muxer
  · exact hnone
  · exact hsame.trans (hwaits (hneeds'.symm.trans hneeds))

theorem reset_unfed (w : Fmp4World) : w.Unfed w.reset := ⟨rfl, fun _ => rfl, .inl rfl⟩

/-- Reading the output sends nothing. -/
theorem readOutput_unfed (during : List Activity) (result : MuxResult) :
    w.Unfed (w.readOutput during result).1 := by
  rw [readOutput]
  split
  · exact ⟨rfl, fun _ => rfl, .inr ⟨rfl, rfl⟩⟩
  · next rx _ =>
    have hacts (k : Nat) : ((w.modifyProcess rx fun p =>
        during.foldl Ffmpeg.act p).process k).stdin = (w.process k).stdin :=
      modifyProcess_stdin (fun p => p.foldl_act_stdin during) k
    have htaken (k : Nat) : (((w.modifyProcess rx fun p =>
        during.foldl Ffmpeg.act p).modifyProcess rx Ffmpeg.drain).process k).stdin =
          (w.process k).stdin :=
      (modifyProcess_stdin Ffmpeg.drain_stdin k).trans (hacts k)
    simp only []
    split
    · rw [readMedia]
      simp only []
      split
      · exact ⟨rfl, htaken, .inl rfl⟩
      · exact ⟨rfl, htaken, .inr ⟨rfl, rfl⟩⟩
    · rw [readInit]
      split
      · exact ⟨rfl, htaken, .inr ⟨rfl, rfl⟩⟩
      · exact ⟨rfl, htaken, .inr ⟨rfl, rfl⟩⟩

/-- What a call sends: nothing where there is no process afterwards, its payload to the process
that runs, or its payload, if it has a keyframe, to a new one. -/
inductive Feeds (w : Fmp4World) (call : MuxCall) (w' : Fmp4World) : Prop where
  | nothing (hstarted : w'.started = w.started) (hnone : w'.muxer.ffmpeg = none)
      (hstdin : ∀ k, (w'.process k).stdin = (w.process k).stdin)
  | running (pid : Nat) (hpid : w.muxer.ffmpeg = some pid) (hstarted : w'.started = w.started)
      (hpid' : ∀ k, w'.muxer.ffmpeg = some k → k = pid)
      (hfed : (w'.process pid).stdin = (w.process pid).stdin ++ [call.payload])
      (hstdin : ∀ k, k ≠ pid → (w'.process k).stdin = (w.process k).stdin)
  | starting (hkeyframe : call.isKeyframe = true) (hstarted : w'.started = w.started + 1)
      (hpid' : ∀ k, w'.muxer.ffmpeg = some k → k = w.started)
      (hfed : (w'.process w.started).stdin = [call.payload] ∨
        w'.muxer.ffmpeg = none ∧ (w'.process w.started).stdin = [])
      (hstdin : ∀ k, k ≠ w.started → (w'.process k).stdin = (w.process k).stdin)

theorem Unfed.eq_of_runs (h : w.Unfed w') (hpid : w.muxer.ffmpeg = some pid) (k : Nat)
    (hk : w'.muxer.ffmpeg = some k) : k = pid := by
  obtain hnone | ⟨hsame, -⟩ := h.muxer
  · cases hnone.symm.trans hk
  · exact Option.some.inj (hk.symm.trans (hsame.trans hpid))

/-- A muxer whose channel is that of the process sends it the payload, or abandons it. -/
theorem feedAndRead_cases (htx : w.muxer.stdinTx = some pid) (payload : Bytes) (env : MuxEnv)
    (result : MuxResult) :
    (w.feedAndRead payload env result).1 = w.reset ∨
    (w.modifyProcess pid fun p => p.send payload).Unfed (w.feedAndRead payload env result).1 := by
  rw [feedAndRead, htx]
  simp only []
  split
  · exact .inr (readOutput_unfed _ _)
  · exact .inl rfl

theorem feedAndRead_waits (hneeds : w.muxer.needsKeyframe = false) (payload : Bytes)
    (env : MuxEnv) (result : MuxResult) : (w.feedAndRead payload env result).1.Waits := by
  have hwaits : w.Waits := fun h => by rw [hneeds] at h; cases h
  rw [feedAndRead]
  split
  · exact (readOutput_unfed _ _).waits hwaits
  · next tx _ =>
    split
    · exact (readOutput_unfed _ _).waits (w := w.modifyProcess tx fun p => p.send payload) hwaits
    · exact w.reset_unfed.waits hwaits

/-- Where the running process is fed. -/
theorem feedAndRead_running (htx : w.muxer.stdinTx = some pid) (hpid : w.muxer.ffmpeg = some pid)
    (payload : Bytes) (isKeyframe : Bool) (env : MuxEnv) (result : MuxResult) :
    w.Feeds ⟨payload, isKeyframe⟩ (w.feedAndRead payload env result).1 := by
  obtain hreset | hunfed := w.feedAndRead_cases htx payload env result
  · rw [hreset]
    exact .nothing rfl rfl fun _ => rfl
  · refine .running pid hpid hunfed.started (hunfed.eq_of_runs hpid) ?_ fun k hk => ?_
    · rw [hunfed.stdin, modifyProcess_self]
      rfl
    · rw [hunfed.stdin, modifyProcess_of_ne _ hk]

/-- Where a new process is fed. -/
theorem feedAndRead_starting {payload : Bytes} {isKeyframe : Bool} (hkeyframe : isKeyframe = true)
    (env : MuxEnv) (result : MuxResult) :
    w.Feeds ⟨payload, isKeyframe⟩ (w.startFfmpeg.feedAndRead payload env result).1 := by
  have hnew : (w.startFfmpeg.process w.started).stdin = [] := by
    show (Function.update w.process w.started {} w.started).stdin = []
    rw [Function.update_self]
  have hother (k : Nat) (hk : k ≠ w.started) :
      (w.startFfmpeg.process k).stdin = (w.process k).stdin := by
    show (Function.update w.process w.started {} k).stdin = (w.process k).stdin
    rw [Function.update_of_ne hk]
  have htx : w.startFfmpeg.muxer.stdinTx = some w.started := rfl
  obtain hreset | hunfed := feedAndRead_cases htx payload env result
  · rw [hreset]
    exact .starting hkeyframe rfl (fun _ h => nomatch h) (.inr ⟨rfl, hnew⟩) hother
  · refine .starting hkeyframe hunfed.started (hunfed.eq_of_runs rfl) (.inl ?_) fun k hk => ?_
    · rw [hunfed.stdin, modifyProcess_self, Ffmpeg.send, hnew]
      rfl
    · rw [hunfed.stdin, modifyProcess_of_ne _ hk, hother k hk]

theorem muxFrame_waits (h : w.Waits) (payload : Bytes) (isKeyframe : Bool) (env : MuxEnv) :
    (w.muxFrame payload isKeyframe env).1.Waits := by
  rw [muxFrame]
  simp only []
  split
  · exact w.reset_unfed.waits h
  · split
    · exact h
    · split
      · exact feedAndRead_waits rfl payload env _
      · split
        · intro hneeds
          cases hneeds
        · exact feedAndRead_waits rfl payload env _

/-- Clearing `needs_keyframe` sends nothing. -/
theorem Feeds.of_needsKeyframe {n : Bool} {call : MuxCall}
    (h : Feeds { w with muxer := { w.muxer with needsKeyframe := n } } call w') :
    w.Feeds call w' := by
  cases h with
  | nothing hstarted hnone hstdin => exact .nothing hstarted hnone hstdin
  | running pid hpid hstarted hpid' hfed hstdin =>
    exact .running pid hpid hstarted hpid' hfed hstdin
  | starting hkeyframe hstarted hpid' hfed hstdin =>
    exact .starting hkeyframe hstarted hpid' hfed hstdin

/-- Neither guard holds a frame back while a process runs, and both let only keyframes through
while none does. -/
theorem muxFrame_feeds {returned : List (Nat × MuxResult)} (h : w.Faithful returned)
    (hwaits : w.Waits) (payload : Bytes) (isKeyframe : Bool) (env : MuxEnv) :
    w.Feeds ⟨payload, isKeyframe⟩ (w.muxFrame payload isKeyframe env).1 := by
  rw [muxFrame]
  simp only []
  split
  · exact .nothing rfl rfl fun _ => rfl
  · split
    · next hskip =>
      exact .nothing rfl (hwaits (Bool.and_eq_true_iff.mp hskip).1) fun _ => rfl
    · split
      · next hsome =>
        obtain ⟨pid, hpid⟩ := Option.isSome_iff_exists.mp hsome
        refine Feeds.of_needsKeyframe (n := false) ?_
        exact feedAndRead_running (w := { w with muxer := { w.muxer with needsKeyframe := false } })
          (h.stdinTx.trans hpid) hpid payload isKeyframe env _
      · next hnone =>
        split
        · refine .nothing rfl ?_ fun _ => rfl
          exact Option.not_isSome_iff_eq_none.mp hnone
        · next hstart =>
          have hkeyframe : isKeyframe = true := by
            cases isKeyframe with
            | false => exact absurd rfl hstart
            | true => rfl
          refine Feeds.of_needsKeyframe (n := false) ?_
          exact feedAndRead_starting hkeyframe env _

end Fmp4World

namespace MuxerRun

/-- The number of calls that returned before the process was started, which is the number of the
call that started it. -/
def callsBefore (returned : List (Nat × MuxResult)) (pid : Nat) : Nat :=
  returned.countP fun e => decide (e.1 ≤ pid)

/-- The payloads sent to a process are those of the call that started it and of the calls after
it; none is left out while the process runs. -/
structure FedInOrder (calls : List MuxCall) (s : MuxerRun) (pid : Nat) : Prop where
  consecutive : (s.world.process pid).stdin <+:
    (calls.drop (callsBefore s.returned pid)).map MuxCall.payload
  notSkipped : s.world.muxer.ffmpeg = some pid →
    (s.world.process pid).stdin =
      (calls.drop (callsBefore s.returned pid)).map MuxCall.payload

/-- And the first of them is that of a call with a keyframe. -/
structure FedFromKeyframe (calls : List MuxCall) (s : MuxerRun) (pid : Nat) : Prop
    extends FedInOrder calls s pid where
  first : ∀ payload, (s.world.process pid).stdin.head? = some payload →
    ∃ call, calls[callsBefore s.returned pid]? = some call ∧
      call.payload = payload ∧ call.isKeyframe = true

/-- All processes, and the guards. -/
structure Fed (calls : List MuxCall) (s : MuxerRun) : Prop where
  faithful : s.Faithful
  waits : s.world.Waits
  length : s.returned.length = calls.length
  inOrder : ∀ pid, FedInOrder calls s pid
  keyframe : ∀ pid, pid < s.world.started →
    ∃ call, calls[callsBefore s.returned pid]? = some call ∧ call.isKeyframe = true

variable {calls : List MuxCall} {s s' : MuxerRun} {returned : List (Nat × MuxResult)} {pid : Nat}

theorem callsBefore_le (returned : List (Nat × MuxResult)) (pid : Nat) :
    callsBefore returned pid ≤ returned.length := List.countP_le_length

/-- A call that returns after the process was started. -/
theorem callsBefore_snoc {t : Nat} (h : pid < t) (r : MuxResult) :
    callsBefore (returned ++ [(t, r)]) pid = callsBefore returned pid := by
  rw [callsBefore, List.countP_append, List.countP_singleton, if_neg (by simpa using h)]
  rfl

/-- All calls returned before a process that has not been started. -/
theorem callsBefore_of_tagged (h : ∀ e ∈ returned, e.1 ≤ pid) :
    callsBefore returned pid = returned.length :=
  List.countP_eq_length.mpr fun e he => decide_eq_true (h e he)

/-- A process that was sent the payloads of all calls since its start. -/
theorem FedInOrder.of_all (h : (s.world.process pid).stdin =
    (calls.drop (callsBefore s.returned pid)).map MuxCall.payload) : FedInOrder calls s pid :=
  ⟨h ▸ List.prefix_refl _, fun _ => h⟩

section Call

variable {w' : Fmp4World} {call : MuxCall} (r : MuxResult)

theorem drop_snoc (h : s.returned.length = calls.length) (call : MuxCall) :
    (calls ++ [call]).drop (callsBefore s.returned pid) =
      calls.drop (callsBefore s.returned pid) ++ [call] :=
  List.drop_append_of_le_length (h ▸ callsBefore_le s.returned pid)

/-- A process that does not run, and is not sent the payload. -/
theorem FedInOrder.keep (h : FedInOrder calls s pid) (hfaithful : s.Faithful)
    (hlength : s.returned.length = calls.length) (hstarted : s.world.started ≤ w'.started)
    (hstdin : (w'.process pid).stdin = (s.world.process pid).stdin)
    (hnot : w'.muxer.ffmpeg ≠ some pid) :
    FedInOrder (calls ++ [call]) ⟨w', s.returned ++ [(w'.started, r)]⟩ pid where
  consecutive := by
    show (w'.process pid).stdin <+: _
    by_cases hpid : pid < s.world.started
    · rw [callsBefore_snoc (by omega), drop_snoc hlength, List.map_append, hstdin]
      exact h.consecutive.trans (List.prefix_append _ _)
    · rw [hstdin, hfaithful.fresh pid (Nat.le_of_not_lt hpid)]
      exact List.nil_prefix
  notSkipped := fun hpid => absurd hpid hnot

/-- The process that runs. -/
theorem FedInOrder.send (h : FedInOrder calls s pid) (hlength : s.returned.length = calls.length)
    (hpid : pid < w'.started) (hruns : s.world.muxer.ffmpeg = some pid)
    (hfed : (w'.process pid).stdin = (s.world.process pid).stdin ++ [call.payload]) :
    FedInOrder (calls ++ [call]) ⟨w', s.returned ++ [(w'.started, r)]⟩ pid := by
  refine .of_all ?_
  show (w'.process pid).stdin = _
  rw [callsBefore_snoc hpid, drop_snoc hlength, hfed, h.notSkipped hruns, List.map_append]
  rfl

/-- A process that the call starts. -/
theorem FedInOrder.starting (h : s.Faithful) (hlength : s.returned.length = calls.length)
    (hstarted : w'.started = s.world.started + 1)
    (hfed : (w'.process s.world.started).stdin = [call.payload] ∨
      w'.muxer.ffmpeg = none ∧ (w'.process s.world.started).stdin = []) :
    FedInOrder (calls ++ [call]) ⟨w', s.returned ++ [(w'.started, r)]⟩ s.world.started := by
  have hbefore : callsBefore (s.returned ++ [(w'.started, r)]) s.world.started = calls.length := by
    rw [callsBefore_snoc (by omega), callsBefore_of_tagged h.tagged, hlength]
  obtain hsent | ⟨hnone, hnil⟩ := hfed
  · refine .of_all ?_
    show (w'.process s.world.started).stdin = _
    rw [hbefore, List.drop_left, hsent]
    rfl
  · exact ⟨hnil ▸ List.nil_prefix, fun hpid => nomatch hnone.symm.trans hpid⟩

theorem Fed.inOrder_call (h : Fed calls s) (hfeeds : s.world.Feeds call w')
    (pid : Nat) : FedInOrder (calls ++ [call]) ⟨w', s.returned ++ [(w'.started, r)]⟩ pid := by
  cases hfeeds with
  | nothing hstarted hnone hstdin =>
    refine (h.inOrder pid).keep r h.faithful h.length hstarted.ge (hstdin pid) ?_
    rw [hnone]
    simp
  | running running hruns hstarted hruns' hfed hstdin =>
    by_cases hpid : pid = running
    · subst hpid
      have hlt := h.faithful.lt_started hruns
      exact (h.inOrder pid).send r h.length (hstarted ▸ hlt) hruns hfed
    · exact (h.inOrder pid).keep r h.faithful h.length hstarted.ge (hstdin pid hpid)
        fun hpid' => hpid (hruns' pid hpid')
  | starting hkeyframe hstarted hruns' hfed hstdin =>
    by_cases hpid : pid = s.world.started
    · subst hpid
      exact .starting r h.faithful h.length hstarted hfed
    · exact (h.inOrder pid).keep r h.faithful h.length (by omega) (hstdin pid hpid)
        fun hpid' => hpid (hruns' pid hpid')

theorem Fed.keyframe_call (h : Fed calls s) (hfeeds : s.world.Feeds call w') (pid : Nat)
    (hpid : pid < w'.started) :
    ∃ started, (calls ++ [call])[callsBefore (s.returned ++ [(w'.started, r)]) pid]? =
      some started ∧ started.isKeyframe = true := by
  rw [callsBefore_snoc hpid]
  have hold (hpid : pid < s.world.started) : ∃ started,
      (calls ++ [call])[callsBefore s.returned pid]? = some started ∧
        started.isKeyframe = true := by
    obtain ⟨started, hstarted, hkeyframe⟩ := h.keyframe pid hpid
    exact ⟨started, List.getElem?_append_left (List.getElem?_eq_some_iff.mp hstarted).1 ▸ hstarted,
      hkeyframe⟩
  cases hfeeds with
  | nothing hstarted => exact hold (hstarted ▸ hpid)
  | running running hruns hstarted => exact hold (hstarted ▸ hpid)
  | starting hkeyframe hstarted =>
    by_cases hnew : pid = s.world.started
    · rw [hnew, callsBefore_of_tagged h.faithful.tagged, h.length]
      exact ⟨call, List.getElem?_concat_length, hkeyframe⟩
    · exact hold (by omega)

end Call

theorem Fed.init : Fed [] {} where
  faithful := Faithful.init
  waits := fun h => nomatch h
  length := rfl
  inOrder _ := ⟨List.nil_prefix, fun h => nomatch h⟩
  keyframe _ h := absurd h (Nat.not_lt_zero _)

theorem Fed.step {event : MuxEvent} (h : Fed calls s) (hstep : s.step event = some s') :
    Fed (calls ++ event.call.toList) s' := by
  have hfaithful := h.faithful.step hstep
  cases event with
  | mux payload isKeyframe env =>
    obtain rfl := Option.some.inj hstep
    have hfeeds := Fmp4World.muxFrame_feeds h.faithful h.waits payload isKeyframe env
    refine ⟨hfaithful, Fmp4World.muxFrame_waits h.waits payload isKeyframe env, ?_,
      h.inOrder_call _ hfeeds, h.keyframe_call _ hfeeds⟩
    rw [List.length_append, List.length_append, h.length]
    rfl
  | reset =>
    obtain rfl := Option.some.inj hstep
    rw [MuxEvent.call, Option.toList_none, List.append_nil]
    exact ⟨hfaithful, fun _ => rfl, h.length,
      fun pid => ⟨(h.inOrder pid).consecutive, fun hpid => nomatch hpid⟩, h.keyframe⟩
  | act pid activity =>
    rw [MuxerRun.step] at hstep
    split at hstep
    · obtain rfl := Option.some.inj hstep
      rw [MuxEvent.call, Option.toList_none, List.append_nil]
      have hstdin (k : Nat) :
          ((s.world.modifyProcess pid fun p => p.act activity).process k).stdin =
            (s.world.process k).stdin :=
        Fmp4World.modifyProcess_stdin (fun p => p.act_stdin activity) k
      refine ⟨hfaithful, h.waits, h.length, fun k => ⟨?_, fun hk => ?_⟩, h.keyframe⟩
      · exact (hstdin k).symm ▸ (h.inOrder k).consecutive
      · exact (hstdin k).trans ((h.inOrder k).notSkipped hk)
    · cases hstep

theorem fed_run (events : List MuxEvent) (hrun : run step {} events = some s) :
    Fed (events.filterMap MuxEvent.call) s := by
  induction events using List.reverseRecOn generalizing s with
  | nil =>
    obtain rfl := Option.some.inj hrun
    exact .init
  | append_singleton events event ih =>
    obtain ⟨t, ht, hstep⟩ := run_concat_eq_some.mp hrun
    rw [List.filterMap_append]
    exact (ih ht).step hstep

/-- The first payload of a process is that of the call that started it. -/
theorem Fed.fromKeyframe (h : Fed calls s) (pid : Nat) : FedFromKeyframe calls s pid where
  toFedInOrder := h.inOrder pid
  first payload hfirst := by
    have hpid : pid < s.world.started := by
      by_contra hfresh
      rw [h.faithful.fresh pid (Nat.le_of_not_lt hfresh)] at hfirst
      cases hfirst
    obtain ⟨call, hcall, hkeyframe⟩ := h.keyframe pid hpid
    refine ⟨call, hcall, ?_, hkeyframe⟩
    have hhead : ((calls.drop (callsBefore s.returned pid)).map MuxCall.payload).head? =
        some payload := by
      obtain ⟨rest, hrest⟩ := (h.inOrder pid).consecutive
      rw [← hrest, List.head?_append, hfirst]
      rfl
    rw [List.head?_map, List.head?_drop, hcall] at hhead
    exact Option.some.inj hhead

/-- **FFmpeg starts on a keyframe.** In every state that calls, resets and whatever happens to
the processes lead to, the first payload of every process is that of a call with a keyframe, and
its payloads are those of consecutive calls, up to the last one while it runs. -/
theorem fed_from_keyframe (events : List MuxEvent) (s : MuxerRun)
    (hrun : run step {} events = some s) (pid : Nat) :
    FedFromKeyframe (events.filterMap MuxEvent.call) s pid :=
  (fed_run events hrun).fromKeyframe pid

/-- A call whose process neither exits nor closes its input. -/
def exampleMux (byte : UInt8) (isKeyframe : Bool) : MuxEvent :=
  .mux [byte] isKeyframe { exited := false, spawns := true, listens := true, during := [] }

/-- A frame before the first keyframe, a process that is fed two frames and exits, a keyframe that
finds this out, and another that starts the next process. -/
def exampleRestart : List MuxEvent :=
  [exampleMux 0x41 false, exampleMux 0x65 true, exampleMux 0x42 false,
    .mux [0x66] true { exited := true, spawns := true, listens := true, during := [] },
    exampleMux 0x43 false, exampleMux 0x67 true]

theorem fed_from_keyframe_restart : ∃ s, run step {} exampleRestart = some s ∧
    (s.world.process 0).stdin = [[0x65], [0x42]] ∧ (s.world.process 1).stdin = [[0x67]] ∧
    FedFromKeyframe (exampleRestart.filterMap MuxEvent.call) s 0 := by
  obtain ⟨s, hs⟩ : ∃ s, run step {} exampleRestart = some s := ⟨_, rfl⟩
  have hstdin : (run step {} exampleRestart).map (fun s =>
      ((s.world.process 0).stdin, (s.world.process 1).stdin)) =
      some ([[0x65], [0x42]], [[0x67]]) := by decide
  rw [hs] at hstdin
  obtain ⟨hfirst, hsecond⟩ := Prod.mk.inj (Option.some.inj hstdin)
  exact ⟨s, hs, hfirst, hsecond, fed_from_keyframe exampleRestart s hs 0⟩

end MuxerRun

end Kodama
