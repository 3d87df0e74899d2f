import Kodama.Web.Fmp4

/-!
# Where media segments are cut

With the flags it is started with, FFmpeg writes a chain of boxes: `ftyp`, `moov`, and then
pairs of `moof` and `mdat`. A media segment is meant to be such pairs, but `mux_frame` returns
whatever has arrived, and the stdout thread reads without regard to boxes. So a segment is
made of whole boxes, a `moof` first, as long as what arrives between two calls ends where
a box ends, and begins where a pair begins (`wholeSegments_of_cutsWhole`).
-/

namespace Kodama

open Lib

namespace Fmp4World

open MuxerRun

variable {w : Fmp4World} {returned : List (Nat × MuxResult)} {rx : Nat} {result : MuxResult}
  {seg : Bytes}

/-- Where a media segment comes from: it is all that was taken, after the init segment had been
returned; or it is what follows the init segment, which has just been completed. -/
inductive Takes (results : List MuxResult) (before after seg : Bytes) : Prop
  | media (hinit : ∃ r ∈ results, r.initSegment.isSome) (hafter : after = before ++ seg)
  | init (boxes : List Box) (last : Box) (hfirst : EndsWithFirst moov boxes last)
    (hafter : after = Box.chain (boxes ++ [last]) ++ seg) (hbefore : findBoxEnd before moov = none)

/-- The process a media segment comes from, between two states. -/
def TakesFrom (w w' : Fmp4World) (returned : List (Nat × MuxResult)) (seg : Bytes) : Prop :=
  ∃ rx < w'.started, seg ≠ [] ∧
    Takes (resultsOf returned rx) (w.process rx).received (w'.process rx).received seg

theorem TakesFrom.of_received {w₁ w' : Fmp4World} (h : TakesFrom w₁ w' returned seg)
    (hreceived : ∀ k, (w₁.process k).received = (w.process k).received) :
    TakesFrom w w' returned seg := by
  obtain ⟨rx, hrx, hne, htakes⟩ := h
  rw [hreceived] at htakes
  exact ⟨rx, hrx, hne, htakes⟩

theorem readMedia_takes (h : w.Faithful returned) (hrx : w.muxer.ffmpeg = some rx)
    (hsent : w.muxer.initSent = true)
    (hseg : (w.readMedia rx result).2.mediaSegment = some seg) :
    seg ≠ [] ∧ Takes (resultsOf returned rx) (w.process rx).received
      ((w.readMedia rx result).1.process rx).received seg := by
  have hafter : ((w.readMedia rx result).1.process rx).received =
      (w.process rx).received ++ (w.process rx).queue.flatten := by
    have hdrain : ((w.modifyProcess rx Ffmpeg.drain).process rx).received =
        (w.process rx).received ++ (w.process rx).queue.flatten := by
      rw [modifyProcess_self]
      rfl
    show Ffmpeg.received ((if _ then _ else _ : Fmp4World).process rx) = _
    split <;> exact hdrain
  have hsome : (if (w.process rx).queue.flatten.isEmpty then none
      else some (w.process rx).queue.flatten) = some seg := hseg
  split at hsome
  · cases hsome
  · next hne =>
    obtain rfl := Option.some.inj hsome
    refine ⟨fun hnil => hne (List.isEmpty_iff.mpr hnil), .media ?_ hafter⟩
    exact ((h.running rx hrx).after hsent).2

theorem readInit_takes (h : w.Faithful returned) (hrx : w.muxer.ffmpeg = some rx)
    (hsent : w.muxer.initSent = false) (hresult : result.Silent)
    (hseg : (w.readInit rx result).2.mediaSegment = some seg) :
    seg ≠ [] ∧ Takes (resultsOf returned rx) (w.process rx).received
      ((w.readInit rx result).1.process rx).received seg := by
  obtain ⟨houtput, hbefore, -⟩ := h.running rx hrx
  obtain ⟨hsilent, hnone⟩ := hbefore hsent
  rw [output_of_silent hsilent, List.nil_append] at houtput
  rw [readInit] at hseg ⊢
  split at hseg
  · cases hresult.2.symm.trans hseg
  · next moovEnd hmoov =>
    rw [ite_isEmpty_findBoxEnd] at hmoov
    obtain ⟨boxes, last, hfirst, hpref, hlen⟩ := findBoxEnd_eq_some.mp hmoov
    simp only [] at hseg ⊢
    split at hseg
    · next hlt =>
      obtain rfl := Option.some.inj hseg
      refine ⟨fun hnil => ?_, .init boxes last hfirst ?_ (houtput ▸ hnone)⟩
      · have := List.drop_eq_nil_iff.mp hnil
        omega
      · rw [List.prefix_iff_eq_take.mp hpref, ← hlen, List.take_append_drop]
        show ((w.modifyProcess rx Ffmpeg.drain).process rx).received = _
        rw [modifyProcess_self, houtput]
        rfl
    · cases hseg

theorem readOutput_takes (h : w.Faithful returned) (hresult : result.Silent)
    {during : List Activity} (hseg : (w.readOutput during result).2.mediaSegment = some seg) :
    TakesFrom w (w.readOutput during result).1 returned seg := by
  have hstarted : (w.readOutput during result).1.started = w.started := readOutput_started during
  generalize hr : w.readOutput during result = r at hseg hstarted ⊢
  rw [readOutput] at hr
  split at hr
  · subst hr
    cases hresult.2.symm.trans hseg
  · next rx hrx =>
    have hpid : w.muxer.ffmpeg = some rx := h.stdoutRx.symm.trans hrx
    have hact := h.modifyProcess (h.lt_started hpid) fun p => Ffmpeg.foldl_act_received p during
    have hsame : ∀ k, ((w.modifyProcess rx fun p => during.foldl Ffmpeg.act p).process k).received =
        (w.process k).received :=
      modifyProcess_received fun p => Ffmpeg.foldl_act_received p during
    refine TakesFrom.of_received ⟨rx, hstarted ▸ h.lt_started hpid, ?_⟩ hsame
    simp only [] at hr
    split at hr <;> subst hr
    · next hsent => exact readMedia_takes hact hpid hsent hseg
    · next hsent => exact readInit_takes hact hpid (Bool.eq_false_iff.mpr hsent) hresult hseg

theorem feedAndRead_takes (h : w.Faithful returned) (hresult : result.Silent) {payload : Bytes}
    {env : MuxEnv} (hseg : (w.feedAndRead payload env result).2.mediaSegment = some seg) :
    TakesFrom w (w.feedAndRead payload env result).1 returned seg := by
  generalize hr : w.feedAndRead payload env result = r at hseg ⊢
  rw [feedAndRead] at hr
  split at hr
  · subst hr
    exact readOutput_takes h hresult hseg
  · next tx htx =>
    have hpid : w.muxer.ffmpeg = some tx := h.stdinTx.symm.trans htx
    split at hr <;> subst hr
    · have hsend := h.modifyProcess (h.lt_started hpid) fun p => p.send_received payload
      exact (readOutput_takes hsend hresult hseg).of_received
        (modifyProcess_received fun p => p.send_received payload)
    · cases hresult.2.symm.trans hseg

/-- Where the media segment of a call comes from. -/
theorem muxFrame_takes (h : w.Faithful returned) {payload : Bytes} {isKeyframe : Bool}
    {env : MuxEnv} (hseg : (w.muxFrame payload isKeyframe env).2.mediaSegment = some seg) :
    TakesFrom w (w.muxFrame payload isKeyframe env).1 returned seg := by
  have hgate := h.needsKeyframe false
  generalize hr : w.muxFrame payload isKeyframe env = r at hseg ⊢
  rw [muxFrame] at hr
  simp only [] at hr
  split at hr
  · subst hr
    cases hseg
  · split at hr
    · subst hr
      cases hseg
    · split at hr
      · subst hr
        exact (feedAndRead_takes hgate w.blank_silent hseg).of_received fun _ => rfl
      · next hnone =>
        have hidle : w.muxer.ffmpeg = none := by simpa using hnone
        split at hr <;> subst hr
        · cases hseg
        · refine (feedAndRead_takes (hgate.startFfmpeg hidle) w.blank_silent hseg).of_received ?_
          -- a process that has just been started has nothing, as its record before
          intro k
          show (Function.update w.process w.started {} k).received = _
          by_cases hk : k = w.started
          · rw [hk, Function.update_self, h.fresh w.started (Nat.le_refl _)]
          · rw [Function.update_of_ne hk]

end Fmp4World

/-! ## The output only grows -/

namespace Ffmpeg

theorem written_act (p : Ffmpeg) (a : Activity) : p.written <+: (p.act a).written := by
  cases a with
  | write bytes =>
    show _ <+: p.received ++ p.queue.flatten ++ (p.unread ++ bytes)
    rw [← List.append_assoc]
    exact List.prefix_append _ _
  | read n =>
    rw [act]
    split
    · exact List.prefix_rfl
    · show _ <+: p.received ++ (p.queue ++ [p.unread.take n]).flatten ++ p.unread.drop n
      rw [List.flatten_concat, ← List.append_assoc, List.append_assoc _ (p.unread.take n),
        List.take_append_drop]
      exact List.prefix_rfl
  | disconnect => exact List.prefix_rfl

theorem written_foldl_act (p : Ffmpeg) (as : List Activity) :
    p.written <+: (as.foldl act p).written := by
  induction as generalizing p with
  | nil => exact List.prefix_rfl
  | cons a as ih => exact (p.written_act a).trans (ih (p.act a))

theorem written_drain (p : Ffmpeg) : p.written <+: p.drain.written := by
  show _ <+: p.received ++ p.queue.flatten ++ [] ++ p.unread
  rw [List.append_nil]
  exact List.prefix_rfl

end Ffmpeg

namespace Fmp4World

/-- Processes are only added, and their outputs only get longer. -/
structure Grows (w w' : Fmp4World) : Prop where
  started : w.started ≤ w'.started
  written : ∀ pid, (w.process pid).written <+: (w'.process pid).written

variable {w w' w'' : Fmp4World} {returned : List (Nat × MuxResult)} {pid : Nat}

theorem Grows.refl (w : Fmp4World) : w.Grows w := ⟨Nat.le_refl _, fun _ => List.prefix_rfl⟩

theorem Grows.trans (h : w.Grows w') (h' : w'.Grows w'') : w.Grows w'' :=
  ⟨Nat.le_trans h.started h'.started, fun pid => (h.written pid).trans (h'.written pid)⟩

theorem modifyProcess_grows {f : Ffmpeg → Ffmpeg} (hf : ∀ p, p.written <+: (f p).written) :
    w.Grows (w.modifyProcess pid f) := by
  refine ⟨Nat.le_refl _, fun k => ?_⟩
  by_cases hk : k = pid
  · rw [hk, modifyProcess_self]
    exact hf _
  · rw [modifyProcess_of_ne f hk]

theorem startFfmpeg_grows (h : w.Faithful returned) : w.Grows w.startFfmpeg := by
  refine ⟨Nat.le_succ _, fun k => ?_⟩
  show _ <+: (Function.update w.process w.started {} k).written
  by_cases hk : k = w.started
  · rw [hk, Function.update_self, h.fresh w.started (Nat.le_refl _)]
  · rw [Function.update_of_ne hk]

theorem readOutput_grows (during : List Activity) (result : MuxResult) :
    w.Grows (w.readOutput during result).1 := by
  rw [readOutput]
  split
  · exact .refl w
  · next rx _ =>
    have hact : w.Grows (w.modifyProcess rx fun p => during.foldl Ffmpeg.act p) :=
      modifyProcess_grows fun p => p.written_foldl_act during
    have hdrain (v : Fmp4World) : v.Grows (v.modifyProcess rx Ffmpeg.drain) :=
      modifyProcess_grows Ffmpeg.written_drain
    have hboth := hact.trans (hdrain _)
    simp only []
    split
    · rw [readMedia]
      simp only []
      split <;> exact ⟨hboth.started, hboth.written⟩
    · rw [readInit]
      split <;> exact ⟨hboth.started, hboth.written⟩

theorem feedAndRead_grows (payload : Bytes) (env : MuxEnv) (result : MuxResult) :
    w.Grows (w.feedAndRead payload env result).1 := by
  rw [feedAndRead]
  split
  · exact readOutput_grows _ _
  · split
    · refine (modifyProcess_grows ?_).trans (readOutput_grows _ _)
      exact fun _ => List.prefix_rfl
    · exact ⟨Nat.le_refl _, fun _ => List.prefix_rfl⟩

theorem muxFrame_grows (h : w.Faithful returned) (payload : Bytes) (isKeyframe : Bool)
    (env : MuxEnv) : w.Grows (w.muxFrame payload isKeyframe env).1 := by
  have hgate : w.Grows { w with muxer := { w.muxer with needsKeyframe := false } } :=
    ⟨Nat.le_refl _, fun _ => List.prefix_rfl⟩
  rw [muxFrame]
  simp only []
  split
  · exact ⟨Nat.le_refl _, fun _ => List.prefix_rfl⟩
  · split
    · exact .refl w
    · split
      · exact hgate.trans (feedAndRead_grows _ _ _)
      · split
        · exact hgate
        · exact hgate.trans ((startFfmpeg_grows (h.needsKeyframe false)).trans
            (feedAndRead_grows _ _ _))

end Fmp4World

theorem MuxerRun.step_grows {s s' : MuxerRun} {e : MuxEvent} (h : s.Faithful)
    (hstep : s.step e = some s') : s.world.Grows s'.world := by
  cases e with
  | mux payload isKeyframe env =>
    obtain rfl := Option.some.inj hstep
    exact Fmp4World.muxFrame_grows h payload isKeyframe env
  | reset =>
    obtain rfl := Option.some.inj hstep
    exact ⟨Nat.le_refl _, fun _ => List.prefix_rfl⟩
  | act pid activity =>
    rw [MuxerRun.step] at hstep
    split at hstep
    · obtain rfl := Option.some.inj hstep
      exact Fmp4World.modifyProcess_grows fun p => p.written_act activity
    · cases hstep

/-! ## Fragmented output -/

def ftyp : Bytes := [0x66, 0x74, 0x79, 0x70]

def moof : Bytes := [0x6D, 0x6F, 0x6F, 0x66]

def mdat : Bytes := [0x6D, 0x64, 0x61, 0x74]

/-- A fragment: a `moof` box and its `mdat` box. -/
structure Fragment where
  moofBox : Box
  mdatBox : Box
  moof_type : moofBox.type = moof
  mdat_type : mdatBox.type = mdat

def Fragment.boxes (f : Fragment) : List Box := [f.moofBox, f.mdatBox]

/-- What FFmpeg writes: `ftyp`, `moov`, and then fragments. -/
structure FragmentedStream where
  ftypBox : Box
  moovBox : Box
  ftyp_type : ftypBox.type = ftyp
  moov_type : moovBox.type = moov
  fragments : List Fragment

namespace FragmentedStream

def header (stream : FragmentedStream) : Bytes := Box.chain [stream.ftypBox, stream.moovBox]

def boxes (stream : FragmentedStream) : List Box := stream.fragments.flatMap Fragment.boxes

def bytes (stream : FragmentedStream) : Bytes := stream.header ++ Box.chain stream.boxes

/-- Output up to here ends in the init segment, or with whole fragments. -/
def StartsPair (stream : FragmentedStream) (bytes : Bytes) : Prop :=
  bytes.length < stream.header.length ∨
    ∃ fragments, fragments <+: stream.fragments ∧
      bytes = stream.header ++ Box.chain (fragments.flatMap Fragment.boxes)

/-- Output up to here ends in the init segment, or with whole boxes. -/
def EndsBox (stream : FragmentedStream) (bytes : Bytes) : Prop :=
  bytes.length < stream.header.length ∨
    ∃ boxes, boxes <+: stream.boxes ∧ bytes = stream.header ++ Box.chain boxes

end FragmentedStream

/-- Complete boxes, a `moof` first. -/
def WholeBoxes (segment : Bytes) : Prop :=
  ∃ first rest, first.type = moof ∧ segment = Box.chain (first :: rest)

namespace FragmentedStream

variable {stream : FragmentedStream}

/-- A chain up to the first `moov` box at the start of the output is the init segment. -/
theorem header_eq {boxes : List Box} {last : Box} (hfirst : EndsWithFirst moov boxes last)
    (hpref : Box.chain (boxes ++ [last]) <+: stream.bytes) :
    Box.chain (boxes ++ [last]) = stream.header := by
  have hheader : stream.header <+: stream.bytes := List.prefix_append _ _
  have hstream : EndsWithFirst moov [stream.ftypBox] stream.moovBox := by
    refine ⟨fun box hbox => ?_, stream.moov_type⟩
    rw [List.mem_singleton.mp hbox, stream.ftyp_type]
    decide
  have hfind := findBoxEnd_eq_some.mpr ⟨boxes, last, hfirst, hpref, rfl⟩
  have hfind' := findBoxEnd_eq_some.mpr ⟨_, _, hstream, hheader, rfl⟩
  have hlen := Option.some.inj (hfind.symm.trans hfind')
  rw [List.prefix_iff_eq_take.mp hpref, hlen]
  exact (List.prefix_iff_eq_take.mp hheader).symm

/-- What lies between whole fragments and whole boxes is whole boxes, a `moof` first. -/
theorem wholeBoxes_between {fragments : List Fragment} {boxes : List Box} {seg : Bytes}
    (hfragments : fragments <+: stream.fragments) (hboxes : boxes <+: stream.boxes)
    (hne : seg ≠ []) (heq : Box.chain (fragments.flatMap Fragment.boxes) ++ seg = Box.chain boxes) :
    WholeBoxes seg := by
  obtain ⟨rest, hrest⟩ := hfragments
  have hpairs : stream.boxes =
      fragments.flatMap Fragment.boxes ++ rest.flatMap Fragment.boxes := by
    rw [FragmentedStream.boxes, ← hrest, List.flatMap_append]
  rcases List.prefix_or_prefix_of_prefix hboxes (hpairs ▸ List.prefix_append _ _) with
    ⟨mid, hmid⟩ | ⟨mid, rfl⟩
  · -- no more boxes than fragments: nothing would be between
    rw [← hmid, Box.chain_append, List.append_assoc] at heq
    have := List.append_right_eq_self.mp heq
    exact absurd (List.append_eq_nil_iff.mp this).2 hne
  · rw [Box.chain_append] at heq
    obtain rfl := List.append_cancel_left heq
    rw [hpairs, List.prefix_append_right_inj] at hboxes
    cases mid with
    | nil => exact absurd rfl hne
    | cons first mid =>
      cases rest with
      | nil => cases hboxes.length_le
      | cons f rest =>
        obtain ⟨rfl, -⟩ := List.cons_prefix_cons.mp hboxes
        exact ⟨f.moofBox, mid, f.moof_type, rfl⟩

end FragmentedStream

/-! ## Whole boxes -/

namespace MuxerRun

variable {streams : Nat → FragmentedStream} {s s' : MuxerRun}

/-- What every process has written so far is the beginning of a fragmented stream. -/
def Conforms (streams : Nat → FragmentedStream) (s : MuxerRun) : Prop :=
  ∀ pid < s.world.started, (s.world.process pid).written <+: (streams pid).bytes

/-- Every media segment returned is made of whole boxes, a `moof` first. -/
def WholeSegments (s : MuxerRun) : Prop :=
  ∀ e ∈ s.returned, ∀ seg, e.2.mediaSegment = some seg → WholeBoxes seg

/-- Where output is taken, it is taken from the start of a fragment up to the end of a box, or
one of these lies in the init segment. -/
def CutsWhole (streams : Nat → FragmentedStream) (s : MuxerRun) (_ : MuxEvent) (s' : MuxerRun) :
    Prop :=
  ∀ pid < s'.world.started,
    (s.world.process pid).received ≠ (s'.world.process pid).received →
      (streams pid).StartsPair (s.world.process pid).received ∧
        (streams pid).EndsBox (s'.world.process pid).received

theorem Conforms.of_step {e : MuxEvent} (h : s.Faithful) (hstep : s.step e = some s')
    (hs' : s'.Conforms streams) : s.Conforms streams := by
  have hgrows := step_grows h hstep
  exact fun pid hpid =>
    (hgrows.written pid).trans (hs' pid (Nat.lt_of_lt_of_le hpid hgrows.started))

/-- A segment cut so is whole. -/
theorem wholeBoxes_of_takes {seg : Bytes} (h : s.Faithful) {e : MuxEvent}
    (hconforms : s'.Conforms streams) (hcuts : CutsWhole streams s e s')
    (htakes : Fmp4World.TakesFrom s.world s'.world s.returned seg) : WholeBoxes seg := by
  obtain ⟨rx, hrx, hne, htakes⟩ := htakes
  have hafter := (s'.world.process rx).received_isPrefix.trans (hconforms rx hrx)
  cases htakes with
  | media hinit heq =>
    -- the init segment lies in what was taken before
    obtain ⟨r, hr, hsome⟩ := hinit
    obtain ⟨init, hinit⟩ := Option.isSome_iff_exists.mp hsome
    obtain ⟨hpref, boxes, last, hfirst, rfl⟩ := (h.split rx).init_eq r hr init hinit
    have hbefore : (s.world.process rx).received <+: (s'.world.process rx).received := by
      rw [heq]
      exact List.prefix_append _ _
    rw [FragmentedStream.header_eq hfirst (hpref.trans (hbefore.trans hafter))] at hpref
    have hchanged : (s.world.process rx).received ≠ (s'.world.process rx).received := by
      rw [heq]
      exact fun hsame => hne (List.self_eq_append_right.mp hsame)
    obtain ⟨hstarts, hends⟩ := hcuts rx hrx hchanged
    have hlong := Nat.not_lt_of_le hpref.length_le
    have hlong' := Nat.not_lt_of_le (hpref.trans hbefore).length_le
    obtain ⟨fragments, hfragments, hstart⟩ := hstarts.resolve_left hlong
    obtain ⟨boxes', hboxes', hend⟩ := hends.resolve_left hlong'
    refine FragmentedStream.wholeBoxes_between hfragments hboxes' hne ?_
    rw [heq, hstart, List.append_assoc] at hend
    exact List.append_cancel_left hend
  | init boxes last hfirst heq hnone =>
    have hpref : Box.chain (boxes ++ [last]) <+: (s'.world.process rx).received := by
      rw [heq]
      exact List.prefix_append _ _
    have hheader := FragmentedStream.header_eq hfirst (hpref.trans hafter)
    have hchanged : (s.world.process rx).received ≠ (s'.world.process rx).received := by
      intro hsame
      rw [hsame, findBoxEnd_eq_some.mpr ⟨boxes, last, hfirst, hpref, rfl⟩] at hnone
      cases hnone
    obtain ⟨-, hends⟩ := hcuts rx hrx hchanged
    rw [hheader] at hpref heq
    obtain ⟨boxes', hboxes', hend⟩ := hends.resolve_left (Nat.not_lt_of_le hpref.length_le)
    rw [heq] at hend
    exact FragmentedStream.wholeBoxes_between List.nil_prefix hboxes' hne
      (List.append_cancel_left hend)

theorem WholeSegments.step {e : MuxEvent} (h : s.Faithful) (hwhole : s.WholeSegments)
    (hcuts : CutsWhole streams s e s') (hconforms : s'.Conforms streams)
    (hstep : s.step e = some s') : s'.WholeSegments := by
  cases e with
  | mux payload isKeyframe env =>
    obtain rfl := Option.some.inj hstep
    intro e he seg hseg
    rcases List.mem_append.mp he with he | he
    · exact hwhole e he seg hseg
    · obtain rfl := List.mem_singleton.mp he
      exact wholeBoxes_of_takes h hconforms hcuts (Fmp4World.muxFrame_takes h hseg)
  | reset =>
    obtain rfl := Option.some.inj hstep
    exact hwhole
  | act pid activity =>
    rw [MuxerRun.step] at hstep
    split at hstep
    · obtain rfl := Option.some.inj hstep
      exact hwhole
    · cases hstep

/-- **Media segments are whole boxes where the output arrives in whole boxes**: in every run of
processes that write fragmented streams and whose output is only ever taken from the start of a
fragment up to the end of a box. -/
theorem wholeSegments_of_cutsWhole (streams : Nat → FragmentedStream) (events : List MuxEvent)
    (hcuts : Machine.EachStep step (CutsWhole streams) {} events) :
    Machine.Always step (fun s => s.Conforms streams → s.WholeSegments) {} events := by
  intro pre s hpre hrun hconforms
  have hfaithful := always_faithful pre
  have hconf : Machine.Always step (Conforms streams) {} pre :=
    Machine.always_of_final hfaithful (fun _ _ _ h hstep => Conforms.of_step h hstep) hrun hconforms
  have hwhole : Machine.Always step (fun s => s.Faithful ∧ s.WholeSegments) {} pre :=
    Machine.always_of_eachStep ⟨.init, fun _ he => absurd he List.not_mem_nil⟩
      (fun _ _ _ h hG hstep => ⟨h.1.step hstep, h.2.step h.1 hG.1 hG.2 hstep⟩)
      ((hcuts.restrict hpre).and hconf.eachStep)
  exact (hwhole.final hrun).2

/-- A stream of boxes without content, and one fragment. -/
def exampleStream : FragmentedStream where
  ftypBox := ⟨[0, 0, 0, 8] ++ ftyp, by decide, by decide⟩
  moovBox := ⟨[0, 0, 0, 8] ++ moov, by decide, by decide⟩
  ftyp_type := rfl
  moov_type := rfl
  fragments := [{
    moofBox := ⟨[0, 0, 0, 8] ++ moof, by decide, by decide⟩
    mdatBox := ⟨[0, 0, 0, 8] ++ mdat, by decide, by decide⟩
    moof_type := rfl
    mdat_type := rfl }]

/-- A call during which the process writes some bytes and the first `n` of them arrive. -/
def exampleCall (bytes : Bytes) (n : Nat) : MuxEvent :=
  .mux [0x65] true ⟨false, true, true, [.write bytes, .read n]⟩

/-- One call takes the init segment, and the next one the fragment. -/
def exampleCalls : List MuxEvent :=
  [exampleCall exampleStream.header 16, exampleCall (Box.chain exampleStream.boxes) 16]

theorem exampleCalls_cutsWhole :
    Machine.EachStep step (CutsWhole fun _ => exampleStream) {} exampleCalls := by
  have hfirst : (step {} (exampleCall exampleStream.header 16)).map (fun s =>
      (s.world.started, (s.world.process 0).received)) = some (1, exampleStream.header) := by
    decide +kernel
  have hsecond : (Machine.run step {} exampleCalls).map (fun s =>
      (s.world.started, (s.world.process 0).received)) = some (1, exampleStream.bytes) := by
    decide +kernel
  refine Machine.eachStep_cons.mpr fun s hs => ?_
  rw [hs] at hfirst
  obtain ⟨hstarted, hheader⟩ := Prod.mk.inj (Option.some.inj hfirst)
  refine ⟨fun pid hpid _ => ?_, Machine.eachStep_cons.mpr fun t ht => ⟨fun pid hpid _ => ?_,
    Machine.eachStep_nil⟩⟩
  · obtain rfl : pid = 0 := by omega
    refine ⟨.inl ?_, .inr ⟨[], List.nil_prefix, ?_⟩⟩
    · show 0 < exampleStream.header.length
      decide
    · rw [hheader]
      exact (List.append_nil _).symm
  · rw [exampleCalls, Machine.run_cons, hs, Option.bind_some, Machine.run_cons, ht] at hsecond
    obtain ⟨hstarted', hbytes⟩ := Prod.mk.inj (Option.some.inj hsecond)
    obtain rfl : pid = 0 := by omega
    refine ⟨.inr ⟨[], List.nil_prefix, ?_⟩, .inr ⟨_, List.prefix_rfl, hbytes⟩⟩
    rw [hheader]
    exact (List.append_nil _).symm

theorem wholeSegments_of_cutsWhole_twice : ∃ s,
    Machine.run step {} exampleCalls = some s ∧
      s.returned.map (fun e => e.2.mediaSegment) = [none, some (Box.chain exampleStream.boxes)] ∧
      s.WholeSegments := by
  have hrun : (Machine.run step {} exampleCalls).map (fun s => (s.world.started,
      (s.world.process 0).written, s.returned.map fun e => e.2.mediaSegment)) =
        some (1, exampleStream.bytes, [none, some (Box.chain exampleStream.boxes)]) := by
    decide +kernel
  obtain ⟨s, hs, hrun⟩ := Option.map_eq_some_iff.mp hrun
  obtain ⟨hstarted, hrun⟩ := Prod.mk.inj hrun
  obtain ⟨hwritten, hreturned⟩ := Prod.mk.inj hrun
  have hconforms : s.Conforms fun _ => exampleStream := by
    intro pid hpid
    obtain rfl : pid = 0 := by omega
    rw [hwritten]
  exact ⟨s, hs, hreturned,
    (wholeSegments_of_cutsWhole _ _ exampleCalls_cutsWhole).final hs hconforms⟩

/-- A chunk that ends inside a box becomes a segment: here, the length field of a `moof`. -/
theorem segment_cut : ¬ ∀ (streams : Nat → FragmentedStream) (events : List MuxEvent),
    Machine.Always step (fun s => s.Conforms streams → s.WholeSegments) {} events := by
  intro h
  have hrun : (Machine.run step {} [exampleCall exampleStream.header 16,
      exampleCall (Box.chain exampleStream.boxes) 4]).map (fun s => (s.world.started,
        (s.world.process 0).written, s.returned.map fun e => e.2.mediaSegment)) =
      some (1, exampleStream.bytes, [none, some [0, 0, 0, 8]]) := by
    decide +kernel
  obtain ⟨s, hwhole, hs⟩ := (h (fun _ => exampleStream) _).observed hrun
  obtain ⟨hstarted, hs⟩ := Prod.mk.inj hs
  obtain ⟨hwritten, hreturned⟩ := Prod.mk.inj hs
  have hconforms : s.Conforms fun _ => exampleStream := by
    intro pid hpid
    obtain rfl : pid = 0 := by omega
    rw [hwritten]
  obtain ⟨e, he, hseg⟩ := List.mem_map.mp
    (hreturned ▸ List.mem_cons_of_mem _ List.mem_cons_self :
      some [0, 0, 0, 8] ∈ s.returned.map fun e => e.2.mediaSegment)
  obtain ⟨first, rest, -, heq⟩ := hwhole hconforms e he _ hseg
  -- a box is longer than that
  have hlen := congrArg List.length heq
  rw [Box.chain_cons, List.length_append] at hlen
  have := first.header
  simp only [List.length_cons, List.length_nil] at hlen
  omega

end MuxerRun

end Kodama
