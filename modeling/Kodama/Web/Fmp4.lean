import Kodama.Lib.Boxes
import Kodama.Lib.Machine
import Kodama.Lib.Positions
import Mathlib.Logic.Function.Basic

/-!
# The fMP4 muxer (crates/kodama/src/web/fmp4.rs)

`Fmp4Muxer` hands the frames of a source to an FFmpeg process and gives out what that writes:
first the init segment, which is everything up to the end of the `moov` box, then media
segments. A thread reads the process's output in chunks and puts them into a channel; a call
of `mux_frame` takes what is there by then. A process that has ended, or whose pipes are
closed, is abandoned, and the next keyframe starts another.

The output of a process is at four places: taken by the muxer, in the channel, in the pipe,
or not written yet. `Ffmpeg` keeps the first three, so what it has written is their
concatenation. The run lemma is `MuxerRun.faithful`: whatever the order of calls, resets and
arrivals, the segments a process's output was split into are a prefix of that output
(`SplitWithoutLoss`).
-/

namespace Kodama

open Lib

/-! ## The end of a box -/

/-- The loop of `find_box_end`, from a position on. -/
def findBoxEndFrom (data boxType : Bytes) (pos : Nat) : Option Nat :=
  if pos + 8 ≤ data.length then
    let size := ofBe ((data.drop pos).take 4)
    if _ : size < 8 ∨ pos + size > data.length then none
    else if (data.drop (pos + 4)).take 4 = boxType then some (pos + size)
    else findBoxEndFrom data boxType (pos + size)
  else none
termination_by data.length - pos
decreasing_by omega

/-- Find the end offset of a box in MP4 data. -/
def findBoxEnd (data boxType : Bytes) : Option Nat := findBoxEndFrom data boxType 0

/-- A chain of boxes whose last one is the first of its type. -/
structure EndsWithFirst (boxType : Bytes) (boxes : List Box) (last : Box) : Prop where
  before : ∀ box ∈ boxes, box.type ≠ boxType
  last : last.type = boxType

/-- One step of the loop, at a box. -/
theorem findBoxEndFrom_box {data boxType : Bytes} {pos : Nat} {box : Box}
    (h : box.bytes <+: data.drop pos) :
    findBoxEndFrom data boxType pos =
      if box.type = boxType then some (pos + box.bytes.length)
      else findBoxEndFrom data boxType (pos + box.bytes.length) := by
  have hheader := box.header
  have hlen := h.length_le
  rw [List.length_drop] at hlen
  have htype := Box.type_of_prefix h
  rw [List.drop_drop] at htype
  rw [findBoxEndFrom, if_pos (by omega)]
  simp only [Box.size_of_prefix h, htype]
  rw [dif_neg (by omega)]

/-- Where the loop goes on there is a box. -/
theorem box_at {data : Bytes} {pos : Nat}
    (h : ¬(ofBe ((data.drop pos).take 4) < 8 ∨ pos + ofBe ((data.drop pos).take 4) > data.length)) :
    ∃ box : Box, box.bytes <+: data.drop pos ∧
      box.bytes.length = ofBe ((data.drop pos).take 4) := by
  refine Box.exists_of_size (by omega) ?_
  rw [List.length_drop]
  omega

/-- The search parses a chain of boxes, up to the first of the type. -/
theorem findBoxEndFrom_eq_some {data boxType : Bytes} {pos e : Nat} :
    findBoxEndFrom data boxType pos = some e ↔
      ∃ boxes last, EndsWithFirst boxType boxes last ∧
        Box.chain (boxes ++ [last]) <+: data.drop pos ∧
        e = pos + (Box.chain (boxes ++ [last])).length := by
  constructor
  · fun_induction findBoxEndFrom data boxType pos with
    | case1 => simp
    | case2 pos _ size hsize htype =>
      intro h
      obtain ⟨box, hbox, (hlen : _ = size)⟩ := box_at hsize
      refine ⟨[], box, ⟨by simp, ?_⟩, ?_, ?_⟩
      · rw [← Box.type_of_prefix hbox, List.drop_drop, htype]
      · rwa [List.nil_append, Box.chain_cons, Box.chain_nil, List.append_nil]
      · rw [List.nil_append, Box.chain_cons, Box.chain_nil, List.append_nil, hlen]
        exact (Option.some.inj h).symm
    | case3 pos _ size hsize htype ih =>
      intro h
      obtain ⟨box, hbox, (hlen : _ = size)⟩ := box_at hsize
      obtain ⟨boxes, last, hfirst, hpref, rfl⟩ := ih h
      refine ⟨box :: boxes, last, ⟨?_, hfirst.last⟩, ?_, ?_⟩
      · rintro b (_ | ⟨_, hb⟩)
        · rw [← Box.type_of_prefix hbox, List.drop_drop]
          exact htype
        · exact hfirst.before b hb
      · obtain ⟨rest, hrest⟩ := hbox
        rw [← hlen, ← List.drop_drop, ← hrest, List.drop_left] at hpref
        rwa [List.cons_append, Box.chain_cons, ← hrest, List.prefix_append_right_inj]
      · rw [List.cons_append, Box.chain_cons, List.length_append, hlen, Nat.add_assoc]
    | case4 => simp
  · rintro ⟨boxes, last, hfirst, hpref, rfl⟩
    induction boxes generalizing pos with
    | nil =>
      rw [List.nil_append, Box.chain_cons, Box.chain_nil, List.append_nil] at hpref ⊢
      rw [findBoxEndFrom_box hpref, if_pos hfirst.last]
    | cons box boxes ih =>
      rw [List.cons_append, Box.chain_cons] at hpref ⊢
      have hbox := (List.prefix_append _ _).trans hpref
      have hrest : Box.chain (boxes ++ [last]) <+: data.drop (pos + box.bytes.length) := by
        obtain ⟨rest, hrest⟩ := hpref
        rw [← List.drop_drop, ← hrest, List.append_assoc, List.drop_left]
        exact List.prefix_append _ _
      rw [findBoxEndFrom_box hbox, if_neg (hfirst.before box List.mem_cons_self),
        ih ⟨fun b hb => hfirst.before b (List.mem_cons_of_mem _ hb), hfirst.last⟩ hrest,
        List.length_append, Nat.add_assoc]

theorem findBoxEnd_eq_some {data boxType : Bytes} {e : Nat} :
    findBoxEnd data boxType = some e ↔
      ∃ boxes last, EndsWithFirst boxType boxes last ∧ Box.chain (boxes ++ [last]) <+: data ∧
        e = (Box.chain (boxes ++ [last])).length := by
  rw [findBoxEnd, findBoxEndFrom_eq_some]
  simp only [List.drop_zero, Nat.zero_add]

theorem findBoxEnd_nil (boxType : Bytes) : findBoxEnd [] boxType = none := by
  rw [findBoxEnd, findBoxEndFrom]
  exact if_neg (by decide)

/-- There is no need to search nothing. -/
theorem ite_isEmpty_findBoxEnd (data boxType : Bytes) :
    (if data.isEmpty then none else findBoxEnd data boxType) = findBoxEnd data boxType := by
  split
  · next hempty => rw [List.isEmpty_iff.mp hempty, findBoxEnd_nil]
  · rfl

/-- Four-character types. -/
def moov : Bytes := [0x6D, 0x6F, 0x6F, 0x76]

/-! ## FFmpeg processes -/

/-- An FFmpeg process: the payloads sent to its standard input, and where its output is. -/
structure Ffmpeg where
  stdin : List Bytes := []
  /-- taken from the channel by the muxer -/
  received : Bytes := []
  /-- in the channel -/
  queue : List Bytes := []
  /-- written, but not read by the stdout thread -/
  unread : Bytes := []
  /-- the stdout thread has ended -/
  disconnected : Bool := false
deriving DecidableEq

/-- What the process and its stdout thread do: write, read up to `n` bytes and send them, end. -/
inductive Activity where
  | write (bytes : Bytes)
  | read (n : Nat)
  | disconnect

namespace Ffmpeg

/-- Everything the process has written to its standard output. -/
def written (p : Ffmpeg) : Bytes := p.received ++ p.queue.flatten ++ p.unread

def act (p : Ffmpeg) : Activity → Ffmpeg
  | .write bytes => { p with unread := p.unread ++ bytes }
  | .read n =>
    if p.disconnected || (p.unread.take n).isEmpty then p
    else { p with queue := p.queue ++ [p.unread.take n], unread := p.unread.drop n }
  | .disconnect => { p with disconnected := true }

/-- A payload is handed to the stdin thread. -/
def send (p : Ffmpeg) (payload : Bytes) : Ffmpeg := { p with stdin := p.stdin ++ [payload] }

/-- The channel after `try_recv` has been called until nothing is left. -/
def drain (p : Ffmpeg) : Ffmpeg :=
  { p with received := p.received ++ p.queue.flatten, queue := [] }

end Ffmpeg

/-! ## The muxer -/

/-- Result of muxing a frame. -/
structure MuxResult where
  initSegment : Option Bytes
  codec : Option String
  width : Option UInt32
  height : Option UInt32
  mediaSegment : Option Bytes
deriving DecidableEq

/-- FFmpeg-based fMP4 muxer. The process and its two channels are named by the number of the
process. -/
structure Fmp4Muxer where
  width : UInt32 := 1280
  height : UInt32 := 720
  ffmpeg : Option Nat := none
  stdinTx : Option Nat := none
  stdoutRx : Option Nat := none
  initSent : Bool := false
  needsKeyframe : Bool := false
  pendingInit : Bytes := []
deriving DecidableEq

/-- The muxer of a source and the processes it has started. -/
structure Fmp4World where
  muxer : Fmp4Muxer := {}
  started : Nat := 0
  process : Nat → Ffmpeg := fun _ => {}

/-- What a call of `mux_frame` meets: whether the process has exited, whether a new one can be
started, whether its stdin thread still listens, and what happens on its output before the
call has read it. -/
structure MuxEnv where
  exited : Bool
  spawns : Bool
  listens : Bool
  during : List Activity

namespace Fmp4World

/-- Change one process. -/
def modifyProcess (w : Fmp4World) (pid : Nat) (f : Ffmpeg → Ffmpeg) : Fmp4World :=
  { w with process := Function.update w.process pid (f (w.process pid)) }

/-- `start_ffmpeg`, when it succeeds. -/
def startFfmpeg (w : Fmp4World) : Fmp4World where
  muxer := { w.muxer with
    ffmpeg := some w.started, stdinTx := some w.started, stdoutRx := some w.started }
  started := w.started + 1
  process := Function.update w.process w.started {}

/-- The assignments of `reset`, which are also those made when the process has exited. -/
def reset (w : Fmp4World) : Fmp4World :=
  { w with muxer := { w.muxer with
      ffmpeg := none, stdinTx := none, stdoutRx := none
      initSent := false, needsKeyframe := true, pendingInit := [] } }

/-- The result a call starts from. -/
def blank (w : Fmp4World) : MuxResult where
  initSegment := none
  codec := some "avc1.640028"
  width := some w.muxer.width
  height := some w.muxer.height
  mediaSegment := none

/-- Read all available output, before the init segment has been sent. -/
def readInit (w : Fmp4World) (rx : Nat) (result : MuxResult) : Fmp4World × MuxResult :=
  let pendingInit := w.muxer.pendingInit ++ (w.process rx).queue.flatten
  let w := w.modifyProcess rx Ffmpeg.drain
  match if pendingInit.isEmpty then none else findBoxEnd pendingInit moov with
  | none => ({ w with muxer := { w.muxer with pendingInit } }, result)
  | some moovEnd =>
    ({ w with muxer := { w.muxer with initSent := true, pendingInit := [] } },
      { result with
        initSegment := some (pendingInit.take moovEnd)
        mediaSegment :=
          if moovEnd < pendingInit.length then some (pendingInit.drop moovEnd) else none })

/-- Read all available output, after that. -/
def readMedia (w : Fmp4World) (rx : Nat) (result : MuxResult) : Fmp4World × MuxResult :=
  let combined := (w.process rx).queue.flatten
  let w := w.modifyProcess rx Ffmpeg.drain
  (if (w.process rx).disconnected then w.reset else w,
    { result with mediaSegment := if combined.isEmpty then none else some combined })

/-- Read all available fMP4 output, with what still arrives while doing so. -/
def readOutput (w : Fmp4World) (during : List Activity) (result : MuxResult) :
    Fmp4World × MuxResult :=
  match w.muxer.stdoutRx with
  | none => (w, result)
  | some rx =>
    let w := w.modifyProcess rx fun p => during.foldl Ffmpeg.act p
    if w.muxer.initSent then w.readMedia rx result else w.readInit rx result

/-- Send the payload to FFmpeg and read its output. -/
def feedAndRead (w : Fmp4World) (payload : Bytes) (env : MuxEnv) (result : MuxResult) :
    Fmp4World × MuxResult :=
  match w.muxer.stdinTx with
  | none => w.readOutput env.during result
  | some tx =>
    if env.listens then
      (w.modifyProcess tx fun p => p.send payload).readOutput env.during result
    else (w.reset, result)

def muxFrame (w : Fmp4World) (payload : Bytes) (isKeyframe : Bool) (env : MuxEnv) :
    Fmp4World × MuxResult :=
  let result := w.blank
  if w.muxer.ffmpeg.isSome && env.exited then (w.reset, result)
  else if w.muxer.needsKeyframe && !isKeyframe then (w, result)
  else
    let w := { w with muxer := { w.muxer with needsKeyframe := false } }
    if w.muxer.ffmpeg.isSome then w.feedAndRead payload env result
    else if !isKeyframe || !env.spawns then (w, result)
    else w.startFfmpeg.feedAndRead payload env result

end Fmp4World

/-! ## Runs -/

/-- A call, a reset, or something happening at a process that has been started. -/
inductive MuxEvent where
  | mux (payload : Bytes) (isKeyframe : Bool) (env : MuxEnv)
  | reset
  | act (pid : Nat) (activity : Activity)

/-- A muxer's world and the results of its calls, each with the number of processes started
by then. -/
structure MuxerRun where
  world : Fmp4World := {}
  returned : List (Nat × MuxResult) := []

namespace MuxerRun

def step (s : MuxerRun) : MuxEvent → Option MuxerRun
  | .mux payload isKeyframe env =>
    let r := s.world.muxFrame payload isKeyframe env
    some ⟨r.1, s.returned ++ [(r.1.started, r.2)]⟩
  | .reset => some { s with world := s.world.reset }
  | .act pid activity =>
    if pid < s.world.started then
      some { s with world := s.world.modifyProcess pid fun p => p.act activity }
    else none

/-- What was returned while a process was the one started last. -/
def resultsOf (returned : List (Nat × MuxResult)) (pid : Nat) : List MuxResult :=
  (returned.filter fun e => e.1 = pid + 1).map Prod.snd

end MuxerRun

namespace MuxResult

/-- The bytes of a result. -/
def output (r : MuxResult) : Bytes := r.initSegment.getD [] ++ r.mediaSegment.getD []

/-- Nothing was read. -/
def Silent (r : MuxResult) : Prop := r.initSegment = none ∧ r.mediaSegment = none

end MuxResult

/-- What a process has written, and the results it was split into. -/
structure SplitWithoutLoss (written : Bytes) (results : List MuxResult) : Prop where
  isPrefix : results.flatMap MuxResult.output <+: written
  init_once : (results.filterMap MuxResult.initSegment).length ≤ 1
  media_after_init : ∀ before r after, results = before ++ r :: after → r.mediaSegment.isSome →
    ∃ r' ∈ before ++ [r], r'.initSegment.isSome
  init_eq : ∀ r ∈ results, ∀ init, r.initSegment = some init → init <+: written ∧
    ∃ boxes last, EndsWithFirst moov boxes last ∧ init = Box.chain (boxes ++ [last])

/-- How far the muxer is with the output of its process: before the init segment everything
taken is pending, and is not a whole init segment; after it everything has been returned. -/
structure Progress (m : Fmp4Muxer) (received : Bytes) (results : List MuxResult) : Prop where
  output : results.flatMap MuxResult.output ++ m.pendingInit = received
  before : m.initSent = false →
    (∀ r ∈ results, r.Silent) ∧ findBoxEnd m.pendingInit moov = none
  after : m.initSent = true → m.pendingInit = [] ∧ ∃ r ∈ results, r.initSegment.isSome

/-- The channels belong to the process, which is the one started last; without a process the
muxer is as at its start. What is returned splits what has been taken, of every process. -/
structure Fmp4World.Faithful (w : Fmp4World) (returned : List (Nat × MuxResult)) : Prop where
  stdinTx : w.muxer.stdinTx = w.muxer.ffmpeg
  stdoutRx : w.muxer.stdoutRx = w.muxer.ffmpeg
  current : ∀ pid, w.muxer.ffmpeg = some pid → pid + 1 = w.started
  idle : w.muxer.ffmpeg = none → w.muxer.initSent = false ∧ w.muxer.pendingInit = []
  fresh : ∀ pid, w.started ≤ pid → w.process pid = {}
  tagged : ∀ e ∈ returned, e.1 ≤ w.started
  sorted : returned.Pairwise fun e e' => e.1 ≤ e'.1
  running : ∀ pid, w.muxer.ffmpeg = some pid →
    Progress w.muxer (w.process pid).received (MuxerRun.resultsOf returned pid)
  split : ∀ pid, SplitWithoutLoss (w.process pid).received (MuxerRun.resultsOf returned pid)

section Split

variable {written written' : Bytes} {results : List MuxResult} {r : MuxResult}

theorem MuxResult.Silent.output (h : r.Silent) : r.output = [] := by
  rw [MuxResult.output, h.1, h.2]
  rfl

/-- Returning some bytes in two parts. -/
theorem output_splitAt (r : MuxResult) (data : Bytes) (n : Nat) :
    MuxResult.output { r with
      initSegment := some (data.take n)
      mediaSegment := if n < data.length then some (data.drop n) else none } = data := by
  rw [MuxResult.output]
  split
  · exact List.take_append_drop n data
  · next hle =>
    show data.take n ++ [] = data
    rw [List.append_nil, List.take_of_length_le (Nat.le_of_not_lt hle)]

theorem output_of_silent (h : ∀ r ∈ results, r.Silent) :
    results.flatMap MuxResult.output = [] :=
  List.flatMap_eq_nil_iff.mpr fun r hr => (h r hr).output

theorem SplitWithoutLoss.nil (written : Bytes) : SplitWithoutLoss written [] where
  isPrefix := List.nil_prefix
  init_once := Nat.zero_le 1
  media_after_init before r after h := by simp at h
  init_eq _ h := by cases h

theorem SplitWithoutLoss.mono (h : SplitWithoutLoss written results) (hw : written <+: written') :
    SplitWithoutLoss written' results where
  isPrefix := h.isPrefix.trans hw
  init_once := h.init_once
  media_after_init := h.media_after_init
  init_eq r hr init hinit :=
    let ⟨hpre, hboxes⟩ := h.init_eq r hr init hinit
    ⟨hpre.trans hw, hboxes⟩

/-- Another result without an init segment. -/
theorem SplitWithoutLoss.snoc_media (h : SplitWithoutLoss written results)
    (hw : written <+: written') (hinit : r.initSegment = none)
    (hmedia : r.mediaSegment.isSome → ∃ r' ∈ results, r'.initSegment.isSome)
    (hpre : (results ++ [r]).flatMap MuxResult.output <+: written') :
    SplitWithoutLoss written' (results ++ [r]) where
  isPrefix := hpre
  init_once := by
    rw [List.filterMap_append, List.filterMap_cons, hinit]
    simpa using h.init_once
  media_after_init before r' after heq hsome := by
    rcases split_snoc heq with ⟨rfl, rfl, -⟩ | ⟨after', hresults, -⟩
    · obtain ⟨r', hr', hisSome⟩ := hmedia hsome
      exact ⟨r', List.mem_append_left _ hr', hisSome⟩
    · exact h.media_after_init before r' after' hresults hsome
  init_eq r' hr' init hinit' := by
    rcases List.mem_append.mp hr' with hr' | hr'
    · obtain ⟨hpre', hboxes⟩ := h.init_eq r' hr' init hinit'
      exact ⟨hpre'.trans hw, hboxes⟩
    · obtain rfl := List.mem_singleton.mp hr'
      cases hinit.symm.trans hinit'

/-- The result with the init segment, after silent ones only. -/
theorem SplitWithoutLoss.snoc_init {init : Bytes} (hsilent : ∀ r ∈ results, r.Silent)
    (hinit : r.initSegment = some init)
    (hboxes : ∃ boxes last, EndsWithFirst moov boxes last ∧ init = Box.chain (boxes ++ [last]))
    (hpre : r.output <+: written) : SplitWithoutLoss written (results ++ [r]) where
  isPrefix := by
    rwa [List.flatMap_append, output_of_silent hsilent, List.nil_append, List.flatMap_singleton]
  init_once := by
    have hnone : results.filterMap MuxResult.initSegment = [] :=
      List.filterMap_eq_nil_iff.mpr fun r hr => (hsilent r hr).1
    rw [List.filterMap_append, hnone, List.filterMap_cons, hinit]
    exact Nat.le_refl 1
  media_after_init before r' after heq hsome := by
    rcases split_snoc heq with ⟨rfl, rfl, -⟩ | ⟨after', rfl, -⟩
    · exact ⟨r, List.mem_append_right _ List.mem_cons_self, by rw [hinit]; rfl⟩
    · have := (hsilent r' (List.mem_append_right _ List.mem_cons_self)).2
      rw [this] at hsome
      cases hsome
  init_eq r' hr' init' hinit' := by
    rcases List.mem_append.mp hr' with hr' | hr'
    · cases (hsilent r' hr').1.symm.trans hinit'
    · obtain rfl := List.mem_singleton.mp hr'
      obtain rfl := Option.some.inj (hinit.symm.trans hinit')
      refine ⟨List.IsPrefix.trans ?_ hpre, hboxes⟩
      rw [MuxResult.output, hinit]
      exact List.prefix_append _ _

end Split

/-! ## What each part of a call keeps -/

namespace MuxerRun

variable {returned : List (Nat × MuxResult)} {pid : Nat} {t : Nat} {r : MuxResult}

theorem resultsOf_snoc :
    resultsOf (returned ++ [(t, r)]) pid =
      resultsOf returned pid ++ if t = pid + 1 then [r] else [] := by
  rw [resultsOf, List.filter_append, List.map_append]
  by_cases h : t = pid + 1 <;> simp [resultsOf, h]

theorem tagged_snoc (h : ∀ e ∈ returned, e.1 ≤ t) (r : MuxResult) :
    ∀ e ∈ returned ++ [(t, r)], e.1 ≤ t := by
  intro e he
  rcases List.mem_append.mp he with he | he
  · exact h e he
  · rw [List.mem_singleton.mp he]

theorem sorted_snoc (h : ∀ e ∈ returned, e.1 ≤ t)
    (hsorted : returned.Pairwise fun e e' => e.1 ≤ e'.1) (r : MuxResult) :
    (returned ++ [(t, r)]).Pairwise fun e e' => e.1 ≤ e'.1 := by
  refine List.pairwise_append.mpr ⟨hsorted, List.pairwise_singleton _ _, fun e he e' he' => ?_⟩
  rw [List.mem_singleton.mp he']
  exact h e he

/-- A process that has not been started has no results. -/
theorem resultsOf_eq_nil (h : ∀ e ∈ returned, e.1 ≤ pid) : resultsOf returned pid = [] := by
  rw [resultsOf, List.map_eq_nil_iff, List.filter_eq_nil_iff]
  intro e he
  have := h e he
  simp only [decide_eq_true_eq]
  omega

end MuxerRun

open MuxerRun

namespace Ffmpeg

@[simp] theorem act_received (p : Ffmpeg) (a : Activity) : (p.act a).received = p.received := by
  cases a with
  | write bytes => rfl
  | read n =>
    rw [act]
    split <;> rfl
  | disconnect => rfl

@[simp] theorem send_received (p : Ffmpeg) (payload : Bytes) :
    (p.send payload).received = p.received := rfl

/-- What no activity changes several leave as it is. -/
theorem foldl_act {β : Type} {field : Ffmpeg → β} (h : ∀ p a, field (act p a) = field p)
    (p : Ffmpeg) (as : List Activity) : field (as.foldl act p) = field p := by
  induction as generalizing p with
  | nil => rfl
  | cons a as ih => rw [List.foldl_cons, ih, h]

@[simp] theorem foldl_act_received (p : Ffmpeg) (as : List Activity) :
    (as.foldl act p).received = p.received := foldl_act act_received p as

/-- What has been taken was written. -/
theorem received_isPrefix (p : Ffmpeg) : p.received <+: p.written := by
  rw [written, List.append_assoc]
  exact List.prefix_append _ _

end Ffmpeg

namespace Fmp4World

variable {w : Fmp4World} {returned : List (Nat × MuxResult)} {pid rx : Nat} {result : MuxResult}

@[simp] theorem blank_silent (w : Fmp4World) : w.blank.Silent := ⟨rfl, rfl⟩

@[simp] theorem modifyProcess_self (f : Ffmpeg → Ffmpeg) :
    (w.modifyProcess pid f).process pid = f (w.process pid) :=
  Function.update_self _ _ _

theorem modifyProcess_of_ne (f : Ffmpeg → Ffmpeg) {k : Nat} (h : k ≠ pid) :
    (w.modifyProcess pid f).process k = w.process k :=
  Function.update_of_ne h _ _

/-- What has been taken from a process does not change until the muxer reads. -/
theorem modifyProcess_received {f : Ffmpeg → Ffmpeg} (hf : ∀ p, (f p).received = p.received)
    (k : Nat) : ((w.modifyProcess pid f).process k).received = (w.process k).received := by
  by_cases hk : k = pid
  · rw [hk, modifyProcess_self, hf]
  · rw [modifyProcess_of_ne f hk]

namespace Faithful

/-- The start: nothing has been started or returned. -/
theorem init : Faithful {} [] where
  stdinTx := rfl
  stdoutRx := rfl
  current _ h := by cases h
  idle _ := ⟨rfl, rfl⟩
  fresh _ _ := rfl
  tagged _ h := by cases h
  sorted := .nil
  running _ h := by cases h
  split _ := .nil _

theorem lt_started (h : w.Faithful returned) (hpid : w.muxer.ffmpeg = some pid) :
    pid < w.started :=
  Nat.lt_of_succ_le (Nat.le_of_eq (h.current pid hpid))

/-- Abandoning the process. -/
theorem reset (h : w.Faithful returned) : w.reset.Faithful returned where
  stdinTx := rfl
  stdoutRx := rfl
  current _ hpid := by cases hpid
  idle _ := ⟨rfl, rfl⟩
  fresh := h.fresh
  tagged := h.tagged
  sorted := h.sorted
  running _ hpid := by cases hpid
  split := h.split

theorem needsKeyframe (h : w.Faithful returned) (b : Bool) :
    Faithful { w with muxer := { w.muxer with needsKeyframe := b } } returned where
  stdinTx := h.stdinTx
  stdoutRx := h.stdoutRx
  current := h.current
  idle := h.idle
  fresh := h.fresh
  tagged := h.tagged
  sorted := h.sorted
  running pid hpid :=
    let ⟨houtput, hbefore, hafter⟩ := h.running pid hpid
    ⟨houtput, hbefore, hafter⟩
  split := h.split

/-- What happens at a process without the muxer taking anything. -/
theorem modifyProcess (h : w.Faithful returned) (hpid : pid < w.started) {f : Ffmpeg → Ffmpeg}
    (hf : ∀ p, (f p).received = p.received) : (w.modifyProcess pid f).Faithful returned := by
  constructor
  · exact h.stdinTx
  · exact h.stdoutRx
  · exact h.current
  · exact h.idle
  · intro k hk
    rw [modifyProcess_of_ne f (Nat.ne_of_gt (Nat.lt_of_lt_of_le hpid hk))]
    exact h.fresh k hk
  · exact h.tagged
  · exact h.sorted
  · intro k hk
    rw [modifyProcess_received hf]
    exact h.running k hk
  · intro k
    rw [modifyProcess_received hf]
    exact h.split k

/-- A new process has no results yet. -/
theorem startFfmpeg (h : w.Faithful returned) (hidle : w.muxer.ffmpeg = none) :
    w.startFfmpeg.Faithful returned where
  stdinTx := rfl
  stdoutRx := rfl
  current pid hpid := by rw [← Option.some.inj hpid]; rfl
  idle hnone := by cases hnone
  fresh pid hpid := by
    show Function.update w.process w.started {} pid = {}
    rw [Function.update_of_ne (Nat.ne_of_gt hpid)]
    exact h.fresh pid (Nat.le_of_succ_le hpid)
  tagged e he := Nat.le_succ_of_le (h.tagged e he)
  sorted := h.sorted
  running pid hpid := by
    obtain rfl := Option.some.inj hpid
    have hnil := resultsOf_eq_nil h.tagged
    obtain ⟨hsent, hpending⟩ := h.idle hidle
    refine ⟨?_, ?_, fun hsent' => ?_⟩
    · rw [hnil]
      show [] ++ w.muxer.pendingInit = ((Function.update w.process w.started {}) w.started).received
      rw [hpending, Function.update_self, List.append_nil]
    · rw [hnil]
      refine fun _ => ⟨fun _ hr => absurd hr List.not_mem_nil, ?_⟩
      show findBoxEnd w.muxer.pendingInit moov = none
      rw [hpending, findBoxEnd_nil]
    · cases hsent.symm.trans hsent'
  split pid := by
    by_cases hpid : pid = w.started
    · rw [hpid, resultsOf_eq_nil h.tagged]
      exact .nil _
    · have := h.split pid
      rwa [← Function.update_of_ne hpid {} w.process] at this

/-- A call that reads nothing. -/
theorem silent (h : w.Faithful returned) (hresult : result.Silent) :
    w.Faithful (returned ++ [(w.started, result)]) where
  stdinTx := h.stdinTx
  stdoutRx := h.stdoutRx
  current := h.current
  idle := h.idle
  fresh := h.fresh
  tagged := tagged_snoc h.tagged result
  sorted := sorted_snoc h.tagged h.sorted result
  running pid hpid := by
    obtain ⟨houtput, hbefore, hafter⟩ := h.running pid hpid
    rw [resultsOf_snoc, if_pos (h.current pid hpid).symm]
    refine ⟨?_, fun hsent => ⟨fun r hr => ?_, (hbefore hsent).2⟩,
      fun hsent => ⟨(hafter hsent).1, ?_⟩⟩
    · rw [List.flatMap_append, List.flatMap_singleton, hresult.output, List.append_nil, houtput]
    · rcases List.mem_append.mp hr with hr | hr
      · exact (hbefore hsent).1 r hr
      · rwa [List.mem_singleton.mp hr]
    · obtain ⟨r, hr, hsome⟩ := (hafter hsent).2
      exact ⟨r, List.mem_append_left _ hr, hsome⟩
  split pid := by
    rw [resultsOf_snoc]
    split
    · refine (h.split pid).snoc_media List.prefix_rfl hresult.1 (fun hsome => ?_) ?_
      · rw [hresult.2] at hsome
        cases hsome
      · rw [List.flatMap_append, List.flatMap_singleton, hresult.output, List.append_nil]
        exact (h.split pid).isPrefix
    · rw [List.append_nil]
      exact h.split pid

/-- A call that takes what is in the channel of the process and returns `result`. -/
theorem taken (h : w.Faithful returned) (hrx : w.muxer.ffmpeg = some rx) {m : Fmp4Muxer}
    (hstdin : m.stdinTx = some rx) (hstdout : m.stdoutRx = some rx) (hffmpeg : m.ffmpeg = some rx)
    (hprogress : Progress m (w.process rx).drain.received (resultsOf returned rx ++ [result]))
    (hsplit : SplitWithoutLoss (w.process rx).drain.received
      (resultsOf returned rx ++ [result])) :
    Faithful { w.modifyProcess rx Ffmpeg.drain with muxer := m }
      (returned ++ [(w.started, result)]) := by
  have hcurrent := h.current rx hrx
  constructor
  · exact hstdin.trans hffmpeg.symm
  · exact hstdout.trans hffmpeg.symm
  · intro pid hpid
    obtain rfl := Option.some.inj (hffmpeg.symm.trans hpid)
    exact hcurrent
  · intro hnone
    cases hffmpeg.symm.trans hnone
  · intro k hk
    show (w.modifyProcess rx Ffmpeg.drain).process k = {}
    rw [modifyProcess_of_ne _ (by have : w.started ≤ k := hk; omega)]
    exact h.fresh k hk
  · exact tagged_snoc h.tagged result
  · exact sorted_snoc h.tagged h.sorted result
  · intro pid hpid
    obtain rfl := Option.some.inj (hffmpeg.symm.trans hpid)
    rw [resultsOf_snoc, if_pos hcurrent.symm]
    show Progress m ((w.modifyProcess rx Ffmpeg.drain).process rx).received _
    rwa [modifyProcess_self]
  · intro pid
    show SplitWithoutLoss ((w.modifyProcess rx Ffmpeg.drain).process pid).received _
    rw [resultsOf_snoc]
    by_cases hpid : pid = rx
    · rwa [hpid, modifyProcess_self, if_pos hcurrent.symm]
    · rw [modifyProcess_of_ne _ hpid, if_neg (by omega), List.append_nil]
      exact h.split pid

/-- Reading before the init segment: all that has been taken is searched for the end of the
`moov` box, and either stays pending or is returned in two parts. -/
theorem readInit (h : w.Faithful returned) (hrx : w.muxer.ffmpeg = some rx)
    (hsent : w.muxer.initSent = false) (hresult : result.Silent) :
    (w.readInit rx result).1.Faithful (returned ++ [(w.started, (w.readInit rx result).2)]) := by
  obtain ⟨houtput, hbefore, -⟩ := h.running rx hrx
  obtain ⟨hsilent, -⟩ := hbefore hsent
  rw [output_of_silent hsilent, List.nil_append] at houtput
  rw [Fmp4World.readInit]
  split
  · next hmoov =>
    rw [ite_isEmpty_findBoxEnd] at hmoov
    -- nothing is returned yet
    refine h.taken hrx (h.stdinTx.trans hrx) (h.stdoutRx.trans hrx) hrx ?_ ?_
    · have hsilent' : ∀ r ∈ resultsOf returned rx ++ [result], r.Silent := by
        intro r hr
        rcases List.mem_append.mp hr with hr | hr
        · exact hsilent r hr
        · rwa [List.mem_singleton.mp hr]
      refine ⟨?_, fun _ => ⟨hsilent', hmoov⟩, fun hsent' => ?_⟩
      · rw [output_of_silent hsilent', List.nil_append, houtput]
        rfl
      · cases hsent.symm.trans hsent'
    · refine (h.split rx).snoc_media (List.prefix_append _ _) hresult.1 (fun hsome => ?_) ?_
      · rw [hresult.2] at hsome
        cases hsome
      · rw [List.flatMap_append, List.flatMap_singleton, hresult.output, List.append_nil]
        exact (h.split rx).isPrefix.trans (List.prefix_append _ _)
  · next moovEnd hmoov =>
    rw [ite_isEmpty_findBoxEnd] at hmoov
    obtain ⟨boxes, last, hfirst, hpref, hlen⟩ := findBoxEnd_eq_some.mp hmoov
    have hreceived : (w.process rx).drain.received =
        w.muxer.pendingInit ++ (w.process rx).queue.flatten := by
      rw [houtput]
      rfl
    have hresult' := output_splitAt result (w.muxer.pendingInit ++ (w.process rx).queue.flatten)
      moovEnd
    refine h.taken hrx (h.stdinTx.trans hrx) (h.stdoutRx.trans hrx) hrx ?_ ?_
    · refine ⟨?_, fun hsent' => (by cases hsent'), fun _ => ⟨rfl, _,
        List.mem_append_right _ List.mem_cons_self, rfl⟩⟩
      rw [List.flatMap_append, output_of_silent hsilent, List.nil_append, List.flatMap_singleton,
        List.append_nil, hresult', hreceived]
    · refine .snoc_init hsilent rfl ⟨boxes, last, hfirst, ?_⟩ ?_
      · rw [hlen]
        exact (List.prefix_iff_eq_take.mp hpref).symm
      · rw [hresult', hreceived]

/-- Reading after the init segment: all that is taken is returned. -/
theorem readMedia (h : w.Faithful returned) (hrx : w.muxer.ffmpeg = some rx)
    (hsent : w.muxer.initSent = true) (hresult : result.Silent) :
    (w.readMedia rx result).1.Faithful (returned ++ [(w.started, (w.readMedia rx result).2)]) := by
  obtain ⟨houtput, -, hafter⟩ := h.running rx hrx
  obtain ⟨hpending, hinit⟩ := hafter hsent
  rw [hpending, List.append_nil] at houtput
  have hmedia : (w.readMedia rx result).2.output = (w.process rx).queue.flatten := by
    rw [Fmp4World.readMedia, MuxResult.output]
    simp only [hresult.1]
    split
    · next hnil => rw [List.isEmpty_iff.mp hnil]; rfl
    · rfl
  have houtput' : (resultsOf returned rx ++ [(w.readMedia rx result).2]).flatMap
      MuxResult.output = (w.process rx).drain.received := by
    rw [List.flatMap_append, List.flatMap_singleton, houtput, hmedia]
    rfl
  -- the same before and after the reset of a closed channel
  have htaken : Faithful (w.modifyProcess rx Ffmpeg.drain)
      (returned ++ [(w.started, (w.readMedia rx result).2)]) := by
    refine h.taken hrx (h.stdinTx.trans hrx) (h.stdoutRx.trans hrx) hrx ?_ ?_
    · refine ⟨?_, fun hsent' => (by cases hsent.symm.trans hsent'), fun _ => ⟨hpending, ?_⟩⟩
      · rw [houtput', hpending, List.append_nil]
      · obtain ⟨r, hr, hsome⟩ := hinit
        exact ⟨r, List.mem_append_left _ hr, hsome⟩
    · refine (h.split rx).snoc_media (List.prefix_append _ _) hresult.1 (fun _ => hinit) ?_
      rw [houtput']
  show Faithful (if _ then _ else _) _
  split
  · exact htaken.reset
  · exact htaken

end Faithful

@[simp] theorem readOutput_started (during : List Activity) :
    (w.readOutput during result).1.started = w.started := by
  rw [readOutput]
  split
  · rfl
  · simp only []
    split
    · rw [readMedia]
      simp only []
      split <;> rfl
    · rw [readInit]
      split <;> rfl

theorem Faithful.readOutput (h : w.Faithful returned) (hresult : result.Silent)
    (during : List Activity) :
    (w.readOutput during result).1.Faithful
      (returned ++ [(w.started, (w.readOutput during result).2)]) := by
  rw [Fmp4World.readOutput]
  split
  · exact h.silent hresult
  · next rx hrx =>
    have hpid : w.muxer.ffmpeg = some rx := h.stdoutRx.symm.trans hrx
    have hact := h.modifyProcess (h.lt_started hpid) fun p => Ffmpeg.foldl_act_received p during
    simp only []
    split
    · next hsent => exact hact.readMedia hpid hsent hresult
    · next hsent => exact hact.readInit hpid (Bool.eq_false_iff.mpr hsent) hresult

theorem Faithful.feedAndRead (h : w.Faithful returned) (hresult : result.Silent) (payload : Bytes)
    (env : MuxEnv) :
    (w.feedAndRead payload env result).1.Faithful (returned ++
      [((w.feedAndRead payload env result).1.started, (w.feedAndRead payload env result).2)]) := by
  rw [Fmp4World.feedAndRead]
  split
  · rw [readOutput_started]
    exact h.readOutput hresult _
  · next tx htx =>
    have hpid : w.muxer.ffmpeg = some tx := h.stdinTx.symm.trans htx
    split
    · rw [readOutput_started]
      exact (h.modifyProcess (h.lt_started hpid) fun p => p.send_received payload).readOutput
        hresult _
    · exact h.reset.silent hresult

/-- **A call keeps the books.** -/
theorem Faithful.muxFrame (h : w.Faithful returned) (payload : Bytes) (isKeyframe : Bool)
    (env : MuxEnv) :
    (w.muxFrame payload isKeyframe env).1.Faithful (returned ++
      [((w.muxFrame payload isKeyframe env).1.started,
        (w.muxFrame payload isKeyframe env).2)]) := by
  have hgate := h.needsKeyframe false
  rw [Fmp4World.muxFrame]
  simp only []
  split
  · exact h.reset.silent w.blank_silent
  · split
    · exact h.silent w.blank_silent
    · split
      · exact hgate.feedAndRead w.blank_silent _ _
      · next hnone =>
        have hidle : w.muxer.ffmpeg = none := by simpa using hnone
        split
        · exact hgate.silent w.blank_silent
        · exact (hgate.startFfmpeg hidle).feedAndRead w.blank_silent _ _

end Fmp4World

/-! ## Whole runs -/

namespace MuxerRun

def Faithful (s : MuxerRun) : Prop := s.world.Faithful s.returned

theorem Faithful.init : Faithful {} := Fmp4World.Faithful.init

theorem Faithful.step {s s' : MuxerRun} {e : MuxEvent} (h : s.Faithful)
    (hstep : s.step e = some s') : s'.Faithful := by
  cases e with
  | mux payload isKeyframe env =>
    obtain rfl := Option.some.inj hstep
    exact Fmp4World.Faithful.muxFrame h payload isKeyframe env
  | reset =>
    obtain rfl := Option.some.inj hstep
    exact Fmp4World.Faithful.reset h
  | act pid activity =>
    rw [MuxerRun.step] at hstep
    split at hstep
    · next hpid =>
      obtain rfl := Option.some.inj hstep
      exact Fmp4World.Faithful.modifyProcess h hpid fun p => p.act_received activity
    · cases hstep

theorem always_faithful (events : List MuxEvent) :
    Machine.Always step Faithful {} events :=
  Machine.always_of_step Faithful.init (fun _ _ _ h hstep => h.step hstep) events

/-- **The output of every process is split without loss**, in every state of every run. -/
theorem always_splitWithoutLoss (events : List MuxEvent) :
    Machine.Always step (fun s => ∀ pid,
      SplitWithoutLoss (s.world.process pid).written (resultsOf s.returned pid)) {} events :=
  (always_faithful events).mono fun _ h pid =>
    (h.split pid).mono (Ffmpeg.received_isPrefix _)

end MuxerRun

end Kodama
