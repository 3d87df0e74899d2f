import Kodama.Core.Frame
import Kodama.Lib.Broadcast
import Kodama.Lib.HashMap
import Kodama.Web.Segments

/-!
# The shared video muxer and its clients (crates/kodama/src/web/fmp4.rs, ws.rs)

`VideoMuxer::run` has a muxer for each source. An init segment it gets goes into a cache and
then, as a message, to all clients; so does each media segment, without the cache. A client
subscribes, and then sends its browser the inits that are cached; from there it forwards
what it receives. A segment of a source whose init it has not forwarded, or not since it
lagged, makes it read the cache once more.

The cache is read ahead of the queue: between a client's subscription and its reading the
cache, and after a lag, a source's FFmpeg process can have been replaced, and the queue still
holds segments of the old one. The browser gets them after the new init. It gets only what
belongs together as long as a cached init is read while it fits what the client has still to
read (`forwarded_of_readsCurrent`).

A `player` decodes one source: it knows the session of the last init, and accepts segments of
that session. All invariants say what the player of a source accepts, and where that leaves
it.
-/

namespace Kodama

open Lib

/-! ## Messages -/

/-- Cached fMP4 init segment (ftyp+moov) for a video source. Here it also has the number of
the FFmpeg session it comes from, which the source does not keep. -/
structure CachedInit where
  codec : String
  width : UInt32
  height : UInt32
  data : Bytes
  session : Nat
deriving DecidableEq

/-- Muxed video output distributed to WebSocket clients; a segment, too, with its session. -/
inductive MuxedVideo where
  | init (source : SourceId) (init : CachedInit)
  | segment (source : SourceId) (data : Bytes) (session : Nat)
deriving DecidableEq

/-- The session an init message puts the player of a source in. -/
def MuxedVideo.starts (src : SourceId) : MuxedVideo → Option Nat
  | .init source cached => if source = src then some cached.session else none
  | .segment .. => none

/-- The session of the last init message of a source. -/
def lastSession (src : SourceId) (messages : List MuxedVideo) : Option Nat :=
  (messages.filterMap (MuxedVideo.starts src)).getLast?

/-- Every segment is of the same session as the last init message of its source before it. -/
def BelongTogether (messages : List MuxedVideo) : Prop :=
  ∀ before src data session after, messages = before ++ .segment src data session :: after →
    lastSession src before = some session

/-! ## The muxing loop -/

/-- What the loop has still to do with the result of a call. -/
inductive Publication where
  | idle
  | insert (source : SourceId) (init : CachedInit) (segment : Option Bytes)
  | sendInit (source : SourceId) (init : CachedInit) (segment : Option Bytes)
  | sendSegment (source : SourceId) (data : Bytes) (session : Nat)

namespace Publication

/-- The media segment of a result. -/
def ofSegment (source : SourceId) (session : Nat) : Option Bytes → Publication
  | some data => .sendSegment source data session
  | none => .idle

/-- The parts of a result that are published. -/
def ofResult (source : SourceId) (session : Nat) (result : MuxResult) : Publication :=
  match result.initSegment, result.codec, result.width, result.height with
  | some data, some codec, some width, some height =>
    .insert source { codec, width, height, data, session } result.mediaSegment
  | _, _, _, _ => ofSegment source session result.mediaSegment

def segmentMessages (source : SourceId) (session : Nat) : Option Bytes → List MuxedVideo
  | some data => [.segment source data session]
  | none => []

/-- The messages still to be sent. -/
def messages : Publication → List MuxedVideo
  | idle => []
  | insert source init segment | sendInit source init segment =>
    .init source init :: segmentMessages source init.session segment
  | sendSegment source data session => [.segment source data session]

end Publication

/-! ## Clients -/

/-- Where a client's task is. -/
inductive ClientPhase where
  /-- subscribed, the cached inits not read -/
  | joining
  /-- in the loop, before the next message -/
  | receiving
  /-- a segment has been received whose init has not been sent -/
  | fetching (source : SourceId) (data : Bytes) (session : Nat)
deriving DecidableEq

/-- The video branch of `handle_ws`, for one client. -/
structure Client where
  /-- its position in the broadcast channel -/
  videoRx : Nat
  videoInitSent : List SourceId := []
  phase : ClientPhase := .joining
  /-- sent to the browser so far -/
  forwarded : List MuxedVideo := []

/-! ## The system -/

/-- The video muxer and all clients. -/
structure VideoFeed where
  muxers : SourceId → Option MuxerRun := fun _ => none
  inits : HashMap SourceId CachedInit := ∅
  videoTx : Broadcast MuxedVideo
  publication : Publication := .idle
  clients : Nat → Option Client := fun _ => none

inductive FeedEvent where
  /-- a frame is received and muxed -/
  | frame (frame : Frame) (env : MuxEnv)
  /-- the muxing loop lagged behind the frames -/
  | lagged
  /-- something happens at an FFmpeg process -/
  | act (source : SourceId) (pid : Nat) (activity : Activity)
  /-- the muxing loop inserts or sends what is next -/
  | publish
  | join (client : Nat)
  /-- the client sends all cached inits, in the order its iteration has -/
  | sendInits (client : Nat) (order : List (Sigma fun _ : SourceId => CachedInit))
  | receive (client : Nat)
  | fetch (client : Nat)
  /-- the client has gone, or a send to it failed -/
  | leave (client : Nat)

namespace Client

/-- Send the browser an init. -/
def sendInit (c : Client) (source : SourceId) (init : CachedInit) : Client :=
  { c with
    forwarded := c.forwarded ++ [.init source init]
    videoInitSent := source :: c.videoInitSent }

/-- Send the browser a segment. -/
def sendSegment (c : Client) (source : SourceId) (data : Bytes) (session : Nat) : Client :=
  { c with forwarded := c.forwarded ++ [.segment source data session], phase := .receiving }

/-- Send cached video inits for all known sources. -/
def sendInits (c : Client) (order : List (Sigma fun _ : SourceId => CachedInit)) : Client :=
  { order.foldl (fun c e => c.sendInit e.1 e.2) c with phase := .receiving }

/-- What the client does with the result of `recv`. -/
def receive (c : Client) (received : Received MuxedVideo) (next : Nat) : Client :=
  let c := { c with videoRx := next }
  match received with
  | .message (.init source init) => c.sendInit source init
  | .message (.segment source data session) =>
    if source ∈ c.videoInitSent then c.sendSegment source data session
    else { c with phase := .fetching source data session }
  | .lagged _ => { c with videoInitSent := [] }

/-- Lazy-fetch the cached init, or skip the segment. -/
def fetch (c : Client) (source : SourceId) (data : Bytes) (session : Nat) :
    Option CachedInit → Client
  | some init => (c.sendInit source init).sendSegment source data session
  | none => { c with phase := .receiving }

end Client

namespace VideoFeed

def feed (s : VideoFeed) (source : SourceId) : MuxerRun := (s.muxers source).getD {}

/-- `mux_frame` on the muxer of the frame's source. -/
def mux (s : VideoFeed) (frame : Frame) (env : MuxEnv) : VideoFeed :=
  let feed := s.feed frame.source
  let r := feed.world.muxFrame frame.payload frame.flags.isKeyframe env
  { s with
    muxers := Function.update s.muxers frame.source
      (some ⟨r.1, feed.returned ++ [(r.1.started, r.2)]⟩)
    publication := .ofResult frame.source r.1.started r.2 }

def publish (s : VideoFeed) : Option VideoFeed :=
  match s.publication with
  | .idle => none
  | .insert source init segment =>
    some { s with
      inits := s.inits.insert source init
      publication := .sendInit source init segment }
  | .sendInit source init segment => some { s with
      videoTx := s.videoTx.send (.init source init)
      publication := .ofSegment source init.session segment }
  | .sendSegment source data session => some { s with
      videoTx := s.videoTx.send (.segment source data session)
      publication := .idle }

def setClient (s : VideoFeed) (i : Nat) (c : Client) : VideoFeed :=
  { s with clients := Function.update s.clients i (some c) }

def step (s : VideoFeed) : FeedEvent → Option VideoFeed
  | .frame frame env =>
    match s.publication with
    | .idle => if frame.channel = .video then some (s.mux frame env) else some s
    | _ => none
  | .lagged =>
    match s.publication with
    | .idle => some { s with
        muxers := fun source =>
          (s.muxers source).map fun run => { run with world := run.world.reset } }
    | _ => none
  | .act source pid activity =>
    ((s.feed source).step (.act pid activity)).map fun run =>
      { s with muxers := Function.update s.muxers source (some run) }
  | .publish => s.publish
  | .join i =>
    match s.clients i with
    | none => some (s.setClient i { videoRx := s.videoTx.subscribe })
    | some _ => none
  | .sendInits i order =>
    match s.clients i with
    | some c =>
      if c.phase = .joining ∧ order.Perm s.inits.entries then
        some (s.setClient i (c.sendInits order))
      else none
    | none => none
  | .receive i =>
    match s.clients i with
    | some c =>
      if c.phase = .receiving then
        (s.videoTx.recv c.videoRx).map fun r => s.setClient i (c.receive r.1 r.2)
      else none
    | none => none
  | .fetch i =>
    match s.clients i with
    | some c =>
      match c.phase with
      | .fetching source data session =>
        some (s.setClient i (c.fetch source data session (s.inits.lookup source)))
      | _ => none
    | none => none
  | .leave i => some { s with clients := Function.update s.clients i none }

end VideoFeed

/-! ## Players -/

/-- The player of a source, in the session of the last init message, if any. -/
def player (src : SourceId) (current : Option Nat) : MuxedVideo → Option (Option Nat)
  | .init source cached => some (if source = src then some cached.session else current)
  | .segment source _ session =>
    if source = src ∧ current ≠ some session then none else some current

section Player

variable {src source : SourceId} {messages : List MuxedVideo} {current final other : Option Nat}
  {data : Bytes} {session session' : Nat} {cached : CachedInit}

theorem player_init_self :
    Machine.run (player source) current (.init source cached :: messages) =
      Machine.run (player source) (some cached.session) messages := by
  rw [Machine.run_cons, player, if_pos rfl]
  rfl

theorem player_init_of_ne (h : source ≠ src) :
    Machine.run (player src) current (.init source cached :: messages) =
      Machine.run (player src) current messages := by
  rw [Machine.run_cons, player, if_neg h]
  rfl

theorem player_segment_of_ne (h : source ≠ src) :
    Machine.run (player src) current (.segment source data session :: messages) =
      Machine.run (player src) current messages := by
  rw [Machine.run_cons, player, if_neg fun hboth => h hboth.1]
  rfl

theorem player_segment_self :
    Machine.run (player source) (some session) (.segment source data session :: messages) =
      Machine.run (player source) (some session) messages := by
  rw [Machine.run_cons, player, if_neg fun hboth => hboth.2 rfl]
  rfl

/-- A segment that is accepted does not change the player. -/
theorem player_segment_eq_some
    (h : player src current (.segment source data session) = some final) :
    (source = src → current = some session) ∧ current = final := by
  rw [player] at h
  split at h
  · cases h
  · next hne =>
    exact ⟨fun hsrc => by_contra fun hcur => hne ⟨hsrc, hcur⟩, Option.some.inj h⟩

theorem player_segment
    (h : Machine.run (player src) current (.segment source data session :: messages) = some final) :
    (source = src → current = some session) ∧
      Machine.run (player src) current messages = some final := by
  rw [Machine.run_cons] at h
  obtain ⟨current', hcurrent, hrun⟩ := Option.bind_eq_some_iff.mp h
  obtain ⟨hsession, rfl⟩ := player_segment_eq_some hcurrent
  exact ⟨hsession, hrun⟩

/-- The player is in the session of the last init. -/
theorem lastSession_of_player (h : Machine.run (player src) none messages = some final) :
    lastSession src messages = final := by
  induction messages using List.reverseRecOn generalizing final with
  | nil => exact Option.some.inj h
  | append_singleton messages m ih =>
    obtain ⟨current, hrun, hlast⟩ := Machine.run_concat_eq_some.mp h
    have ih := ih hrun
    rw [lastSession] at ih
    rw [lastSession, List.filterMap_append]
    cases m with
    | init source cached =>
      obtain rfl := Option.some.inj hlast
      by_cases hsrc : source = src
      · simp [MuxedVideo.starts, hsrc]
      · simp [MuxedVideo.starts, hsrc, ih]
    | segment source data session =>
      obtain ⟨-, rfl⟩ := player_segment_eq_some hlast
      simp [MuxedVideo.starts, ih]

/-- What the players of all sources accept belongs together. -/
theorem belongTogether_of_player
    (h : ∀ src, ∃ final, Machine.run (player src) none messages = some final) :
    BelongTogether messages := by
  rintro before src data session after rfl
  obtain ⟨final, hrun⟩ := h src
  obtain ⟨current, hbefore, hafter⟩ := Machine.run_append_eq_some.mp hrun
  rw [lastSession_of_player hbefore]
  exact (player_segment hafter).1 rfl

/-- A segment of the source is of the session. -/
def MuxedVideo.Continues (src : SourceId) (session : Nat) : MuxedVideo → Prop
  | .init .. => True
  | .segment source _ session' => source = src → session' = session

instance (src : SourceId) (session : Nat) : DecidablePred (MuxedVideo.Continues src session)
  | .init .. => .isTrue trivial
  | .segment source _ session' => inferInstanceAs (Decidable (source = src → session' = session))

/-- Messages a player can start with, in the session of a cached init: up to the next init,
all segments are of that session. -/
def Current (src : SourceId) (session : Nat) (messages : List MuxedVideo) : Prop :=
  ∀ m ∈ messages.takeWhile (fun m => (m.starts src).isNone), m.Continues src session

instance (src : SourceId) (session : Nat) (messages : List MuxedVideo) :
    Decidable (Current src session messages) :=
  inferInstanceAs (Decidable (∀ m ∈ _, _))

theorem current_segment (h : Current src session (.segment source data session' :: messages)) :
    (source = src → session' = session) ∧ Current src session messages := by
  have htake : (MuxedVideo.segment source data session' :: messages).takeWhile
      (fun m => (m.starts src).isNone) = .segment source data session' ::
        messages.takeWhile (fun m => (m.starts src).isNone) :=
    List.takeWhile_cons_of_pos rfl
  rw [Current, htake, List.forall_mem_cons] at h
  exact h

/-- Then it goes on as a player that comes from before, or stays in that session. -/
theorem player_of_current (h : Machine.run (player src) current messages = some final)
    (hcurrent : Current src session messages) :
    ∃ other, Machine.run (player src) (some session) messages = some other ∧
      (other = final ∨ other = some session) := by
  induction messages generalizing current with
  | nil => exact ⟨_, rfl, .inr rfl⟩
  | cons m messages ih =>
    cases m with
    | init source cached =>
      by_cases hsrc : source = src
      · subst hsrc
        rw [player_init_self] at h ⊢
        exact ⟨final, h, .inl rfl⟩
      · rw [player_init_of_ne hsrc] at h ⊢
        refine ih h fun m hm => hcurrent m ?_
        rw [List.takeWhile_cons_of_pos (by simp [MuxedVideo.starts, hsrc])]
        exact List.mem_cons_of_mem _ hm
    | segment source data session' =>
      obtain ⟨hsession, hrest⟩ := current_segment hcurrent
      obtain ⟨other, hother, hfinal⟩ := ih (player_segment h).2 hrest
      refine ⟨other, ?_, hfinal⟩
      by_cases hsrc : source = src
      · subst hsrc
        obtain rfl := hsession rfl
        rwa [player_segment_self]
      · rwa [player_segment_of_ne hsrc]

end Player

/-! ## Where the segments of a feed come from -/

/-- A result that says what the video is. -/
def MuxResult.Described (r : MuxResult) : Prop :=
  r.codec.isSome ∧ r.width.isSome ∧ r.height.isSome

namespace Fmp4World

variable {w : Fmp4World} {result : MuxResult}

theorem readOutput_described (h : result.Described) (during : List Activity) :
    (w.readOutput during result).2.Described := by
  rw [readOutput]
  split
  · exact h
  · simp only []
    split
    · exact h
    · rw [readInit]
      split <;> exact h

theorem feedAndRead_described (h : result.Described) (payload : Bytes) (env : MuxEnv) :
    (w.feedAndRead payload env result).2.Described := by
  rw [feedAndRead]
  split
  · exact readOutput_described h _
  · split
    · exact readOutput_described h _
    · exact h

theorem muxFrame_described (payload : Bytes) (isKeyframe : Bool) (env : MuxEnv) :
    (w.muxFrame payload isKeyframe env).2.Described := by
  have hblank : w.blank.Described := ⟨rfl, rfl, rfl⟩
  rw [muxFrame]
  simp only []
  split
  · exact hblank
  · split
    · exact hblank
    · split
      · exact feedAndRead_described hblank _ _
      · split
        · exact hblank
        · exact feedAndRead_described hblank _ _

end Fmp4World

namespace MuxerRun

/-- The session of the last init segment returned. -/
def lastInit (returned : List (Nat × MuxResult)) : Option Nat :=
  (returned.filterMap fun e => if e.2.initSegment.isSome then some e.1 else none).getLast?

variable {returned : List (Nat × MuxResult)} {t : Nat} {r : MuxResult}

theorem lastInit_snoc :
    lastInit (returned ++ [(t, r)]) =
      if r.initSegment.isSome then some t else lastInit returned := by
  rw [lastInit, List.filterMap_append]
  split <;> simp_all [lastInit]

/-- No init segment is returned for a later session than the one of the last result. -/
theorem lastInit_eq_of_mem (htagged : ∀ e ∈ returned, e.1 ≤ t)
    (hsorted : returned.Pairwise fun e e' => e.1 ≤ e'.1) (hmem : (t, r) ∈ returned)
    (hinit : r.initSegment.isSome) : lastInit returned = some t := by
  induction returned using List.reverseRecOn with
  | nil => cases hmem
  | append_singleton returned e ih =>
    obtain ⟨hbefore, -, hlast⟩ := List.pairwise_append.mp hsorted
    rw [show e = (e.1, e.2) from rfl, lastInit_snoc]
    rcases List.mem_append.mp hmem with hmem | hmem
    · split
      · have hle := htagged e (List.mem_append_right _ List.mem_cons_self)
        have hge := hlast _ hmem e List.mem_cons_self
        rw [Nat.le_antisymm hle hge]
      · exact ih (fun e he => htagged e (List.mem_append_left _ he)) hbefore hmem
    · rw [← List.mem_singleton.mp hmem, if_pos hinit]

/-- A media segment is of the session of the last init segment. -/
theorem lastInit_of_media {w : Fmp4World} (h : w.Faithful (returned ++ [(w.started, r)]))
    (hstarted : 0 < w.started) (hmedia : r.mediaSegment.isSome) :
    lastInit (returned ++ [(w.started, r)]) = some w.started := by
  have hpid : w.started = (w.started - 1) + 1 := by omega
  have hresults := h.split (w.started - 1)
  rw [resultsOf_snoc, if_pos hpid] at hresults
  obtain ⟨r', hr', hinit⟩ := hresults.media_after_init _ r [] rfl hmedia
  have hmem : (w.started, r') ∈ returned ++ [(w.started, r)] := by
    rcases List.mem_append.mp hr' with hr' | hr'
    · obtain ⟨e, he, rfl⟩ := List.mem_map.mp hr'
      obtain ⟨he, htag⟩ := List.mem_filter.mp he
      rw [hpid, ← of_decide_eq_true htag]
      exact List.mem_append_left _ he
    · rw [List.mem_singleton.mp hr']
      exact List.mem_append_right _ List.mem_cons_self
  exact lastInit_eq_of_mem h.tagged h.sorted hmem hinit

end MuxerRun

/-! ## What the publications of a result say -/

namespace Publication

open MuxerRun

variable {src source : SourceId} {current : Option Nat} {returned : List (Nat × MuxResult)}
  {t : Nat} {r : MuxResult}

theorem messages_ofSegment (source : SourceId) (session : Nat) (segment : Option Bytes) :
    (ofSegment source session segment).messages = segmentMessages source session segment := by
  cases segment <;> rfl

theorem ofSegment_ne_sendInit {segment : Option Bytes} (src : SourceId) (init : CachedInit)
    (segment' : Option Bytes) : ofSegment source t segment ≠ .sendInit src init segment' := by
  cases segment <;> exact fun h => by cases h

theorem player_segmentMessages (segment : Option Bytes) :
    Machine.run (player src) (some t) (segmentMessages source t segment) = some (some t) := by
  cases segment with
  | none => rfl
  | some data =>
    by_cases hsrc : source = src
    · rw [hsrc, segmentMessages, player_segment_self]
      rfl
    · rw [segmentMessages, player_segment_of_ne hsrc]
      rfl

theorem player_segmentMessages_of_ne (hsrc : source ≠ src) (segment : Option Bytes) :
    Machine.run (player src) current (segmentMessages source t segment) = some current := by
  cases segment with
  | none => rfl
  | some data =>
    rw [segmentMessages, player_segment_of_ne hsrc]
    rfl

/-- Other sources are not concerned. -/
theorem player_ofResult_of_ne (hsrc : source ≠ src) :
    Machine.run (player src) current (ofResult source t r).messages = some current := by
  rw [ofResult]
  split
  · rw [messages, player_init_of_ne hsrc, player_segmentMessages_of_ne hsrc]
  · rw [messages_ofSegment, player_segmentMessages_of_ne hsrc]

/-- The player of the source, in the session of the last init segment so far, is taken to the
one of the last init segment then. -/
theorem player_ofResult (hdescribed : r.Described)
    (hmedia : r.mediaSegment.isSome → lastInit (returned ++ [(t, r)]) = some t) :
    Machine.run (player source) (lastInit returned) (ofResult source t r).messages =
      some (lastInit (returned ++ [(t, r)])) := by
  rw [lastInit_snoc] at hmedia ⊢
  rw [ofResult]
  split
  · next hinit _ _ _ =>
    rw [if_pos (by rw [hinit]; rfl), messages, player_init_self, player_segmentMessages]
  · next hnot =>
    have hinit : ¬ r.initSegment.isSome := by
      intro hsome
      obtain ⟨hcodec, hwidth, hheight⟩ := hdescribed
      obtain ⟨data, hdata⟩ := Option.isSome_iff_exists.mp hsome
      obtain ⟨codec, hcodec⟩ := Option.isSome_iff_exists.mp hcodec
      obtain ⟨width, hwidth⟩ := Option.isSome_iff_exists.mp hwidth
      obtain ⟨height, hheight⟩ := Option.isSome_iff_exists.mp hheight
      exact hnot data codec width height hdata hcodec hwidth hheight
    rw [if_neg hinit] at hmedia ⊢
    rw [messages_ofSegment]
    cases hseg : r.mediaSegment with
    | none => rfl
    | some data =>
      rw [hmedia (by rw [hseg]; rfl), player_segmentMessages]

end Publication

/-! ## Invariants -/

namespace VideoFeed

/-- The session of the last init segment that the muxer of a source has returned. -/
def session (s : VideoFeed) (src : SourceId) : Option Nat :=
  MuxerRun.lastInit (s.feed src).returned

/-- The session of the cached init. -/
def cached (s : VideoFeed) (src : SourceId) : Option Nat :=
  (s.inits.lookup src).map CachedInit.session

/-- What a client has still to receive: what is in the channel, and what is about to be sent. -/
def pending (s : VideoFeed) (next : Nat) : List MuxedVideo :=
  s.videoTx.unread next ++ s.publication.messages

/-- The players follow the log of all messages, and what comes after a cached init. -/
structure Faithful (s : VideoFeed) : Prop where
  feeds : ∀ src, (s.feed src).Faithful
  log : ∀ src, Machine.run (player src) none (s.videoTx.sent ++ s.publication.messages) =
    some (s.session src)
  cache : ∀ src, Machine.run (player src) (s.cached src) s.publication.messages =
    some (s.session src)
  inserted : ∀ src init segment, s.publication = .sendInit src init segment →
    s.inits.lookup src = some init

/-- The players accept what a client has forwarded, and for the sources whose init it has sent
they will accept what it has still to receive. -/
structure Follows (s : VideoFeed) (c : Client) : Prop where
  position : c.videoRx ≤ s.videoTx.sent.length
  forwarded : ∀ src, ∃ final, Machine.run (player src) none c.forwarded = some final
  sent : ∀ src ∈ c.videoInitSent,
    Machine.run (player src) none (c.forwarded ++ s.pending c.videoRx) = some (s.session src)
  joining : c.phase = .joining → c.videoInitSent = [] ∧ c.forwarded = []
  fetching : ∀ source data session, c.phase = .fetching source data session →
    source ∉ c.videoInitSent

/-- The cached init of a source, if there is one, fits these messages. -/
def CurrentInit (s : VideoFeed) (src : SourceId) (messages : List MuxedVideo) : Prop :=
  ∀ init ∈ s.inits.lookup src, Current src init.session messages

instance (s : VideoFeed) (src : SourceId) (messages : List MuxedVideo) :
    Decidable (s.CurrentInit src messages) :=
  inferInstanceAs (Decidable (∀ init ∈ _, _))

variable {s s' : VideoFeed} {c : Client} {src source : SourceId} {t : Nat} {data : Bytes}

/-- Steps that change neither what is sent nor the sessions. -/
theorem Faithful.of_feeds (h : s.Faithful) (hfeeds : ∀ src, (s'.feed src).Faithful)
    (hreturned : ∀ src, (s'.feed src).returned = (s.feed src).returned)
    (hinits : s'.inits = s.inits) (hsent : s'.videoTx = s.videoTx)
    (hpublication : s'.publication = s.publication) : s'.Faithful := by
  have hsession : ∀ src, s'.session src = s.session src := fun src =>
    congrArg MuxerRun.lastInit (hreturned src)
  have hcached : ∀ src, s'.cached src = s.cached src := fun src => by rw [cached, cached, hinits]
  refine ⟨hfeeds, fun src => ?_, fun src => ?_, fun src init segment hpub => ?_⟩
  · rw [hsent, hpublication, hsession]
    exact h.log src
  · rw [hcached, hpublication, hsession]
    exact h.cache src
  · rw [hinits]
    exact h.inserted src init segment (hpublication ▸ hpub)

/-- Whatever leaves the players where the sessions are keeps a client following. -/
theorem Follows.of_pending (h : s.Follows c)
    (hlen : s.videoTx.sent.length ≤ s'.videoTx.sent.length)
    (hpending : ∀ src before, Machine.run (player src) none (before ++ s.pending c.videoRx) =
      some (s.session src) →
      Machine.run (player src) none (before ++ s'.pending c.videoRx) = some (s'.session src)) :
    s'.Follows c where
  position := Nat.le_trans h.position hlen
  forwarded := h.forwarded
  sent src hsrc := hpending src c.forwarded (h.sent src hsrc)
  joining := h.joining
  fetching := h.fetching

/-! ### The muxing loop -/

theorem feed_update (s : VideoFeed) (source : SourceId) (run : MuxerRun) (src : SourceId) :
    feed { s with muxers := Function.update s.muxers source (some run) } src =
      if src = source then run else s.feed src := by
  by_cases hsrc : src = source
  · rw [feed, if_pos hsrc, hsrc]
    simp only [Function.update_self, Option.getD_some]
  · rw [feed, if_neg hsrc]
    simp only [Function.update_of_ne hsrc]
    rfl

theorem mux_feed (s : VideoFeed) (frame : Frame) (env : MuxEnv) (src : SourceId) :
    (s.mux frame env).feed src =
      if src = frame.source then
        let r := (s.feed frame.source).world.muxFrame frame.payload frame.flags.isKeyframe env
        ⟨r.1, (s.feed frame.source).returned ++ [(r.1.started, r.2)]⟩
      else s.feed src :=
  feed_update s frame.source _ src

/-- What is sent after a call takes the players to the sessions then. -/
theorem Faithful.player_mux (h : s.Faithful) (frame : Frame) (env : MuxEnv) (src : SourceId) :
    Machine.run (player src) (s.session src) (s.mux frame env).publication.messages =
      some ((s.mux frame env).session src) := by
  have hfeed := mux_feed s frame env src
  by_cases hsrc : src = frame.source
  · subst hsrc
    rw [if_pos rfl] at hfeed
    rw [session, session, hfeed]
    refine Publication.player_ofResult (Fmp4World.muxFrame_described _ _ _) fun hmedia => ?_
    obtain ⟨seg, hseg⟩ := Option.isSome_iff_exists.mp hmedia
    obtain ⟨rx, hrx, -⟩ := Fmp4World.muxFrame_takes (h.feeds frame.source) hseg
    exact MuxerRun.lastInit_of_media
      (Fmp4World.Faithful.muxFrame (h.feeds frame.source) _ _ _) (Nat.zero_lt_of_lt hrx) hmedia
  · rw [if_neg hsrc] at hfeed
    rw [session, session, hfeed]
    exact Publication.player_ofResult_of_ne (Ne.symm hsrc)

theorem Faithful.mux (h : s.Faithful) (hidle : s.publication = .idle) (frame : Frame)
    (env : MuxEnv) : (s.mux frame env).Faithful where
  feeds src := by
    rw [mux_feed]
    split
    · exact Fmp4World.Faithful.muxFrame (h.feeds frame.source) _ _ _
    · exact h.feeds src
  log src := by
    have hlog : Machine.run (player src) none (s.videoTx.sent ++ []) = some (s.session src) :=
      (hidle ▸ h.log src :)
    rw [List.append_nil] at hlog
    exact Machine.run_append_eq_some.mpr ⟨_, hlog, h.player_mux frame env src⟩
  cache src := by
    have hcache := h.cache src
    rw [hidle] at hcache
    have hsession : s.cached src = s.session src := Option.some.inj hcache
    exact hsession ▸ h.player_mux frame env src
  inserted src init segment hpub := by
    rw [VideoFeed.mux, Publication.ofResult] at hpub
    simp only [] at hpub
    split at hpub
    · cases hpub
    · exact absurd hpub (Publication.ofSegment_ne_sendInit src init segment)

theorem Follows.mux (hc : s.Follows c) (h : s.Faithful) (hidle : s.publication = .idle)
    (frame : Frame) (env : MuxEnv) : (s.mux frame env).Follows c := by
  refine hc.of_pending (Nat.le_refl _) fun src before hrun => ?_
  rw [pending, hidle] at hrun
  show Machine.run (player src) none (before ++ (s.videoTx.unread c.videoRx ++ _)) = _
  rw [← List.append_assoc]
  exact Machine.run_append_eq_some.mpr
    ⟨_, (List.append_nil (s.videoTx.unread c.videoRx) ▸ hrun), h.player_mux frame env src⟩

/-- Sending the next message. -/
theorem Faithful.send {m : MuxedVideo} {publication : Publication} (h : s.Faithful)
    (hmessages : s.publication.messages = m :: publication.messages)
    (hcache : ∀ src, Machine.run (player src) (s.cached src) [m] = some (s.cached src))
    (hpublication : ∀ src init segment, publication ≠ .sendInit src init segment) :
    Faithful { s with videoTx := s.videoTx.send m, publication } where
  feeds := h.feeds
  log src := by
    have hlog := h.log src
    rw [hmessages] at hlog
    show Machine.run (player src) none (s.videoTx.sent ++ [m] ++ publication.messages) = _
    rw [List.append_assoc]
    exact hlog
  cache src := by
    have hrun := h.cache src
    rw [hmessages, ← List.singleton_append] at hrun
    obtain ⟨current, hm, hrest⟩ := Machine.run_append_eq_some.mp hrun
    obtain rfl := Option.some.inj ((hcache src).symm.trans hm)
    exact hrest
  inserted src init segment hpub := absurd hpub (hpublication src init segment)

theorem Follows.send {m : MuxedVideo} {publication : Publication} (hc : s.Follows c)
    (hmessages : s.publication.messages = m :: publication.messages) :
    Follows { s with videoTx := s.videoTx.send m, publication } c := by
  refine hc.of_pending ?_ fun src before hrun => ?_
  · show s.videoTx.sent.length ≤ (s.videoTx.sent ++ [m]).length
    rw [List.length_append]
    exact Nat.le_add_right _ _
  · rw [pending, hmessages] at hrun
    show Machine.run (player src) none
      (before ++ ((s.videoTx.send m).unread c.videoRx ++ publication.messages)) = _
    rw [Broadcast.unread_send hc.position, List.append_assoc]
    exact hrun

theorem cached_insert (s : VideoFeed) (source : SourceId) (init : CachedInit)
    (publication : Publication) (src : SourceId) :
    cached { s with inits := s.inits.insert source init, publication } src =
      if src = source then some init.session else s.cached src := by
  rw [cached, HashMap.lookup_insert_ite]
  split <;> rfl

theorem Faithful.publish (h : s.Faithful) (hstep : s.publish = some s') :
    s'.Faithful ∧ ∀ c, s.Follows c → s'.Follows c := by
  rw [VideoFeed.publish] at hstep
  split at hstep
  · cases hstep
  · next source init segment hpub =>
    obtain rfl := Option.some.inj hstep
    have hmessages : s.publication.messages =
        .init source init :: Publication.segmentMessages source init.session segment := by
      rw [hpub]
      rfl
    refine ⟨⟨h.feeds, fun src => ?_, fun src => ?_, ?_⟩, fun c hc => ?_⟩
    · have := h.log src
      rw [hmessages] at this
      exact this
    · have hcache := h.cache src
      rw [hmessages] at hcache
      rw [cached_insert]
      split
      · next hsrc =>
        subst hsrc
        rw [player_init_self] at hcache
        exact player_init_self.trans hcache
      · exact hcache
    · rintro src init' segment' hpub'
      obtain ⟨rfl, rfl, rfl⟩ := Publication.sendInit.inj hpub'
      exact AList.lookup_insert _
    · refine hc.of_pending (Nat.le_refl _) fun src before hrun => ?_
      rw [pending, hmessages] at hrun
      exact hrun
  · next source init segment hpub =>
    obtain rfl := Option.some.inj hstep
    have hmessages : s.publication.messages =
        .init source init :: (Publication.ofSegment source init.session segment).messages := by
      rw [hpub, Publication.messages_ofSegment]
      rfl
    refine ⟨h.send hmessages (fun src => ?_) Publication.ofSegment_ne_sendInit,
      fun c hc => hc.send hmessages⟩
    by_cases hsrc : source = src
    · subst hsrc
      rw [player_init_self, cached, h.inserted _ _ _ hpub]
      rfl
    · rw [player_init_of_ne hsrc]
      rfl
  · next source data session hpub =>
    obtain rfl := Option.some.inj hstep
    have hmessages : s.publication.messages =
        .segment source data session :: Publication.idle.messages := by
      rw [hpub]
      rfl
    refine ⟨h.send hmessages (fun src => ?_) (fun _ _ _ hidle => by cases hidle),
      fun c hc => hc.send hmessages⟩
    have hcache := h.cache src
    rw [hmessages] at hcache
    obtain ⟨-, hrest⟩ := player_segment hcache
    exact hcache.trans hrest.symm

/-! ### Clients -/

/-- After a cached init, what a client has still to receive, where the init fits it. -/
theorem Faithful.player_cached (h : s.Faithful) {next : Nat} (hcached : s.cached src = some t)
    (hcurrent : Current src t (s.videoTx.unread next)) :
    Machine.run (player src) (some t) (s.pending next) = some (s.session src) := by
  have hlog := h.log src
  rw [← List.take_append_drop next s.videoTx.sent, List.append_assoc] at hlog
  obtain ⟨current, -, hrest⟩ := Machine.run_append_eq_some.mp hlog
  obtain ⟨final, hunread, hmessages⟩ := Machine.run_append_eq_some.mp hrest
  obtain ⟨other, hother, rfl | rfl⟩ := player_of_current hunread hcurrent
  · exact Machine.run_append_eq_some.mpr ⟨_, hother, hmessages⟩
  · exact Machine.run_append_eq_some.mpr ⟨_, hother, hcached ▸ h.cache src⟩

/-- After an init message from the channel. -/
theorem Faithful.player_received (h : s.Faithful) {next next' : Nat} {init : CachedInit}
    (hunread : s.videoTx.unread next = .init source init :: s.videoTx.unread next') :
    Machine.run (player source) (some init.session) (s.pending next') =
      some (s.session source) := by
  have hlog := h.log source
  rw [← List.take_append_drop next s.videoTx.sent, List.append_assoc] at hlog
  obtain ⟨current, -, hrest⟩ := Machine.run_append_eq_some.mp hlog
  have hdrop : s.videoTx.sent.drop next = .init source init :: s.videoTx.unread next' := hunread
  rw [hdrop, List.cons_append, player_init_self] at hrest
  exact hrest

/-- The state of the feed is the same after a client's step. -/
theorem Faithful.setClient (h : s.Faithful) (clients : Nat → Option Client) :
    Faithful { s with clients } :=
  ⟨h.feeds, h.log, h.cache, h.inserted⟩

theorem Follows.setClient (h : s.Follows c) (clients : Nat → Option Client) :
    Follows { s with clients } c :=
  ⟨h.position, h.forwarded, h.sent, h.joining, h.fetching⟩

theorem follows_join (s : VideoFeed) : s.Follows { videoRx := s.videoTx.subscribe } where
  position := Nat.le_refl _
  forwarded src := ⟨none, rfl⟩
  sent src hsrc := absurd hsrc List.not_mem_nil
  joining _ := ⟨rfl, rfl⟩
  fetching _ _ _ h := by cases h

/-- A message of another source makes no difference to a player. -/
theorem player_skip {before after : List MuxedVideo} {final : Option Nat} {m : List MuxedVideo}
    (hm : ∀ current, Machine.run (player src) current m = some current) :
    Machine.run (player src) none (before ++ (m ++ after)) = some final ↔
      Machine.run (player src) none (before ++ after) = some final := by
  rw [Machine.run_append_eq_some, Machine.run_append_eq_some]
  refine exists_congr fun current => and_congr_right fun _ => ?_
  rw [Machine.run_append, hm]
  rfl

/-- An init message is forwarded, and its source is followed from there. -/
theorem Follows.receiveInit (hc : s.Follows c) (h : s.Faithful) {next : Nat} {init : CachedInit}
    (hphase : c.phase = .receiving)
    (hrecv : s.videoTx.recv c.videoRx = some (.message (.init source init), next)) :
    s.Follows (c.receive (.message (.init source init)) next) := by
  obtain ⟨-, hunread, hnext⟩ := Broadcast.recv_message hrecv
  have hpending : s.pending c.videoRx = .init source init :: s.pending next := by
    rw [pending, hunread]
    rfl
  have hforwarded : ∀ src, ∃ final,
      Machine.run (player src) none (c.forwarded ++ [.init source init]) = some final := by
    intro src
    obtain ⟨current, hrun⟩ := hc.forwarded src
    exact ⟨_, Machine.run_append_eq_some.mpr ⟨current, hrun, rfl⟩⟩
  refine ⟨hnext, hforwarded, fun src hsrc => ?_, fun hj => ?_, fun _ _ _ hf => ?_⟩
  · show Machine.run (player src) none (c.forwarded ++ [.init source init] ++ s.pending next) = _
    rw [List.append_assoc]
    rcases List.mem_cons.mp hsrc with rfl | hsrc
    · obtain ⟨current, hrun⟩ := hc.forwarded src
      refine Machine.run_append_eq_some.mpr ⟨current, hrun, ?_⟩
      rw [List.singleton_append, player_init_self]
      exact h.player_received hunread
    · have := hc.sent src hsrc
      rwa [hpending] at this
  · cases hphase.symm.trans hj
  · cases hphase.symm.trans hf

/-- A segment is forwarded if its source is followed, and else kept until the init is there. -/
theorem Follows.receiveSegment (hc : s.Follows c) {next session : Nat}
    (hrecv : s.videoTx.recv c.videoRx = some (.message (.segment source data session), next)) :
    s.Follows (c.receive (.message (.segment source data session)) next) := by
  obtain ⟨-, hunread, hnext⟩ := Broadcast.recv_message hrecv
  have hpending : s.pending c.videoRx = .segment source data session :: s.pending next := by
    rw [pending, hunread]
    rfl
  show s.Follows (if source ∈ c.videoInitSent then _ else _)
  split
  · next hsource =>
    have hsent : ∀ src ∈ c.videoInitSent, Machine.run (player src) none
        (c.forwarded ++ [.segment source data session] ++ s.pending next) =
          some (s.session src) := by
      intro src hsrc
      rw [List.append_assoc, List.singleton_append, ← hpending]
      exact hc.sent src hsrc
    refine ⟨hnext, fun src => ?_, hsent, fun hj => (by cases hj), fun _ _ _ hf => by cases hf⟩
    by_cases hsrc : source = src
    · obtain ⟨current, hrun, -⟩ := Machine.run_append_eq_some.mp (hsent source hsource)
      exact ⟨current, hsrc ▸ hrun⟩
    · obtain ⟨current, hrun⟩ := hc.forwarded src
      refine ⟨current, Machine.run_append_eq_some.mpr ⟨current, hrun, ?_⟩⟩
      rw [player_segment_of_ne hsrc]
      rfl
  · next hsource =>
    refine ⟨hnext, hc.forwarded, fun src hsrc => ?_, fun hj => (by cases hj), ?_⟩
    · have hne : source ≠ src := fun heq => hsource (heq ▸ hsrc)
      have hrun := hc.sent src hsrc
      rw [hpending, ← List.singleton_append] at hrun
      refine (player_skip fun current => ?_).mp hrun
      rw [player_segment_of_ne hne]
      rfl
    · rintro _ _ _ ⟨⟩
      exact hsource

theorem Follows.receive (hc : s.Follows c) (h : s.Faithful) {received : Received MuxedVideo}
    {next : Nat} (hphase : c.phase = .receiving)
    (hrecv : s.videoTx.recv c.videoRx = some (received, next)) :
    s.Follows (c.receive received next) := by
  cases received with
  | message m =>
    cases m with
    | init source init => exact hc.receiveInit h hphase hrecv
    | segment source data session => exact hc.receiveSegment hrecv
  | lagged missed =>
    refine ⟨Broadcast.recv_lagged hrecv, hc.forwarded, fun _ hsrc => (by cases hsrc),
      fun hj => ?_, fun _ _ _ hf => ?_⟩
    · cases hphase.symm.trans hj
    · cases hphase.symm.trans hf

theorem Follows.fetch (hc : s.Follows c) (h : s.Faithful) {source : SourceId} {data : Bytes}
    {session : Nat} (hphase : c.phase = .fetching source data session)
    (hcurrent : s.CurrentInit source
      (.segment source data session :: s.videoTx.unread c.videoRx)) :
    s.Follows (c.fetch source data session (s.inits.lookup source)) := by
  cases hinit : s.inits.lookup source with
  | none =>
    exact ⟨hc.position, hc.forwarded, hc.sent, fun hj => (by cases hj),
      fun _ _ _ hf => by cases hf⟩
  | some init =>
    obtain ⟨hsession, hrest⟩ := current_segment (hcurrent init hinit)
    obtain rfl := hsession rfl
    have hcached : s.cached source = some init.session := by
      rw [cached, hinit]
      rfl
    have hplay := h.player_cached hcached hrest
    have hboth : ∀ current, Machine.run (player source) current
        [.init source init, .segment source data init.session] = some (some init.session) := by
      intro current
      rw [player_init_self, player_segment_self]
      rfl
    have hother : ∀ src, source ≠ src → ∀ current, Machine.run (player src) current
        [.init source init, .segment source data init.session] = some current := by
      intro src hne current
      rw [player_init_of_ne hne, player_segment_of_ne hne]
      rfl
    have hforwarded : (c.fetch source data init.session (some init)).forwarded =
        c.forwarded ++ [.init source init, .segment source data init.session] :=
      List.append_assoc _ _ _
    refine ⟨hc.position, fun src => ?_, fun src hsrc => ?_, fun hj => (by cases hj),
      fun _ _ _ hf => by cases hf⟩
    · obtain ⟨current, hrun⟩ := hc.forwarded src
      rw [hforwarded]
      by_cases hne : source = src
      · subst hne
        exact ⟨_, Machine.run_append_eq_some.mpr ⟨current, hrun, hboth current⟩⟩
      · exact ⟨_, Machine.run_append_eq_some.mpr ⟨current, hrun, hother src hne current⟩⟩
    · rw [hforwarded, List.append_assoc]
      by_cases hne : source = src
      · subst hne
        obtain ⟨current, hrun⟩ := hc.forwarded source
        exact Machine.run_append_eq_some.mpr
          ⟨current, hrun, Machine.run_append_eq_some.mpr ⟨_, hboth current, hplay⟩⟩
      · refine (player_skip (hother src hne)).mpr (hc.sent src ?_)
        exact (List.mem_cons.mp hsrc).resolve_left fun heq => hne heq.symm

/-! ### The cached inits, sent one after the other -/

section SendInits

variable {order : List (Sigma fun _ : SourceId => CachedInit)}

theorem sendInits_forwarded : (c.sendInits order).forwarded =
    c.forwarded ++ order.map fun e => .init e.1 e.2 := by
  show (order.foldl (fun c e => c.sendInit e.1 e.2) c).forwarded = _
  induction order generalizing c with
  | nil => exact (List.append_nil _).symm
  | cons e order ih =>
    rw [List.foldl_cons, ih, List.map_cons, Client.sendInit, List.append_assoc]
    rfl

theorem sendInits_videoRx : (c.sendInits order).videoRx = c.videoRx := by
  show (order.foldl (fun c e => c.sendInit e.1 e.2) c).videoRx = _
  induction order generalizing c with
  | nil => rfl
  | cons e order ih => rw [List.foldl_cons, ih, Client.sendInit]

theorem mem_sendInits : src ∈ (c.sendInits order).videoInitSent ↔
    src ∈ order.keys ∨ src ∈ c.videoInitSent := by
  show src ∈ (order.foldl (fun c e => c.sendInit e.1 e.2) c).videoInitSent ↔ _
  induction order generalizing c with
  | nil => simp
  | cons e order ih =>
    rw [List.foldl_cons, ih, Client.sendInit]
    simp only [List.mem_cons, List.keys_cons]
    tauto

/-- The player is in the session of the init of its source, if there is one. -/
theorem player_inits (hnodup : order.NodupKeys) (current : Option Nat) :
    Machine.run (player src) current (order.map fun e => .init e.1 e.2) =
      some (((order.dlookup src).map CachedInit.session).or current) := by
  induction order generalizing current with
  | nil => rfl
  | cons e order ih =>
    obtain ⟨source, init⟩ := e
    rw [List.nodupKeys_cons] at hnodup
    rw [List.map_cons]
    by_cases hsrc : source = src
    · subst hsrc
      rw [player_init_self, ih hnodup.2, List.dlookup_eq_none.mpr hnodup.1, List.dlookup_cons_eq]
      rfl
    · rw [player_init_of_ne hsrc, ih hnodup.2, List.dlookup_cons_ne _ _ (Ne.symm hsrc)]

theorem Follows.sendInits (hc : s.Follows c) (h : s.Faithful) (hphase : c.phase = .joining)
    (horder : order.Perm s.inits.entries)
    (hcurrent : ∀ src ∈ s.inits.keys, s.CurrentInit src (s.videoTx.unread c.videoRx)) :
    s.Follows (c.sendInits order) := by
  obtain ⟨hsent, hforwarded⟩ := hc.joining hphase
  have hnodup : order.NodupKeys := (List.perm_nodupKeys horder).mpr s.inits.nodupKeys
  have hlookup : ∀ src, order.dlookup src = s.inits.lookup src :=
    fun src => List.perm_dlookup src hnodup horder
  have hplay : ∀ src, Machine.run (player src) none (c.sendInits order).forwarded =
      some (s.cached src) := by
    intro src
    rw [sendInits_forwarded, hforwarded, List.nil_append, player_inits hnodup, hlookup,
      Option.or_none]
    rfl
  refine ⟨?_, fun src => ⟨_, hplay src⟩, fun src hsrc => ?_, fun hj => (by cases hj),
    fun _ _ _ hf => by cases hf⟩
  · rw [sendInits_videoRx]
    exact hc.position
  · have hkey : src ∈ order.keys :=
      (mem_sendInits.mp hsrc).resolve_right (by rw [hsent]; exact List.not_mem_nil)
    obtain ⟨init, hinit⟩ := Option.isSome_iff_exists.mp (List.dlookup_isSome.mpr hkey)
    rw [hlookup] at hinit
    rw [sendInits_videoRx]
    refine Machine.run_append_eq_some.mpr ⟨_, hplay src, ?_⟩
    have hcached : s.cached src = some init.session := by
      rw [cached, hinit]
      rfl
    rw [hcached]
    exact h.player_cached hcached
      (hcurrent src (HashMap.mem_keys_iff.mpr ⟨init, hinit⟩) init hinit)

end SendInits

/-! ## Whole runs -/

/-- The same for the segment a client holds, and what comes after it. -/
def CurrentFetch (s : VideoFeed) (c : Client) : ClientPhase → Prop
  | .fetching src data session =>
    s.CurrentInit src (.segment src data session :: s.videoTx.unread c.videoRx)
  | _ => True

instance (s : VideoFeed) (c : Client) : DecidablePred (s.CurrentFetch c)
  | .fetching src _ _ => inferInstanceAs (Decidable (s.CurrentInit src _))
  | .joining | .receiving => .isTrue trivial

/-- A cached init is read only while it fits what the client has still to read. -/
def ReadsCurrent (s : VideoFeed) : FeedEvent → Prop
  | .sendInits i _ => ∀ c ∈ s.clients i, ∀ src ∈ s.inits.keys,
    s.CurrentInit src (s.videoTx.unread c.videoRx)
  | .fetch i => ∀ c ∈ s.clients i, s.CurrentFetch c c.phase
  | _ => True

instance (s : VideoFeed) : DecidablePred s.ReadsCurrent
  | .sendInits i _ => inferInstanceAs (Decidable (∀ c ∈ s.clients i, ∀ src ∈ s.inits.keys, _))
  | .fetch i => inferInstanceAs (Decidable (∀ c ∈ s.clients i, s.CurrentFetch c c.phase))
  | .frame .. | .lagged | .act .. | .publish | .join _ | .receive _ | .leave _ => .isTrue trivial

/-- The feed's books, and those of every client. -/
structure Good (s : VideoFeed) : Prop where
  faithful : s.Faithful
  follows : ∀ i c, s.clients i = some c → s.Follows c

theorem good_start (capacity : Nat) : Good { videoTx := { capacity } } where
  faithful := {
    feeds _ := MuxerRun.Faithful.init
    log _ := rfl
    cache _ := rfl
    inserted _ _ _ h := by cases h }
  follows _ _ h := by cases h

/-- A step of one client. -/
theorem Good.setClient (h : s.Good) {i : Nat} (hc : s.Follows c) : (s.setClient i c).Good where
  faithful := h.faithful.setClient _
  follows k c' hk := by
    have hk : Function.update s.clients i (some c) k = some c' := hk
    by_cases hki : k = i
    · rw [hki, Function.update_self] at hk
      exact (Option.some.inj hk ▸ hc).setClient _
    · rw [Function.update_of_ne hki] at hk
      exact (h.follows k c' hk).setClient _

/-- A step that leaves what is sent, and the sessions. -/
theorem Good.of_feeds (h : s.Good) (hfeeds : ∀ src, (s'.feed src).Faithful)
    (hreturned : ∀ src, (s'.feed src).returned = (s.feed src).returned)
    (hinits : s'.inits = s.inits) (hsent : s'.videoTx = s.videoTx)
    (hpublication : s'.publication = s.publication) (hclients : s'.clients = s.clients) :
    s'.Good where
  faithful := h.faithful.of_feeds hfeeds hreturned hinits hsent hpublication
  follows i c hc := by
    refine (h.follows i c (hclients ▸ hc)).of_pending (by rw [hsent]) fun src before hrun => ?_
    rw [pending, hsent, hpublication, session, hreturned]
    exact hrun

/-- The muxers are reset. -/
theorem Good.reset (h : s.Good) : Good { s with
    muxers := fun source =>
      (s.muxers source).map fun run => { run with world := run.world.reset } } := by
  refine h.of_feeds (fun src => ?_) (fun src => ?_) rfl rfl rfl rfl
  · have hfeed := h.faithful.feeds src
    rw [feed] at hfeed ⊢
    simp only []
    cases hrun : s.muxers src with
    | none => exact MuxerRun.Faithful.init
    | some run =>
      rw [hrun] at hfeed
      exact Fmp4World.Faithful.reset hfeed
  · rw [feed, feed]
    simp only []
    cases s.muxers src <;> rfl

/-- Something happens at a process. -/
theorem Good.act (h : s.Good) {pid : Nat} {activity : Activity} {run : MuxerRun}
    (hrun : (s.feed source).step (.act pid activity) = some run) :
    Good { s with muxers := Function.update s.muxers source (some run) } := by
  refine h.of_feeds (fun src => ?_) (fun src => ?_) rfl rfl rfl rfl
  · rw [feed_update]
    split
    · exact (h.faithful.feeds source).step hrun
    · exact h.faithful.feeds src
  · rw [feed_update]
    split
    · next hsrc =>
      rw [MuxerRun.step] at hrun
      split at hrun
      · obtain rfl := Option.some.inj hrun
        rw [hsrc]
      · cases hrun
    · rfl

theorem Good.publish (h : s.Good) (hstep : s.publish = some s') : s'.Good := by
  obtain ⟨hfaithful, hfollows⟩ := h.faithful.publish hstep
  refine ⟨hfaithful, fun i c hc => hfollows c (h.follows i c ?_)⟩
  rw [VideoFeed.publish] at hstep
  split at hstep
  · cases hstep
  all_goals
    obtain rfl := Option.some.inj hstep
    exact hc

theorem Good.leave (h : s.Good) (i : Nat) :
    Good { s with clients := Function.update s.clients i none } := by
  refine ⟨h.faithful.setClient _, fun k c hk => ?_⟩
  have hk : Function.update s.clients i none k = some c := hk
  by_cases hki : k = i
  · rw [hki, Function.update_self] at hk
    cases hk
  · rw [Function.update_of_ne hki] at hk
    exact (h.follows k c hk).setClient _

/-- **One step**, in which a cached init is read only while it fits. -/
theorem Good.step {e : FeedEvent} (h : s.Good) (hread : s.ReadsCurrent e)
    (hstep : s.step e = some s') : s'.Good := by
  cases e with
  | frame frame env =>
    rw [VideoFeed.step] at hstep
    split at hstep
    · next hidle =>
      split at hstep <;> obtain rfl := Option.some.inj hstep
      · exact ⟨h.faithful.mux hidle frame env,
          fun i c hc => (h.follows i c hc).mux h.faithful hidle frame env⟩
      · exact h
    · cases hstep
  | lagged =>
    rw [VideoFeed.step] at hstep
    split at hstep
    · obtain rfl := Option.some.inj hstep
      exact h.reset
    · cases hstep
  | act source pid activity =>
    obtain ⟨run, hrun, rfl⟩ := Option.map_eq_some_iff.mp hstep
    exact h.act hrun
  | publish => exact h.publish hstep
  | join i =>
    rw [VideoFeed.step] at hstep
    split at hstep
    · obtain rfl := Option.some.inj hstep
      exact h.setClient (follows_join s)
    · cases hstep
  | sendInits i order =>
    rw [VideoFeed.step] at hstep
    split at hstep
    · next c hc =>
      split at hstep
      · next hguard =>
        obtain rfl := Option.some.inj hstep
        exact h.setClient
          ((h.follows i c hc).sendInits h.faithful hguard.1 hguard.2 (hread c hc))
      · cases hstep
    · cases hstep
  | receive i =>
    rw [VideoFeed.step] at hstep
    split at hstep
    · next c hc =>
      split at hstep
      · next hphase =>
        obtain ⟨r, hr, rfl⟩ := Option.map_eq_some_iff.mp hstep
        exact h.setClient ((h.follows i c hc).receive h.faithful hphase hr)
      · cases hstep
    · cases hstep
  | fetch i =>
    rw [VideoFeed.step] at hstep
    split at hstep
    · next c hc =>
      split at hstep
      · next source data session hphase =>
        obtain rfl := Option.some.inj hstep
        have hcurrent : s.CurrentFetch c c.phase := hread c hc
        rw [hphase] at hcurrent
        exact h.setClient ((h.follows i c hc).fetch h.faithful hphase hcurrent)
      · cases hstep
    · cases hstep
  | leave i =>
    obtain rfl := Option.some.inj hstep
    exact h.leave i

/-- **What a client forwards belongs together**, in every run in which cached inits are read
only while they fit what the client has still to read. -/
theorem forwarded_of_readsCurrent (capacity : Nat) (events : List FeedEvent)
    (hread : Machine.EachStep step (fun s e _ => s.ReadsCurrent e) { videoTx := { capacity } }
      events) :
    Machine.Always step (fun s => ∀ i c, s.clients i = some c → BelongTogether c.forwarded)
      { videoTx := { capacity } } events := by
  have hgood : Machine.Always step Good { videoTx := { capacity } } events :=
    Machine.always_of_eachStep (good_start capacity)
      (fun _ _ _ h hread hstep => h.step hread hstep) hread
  exact hgood.mono fun _ h i c hc => belongTogether_of_player (h.follows i c hc).forwarded

/-! ### Two runs -/

def exampleSource : SourceId := ⟨[2, 7, 1, 8, 2, 8, 1, 8], rfl⟩

/-- A keyframe, during whose muxing FFmpeg writes some bytes, all of which arrive. -/
def exampleFrame (bytes : Bytes) : FeedEvent :=
  .frame (.video exampleSource [0x65] true)
    ⟨false, true, true, [.write bytes, .read bytes.length]⟩

/-- The init segment of a session, as it is cached. -/
def exampleInit (session : Nat) : CachedInit :=
  ⟨"avc1.640028", 1280, 720, MuxerRun.exampleStream.header, session⟩

/-- A client joins between an init and a segment, and gets both. -/
def exampleJoin : List FeedEvent :=
  [exampleFrame MuxerRun.exampleStream.bytes, .publish, .publish, .join 0,
    .sendInits 0 [⟨exampleSource, exampleInit 1⟩], .publish, .receive 0]

theorem forwarded_of_readsCurrent_join :
    Machine.Always step (fun s => ∀ i c, s.clients i = some c → BelongTogether c.forwarded)
      { videoTx := { capacity := 16 } } exampleJoin :=
  forwarded_of_readsCurrent 16 exampleJoin (by decide +kernel)

/-- The client joins as before, but the process ends before it reads the cache, and the init
of the next one is cached. -/
def exampleRestart : List FeedEvent :=
  [exampleFrame MuxerRun.exampleStream.bytes, .publish, .publish, .join 0, .publish,
    .frame (.video exampleSource [0x65] true) ⟨true, true, true, []⟩,
    exampleFrame MuxerRun.exampleStream.header, .publish,
    .sendInits 0 [⟨exampleSource, exampleInit 2⟩], .receive 0]

/-- The segment that was in the queue is of the old session. -/
theorem forwarded_old_segment : ¬ ∀ (capacity : Nat) (events : List FeedEvent),
    Machine.Always step (fun s => ∀ i c, s.clients i = some c → BelongTogether c.forwarded)
      { videoTx := { capacity } } events := by
  intro h
  have hrun : (Machine.run step { videoTx := { capacity := 16 } } exampleRestart).map
      (fun s => (s.clients 0).map Client.forwarded) =
        some (some [.init exampleSource (exampleInit 2),
          .segment exampleSource (Box.chain MuxerRun.exampleStream.boxes) 1]) := by
    decide +kernel
  obtain ⟨s, hbelong, hs⟩ := (h 16 exampleRestart).observed hrun
  obtain ⟨c, hc, hforwarded⟩ := Option.map_eq_some_iff.mp hs
  have hlast := hbelong 0 c hc [.init exampleSource (exampleInit 2)] _ _ _ _ hforwarded
  exact absurd hlast (by decide)

end VideoFeed

end Kodama
