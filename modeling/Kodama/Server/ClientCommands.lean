import Kodama.Lib.MessagePack
import Kodama.Server.CommandChannel
import Kodama.Transport.Framing

/-!
# Commands from a client (server/router.rs, `handle_client_commands`; transport/mux/command.rs)

The loop reads one message of a client after the other. A request is routed to the camera whose
key it names, and what comes of it goes back under the client's id: the camera's result, or an
error. The response is encoded anew, with the limit of 1 MB that the camera's reply was held to
under the router's id, and the loop also ends if the response does not fit.

- `answered_iff`: every request is answered once, in order, under its id, and the loop ends only
  with the client's stream, if and only if every response that the transport would take fits.
- `reply_lost`: a camera's reply of exactly 1 MB, for a client whose id takes more bytes than the
  router's, is not passed on, and the loop ends.

A turn of the loop carries what the environment decides: what is received, what `send_command`
returns for a key and a command, and whether the transport takes what is written. The encoding is
`rmp_serde`'s, of which the length of a response is known as far as `Rmp` says.
-/

namespace Kodama

open Lib Lib.Machine Lib.MessagePack

/-! ## Messages and their limit -/

/-- Maximum command message size (1 MB). -/
def maxCommandSize : Nat := 1024 * 1024

/-- Response to a command. Camera status and recording information are parameters. -/
inductive CommandResult (σ τ : Type) where
  | ok
  | error (message : String)
  | status (status : σ)
  | recordingsList (recordings : List τ)
  | updateStarted (updateId : String)

/-- A command request from a client that targets a specific camera. -/
structure TargetedCommandRequest (γ : Type) where
  /-- assigned by the client -/
  id : UInt32
  /-- the camera's public key, as text -/
  targetCamera : String
  command : γ

/-- Wire envelope of the channel between a client and the server. -/
inductive ClientCommandMessage (γ ρ : Type) where
  | request (request : TargetedCommandRequest γ)
  | response (response : CommandResponse ρ)

/-- `rmp_serde` on the messages of both channels: the id of a response takes 1 to 5 bytes by its
magnitude, and the rest does not depend on it. -/
structure Rmp (γ σ τ : Type) where
  toVec : CommandMessage γ (CommandResult σ τ) → Bytes
  fromSlice : Bytes → Result (CommandMessage γ (CommandResult σ τ))
  clientToVec : ClientCommandMessage γ (CommandResult σ τ) → Bytes
  rest : CommandResult σ τ → Nat
  length_toVec : ∀ response,
    (toVec (.response response)).length = uintLen response.id.toNat + rest response.result
  length_clientToVec : ∀ response,
    (clientToVec (.response response)).length = uintLen response.id.toNat + rest response.result

/-- Write a length-prefixed message, if it is not too large; also what is on the wire then. -/
def writeMessage (name : String) (transport : Result Unit) (writer bytes : Bytes) :
    Result Bytes := do
  if bytes.length > maxCommandSize then
    throw s!"{name} too large: {bytes.length} > {maxCommandSize}"
  transport
  return writer ++ toBe 4 bytes.length ++ bytes

/-- Read a length-prefixed message; also the unread rest. -/
def readMessage (name : String) (reader : Bytes) : Result (Bytes × Bytes) := do
  let (lenBytes, reader) ← readExact 4 reader
  let len := ofBe lenBytes
  if len > maxCommandSize then
    throw s!"{name} too large: {len} > {maxCommandSize}"
  readExact len reader

section Messages

variable {γ σ τ : Type}

def writeCommand (rmp : Rmp γ σ τ) (transport : Result Unit) (writer : Bytes)
    (msg : CommandMessage γ (CommandResult σ τ)) : Result Bytes :=
  writeMessage "Command message" transport writer (rmp.toVec msg)

def readCommand (rmp : Rmp γ σ τ) (reader : Bytes) :
    Result (CommandMessage γ (CommandResult σ τ) × Bytes) := do
  let (buf, reader) ← readMessage "Command message" reader
  return (← rmp.fromSlice buf, reader)

def writeClientCommand (rmp : Rmp γ σ τ) (transport : Result Unit) (writer : Bytes)
    (msg : ClientCommandMessage γ (CommandResult σ τ)) : Result Bytes :=
  writeMessage "Client command message" transport writer (rmp.clientToVec msg)

end Messages

/-! ## The loop -/

/-- A turn of the loop: what comes from outside. The receiver returns an error if the stream
fails, and on bytes that are not a message. -/
structure ClientTurn (κ γ σ τ : Type) where
  received : Result (Option (ClientCommandMessage γ (CommandResult σ τ)))
  /-- what `send_command` returns -/
  sendCommand : κ → γ → Result (CommandResponse (CommandResult σ τ))
  /-- the transport takes what is written to it -/
  transport : Result Unit

/-- `handle_client_commands`: what it has written to the client, and whether it has left its
loop. -/
structure ClientLoop (σ τ : Type) where
  stream : Bytes := []
  sent : List (CommandResponse (CommandResult σ τ)) := []
  left : Bool := false

namespace ClientLoop

variable {κ γ σ τ : Type} (rmp : Rmp γ σ τ) (parse : String → Option κ)

/-- `stream.sender.send`; the loop is left if it fails. -/
def send (s : ClientLoop σ τ) (transport : Result Unit)
    (response : CommandResponse (CommandResult σ τ)) : ClientLoop σ τ :=
  match writeClientCommand rmp transport s.stream (.response response) with
  | .ok stream => { s with stream, sent := s.sent ++ [response] }
  | .error _ => { s with left := true }

/-- One turn. -/
def step (s : ClientLoop σ τ) (turn : ClientTurn κ γ σ τ) : Option (ClientLoop σ τ) :=
  if s.left then none
  else some <|
    match turn.received with
    | .ok (some (.request targeted)) =>
      match parse targeted.targetCamera with
      | none => s.send rmp turn.transport ⟨targeted.id, .error "Invalid camera key"⟩
      | some cameraKey =>
        match turn.sendCommand cameraKey targeted.command with
        | .ok cameraResp => s.send rmp turn.transport ⟨targeted.id, cameraResp.result⟩
        | .error e => s.send rmp turn.transport ⟨targeted.id, .error e⟩
    | .ok (some (.response _)) => s
    | .ok none => { s with left := true }
    | .error _ => { s with left := true }

/-! ## What one turn does -/

/-- What the routing of a request comes to. -/
def outcome (turn : ClientTurn κ γ σ τ) (targeted : TargetedCommandRequest γ) :
    CommandResult σ τ :=
  match (parse targeted.targetCamera).map (turn.sendCommand · targeted.command) with
  | none => .error "Invalid camera key"
  | some (.ok cameraResp) => cameraResp.result
  | some (.error e) => .error e

/-- The response that a turn owes the client, if the transport takes it. -/
def owed (turn : ClientTurn κ γ σ τ) : Option (CommandResponse (CommandResult σ τ)) :=
  match turn.received, turn.transport with
  | .ok (some (.request targeted)), .ok () => some ⟨targeted.id, outcome parse turn targeted⟩
  | _, _ => none

/-- The client's stream ends with a turn, or its transport fails. -/
def Ends (turn : ClientTurn κ γ σ τ) : Prop :=
  match turn.received with
  | .ok (some (.request _)) => turn.transport ≠ .ok ()
  | .ok (some (.response _)) => False
  | _ => True

/-- What a turn owes is sent, and the loop is not left without a reason. -/
def TurnAnswered (s : ClientLoop σ τ) (turn : ClientTurn κ γ σ τ) (u : ClientLoop σ τ) : Prop :=
  u.sent = s.sent ++ (owed parse turn).toList ∧ (u.left = true → Ends turn)

/-- After some turns every request is answered once, in order, under the client's id, nothing else
is sent, and the loop is left only if the client's stream has ended or its transport failed. -/
structure Answered (turns : List (ClientTurn κ γ σ τ)) (s : ClientLoop σ τ) : Prop where
  sent : s.sent = turns.filterMap (owed parse)
  left : s.left = true → ∃ turn ∈ turns.getLast?, Ends turn

/-- A response that the transport would take fits. -/
def Fits (_ : ClientLoop σ τ) (turn : ClientTurn κ γ σ τ) (_ : ClientLoop σ τ) : Prop :=
  ∀ targeted, turn.received = .ok (some (.request targeted)) → turn.transport = .ok () →
    uintLen targeted.id.toNat + rmp.rest (outcome parse turn targeted) ≤ maxCommandSize

variable {rmp : Rmp γ σ τ} {parse : String → Option κ} {s u : ClientLoop σ τ}
  {turn : ClientTurn κ γ σ τ} {turns : List (ClientTurn κ γ σ τ)}
  {targeted : TargetedCommandRequest γ}

theorem writeMessage_eq_ok {name : String} {transport : Result Unit} {writer bytes out : Bytes} :
    writeMessage name transport writer bytes = .ok out ↔
      bytes.length ≤ maxCommandSize ∧ transport = .ok () ∧
        out = writer ++ toBe 4 bytes.length ++ bytes := by
  rw [writeMessage]
  by_cases hlarge : bytes.length > maxCommandSize
  · rw [if_pos hlarge]
    exact ⟨fun h => (by cases h), fun h => absurd h.1 (Nat.not_le.mpr hlarge)⟩
  · rw [if_neg hlarge]
    cases transport with
    | error e => exact ⟨fun h => (by cases h), fun h => (by cases h.2.1)⟩
    | ok =>
      constructor
      · intro h
        exact ⟨Nat.le_of_not_lt hlarge, rfl, (Except.ok.inj h).symm⟩
      · rintro ⟨-, -, rfl⟩
        rfl

/-- A camera's response goes out if it fits. -/
theorem exists_writeCommand {response : CommandResponse (CommandResult σ τ)}
    (hfits : uintLen response.id.toNat + rmp.rest response.result ≤ maxCommandSize) :
    ∃ out, writeCommand rmp (.ok ()) [] (.response response) = .ok out :=
  ⟨_, writeMessage_eq_ok.mpr ⟨(rmp.length_toVec response).trans_le hfits, rfl, rfl⟩⟩

/-- What a camera has written is read as it was encoded. -/
theorem readCommand_writeCommand {transport : Result Unit} {out : Bytes}
    {msg : CommandMessage γ (CommandResult σ τ)}
    (h : writeCommand rmp transport [] msg = .ok out) :
    readCommand rmp out = (rmp.fromSlice (rmp.toVec msg)).map fun msg => (msg, []) := by
  obtain ⟨hfits, -, rfl⟩ := writeMessage_eq_ok.mp h
  have hlen : ofBe (toBe 4 (rmp.toVec msg).length) = (rmp.toVec msg).length :=
    ofBe_toBe_of_lt (Nat.lt_of_le_of_lt hfits (by decide))
  have hread := readExact_append [] (Eq.refl (rmp.toVec msg).length)
  rw [List.append_nil] at hread
  rw [readCommand, readMessage, List.nil_append, readExact_append _ (toBe_length _ _)]
  simp only [bind, Except.bind, hlen, if_neg (Nat.not_lt.mpr hfits), hread]
  cases rmp.fromSlice (rmp.toVec msg) <;> rfl

/-- A response goes out if the transport takes it and it fits; else the loop is left. -/
theorem send_cases (rmp : Rmp γ σ τ) (s : ClientLoop σ τ) (turn : ClientTurn κ γ σ τ)
    (response : CommandResponse (CommandResult σ τ)) :
    turn.transport = .ok () ∧
        uintLen response.id.toNat + rmp.rest response.result ≤ maxCommandSize ∧
        (s.send rmp turn.transport response).sent = s.sent ++ [response] ∧
        (s.send rmp turn.transport response).left = s.left ∨
      ¬ (turn.transport = .ok () ∧
        uintLen response.id.toNat + rmp.rest response.result ≤ maxCommandSize) ∧
        s.send rmp turn.transport response = { s with left := true } := by
  rw [send, writeClientCommand]
  cases hwrite : writeMessage "Client command message" turn.transport s.stream
      (rmp.clientToVec (.response response)) with
  | ok stream =>
    obtain ⟨hlen, htransport, -⟩ := writeMessage_eq_ok.mp hwrite
    exact .inl ⟨htransport, rmp.length_clientToVec response ▸ hlen, rfl, rfl⟩
  | error e =>
    refine .inr ⟨fun ⟨htransport, hfits⟩ => ?_, rfl⟩
    rw [writeMessage_eq_ok.mpr ⟨rmp.length_clientToVec response ▸ hfits, htransport, rfl⟩] at hwrite
    cases hwrite

theorem step_eq_some (h : step rmp parse s turn = some u) : s.left = false := by
  rw [step] at h
  cases hleft : s.left with
  | false => rfl
  | true =>
    rw [hleft] at h
    cases h

/-- A request is answered with what its routing comes to. -/
theorem step_request (hreceived : turn.received = .ok (some (.request targeted)))
    (h : step rmp parse s turn = some u) :
    u = s.send rmp turn.transport ⟨targeted.id, outcome parse turn targeted⟩ := by
  simp only [step, step_eq_some h, hreceived] at h
  rw [outcome]
  cases hparse : parse targeted.targetCamera with
  | none =>
    simp only [hparse] at h
    exact (Option.some.inj h).symm
  | some cameraKey =>
    simp only [hparse] at h
    rw [Option.map_some]
    cases hsend : turn.sendCommand cameraKey targeted.command with
    | ok cameraResp =>
      simp only [hsend] at h
      exact (Option.some.inj h).symm
    | error e =>
      simp only [hsend] at h
      exact (Option.some.inj h).symm

/-- A request is answered exactly if its response fits, or the transport fails anyway. -/
theorem send_answered_iff (hreceived : turn.received = .ok (some (.request targeted)))
    (hleft : s.left = false) :
    TurnAnswered parse s turn
        (s.send rmp turn.transport ⟨targeted.id, outcome parse turn targeted⟩) ↔
      (turn.transport = .ok () →
        uintLen targeted.id.toNat + rmp.rest (outcome parse turn targeted) ≤ maxCommandSize) := by
  rcases send_cases rmp s turn ⟨targeted.id, outcome parse turn targeted⟩
    with ⟨htransport, hfits, hsent, hsendleft⟩ | ⟨hnot, hsend⟩
  · refine iff_of_true ⟨?_, fun h => ?_⟩ fun _ => hfits
    · rw [hsent, owed, hreceived, htransport]
      rfl
    · rw [hsendleft, hleft] at h
      cases h
  · rw [hsend]
    constructor
    · intro h htransport
      have hends := h.2 rfl
      rw [Ends, hreceived] at hends
      exact absurd htransport hends
    · intro hfits
      have hfails : turn.transport ≠ .ok () := fun htransport =>
        hnot ⟨htransport, hfits htransport⟩
      refine ⟨?_, fun _ => ?_⟩
      · rw [owed, hreceived]
        cases htransport : turn.transport with
        | ok => exact absurd htransport hfails
        | error e => exact (List.append_nil _).symm
      · rw [Ends, hreceived]
        exact hfails

theorem turnAnswered_iff (h : step rmp parse s turn = some u) :
    TurnAnswered parse s turn u ↔ Fits rmp parse s turn u := by
  have hleft := step_eq_some h
  -- only a request can fail to be answered
  have hother (hreceived : ∀ targeted, turn.received ≠ .ok (some (.request targeted)))
      (hsent : u.sent = s.sent) (hends : u.left = true → Ends turn) :
      TurnAnswered parse s turn u ↔ Fits rmp parse s turn u := by
    refine iff_of_true ⟨?_, hends⟩ fun targeted hrequest => absurd hrequest (hreceived targeted)
    rw [hsent, owed]
    split
    · next hrequest _ => exact absurd hrequest (hreceived _)
    · exact (List.append_nil _).symm
  cases hreceived : turn.received with
  | error e =>
    refine hother (by simp [hreceived]) ?_ fun _ => by rw [Ends, hreceived]; trivial
    simp only [step, hleft, hreceived] at h
    rw [← Option.some.inj h]
  | ok message =>
    cases message with
    | none =>
      refine hother (by simp [hreceived]) ?_ fun _ => by rw [Ends, hreceived]; trivial
      simp only [step, hleft, hreceived] at h
      rw [← Option.some.inj h]
    | some message =>
      cases message with
      | response response =>
        simp only [step, hleft, hreceived] at h
        obtain rfl : s = u := Option.some.inj h
        refine hother (by simp [hreceived]) rfl fun hu => ?_
        rw [hleft] at hu
        cases hu
      | request targeted =>
        rw [step_request hreceived h, send_answered_iff hreceived hleft]
        refine ⟨fun hfits targeted' hrequest => ?_, fun hfits => hfits targeted hreceived⟩
        rw [hreceived] at hrequest
        cases hrequest
        exact hfits

/-! ## Runs -/

/-- All requests are answered if and only if each turn answers its own. -/
theorem answered_iff_eachStep : (∀ pre t, pre <+: turns → run (step rmp parse) {} pre = some t →
    Answered parse pre t) ↔ EachStep (step rmp parse) (TurnAnswered parse) {} turns := by
  constructor
  · intro h pre turn s u hpre hrun hstep
    have hbefore := h pre s ((List.prefix_append _ _).trans hpre) hrun
    have hafter := h (pre ++ [turn]) u hpre (run_concat_eq_some.mpr ⟨s, hrun, hstep⟩)
    refine ⟨?_, fun hleft => ?_⟩
    · rw [hafter.sent, hbefore.sent, List.filterMap_append]
      cases howed : owed parse turn <;> simp [howed]
    · obtain ⟨last, hlast, hends⟩ := hafter.left hleft
      rw [List.getLast?_concat] at hlast
      exact Option.some.inj hlast ▸ hends
  · intro h pre
    induction pre using List.reverseRecOn with
    | nil =>
      intro t _ hrun
      obtain rfl := Option.some.inj hrun
      exact ⟨rfl, fun hleft => (by cases hleft)⟩
    | append_singleton pre turn ih =>
      intro u hpre hrun
      obtain ⟨s, hs, hstep⟩ := run_concat_eq_some.mp hrun
      have hbefore := ih s ((List.prefix_append _ _).trans hpre) hs
      obtain ⟨hsent, hleft⟩ := h pre turn s u hpre hs hstep
      refine ⟨?_, fun hu => ⟨turn, by simp, hleft hu⟩⟩
      rw [hsent, hbefore.sent, List.filterMap_append]
      cases howed : owed parse turn <;> simp [howed]

/-- **Every client command is answered exactly once**, after any turns, if and only if every
response that the transport would take fits. -/
theorem answered_iff (rmp : Rmp γ σ τ) (parse : String → Option κ)
    (turns : List (ClientTurn κ γ σ τ)) :
    (∀ pre t, pre <+: turns → run (step rmp parse) {} pre = some t → Answered parse pre t) ↔
      EachStep (step rmp parse) (Fits rmp parse) {} turns :=
  answered_iff_eachStep.trans (eachStep_congr fun _ _ _ h => turnAnswered_iff h)

/-! ### A reply of 1 MB -/

/-- The result in MessagePack, without status and recordings. -/
def packResult : CommandResult Empty Empty → Bytes
  | .ok => packStr "Ok"
  | .error message => 0x81 :: (packStr "Error" ++ packStr message)
  | .status status => status.elim
  | .recordingsList _ => 0x81 :: (packStr "RecordingsList" ++ [0x90])
  | .updateStarted updateId => 0x81 :: (packStr "UpdateStarted" ++ 0x91 :: packStr updateId)

/-- A response in MessagePack, under either envelope. -/
def packResponse (response : CommandResponse (CommandResult Empty Empty)) : Bytes :=
  0x81 :: (packStr "Response" ++
    0x92 :: (packUInt response.id.toNat ++ packResult response.result))

theorem packResponse_length (response : CommandResponse (CommandResult Empty Empty)) :
    (packResponse response).length =
      uintLen response.id.toNat + (11 + (packResult response.result).length) := by
  have hname : (packStr "Response").length = 9 := by decide
  simp only [packResponse, List.length_cons, List.length_append, packUInt_length, hname]
  omega

/-- The encoding, with `Command::Reboot` as the only command; a camera's reply is read back. -/
def exampleRmp (reply : CommandResponse (CommandResult Empty Empty)) : Rmp Unit Empty Empty where
  toVec
    | .request request => 0x81 :: (packStr "Request" ++
        0x92 :: (packUInt request.id.toNat ++ packStr "Reboot"))
    | .response response => packResponse response
  fromSlice bytes := if bytes = packResponse reply then .ok (.response reply) else .error "invalid"
  clientToVec
    | .request request => 0x81 :: (packStr "Request" ++
        0x93 :: (packUInt request.id.toNat ++ packStr request.targetCamera ++ packStr "Reboot"))
    | .response response => packResponse response
  rest result := 11 + (packResult result).length
  length_toVec := packResponse_length
  length_clientToVec := packResponse_length

/-- A text of some length. -/
def letters : Nat → String
  | 0 => ""
  | n + 1 => (letters n).push 'a'

theorem letters_size (n : Nat) : (letters n).utf8ByteSize = n := by
  induction n with
  | zero => rfl
  | succ n ih =>
    rw [letters, String.utf8ByteSize_push, ih]
    rfl

theorem packResult_letters_length {n : Nat} (h : 2 ^ 16 ≤ n) :
    (packResult (.error (letters n))).length = n + 12 := by
  have hname : (packStr "Error").length = 6 := by decide
  have hheader : (strHeader n).length = 5 := by
    rw [strHeader, if_neg (by omega), if_neg (by omega), if_neg (by omega), List.length_cons,
      toBe_length]
  rw [packResult, List.length_cons, List.length_append, hname, packStr_length, letters_size,
    hheader]
  omega

/-- The base point of the curve, as a client names the camera. -/
def exampleCamera : String := "5866666666666666666666666666666666666666666666666666666666666666"

def exampleParse (text : String) : Option String := if text = exampleCamera then some text else none

/-- A client reboots the camera, under an id of five bytes, and the camera replies. -/
def exampleTurn (reply : CommandResponse (CommandResult Empty Empty)) :
    ClientTurn String Unit Empty Empty where
  received := .ok (some (.request ⟨65536, exampleCamera, ()⟩))
  sendCommand _ _ := .ok reply
  transport := .ok ()

/-- Every reply of a camera has been read from its stream. -/
def RepliesRead (rmp : Rmp γ σ τ) (turn : ClientTurn κ γ σ τ) : Prop :=
  ∀ cameraKey command reply, turn.sendCommand cameraKey command = .ok reply →
    ∃ reader rest, readCommand rmp reader = .ok (.response reply, rest)

section Reply

variable {reply : CommandResponse (CommandResult Empty Empty)}

/-- A reply that fits under its own id is read. -/
theorem exampleTurn_repliesRead
    (hfits : uintLen reply.id.toNat + (exampleRmp reply).rest reply.result ≤ maxCommandSize) :
    RepliesRead (exampleRmp reply) (exampleTurn reply) := by
  intro cameraKey command reply' hreply
  obtain rfl : reply = reply' := Except.ok.inj hreply
  obtain ⟨out, hwrite⟩ := exists_writeCommand hfits
  have hslice : (exampleRmp reply).fromSlice (packResponse reply) = .ok (.response reply) :=
    if_pos rfl
  refine ⟨out, [], (readCommand_writeCommand hwrite).trans ?_⟩
  show ((exampleRmp reply).fromSlice (packResponse reply)).map _ = _
  rw [hslice]
  rfl

/-- A reply that does not fit under the client's id is not answered. -/
theorem exampleTurn_not_fits
    (hlarge : maxCommandSize < 5 + (exampleRmp reply).rest reply.result)
    (u : ClientLoop Empty Empty) :
    ¬ Fits (exampleRmp reply) exampleParse {} (exampleTurn reply) u := by
  intro h
  have hparse : exampleParse exampleCamera = some exampleCamera := if_pos rfl
  have hfits := h ⟨65536, exampleCamera, ()⟩ rfl rfl
  rw [outcome, hparse] at hfits
  exact absurd hfits (Nat.not_le.mpr hlarge)

end Reply

/-- A camera's error whose response takes exactly 1 MB under an id of one byte is read from the
camera's stream, but not passed on to a client whose id takes five. -/
theorem reply_lost : ¬ ∀ (rmp : Rmp Unit Empty Empty) (parse : String → Option String)
    (turns : List (ClientTurn String Unit Empty Empty)), (∀ turn ∈ turns, RepliesRead rmp turn) →
      ∀ pre t, pre <+: turns → run (step rmp parse) {} pre = some t → Answered parse pre t := by
  intro h
  obtain ⟨reply, hid, hlen⟩ : ∃ reply : CommandResponse (CommandResult Empty Empty),
      reply.id = 1 ∧ (packResult reply.result).length = 1048564 :=
    ⟨⟨1, .error (letters 1048552)⟩, rfl, packResult_letters_length (by decide)⟩
  have hrest : (exampleRmp reply).rest reply.result = 1048575 := congrArg (11 + ·) hlen
  have hread : RepliesRead (exampleRmp reply) (exampleTurn reply) :=
    exampleTurn_repliesRead (by rw [hrest, hid]; decide)
  have hanswered := answered_iff_eachStep.mp
    (h (exampleRmp reply) exampleParse [exampleTurn reply] (by simpa using hread))
  obtain ⟨u, hstep⟩ : ∃ u, step (exampleRmp reply) exampleParse {} (exampleTurn reply) = some u :=
    ⟨_, rfl⟩
  exact exampleTurn_not_fits (by rw [hrest]; decide) u
    ((turnAnswered_iff hstep).mp (hanswered [] _ {} u (List.prefix_refl _) rfl hstep))

end ClientLoop

end Kodama
