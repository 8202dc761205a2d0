import Skattr.Core.Basic
import Skattr.Lib.Framing
import Skattr.Lib.Run

/-!
# The IPC connection

The daemon's connection handler races the frame reader against the event bus. The reader keeps
the bytes of an unfinished frame in its own buffers, so an event that wins the race drops them.
`requests_kept_iff` says exactly which runs keep every request: those in which no event is taken
from the bus while the reader holds part of a frame. `split_request_lost` is a run that loses one.
-/

namespace Skattr.Core.Ipc

open Lib Lib.Framing

def MAX_IPC_BODY : Nat := 1024 * 1024

/-- The events that the subscription filters tell apart. -/
inductive Event where
  | torStatusChanged
  | messageReceived (contact : PublicKey)
  | contactUpdated (contact : PublicKey)
  | contactRemoved (contact : PublicKey)
  | deliveryStatusChanged
  | mailboxStatusChanged
  | contactCardReceived (contact : PublicKey)
  | logRecord
  | attachmentReceived (contact : PublicKey)
  | attachmentProgress
  | attachmentFailed
  deriving DecidableEq

inductive EventFilter where
  | all
  | contact (peer : PublicKey)
  | torStatus
  | messages (contact : Option PublicKey)
  | mailboxes
  | delivery
  | logs
  deriving DecidableEq

def eventMatches (event : Event) : Option EventFilter → Bool
  | none => false
  | some filter =>
    match filter, event with
    | .all, _ => true
    | .torStatus, .torStatusChanged => true
    | .contact peer, .messageReceived contact => contact = peer
    | .contact _, .deliveryStatusChanged => true
    | .contact _, .contactUpdated _ => true
    | .contact peer, .contactRemoved contact => contact = peer
    | .contact peer, .contactCardReceived contact => contact = peer
    | .messages none, .messageReceived _ => true
    | .messages (some peer), .messageReceived contact => peer = contact
    | .mailboxes, .mailboxStatusChanged => true
    | .delivery, .deliveryStatusChanged => true
    | .logs, .logRecord => true
    | _, _ => false

inductive CodecError where
  | io
  | frameTooLarge (got max : Nat)
  | emptyFrame
  | cbor (message : String)
  deriving DecidableEq

variable {Cmd Res Err : Type}

inductive IpcRequest (Cmd : Type) where
  | execute (cmd : Cmd)
  | subscribe (filter : EventFilter)
  | shutdown
  deriving DecidableEq

/-- A wire error; the executor has further ones. -/
inductive IpcError (Err : Type) where
  | codec (message : String)
  | frameTooLarge (got max : Nat)
  | executor (error : Err)
  deriving DecidableEq

/-- A response frame. `ok` and `subscribed` are the results that the handler itself sends. -/
inductive IpcResponse (Res Err : Type) where
  | result (result : Res)
  | ok
  | subscribed
  | err (error : IpcError Err)
  | event (event : Event)
  | bye
  deriving DecidableEq

/-! ### Reading a frame -/

/-- What a poll of the frame reader yields: it waits for more with the bytes it holds, it fails on
the announced length, or it has a whole body. -/
inductive ReadPoll where
  | pending (got : Bytes)
  | refused (got : Bytes) (error : CodecError)
  | ready (body : Bytes)
  deriving DecidableEq

/-- The number of bytes that the reader asks the stream for: the rest of the length field, or the
rest of the body. -/
def wanted (got : Bytes) : Nat :=
  if got.length < 4 then 4 - got.length else 4 + announced got - got.length

def readFrame (got : Bytes) : ReadPoll :=
  if got.length < 4 then .pending got
  else if announced got = 0 then .refused got .emptyFrame
  else if announced got > MAX_IPC_BODY then
    .refused got (.frameTooLarge (announced got) MAX_IPC_BODY)
  else if got.length < 4 + announced got then .pending got
  else .ready (got.drop 4)

/-! ### The connection handler -/

/-- A connection: what the client has sent and what of it is still unread, the bytes that the
pending frame reader holds, and what the handler has done. -/
structure Conn (Cmd Res Err : Type) where
  sent : Bytes
  unread : Bytes
  got : Bytes
  subscribed : Option EventFilter
  isOpen : Bool
  handled : List Bytes
  executed : List (IpcRequest Cmd)
  written : List (IpcResponse Res Err)

def Conn.init : Conn Cmd Res Err := ⟨[], [], [], none, true, [], [], []⟩

/-- What the handler's surroundings answer while it handles a request. -/
structure Env (Cmd Res Err : Type) where
  execute : Cmd → Except Err Res
  wipe : Bool
  torStatus : Bool
  writeOk : Bool
  replayOk : Bool

def Conn.close (conn : Conn Cmd Res Err) : Conn Cmd Res Err :=
  { conn with isOpen := false, written := conn.written ++ [.bye] }

def Conn.write (conn : Conn Cmd Res Err) (response : IpcResponse Res Err) (writeOk : Bool) :
    Conn Cmd Res Err :=
  if writeOk then { conn with written := conn.written ++ [response] } else conn.close

def Conn.handle (conn : Conn Cmd Res Err) (request : IpcRequest Cmd) (env : Env Cmd Res Err) :
    Conn Cmd Res Err :=
  let conn := { conn with executed := conn.executed ++ [request] }
  match request with
  | .execute cmd =>
    match env.execute cmd with
    | .ok result =>
      -- without a subscription one reply ends the connection, and a wipe always does
      let next := conn.write (.result result) env.writeOk
      if next.isOpen ∧ (conn.subscribed = none ∨ env.wipe) then next.close else next
    | .error e =>
      -- an error reply is terminal for a subscriber too
      let next := conn.write (.err (.executor e)) env.writeOk
      if next.isOpen then next.close else next
  | .subscribe filter =>
    let next := { conn with subscribed := some filter }.write .subscribed env.writeOk
    if next.isOpen ∧ env.torStatus ∧ eventMatches .torStatusChanged next.subscribed then
      next.write (.event .torStatusChanged) env.replayOk
    else next
  | .shutdown => (conn.write .ok true).close

/-- Handle a whole frame; the reader that read it is done. A body that is not a request is
answered with an error, and the loop goes on. -/
def Conn.handleBody (decode : Bytes → Except String (IpcRequest Cmd)) (conn : Conn Cmd Res Err)
    (body : Bytes) (env : Env Cmd Res Err) : Conn Cmd Res Err :=
  let conn := { conn with got := [], handled := conn.handled ++ [body] }
  match decode body with
  | .ok request => conn.handle request env
  | .error message => { conn with written := conn.written ++ [.err (.codec message)] }

def refusal : CodecError → IpcError Err
  | .frameTooLarge got max => .frameTooLarge got max
  | _ => .codec "empty frame"

/-- What can happen on a connection: bytes arrive in pieces of any size, the reader is polled and
receives up to `count` bytes, an event is taken from the bus (`none` when the subscriber lagged),
or the stream ends. -/
inductive Action (Cmd Res Err : Type) where
  | arrive (bytes : Bytes)
  | poll (count : Nat) (env : Env Cmd Res Err)
  | event (event : Option Event) (writeOk : Bool)
  | hangUp

def Conn.poll (decode : Bytes → Except String (IpcRequest Cmd)) (conn : Conn Cmd Res Err)
    (count : Nat) (env : Env Cmd Res Err) : Conn Cmd Res Err :=
  let taken := min count (wanted conn.got)
  let conn := { conn with
    got := conn.got ++ conn.unread.take taken
    unread := conn.unread.drop taken }
  match readFrame conn.got with
  | .pending _ => conn
  | .refused _ error =>
    Conn.close { conn with written := conn.written ++ [.err (refusal error)] }
  | .ready body => conn.handleBody decode body env

/-- Take an event from the bus. The losing frame reader is dropped with the bytes it holds. -/
def Conn.takeEvent (conn : Conn Cmd Res Err) (event : Option Event) (writeOk : Bool) :
    Conn Cmd Res Err :=
  let conn := { conn with got := [] }
  match event with
  | some event =>
    if eventMatches event conn.subscribed then conn.write (.event event) writeOk else conn
  | none => conn

/-- One step of a connection. A closed connection does nothing, and there is no event before a
subscription. -/
def Conn.step (decode : Bytes → Except String (IpcRequest Cmd)) (conn : Conn Cmd Res Err) :
    Action Cmd Res Err → Conn Cmd Res Err
  | .arrive bytes => { conn with sent := conn.sent ++ bytes, unread := conn.unread ++ bytes }
  | .poll count env => if conn.isOpen then conn.poll decode count env else conn
  | .event event writeOk =>
    if conn.isOpen ∧ conn.subscribed ≠ none then conn.takeEvent event writeOk else conn
  | .hangUp => if conn.isOpen then conn.close else conn

/-! ### What a step keeps -/

def Conn.stream (conn : Conn Cmd Res Err) : Bytes × Bytes × Bytes × List Bytes :=
  (conn.sent, conn.unread, conn.got, conn.handled)

@[simp] theorem Conn.stream_write (conn : Conn Cmd Res Err) (response : IpcResponse Res Err)
    (writeOk : Bool) : (conn.write response writeOk).stream = conn.stream := by
  cases writeOk <;> rfl

@[simp] theorem Conn.executed_write (conn : Conn Cmd Res Err) (response : IpcResponse Res Err)
    (writeOk : Bool) : (conn.write response writeOk).executed = conn.executed := by
  cases writeOk <;> rfl

theorem Conn.handle_spec (conn : Conn Cmd Res Err) (request : IpcRequest Cmd)
    (env : Env Cmd Res Err) :
    (conn.handle request env).stream = conn.stream ∧
      (conn.handle request env).executed = conn.executed ++ [request] := by
  cases request with
  | execute cmd =>
    cases hexecute : env.execute cmd <;> simp only [Conn.handle, hexecute] <;> split <;>
      exact ⟨Conn.stream_write .., Conn.executed_write ..⟩
  | subscribe filter =>
    simp only [Conn.handle]
    split
    · exact ⟨(Conn.stream_write ..).trans (Conn.stream_write ..),
        (Conn.executed_write ..).trans (Conn.executed_write ..)⟩
    · exact ⟨Conn.stream_write .., Conn.executed_write ..⟩
  | shutdown => exact ⟨rfl, rfl⟩

/-- What holds of a connection in every run: the handled bodies are sendable, the pending bytes do
not complete a frame, and every handled request was executed once, in order. -/
structure Conn.Inv (decode : Bytes → Except String (IpcRequest Cmd)) (conn : Conn Cmd Res Err) :
    Prop where
  sendable : ∀ body ∈ conn.handled, Sendable MAX_IPC_BODY body
  incomplete : Incomplete MAX_IPC_BODY conn.got
  executed : conn.executed = conn.handled.filterMap fun body => (decode body).toOption

/-- The byte stream is in frame sync: what the client sent is the handled frames, then the bytes
that the reader holds, then the unread bytes. -/
def Conn.InSync (conn : Conn Cmd Res Err) : Prop :=
  conn.sent = frames conn.handled ++ conn.got ++ conn.unread

variable {got : Bytes} {decode : Bytes → Except String (IpcRequest Cmd)} {conn : Conn Cmd Res Err}

theorem announced_append (h : 4 ≤ got.length) (more : Bytes) :
    announced (got ++ more) = announced got := by
  rw [announced, announced, List.take_append_of_le_length h]

theorem readFrame_ready {more body : Bytes} (hgot : Incomplete MAX_IPC_BODY got)
    (hmore : more.length ≤ wanted got) (h : readFrame (got ++ more) = .ready body) :
    Sendable MAX_IPC_BODY body ∧ got ++ more = frame body := by
  unfold readFrame at h
  split at h
  · cases h
  split at h
  · cases h
  split at h
  · cases h
  split at h
  · cases h
  next hfour hzero hbig hwhole =>
  cases h
  -- the reader asks for the length field and for the body in turn, never for both
  have hlong : 4 ≤ got.length := by
    by_contra hshort
    rw [wanted, if_pos (by omega)] at hmore
    rw [List.length_append] at hwhole
    omega
  have hannounced := announced_append hlong more
  rw [wanted, if_neg (by omega)] at hmore
  have hlength : (got ++ more).length = 4 + announced (got ++ more) := by
    rw [hannounced] at hzero hbig hwhole ⊢
    rw [List.length_append] at hwhole ⊢
    unfold Incomplete at hgot
    omega
  have hbody : ((got ++ more).drop 4).length = announced (got ++ more) := by
    rw [List.length_drop]
    omega
  refine ⟨⟨by omega, by omega⟩, ?_⟩
  have hhead : beBytes 4 (announced (got ++ more)) = (got ++ more).take 4 := by
    have htake : ((got ++ more).take 4).length = 4 := by
      rw [List.length_take]
      omega
    have hback := beBytes_ofBe ((got ++ more).take 4)
    rwa [htake] at hback
  rw [frame, hbody, hhead, List.take_append_drop]

theorem readFrame_incomplete (h : ∀ body, readFrame got ≠ .ready body) :
    Incomplete MAX_IPC_BODY got := by
  by_contra hcomplete
  simp only [Incomplete, not_or] at hcomplete
  obtain ⟨hfour, hzero, hbig, hwhole⟩ := hcomplete
  refine h (got.drop 4) ?_
  rw [readFrame, if_neg (by omega), if_neg hzero, if_neg (by omega), if_neg (by omega)]

theorem Conn.handleBody_spec (decode : Bytes → Except String (IpcRequest Cmd))
    (conn : Conn Cmd Res Err) (body : Bytes) (env : Env Cmd Res Err) :
    (conn.handleBody decode body env).stream =
        (conn.sent, conn.unread, [], conn.handled ++ [body]) ∧
      (conn.handleBody decode body env).executed =
        conn.executed ++ (decode body).toOption.toList := by
  cases hdecode : decode body with
  | ok request =>
    simp only [Conn.handleBody, hdecode]
    obtain ⟨hstream, hexecuted⟩ := Conn.handle_spec
      { conn with got := [], handled := conn.handled ++ [body] } request env
    exact ⟨hstream, hexecuted⟩
  | error message =>
    simp only [Conn.handleBody, hdecode]
    exact ⟨rfl, (List.append_nil _).symm⟩

/-- What a poll did: it moved some unread bytes to the reader, and it went on waiting, or gave up,
with an incomplete frame, or it handled the whole frame that it had read. -/
theorem Conn.poll_cases (hinv : Incomplete MAX_IPC_BODY conn.got) (count : Nat)
    (env : Env Cmd Res Err) :
    ∃ more rest, conn.unread = more ++ rest ∧
      ((Incomplete MAX_IPC_BODY (conn.got ++ more) ∧
        (conn.poll decode count env).stream = (conn.sent, rest, conn.got ++ more, conn.handled) ∧
        (conn.poll decode count env).executed = conn.executed) ∨
      ∃ body, Sendable MAX_IPC_BODY body ∧ conn.got ++ more = frame body ∧
        (conn.poll decode count env).stream = (conn.sent, rest, [], conn.handled ++ [body]) ∧
        (conn.poll decode count env).executed =
          conn.executed ++ (decode body).toOption.toList) := by
  have hmore : (conn.unread.take (min count (wanted conn.got))).length ≤ wanted conn.got := by
    rw [List.length_take]
    omega
  refine ⟨_, _, (List.take_append_drop (min count (wanted conn.got)) conn.unread).symm, ?_⟩
  simp only [Conn.poll]
  cases hread : readFrame (conn.got ++ conn.unread.take (min count (wanted conn.got))) with
  | pending | refused =>
    exact .inl ⟨readFrame_incomplete (by simp [hread]), rfl, rfl⟩
  | ready body =>
    obtain ⟨hbody, hframe⟩ := readFrame_ready hinv hmore hread
    exact .inr ⟨body, hbody, hframe, Conn.handleBody_spec decode _ body env⟩

theorem Conn.takeEvent_spec (conn : Conn Cmd Res Err) (event : Option Event) (writeOk : Bool) :
    (conn.takeEvent event writeOk).stream = (conn.sent, conn.unread, [], conn.handled) ∧
      (conn.takeEvent event writeOk).executed = conn.executed := by
  cases event with
  | none => exact ⟨rfl, rfl⟩
  | some event =>
    simp only [Conn.takeEvent]
    split
    · exact ⟨Conn.stream_write _ _ _, Conn.executed_write _ _ _⟩
    · exact ⟨rfl, rfl⟩

theorem Conn.Inv.of_handled_eq {next : Conn Cmd Res Err} (h : conn.Inv decode)
    (hhandled : next.handled = conn.handled) (hexecuted : next.executed = conn.executed)
    (hgot : Incomplete MAX_IPC_BODY next.got) : next.Inv decode := by
  refine ⟨?_, hgot, ?_⟩
  · rw [hhandled]
    exact h.sendable
  · rw [hexecuted, hhandled]
    exact h.executed

theorem incomplete_nil : Incomplete MAX_IPC_BODY [] := .inl (by decide)

theorem Conn.step_inv (conn : Conn Cmd Res Err) (action : Action Cmd Res Err) (h : conn.Inv decode)
    :
    (conn.step decode action).Inv decode := by
  cases action with
  | arrive bytes => exact ⟨h.sendable, h.incomplete, h.executed⟩
  | poll count env =>
    simp only [Conn.step]
    split
    · obtain ⟨more, rest, -, hcases⟩ := Conn.poll_cases h.incomplete count env
      rcases hcases with ⟨hincomplete, hstream, hexecuted⟩ |
        ⟨body, hbody, -, hstream, hexecuted⟩
      · simp only [Conn.stream, Prod.mk.injEq] at hstream
        obtain ⟨-, -, hgot, hhandled⟩ := hstream
        exact h.of_handled_eq hhandled hexecuted (hgot ▸ hincomplete)
      · simp only [Conn.stream, Prod.mk.injEq] at hstream
        obtain ⟨-, -, hgot, hhandled⟩ := hstream
        refine ⟨?_, hgot ▸ incomplete_nil, ?_⟩
        · rw [hhandled]
          intro other hother
          rcases List.mem_append.mp hother with hold | hnew
          · exact h.sendable other hold
          · rw [List.mem_singleton.mp hnew]
            exact hbody
        · rw [hexecuted, hhandled, h.executed, List.filterMap_append]
          cases hdecode : decode body <;> simp [hdecode, Except.toOption]
    · exact h
  | event event writeOk =>
    simp only [Conn.step]
    split
    · obtain ⟨hstream, hexecuted⟩ := conn.takeEvent_spec event writeOk
      simp only [Conn.stream, Prod.mk.injEq] at hstream
      obtain ⟨-, -, hgot, hhandled⟩ := hstream
      exact h.of_handled_eq hhandled hexecuted (hgot ▸ incomplete_nil)
    · exact h
  | hangUp =>
    simp only [Conn.step]
    split
    · exact ⟨h.sendable, h.incomplete, h.executed⟩
    · exact h

/-- No event is taken from the bus while the reader holds part of a frame. -/
def QuietRead (conn : Conn Cmd Res Err) : Action Cmd Res Err → Prop
  | .event _ _ => conn.isOpen → conn.subscribed ≠ none → conn.got = []
  | _ => True

theorem Conn.step_inSync_iff (conn : Conn Cmd Res Err) (action : Action Cmd Res Err)
    (hinv : conn.Inv decode) (h : conn.InSync) :
    (conn.step decode action).InSync ↔ QuietRead conn action := by
  cases action with
  | arrive bytes =>
    refine iff_of_true ?_ trivial
    simp only [Conn.step, Conn.InSync] at h ⊢
    rw [h]
    simp only [List.append_assoc]
  | poll count env =>
    refine iff_of_true ?_ trivial
    simp only [Conn.step]
    split
    · obtain ⟨more, rest, hunread, hcases⟩ := Conn.poll_cases hinv.incomplete count env
      unfold Conn.InSync at h ⊢
      rw [hunread] at h
      rcases hcases with ⟨-, hstream, -⟩ | ⟨body, -, hframe, hstream, -⟩
      · simp only [Conn.stream, Prod.mk.injEq] at hstream
        obtain ⟨hsent, hrest, hgot, hhandled⟩ := hstream
        rw [hsent, hrest, hgot, hhandled, h]
        simp only [List.append_assoc]
      · simp only [Conn.stream, Prod.mk.injEq] at hstream
        obtain ⟨hsent, hrest, hgot, hhandled⟩ := hstream
        rw [hsent, hrest, hgot, hhandled, h, frames_append, frames_cons, ← hframe]
        simp only [frames_nil, List.append_assoc, List.append_nil]
    · exact h
  | event event writeOk =>
    simp only [Conn.step, QuietRead]
    split
    · next hready =>
      obtain ⟨hstream, -⟩ := conn.takeEvent_spec event writeOk
      simp only [Conn.stream, Prod.mk.injEq] at hstream
      obtain ⟨hsent, hunread, hgot, hhandled⟩ := hstream
      have hlost : (conn.takeEvent event writeOk).InSync ↔ conn.got = [] := by
        unfold Conn.InSync at h ⊢
        rw [hsent, hunread, hgot, hhandled, h, List.append_nil, List.append_cancel_right_eq]
        exact List.append_right_eq_self
      rw [hlost]
      exact ⟨fun hgot _ _ => hgot, fun hquiet => hquiet hready.1 hready.2⟩
    · next hidle => exact iff_of_true h fun hopen hsub => absurd ⟨hopen, hsub⟩ hidle
  | hangUp =>
    refine iff_of_true ?_ trivial
    simp only [Conn.step]
    split
    · exact h
    · exact h

/-- Every request is kept: the stream is in frame sync, the handled frames were executed exactly
once and in order, and once an open connection has no unread bytes, they are all the complete
frames that the client has sent. -/
structure Conn.RequestsKept (decode : Bytes → Except String (IpcRequest Cmd))
    (conn : Conn Cmd Res Err) : Prop where
  inSync : conn.InSync
  executed : conn.executed = conn.handled.filterMap fun body => (decode body).toOption
  complete : conn.isOpen → conn.unread = [] → ∀ bodies : List Bytes,
    (∀ body ∈ bodies, Sendable MAX_IPC_BODY body) → frames bodies <+: conn.sent →
    bodies <+: conn.handled

theorem Conn.Inv.requestsKept (h : conn.Inv decode) (hsync : conn.InSync) :
    conn.RequestsKept decode := by
  refine ⟨hsync, h.executed, fun _ hdrained bodies hbodies hsent => ?_⟩
  unfold Conn.InSync at hsync
  rw [hdrained, List.append_nil] at hsync
  exact frames_prefix (by decide) hbodies h.sendable h.incomplete (hsync ▸ hsent)

/-- A connection keeps every request in every state of a run exactly when no event of the run is
taken while the reader holds part of a frame. -/
theorem requests_kept_iff (decode : Bytes → Except String (IpcRequest Cmd))
    (actions : List (Action Cmd Res Err)) :
    Along (Conn.step decode) (Conn.RequestsKept decode) Conn.init actions ↔
      Meets (Conn.step decode) QuietRead Conn.init actions := by
  have hinit : (Conn.init : Conn Cmd Res Err).Inv decode :=
    ⟨fun body hbody => absurd hbody List.not_mem_nil, incomplete_nil, rfl⟩
  constructor
  · intro hkept
    refine meets_of_along (fun conn action hinv h hnext => ?_)
      (along_of_step Conn.step_inv hinit actions) hkept
    exact (conn.step_inSync_iff action hinv h.inSync).mp hnext.inSync
  · intro hquiet
    have hsync : Along (Conn.step decode) (fun conn => conn.Inv decode ∧ conn.InSync)
        (Conn.init : Conn Cmd Res Err) actions :=
      along_of_meets (fun conn action h hquiet => ⟨conn.step_inv action h.1,
        (conn.step_inSync_iff action h.1 h.2).mpr hquiet⟩) ⟨hinit, rfl⟩ hquiet
    exact hsync.imp fun conn h => h.1.requestsKept h.2

/-! ### A lost request -/

def tinyDecode : Bytes → Except String (IpcRequest Unit)
  | [1] => .ok (.subscribe .all)
  | [2] => .ok (.execute ())
  | _ => .error "unknown request"

def tinyEnv : Env Unit Unit Unit := ⟨fun _ => .ok (), false, false, true, true⟩

/-- The client subscribes and then sends an `Execute` frame in two pieces; an event is delivered
after the first piece was read. -/
def splitRequest : List (Action Unit Unit Unit) :=
  [.arrive (frame [1]), .poll 4 tinyEnv, .poll 1 tinyEnv,
    .arrive [0, 0], .poll 2 tinyEnv, .event (some .torStatusChanged) true,
    .arrive [0, 1, 2], .poll 4 tinyEnv]

/-- The complete `Execute` frame is never executed: the connection is open, nothing is unread, and
only the subscription was handled. -/
theorem split_request_lost :
    (splitRequest.foldl (Conn.step tinyDecode) Conn.init).sent = frames [[1], [2]] ∧
      (splitRequest.foldl (Conn.step tinyDecode) Conn.init).isOpen = true ∧
      (splitRequest.foldl (Conn.step tinyDecode) Conn.init).unread = [] ∧
      (splitRequest.foldl (Conn.step tinyDecode) Conn.init).executed = [.subscribe .all] ∧
      ¬ (splitRequest.foldl (Conn.step tinyDecode) Conn.init).RequestsKept tinyDecode := by
  have hsent : (splitRequest.foldl (Conn.step tinyDecode) Conn.init).sent = frames [[1], [2]] := by
    decide
  have hhandled : (splitRequest.foldl (Conn.step tinyDecode) Conn.init).handled = [[1]] := by
    decide
  refine ⟨hsent, by decide, by decide, by decide, fun hkept => ?_⟩
  have hall := hkept.complete (by decide) (by decide) [[1], [2]] (by decide)
    (hsent ▸ List.prefix_refl _)
  rw [hhandled] at hall
  exact absurd hall.length_le (by decide)

end Skattr.Core.Ipc
