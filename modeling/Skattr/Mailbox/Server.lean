import Skattr.Lib.Run
import Skattr.Mailbox.Dispatch

/-!
# The mailbox server

The server's shared state, the accept loop of each connection, and the two background sweeps, as
one transition function over the actions of all connections. A reply that the encoder refuses ends
the accept loop, so the client sees a closed connection.

The abstract mailbox beside it sees only the traffic: `observe` keeps the deposits that the server
has acknowledged, minus those that their recipient has deleted and those that have expired at some
moment. `run_owes` says that the store holds every deposit that the abstract mailbox owes.
-/

namespace Skattr.Mailbox

open Lib Fallible

abbrev ConnId := Nat

/-- The state that all connections share, and the rate limiter of each open connection. -/
structure Server where
  store : Store
  challenges : Challenges
  globalRl : TokenBucket
  conns : Table ConnId ConnRateLimiter

def Server.init (policy : Policy) (nowSecs : ℚ) : Server where
  store := Table.empty
  challenges := Table.empty
  globalRl := TokenBucket.new policy.globalDepositsPerMin nowSecs
  conns := Table.empty

/-- What the accept loop reads next: a frame, a codec error, or the end of the stream, be it by
hang-up, by an I/O error or by the idle timeout. -/
inductive Incoming where
  | frame (frame : MailboxFrame)
  | malformed (kind : TransportErrorKind)
  | ended
  deriving DecidableEq

/-- The random values that a handler may draw. -/
structure Fresh where
  depositId : DepositId
  nonce : Nonce

/-- What the client sees: nothing, a reply frame with its bytes, or a closed connection. -/
inductive Reply where
  | none
  | sent (frame : MailboxFrame) (bytes : Bytes)
  | closed
  deriving DecidableEq

inductive Action where
  | connect (conn : ConnId) (nowSecs : ℚ)
  | receive (conn : ConnId) (incoming : Incoming) (now : Int) (nowSecs : ℚ) (fresh : Fresh)
  | expireSweep (now : Int)
  | challengeSweep (now : Int)

/-- The handler of a frame; a frame that only a server sends is malformed. -/
def dispatch (policy : Policy) (crypto : Crypto) (frame : MailboxFrame) (now : Int) (nowSecs : ℚ)
    (fresh : Fresh) : Handler MailboxFrame :=
  match frame with
  | .deposit body => handleDeposit policy body now nowSecs fresh.depositId
  | .challenge body => handleChallenge body now fresh.nonce
  | .fetch body => handleFetch crypto body now nowSecs
  | .delete body => handleDelete policy crypto body now
  | _ => attempt (.error (.transport (.decodeFailed "unexpected client frame")))

def replyFrame : Except MailboxError MailboxFrame → MailboxFrame
  | .ok frame => frame
  | .error e => errorFrame e

def send (frame : MailboxFrame) : Reply :=
  match encode frame with
  | .ok bytes => .sent frame bytes
  | .error _ => .closed

namespace Server

def ctx (server : Server) (connRl : ConnRateLimiter) : DispatchCtx :=
  ⟨server.store, server.challenges, connRl, server.globalRl⟩

/-- The server after a handler has run on a connection and its reply has been sent. -/
def afterHandler (server : Server) (conn : ConnId) (next : DispatchCtx) (reply : Reply) :
    Server where
  store := next.store
  challenges := next.challenges
  globalRl := next.globalRl
  conns := if reply = .closed then server.conns.delete conn else server.conns.put conn next.connRl

theorem challenges_afterHandler (server : Server) (conn : ConnId) (next : DispatchCtx)
    (reply : Reply) : (server.afterHandler conn next reply).challenges = next.challenges := rfl

theorem store_afterHandler (server : Server) (conn : ConnId) (next : DispatchCtx)
    (reply : Reply) : (server.afterHandler conn next reply).store = next.store := rfl

def receive (policy : Policy) (crypto : Crypto) (server : Server) (conn : ConnId)
    (incoming : Incoming) (now : Int) (nowSecs : ℚ) (fresh : Fresh) : Server × Reply :=
  match server.conns.get conn with
  | none => (server, .none)
  | some connRl =>
    match incoming with
    | .frame frame =>
      let (result, next) :=
        exec (dispatch policy crypto frame now nowSecs fresh) (server.ctx connRl)
      let reply := send (replyFrame result)
      (server.afterHandler conn next reply, reply)
    | .malformed kind =>
      let reply := send (errorFrame (.transport kind))
      (server.afterHandler conn (server.ctx connRl) reply, reply)
    | .ended => ({ server with conns := server.conns.delete conn }, .closed)

def step (policy : Policy) (crypto : Crypto) (server : Server) : Action → Server × Reply
  | .connect conn nowSecs =>
    if server.conns.rows.length < policy.maxConnections ∧ server.conns.get conn = none then
      ({ server with conns := server.conns.put conn (.fromPolicy policy nowSecs) }, .none)
    else (server, .none)
  | .receive conn incoming now nowSecs fresh =>
    server.receive policy crypto conn incoming now nowSecs fresh
  | .expireSweep now => ({ server with store := server.store.expireSweep now }, .none)
  | .challengeSweep now => ({ server with challenges := server.challenges.sweep now }, .none)

end Server

/-! ### The abstract mailbox -/

structure Acked where
  depositId : DepositId
  row : DepositRow
  deriving DecidableEq

def unexpired (now : Int) (owed : List Acked) : List Acked :=
  owed.filter fun d => now ≤ d.row.expiresAt

def observeReply (crypto : Crypto) (owed : List Acked) (request reply : MailboxFrame) (now : Int) :
    List Acked :=
  match request, reply with
  | .deposit body, .depositOk ok =>
    ⟨ok.depositId, ⟨body.recipientHash, body.ciphertext, now, ok.expiresAt⟩⟩ :: owed
  | .delete body, .deleteOk _ =>
    owed.filter fun d => ¬ (d.depositId ∈ body.depositIds ∧
      d.row.recipientHash = crypto.sha256 body.identityPubkey.bytes)
  | _, _ => owed

def observe (crypto : Crypto) (owed : List Acked) : Action → Reply → List Acked
  | .receive _ (.frame request) now _ _, .sent reply _ =>
    observeReply crypto (unexpired now owed) request reply now
  | .receive _ _ now _ _, _ => unexpired now owed
  | .expireSweep now, _ => unexpired now owed
  | _, _ => owed

/-- The server together with the abstract mailbox that watches its traffic. -/
structure World where
  server : Server
  owed : List Acked

def World.step (policy : Policy) (crypto : Crypto) (world : World) (action : Action) : World :=
  let (server, reply) := world.server.step policy crypto action
  ⟨server, observe crypto world.owed action reply⟩

def World.init (policy : Policy) (nowSecs : ℚ) : World := ⟨Server.init policy nowSecs, []⟩

def World.run (policy : Policy) (crypto : Crypto) (world : World) (actions : List Action) : World :=
  actions.foldl (World.step policy crypto) world

def Owes (world : World) : Prop :=
  ∀ d ∈ world.owed, (d.depositId, d.row) ∈ world.server.store.rows

variable {policy : Policy} {crypto : Crypto}

variable {frame : MailboxFrame} {now : Int} {result : Except MailboxError MailboxFrame}
  {next ctx : DispatchCtx} {owed : List Acked} {fresh : Fresh} {nowSecs : ℚ}

theorem dispatch_cases
    (h : exec (dispatch policy crypto frame now nowSecs fresh) ctx = (result, next)) :
    (∃ body expiresAt, frame = .deposit body ∧
      result = .ok (.depositOk ⟨fresh.depositId, expiresAt⟩) ∧
      ctx.store.insert fresh.depositId ⟨body.recipientHash, body.ciphertext, now, expiresAt⟩
        policy.recipientCapBytes policy.globalStorageCapBytes policy.maxRecipients now =
        .ok next.store) ∨
    (∃ body counts, frame = .delete body ∧ result = .ok (.deleteOk counts) ∧
      ctx.store.delete (crypto.sha256 body.identityPubkey.bytes) body.depositIds =
        (next.store, counts)) ∨
    (next.store = ctx.store ∧
      ∀ owed, observeReply crypto owed frame (replyFrame result) now = owed) := by
  cases frame with
  | deposit body =>
    rcases handleDeposit_spec h with ⟨expiresAt, rfl, hinsert⟩ | ⟨e, rfl, hstore⟩
    · exact .inl ⟨body, expiresAt, rfl, rfl, hinsert⟩
    · exact .inr (.inr ⟨hstore, fun _ => rfl⟩)
  | delete body =>
    rcases handleDelete_spec h with ⟨counts, rfl, hdelete⟩ | ⟨e, rfl, hstore⟩
    · exact .inr (.inl ⟨body, counts, rfl, rfl, hdelete⟩)
    · exact .inr (.inr ⟨hstore, fun _ => rfl⟩)
  | challenge body =>
    have hstore := handleChallenge_sameStore body now fresh.nonce ctx
    rw [show exec (handleChallenge body now fresh.nonce) ctx = (result, next) from h] at hstore
    exact .inr (.inr ⟨hstore, fun _ => rfl⟩)
  | fetch body =>
    have hstore := handleFetch_sameStore crypto body now nowSecs ctx
    rw [show exec (handleFetch crypto body now nowSecs) ctx = (result, next) from h] at hstore
    exact .inr (.inr ⟨hstore, fun _ => rfl⟩)
  | depositOk body | challengeNonce body | fetchResponse body | deleteOk body | error body =>
    simp only [dispatch, exec_attempt] at h
    cases h
    exact .inr (.inr ⟨rfl, fun _ => rfl⟩)

theorem send_of_fits (hfit : 1 + frame.encodeCbor.length ≤ MAX_FRAME_SIZE) :
    ∃ bytes, send frame = .sent frame bytes := by
  obtain ⟨bytes, hbytes⟩ := encode_eq_ok_iff.mpr hfit
  exact ⟨bytes, by rw [send, hbytes]⟩

theorem send_of_two_fields {name name' : String} {value value' : Bytes}
    (hframe : frame.encodeCbor = Cbor.map [(name, value), (name', value')])
    (hnames : (Cbor.text name).length + (Cbor.text name').length ≤ 100)
    (hvalues : value.length + value'.length ≤ 1000) : ∃ bytes, send frame = .sent frame bytes := by
  apply send_of_fits
  have hhead := Cbor.headSize_le (0 + 1 + 1)
  rw [hframe, Cbor.length_map]
  simp only [List.map_cons, List.map_nil, List.sum_cons, List.sum_nil, List.length_cons,
    List.length_nil, MAX_FRAME_SIZE]
  omega

theorem send_deleteOk (counts : DeleteOk) :
    ∃ bytes, send (.deleteOk counts) = .sent (.deleteOk counts) bytes := by
  have hdeleted := Cbor.headSize_le counts.deleted
  have hnotFound := Cbor.headSize_le counts.notFound
  refine send_of_two_fields rfl (by decide) ?_
  rw [Cbor.length_uint, Cbor.length_uint]
  omega

theorem send_depositOk (ok : DepositOk) :
    ∃ bytes, send (.depositOk ok) = .sent (.depositOk ok) bytes := by
  have hid := Cbor.byteSeqSize_arr_le ok.depositId
  have hexpires := Cbor.intSize_le ok.expiresAt
  refine send_of_two_fields rfl (by decide) ?_
  rw [Cbor.length_byteSeq, Cbor.length_int]
  omega

theorem send_challengeNonce (challenge : ChallengeNonce) :
    ∃ bytes, send (.challengeNonce challenge) = .sent (.challengeNonce challenge) bytes := by
  have hnonce := Cbor.byteSeqSize_arr_le challenge.nonce
  have hissued := Cbor.intSize_le challenge.issuedAt
  refine send_of_two_fields rfl (by decide) ?_
  rw [Cbor.length_byteSeq, Cbor.length_int]
  omega

theorem mem_unexpired {d : Acked} : d ∈ unexpired now owed ↔ d ∈ owed ∧ now ≤ d.row.expiresAt := by
  simp [unexpired, List.mem_filter]

theorem owes_after_dispatch {conn : ConnId}
    (h : exec (dispatch policy crypto frame now nowSecs fresh) ctx = (result, next))
    (howes : ∀ d ∈ owed, (d.depositId, d.row) ∈ ctx.store.rows) :
    ∀ d ∈ observe crypto owed (.receive conn (.frame frame) now nowSecs fresh)
      (send (replyFrame result)), (d.depositId, d.row) ∈ next.store.rows := by
  rcases dispatch_cases h with ⟨body, expiresAt, rfl, rfl, hinsert⟩ |
      ⟨body, counts, rfl, rfl, hdelete⟩ | ⟨hstore, hquiet⟩
  · -- an eviction to make room takes only rows that have expired
    obtain ⟨room, hroom, hrows⟩ := Store.insert_spec hinsert
    have hkept : ∀ d ∈ unexpired now owed, (d.depositId, d.row) ∈ next.store.rows := by
      intro d hd
      obtain ⟨hmem, hlive⟩ := mem_unexpired.mp hd
      rw [hrows]
      exact List.mem_append_left _ (hroom.live _ (howes d hmem) hlive)
    intro d hd
    unfold send at hd
    split at hd
    -- the deposit is owed from its acknowledgement on
    · rcases List.mem_cons.mp hd with rfl | hold
      · rw [hrows]
        exact List.mem_append_right _ (by simp)
      · exact hkept d hold
    · exact hkept d hd
  · obtain ⟨bytes, hsent⟩ := send_deleteOk counts
    intro d hd
    rw [replyFrame, hsent] at hd
    obtain ⟨hold, hother⟩ := List.mem_filter.mp hd
    have hmem := howes d (mem_unexpired.mp hold).1
    have hkeep := Store.mem_delete body.depositIds hmem
      (not_and_or.mp (of_decide_eq_true hother))
    rwa [hdelete] at hkeep
  · intro d hd
    rw [hstore]
    unfold send at hd
    split at hd
    · simp only [observe, hquiet] at hd
      exact howes d (mem_unexpired.mp hd).1
    · exact howes d (mem_unexpired.mp hd).1

theorem step_owes (world : World) (action : Action) (h : Owes world) :
    Owes (world.step policy crypto action) := by
  cases action with
  | connect conn nowSecs =>
    intro d hd
    simp only [World.step, Server.step] at hd ⊢
    split <;> exact h d hd
  | receive conn incoming now nowSecs fresh =>
    have hkeep : ∀ d ∈ unexpired now world.owed, (d.depositId, d.row) ∈ world.server.store.rows :=
      fun d hd => h d (mem_unexpired.mp hd).1
    simp only [World.step, Server.step, Server.receive]
    cases hconn : world.server.conns.get conn with
    | none => cases incoming <;> exact hkeep
    | some connRl =>
      cases incoming with
      | frame frame =>
        have hexec : exec (dispatch policy crypto frame now nowSecs fresh)
          (world.server.ctx connRl) = (_, _) := rfl
        exact owes_after_dispatch hexec h
      | malformed kind =>
        intro d hd
        exact hkeep d (by cases hsend : send (errorFrame (.transport kind)) <;>
          simpa [observe, hsend] using hd)
      | ended => exact hkeep
  | expireSweep now =>
    intro d hd
    obtain ⟨hmem, hlive⟩ := mem_unexpired.mp hd
    exact Store.mem_expireSweep (h d hmem) hlive
  | challengeSweep now => exact h

theorem run_owes (actions : List Action) {world : World} (h : Owes world) :
    Owes (world.run policy crypto actions) :=
  foldl_invariant step_owes actions h

end Skattr.Mailbox
