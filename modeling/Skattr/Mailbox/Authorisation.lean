import Mathlib.Data.Set.Function
import Skattr.Mailbox.Server

/-!
# Authorisation of fetches and deletes

A fetch or delete handler takes two locks in turn: it checks its request against the challenge
table and then works on the store. Here the two halves are separate steps, so that the handlers of
other connections and the sweeps run in between. The world keeps a history beside the server:
every nonce that was issued, in order, and every operation that was carried out, with the place of
the nonce that authorised it in that order.

`Inv` says that an outstanding nonce has not been used, that no two operations share one, and that
every operation was authorised by a nonce issued to the hash of its key at most thirty seconds
before. `nonces_authorise_once` reads off what this means for the owner of a deposit.
-/

namespace Skattr.Mailbox

open Lib Fallible

/-! ### What a request signs -/

/-- An operation that the holder of a key asks for, as its signature covers it. -/
inductive Intent where
  | fetch (version : UInt16) (key : PubKey) (nonce : Nonce)
  | delete (version : UInt16) (key : PubKey) (nonce : Nonce) (ids : List DepositId)
  deriving DecidableEq

namespace Intent

def key : Intent → PubKey
  | .fetch _ key _ => key
  | .delete _ key _ _ => key

def nonce : Intent → Nonce
  | .fetch _ _ nonce => nonce
  | .delete _ _ nonce _ => nonce

def opByte : Intent → UInt8
  | .fetch .. => OP_BYTE_FETCH
  | .delete .. => OP_BYTE_DELETE

def payload : Intent → Bytes
  | .fetch version key nonce =>
    Cbor.array [Cbor.uint version.toNat, Cbor.byteSeq key.bytes, Cbor.byteSeq nonce.bytes]
  | .delete version key nonce ids =>
    Cbor.array [Cbor.uint version.toNat, Cbor.byteSeq key.bytes, Cbor.byteSeq nonce.bytes,
      Cbor.array (ids.map fun id => Cbor.byteSeq id.bytes)]

def input (crypto : Crypto) (intent : Intent) : Bytes :=
  signingInput intent.nonce intent.opByte (crypto.sha256 intent.payload)

end Intent

theorem signingInput_inj {nonce nonce' : Nonce} {op op' : UInt8} {digest digest' : ByteArr 32}
    (h : signingInput nonce op digest = signingInput nonce' op' digest') :
    nonce = nonce' ∧ op = op' ∧ digest = digest' := by
  simp only [signingInput, List.append_assoc, List.append_cancel_left_eq] at h
  obtain ⟨hnonce, hrest⟩ := List.append_inj h (nonce.length_eq.trans nonce'.length_eq.symm)
  obtain ⟨hop, hdigest⟩ := List.append_inj hrest rfl
  cases nonce
  cases nonce'
  cases digest
  cases digest'
  cases hnonce
  cases hop
  cases hdigest
  exact ⟨rfl, rfl, rfl⟩

theorem payload_inj {a b : Intent} (hop : a.opByte = b.opByte) (h : a.payload = b.payload) :
    a = b := by
  cases a with
  | fetch version key nonce =>
    cases b with
    | delete => exact absurd hop (show OP_BYTE_FETCH ≠ OP_BYTE_DELETE by decide)
    | fetch version' key' nonce' =>
      simp only [Intent.payload, Cbor.array, List.flatten_cons, List.flatten_nil] at h
      obtain ⟨rfl, hkey⟩ := Cbor.selfDelimiting_uint16 (List.append_cancel_left h)
      obtain ⟨rfl, hnonce⟩ := Cbor.selfDelimiting_byteArr 32 hkey
      obtain ⟨rfl, -⟩ := Cbor.selfDelimiting_byteArr 32 hnonce
      rfl
  | delete version key nonce ids =>
    cases b with
    | fetch => exact absurd hop (show OP_BYTE_DELETE ≠ OP_BYTE_FETCH by decide)
    | delete version' key' nonce' ids' =>
      simp only [Intent.payload, Cbor.array, List.flatten_cons, List.flatten_nil,
        List.append_nil] at h
      obtain ⟨rfl, hkey⟩ := Cbor.selfDelimiting_uint16 (List.append_cancel_left h)
      obtain ⟨rfl, hnonce⟩ := Cbor.selfDelimiting_byteArr 32 hkey
      obtain ⟨rfl, hids⟩ := Cbor.selfDelimiting_byteArr 32 hnonce
      obtain ⟨hids, -⟩ := Cbor.head_append_inj hids
      rw [(Cbor.selfDelimiting_byteArr 16).flatten_inj (fun id => Cbor.byteSeq_ne_nil _) hids]

/-! ### The two halves of an authenticated handler -/

inductive Request where
  | fetch (body : Fetch)
  | delete (body : Delete)

namespace Request

def intent : Request → Intent
  | .fetch body => .fetch body.version body.identityPubkey body.nonce
  | .delete body => .delete body.version body.identityPubkey body.nonce body.depositIds

def signature : Request → Signature
  | .fetch body => body.signature
  | .delete body => body.signature

/-- The handler up to and including the check against the challenge table. -/
def authenticate (policy : Policy) (crypto : Crypto) (now : Int) (nowSecs : ℚ) :
    Request → Handler Unit
  | .fetch body => do
      checkVersion body.version
      acquireFetch nowSecs
      verifyChallenge crypto body.nonce body.identityPubkey body.signature OP_BYTE_FETCH
        (fetchDigest crypto body) now
  | .delete body => do
      checkVersion body.version
      ensure (body.depositIds.length ≤ policy.maxDeleteIds) (.policy .tooManyDeleteIds)
      verifyChallenge crypto body.nonce body.identityPubkey body.signature OP_BYTE_DELETE
        (deleteDigest crypto body) now

def serve (crypto : Crypto) (now : Int) : Request → Handler MailboxFrame
  | .fetch body => do
      let ctx ← get
      return .fetchResponse ⟨ctx.store.fetch (crypto.sha256 body.identityPubkey.bytes) now⟩
  | .delete body => do
      let ctx ← get
      let (store, counts) :=
        ctx.store.delete (crypto.sha256 body.identityPubkey.bytes) body.depositIds
      modify fun ctx => { ctx with store := store }
      return .deleteOk counts

def frame : Request → MailboxFrame
  | .fetch body => .fetch body
  | .delete body => .delete body

theorem dispatch_frame (policy : Policy) (crypto : Crypto) (request : Request) (now : Int)
    (nowSecs : ℚ) (fresh : Fresh) :
    dispatch policy crypto request.frame now nowSecs fresh =
      request.authenticate policy crypto now nowSecs >>= fun _ => request.serve crypto now := by
  cases request with
  | fetch body => simp only [frame, dispatch, handleFetch, authenticate, serve, bind_assoc]
  | delete body => simp only [frame, dispatch, handleDelete, authenticate, serve, bind_assoc]

end Request

variable {result : Except MailboxError Unit} {next ctx : DispatchCtx} {crypto : Crypto} {now : Int}

theorem verifyChallenge_cases {nonce : Nonce} {key : PubKey} {signature : Signature}
    {opByte : UInt8} {hash : ByteArr 32}
    (h : exec (verifyChallenge crypto nonce key signature opByte hash now) ctx = (result, next)) :
    next.store = ctx.store ∧
    ((∃ issued, result = .ok () ∧ ctx.challenges.get nonce = some issued ∧
      now - issued.issuedAt ≤ CHALLENGE_TTL_SECS ∧ crypto.sha256 key.bytes = issued.identityHash ∧
      crypto.verify key (signingInput nonce opByte hash) signature = true ∧
      next.challenges = ctx.challenges.delete nonce) ∨
    ∃ e, result = .error e ∧
      (next.challenges = ctx.challenges ∨ next.challenges = ctx.challenges.delete nonce)) := by
  have hexec : exec (verifyChallenge crypto nonce key signature opByte hash now) ctx =
      ((ctx.challenges.verify crypto nonce key signature opByte hash now).1, { ctx with
        challenges := (ctx.challenges.verify crypto nonce key signature opByte hash now).2 }) := rfl
  rw [hexec] at h
  obtain ⟨rfl, rfl⟩ := Prod.mk.inj h
  refine ⟨rfl, ?_⟩
  unfold Challenges.verify
  cases hget : ctx.challenges.get nonce with
  | none => exact .inr ⟨_, rfl, .inl rfl⟩
  | some issued =>
    dsimp only
    split_ifs with hage hhash hsigned
    · exact .inr ⟨_, rfl, .inr rfl⟩
    · exact .inr ⟨_, rfl, .inl rfl⟩
    · exact .inl ⟨issued, rfl, rfl, by omega, not_not.mp hhash, hsigned, rfl⟩
    · exact .inr ⟨_, rfl, .inl rfl⟩

/-- A request that passes authentication has a live nonce that was issued to the hash of its key,
and a signature over its intent; the nonce is consumed. A request that fails changes neither the
store nor any nonce but its own. -/
theorem authenticate_cases {policy : Policy} {request : Request} {nowSecs : ℚ}
    (h : exec (request.authenticate policy crypto now nowSecs) ctx = (result, next)) :
    next.store = ctx.store ∧
    ((∃ issued, result = .ok () ∧ ctx.challenges.get request.intent.nonce = some issued ∧
      now - issued.issuedAt ≤ CHALLENGE_TTL_SECS ∧
      crypto.sha256 request.intent.key.bytes = issued.identityHash ∧
      crypto.verify request.intent.key (request.intent.input crypto) request.signature = true ∧
      next.challenges = ctx.challenges.delete request.intent.nonce) ∨
    ∃ e, result = .error e ∧ (next.challenges = ctx.challenges ∨
      next.challenges = ctx.challenges.delete request.intent.nonce)) := by
  cases request with
  | fetch body =>
    rcases ensure_bind_cases h with ⟨-, rfl, rfl⟩ | ⟨-, h⟩
    · exact ⟨rfl, .inr ⟨_, rfl, .inl rfl⟩⟩
    rcases exec_bind_cases h with ⟨e, hacquire, rfl⟩ | ⟨_, middle, hacquire, h⟩
    · have hnext : (exec (acquireFetch nowSecs) ctx).2 = next := congrArg Prod.snd hacquire
      rw [← hnext]
      exact ⟨rfl, .inr ⟨e, rfl, .inl rfl⟩⟩
    · have hmiddle : (exec (acquireFetch nowSecs) ctx).2 = middle := congrArg Prod.snd hacquire
      subst hmiddle
      have hverified := verifyChallenge_cases h
      exact hverified
  | delete body =>
    rcases ensure_bind_cases h with ⟨-, rfl, rfl⟩ | ⟨-, h⟩
    · exact ⟨rfl, .inr ⟨_, rfl, .inl rfl⟩⟩
    rcases ensure_bind_cases h with ⟨-, rfl, rfl⟩ | ⟨-, h⟩
    · exact ⟨rfl, .inr ⟨_, rfl, .inl rfl⟩⟩
    exact verifyChallenge_cases h

/-! ### The world -/

namespace Authorisation

/-- A nonce as it was handed out. -/
structure Issue where
  nonce : Nonce
  issued : Issued

/-- An authorised operation: what was asked for, when it was authorised, and the place of its
nonce among the issued ones. -/
structure Use where
  intent : Intent
  time : Int
  serial : Nat

/-- A handler that has been authorised and has not touched the store yet. -/
structure Held where
  request : Request
  use : Use

/-- The server, the authorised handlers of its connections, and the history. -/
structure World where
  server : Server
  held : ConnId → Option Held
  /-- The place of the last issue of a nonce, until that issue is used. -/
  outstanding : Nonce → Option Nat
  issues : List Issue
  served : List Use

/-- An action of the server. An authenticated request is received in one step and served in
another. -/
inductive Action where
  | connect (conn : ConnId) (nowSecs : ℚ)
  | receive (conn : ConnId) (incoming : Incoming) (now : Int) (nowSecs : ℚ) (fresh : Fresh)
  | serve (conn : ConnId)
  | expireSweep (now : Int)
  | challengeSweep (now : Int)

def request? : Incoming → Option Request
  | .frame (.fetch body) => some (.fetch body)
  | .frame (.delete body) => some (.delete body)
  | _ => none

/-- The nonce that the server issues when it handles a frame, if it does. -/
def issue? (incoming : Incoming) (now : Int) (fresh : Fresh) : Option Issue :=
  match incoming with
  | .frame (.challenge body) =>
    if body.version = PROTOCOL_VERSION then some ⟨fresh.nonce, ⟨body.identityHash, now⟩⟩ else none
  | _ => none

namespace World

def record (world : World) : Option Issue → World
  | none => world
  | some issue => { world with
      outstanding := Function.update world.outstanding issue.nonce (some world.issues.length)
      issues := world.issues ++ [issue] }

def authenticate (policy : Policy) (crypto : Crypto) (world : World) (conn : ConnId)
    (connRl : ConnRateLimiter) (request : Request) (now : Int) (nowSecs : ℚ) : World × Reply :=
  let (result, next) :=
    exec (request.authenticate policy crypto now nowSecs) (world.server.ctx connRl)
  match result with
  | .ok () =>
    let serial := (world.outstanding request.intent.nonce).getD 0
    ({ world with
      server := world.server.afterHandler conn next .none
      held := Function.update world.held conn (some ⟨request, request.intent, now, serial⟩)
      outstanding := Function.update world.outstanding request.intent.nonce none }, .none)
  | .error e =>
    let reply := send (errorFrame e)
    ({ world with server := world.server.afterHandler conn next reply }, reply)

/-- One round of a connection's accept loop, up to the second half of an authenticated handler. A
connection that is inside a handler reads no frame. -/
def receive (policy : Policy) (crypto : Crypto) (world : World) (conn : ConnId)
    (incoming : Incoming) (now : Int) (nowSecs : ℚ) (fresh : Fresh) : World × Reply :=
  match world.held conn, world.server.conns.get conn with
  | none, some connRl =>
    match request? incoming with
    | some request => world.authenticate policy crypto conn connRl request now nowSecs
    | none =>
      let (server, reply) :=
        world.server.receive policy crypto conn incoming now nowSecs fresh
      ({ world with server := server }.record (issue? incoming now fresh), reply)
  | _, _ => (world, .none)

def serve (crypto : Crypto) (world : World) (conn : ConnId) : World × Reply :=
  match world.held conn, world.server.conns.get conn with
  | some held, some connRl =>
    let (result, next) :=
      exec (held.request.serve crypto held.use.time) (world.server.ctx connRl)
    let reply := send (replyFrame result)
    ({ world with
      server := world.server.afterHandler conn next reply
      held := Function.update world.held conn none
      served := world.served ++ [held.use] }, reply)
  | _, _ => (world, .none)

def step (policy : Policy) (crypto : Crypto) (world : World) : Action → World × Reply
  | .connect conn nowSecs =>
    ({ world with server := (world.server.step policy crypto (.connect conn nowSecs)).1 }, .none)
  | .receive conn incoming now nowSecs fresh =>
    world.receive policy crypto conn incoming now nowSecs fresh
  | .serve conn => world.serve crypto conn
  | .expireSweep now =>
    ({ world with server := (world.server.step policy crypto (.expireSweep now)).1 }, .none)
  | .challengeSweep now =>
    ({ world with server := (world.server.step policy crypto (.challengeSweep now)).1 }, .none)

def init (policy : Policy) (nowSecs : ℚ) : World :=
  ⟨Server.init policy nowSecs, fun _ => none, fun _ => none, [], []⟩

def run (policy : Policy) (crypto : Crypto) (world : World) (actions : List Action) : World :=
  actions.foldl (fun world action => (world.step policy crypto action).1) world

end World

/-! ### What a step changes -/

def Action.time : Action → Option Int
  | .receive _ _ now _ _ => some now
  | .expireSweep now => some now
  | _ => none

def Action.request : Action → Option Request
  | .receive _ incoming _ _ _ => request? incoming
  | _ => none

def Discloses (reply : Reply) (deposits : List PendingDeposit) : Prop :=
  ∃ bytes, reply = .sent (.fetchResponse ⟨deposits⟩) bytes

/-- What a step may change, in terms of the history, the challenge table and the store. -/
inductive Change (crypto : Crypto) (action : Action) (world : World) : World → Reply → Prop where
  /-- No nonce is issued or used, and rows leave the store only when they have expired. -/
  | quiet (server : Server) (reply : Reply)
      (challenges : ∀ nonce issued, server.challenges.get nonce = some issued →
        world.server.challenges.get nonce = some issued)
      (store : ∀ row ∈ world.server.store.rows, row ∉ server.store.rows →
        ∃ now, action.time = some now ∧ row.2.expiresAt < now)
      (reply_quiet : ∀ deposits, ¬ Discloses reply deposits) :
      Change crypto action world { world with server := server } reply
  /-- A nonce is issued. -/
  | issue (server : Server) (reply : Reply) (issue : Issue)
      (challenges : server.challenges = world.server.challenges.put issue.nonce issue.issued)
      (store : server.store = world.server.store)
      (reply_quiet : ∀ deposits, ¬ Discloses reply deposits) :
      Change crypto action world ({ world with server := server }.record (some issue)) reply
  /-- A request is authorised and its nonce consumed. -/
  | authorise (server : Server) (conn : ConnId) (request : Request) (now : Int) (issued : Issued)
      (asked : action.request = some request)
      (live : world.server.challenges.get request.intent.nonce = some issued)
      (age : now - issued.issuedAt ≤ CHALLENGE_TTL_SECS)
      (hash : crypto.sha256 request.intent.key.bytes = issued.identityHash)
      (signed : crypto.verify request.intent.key (request.intent.input crypto) request.signature =
        true)
      (challenges : server.challenges =
        world.server.challenges.delete request.intent.nonce)
      (store : server.store = world.server.store) :
      Change crypto action world { world with
        server := server
        held := Function.update world.held conn (some ⟨request, request.intent, now,
          (world.outstanding request.intent.nonce).getD 0⟩)
        outstanding := Function.update world.outstanding request.intent.nonce none } .none
  /-- An authorised request is served. -/
  | serve (server : Server) (reply : Reply) (conn : ConnId) (held : Held)
      (busy : world.held conn = some held)
      (challenges : server.challenges = world.server.challenges)
      (store : ∀ row ∈ world.server.store.rows, row ∉ server.store.rows →
        ∃ body, held.request = .delete body ∧ row.1 ∈ body.depositIds ∧
          row.2.recipientHash = crypto.sha256 body.identityPubkey.bytes)
      (reply_fetch : ∀ deposits, Discloses reply deposits → ∃ body, held.request = .fetch body ∧
        deposits =
          world.server.store.fetch (crypto.sha256 body.identityPubkey.bytes) held.use.time) :
      Change crypto action world { world with
        server := server
        held := Function.update world.held conn none
        served := world.served ++ [held.use] } reply

variable {policy : Policy} {crypto : Crypto}

def SameChallenges (ctx next : DispatchCtx) : Prop := next.challenges = ctx.challenges

instance : Std.Refl SameChallenges := ⟨fun _ => rfl⟩

instance : IsTrans DispatchCtx SameChallenges := ⟨fun _ _ _ h₁ h₂ => h₂.trans h₁⟩

theorem handleDeposit_sameChallenges (policy : Policy) (body : Deposit) (now : Int) (nowSecs : ℚ)
    (id : DepositId) : Keeps SameChallenges (handleDeposit policy body now nowSecs id) := by
  refine (Keeps.ensure _ _).bind fun _ => (Keeps.ensure _ _).bind fun _ => ?_
  refine Keeps.bind (fun _ => rfl) fun _ => Keeps.bind (fun _ => rfl) fun _ => ?_
  refine (Keeps.attempt _).bind fun _ => Keeps.get.bind fun _ => (Keeps.attempt _).bind fun _ => ?_
  exact Keeps.bind (fun _ => rfl) fun _ => Keeps.pure _

theorem exec_handleChallenge (body : Challenge) (now : Int) (nonce : Nonce) (ctx : DispatchCtx) :
    exec (handleChallenge body now nonce) ctx =
      if body.version = PROTOCOL_VERSION then
        (.ok (.challengeNonce ⟨nonce, now⟩),
          { ctx with challenges := ctx.challenges.issue nonce body.identityHash now })
      else (.error (.transport .unsupportedVersion), ctx) := by
  unfold handleChallenge checkVersion
  rw [exec_bind, exec_ensure]
  by_cases hversion : body.version = PROTOCOL_VERSION
  · rw [if_pos hversion, if_pos hversion]
    rfl
  · rw [if_neg hversion, if_neg hversion]

theorem not_discloses_send {frame : MailboxFrame} (h : ∀ body, frame ≠ .fetchResponse body)
    (deposits : List PendingDeposit) : ¬ Discloses (send frame) deposits := by
  rintro ⟨bytes, hsend⟩
  unfold send at hsend
  split at hsend
  · cases hsend
    exact h _ rfl
  · cases hsend

theorem errorFrame_ne_fetchResponse (e : MailboxError) (body : FetchResponse) :
    errorFrame e ≠ .fetchResponse body := by
  intro h
  cases h

variable {server : Server} {conn : ConnId} {issues : List Issue} {use : Use} {world : World}
  {hashed : Set Bytes}

variable {action : Action} {signed : Intent → Prop} {reply : Reply} {connRl : ConnRateLimiter}
  {request : Request} {held : Held}

theorem Change.of_same (hchallenges : server.challenges = world.server.challenges)
    (hstore : server.store = world.server.store) (hreply : ∀ deposits, ¬ Discloses reply deposits) :
    Change crypto action world { world with server := server } reply := by
  refine .quiet server reply (fun nonce issued hget => ?_) (fun row hrow hgone => ?_) hreply
  · rw [← hchallenges]
    exact hget
  · rw [hstore] at hgone
    exact absurd hrow hgone

theorem plain_change {incoming : Incoming} (now : Int) (nowSecs : ℚ) (fresh : Fresh)
    (hconn : world.server.conns.get conn = some connRl) (hrequest : request? incoming = none) :
    Change crypto (.receive conn incoming now nowSecs fresh) world
      ({ world with server :=
        (world.server.receive policy crypto conn incoming now nowSecs fresh).1 }.record
          (issue? incoming now fresh))
      (world.server.receive policy crypto conn incoming now nowSecs fresh).2 := by
  simp only [Server.receive, hconn]
  cases incoming with
  | malformed kind =>
    exact .of_same (Server.challenges_afterHandler ..) (Server.store_afterHandler ..)
      (not_discloses_send (errorFrame_ne_fetchResponse _))
  | ended =>
    refine .of_same rfl rfl ?_
    rintro deposits ⟨bytes, h⟩
    cases h
  | frame frame =>
    cases frame with
    | deposit body =>
      have hkeeps := handleDeposit_sameChallenges policy body now nowSecs fresh.depositId
        (world.server.ctx connRl)
      rcases hexec : exec (handleDeposit policy body now nowSecs fresh.depositId)
        (world.server.ctx connRl) with ⟨result, next⟩
      rw [hexec] at hkeeps
      have hchallenges : next.challenges = world.server.challenges := hkeeps
      simp only [dispatch, hexec, issue?, World.record]
      rcases handleDeposit_spec hexec with ⟨expiresAt, rfl, hinsert⟩ | ⟨e, rfl, hstore⟩
      · -- room for the deposit is made by evicting expired rows
        refine .quiet _ _ (fun nonce issued hget => ?_) (fun row hrow hgone => ?_)
          (not_discloses_send fun body h => by cases h)
        · rw [← hchallenges]
          exact hget
        · refine ⟨now, rfl, ?_⟩
          obtain ⟨room, hroom, hrows⟩ := Store.insert_spec hinsert
          by_contra hlive
          refine hgone ?_
          show row ∈ next.store.rows
          rw [hrows]
          exact List.mem_append_left _ (hroom.live row hrow (by omega))
      · exact .of_same hchallenges hstore (not_discloses_send (errorFrame_ne_fetchResponse _))
    | challenge body =>
      simp only [dispatch, exec_handleChallenge, issue?]
      by_cases hversion : body.version = PROTOCOL_VERSION
      · rw [if_pos hversion, if_pos hversion]
        exact .issue _ _ ⟨fresh.nonce, ⟨body.identityHash, now⟩⟩ rfl rfl
          (not_discloses_send fun body h => by cases h)
      · rw [if_neg hversion, if_neg hversion]
        exact .of_same (Server.challenges_afterHandler ..) (Server.store_afterHandler ..)
          (not_discloses_send (errorFrame_ne_fetchResponse _))
    | fetch body => cases hrequest
    | delete body => cases hrequest
    | depositOk body | challengeNonce body | fetchResponse body | deleteOk body | error body =>
      simp only [dispatch, exec_attempt]
      exact .of_same (Server.challenges_afterHandler ..) (Server.store_afterHandler ..)
        (not_discloses_send (errorFrame_ne_fetchResponse _))

theorem authenticate_change (world : World) (conn : ConnId) (connRl : ConnRateLimiter) (now : Int)
    (nowSecs : ℚ) (hasked : action.request = some request) :
    Change crypto action world
      (world.authenticate policy crypto conn connRl request now nowSecs).1
      (world.authenticate policy crypto conn connRl request now nowSecs).2 := by
  unfold World.authenticate
  rcases hexec : exec (request.authenticate policy crypto now nowSecs) (world.server.ctx connRl)
    with ⟨result, next⟩
  obtain ⟨hstore, ⟨issued, rfl, hlive, hage, hhash, hsigned, hnext⟩ | ⟨e, rfl, hnext⟩⟩ :=
    authenticate_cases hexec
  · exact .authorise _ conn request now issued hasked hlive hage hhash hsigned hnext hstore
  · refine .quiet _ _ (fun nonce issued hget => ?_) (fun row hrow hgone => ?_)
      (not_discloses_send (errorFrame_ne_fetchResponse _))
    · have hget : next.challenges.get nonce = some issued := hget
      rcases hnext with hsame | hdropped
      · rw [hsame] at hget
        exact hget
      · rw [hdropped] at hget
        exact (Table.get_delete_eq_some.mp hget).2
    · exact absurd (show row ∈ next.store.rows from hstore ▸ hrow) hgone

theorem serve_change (hbusy : world.held conn = some held)
    (hconn : world.server.conns.get conn = some connRl) (action : Action) :
    Change crypto action world (world.serve crypto conn).1 (world.serve crypto conn).2 := by
  simp only [World.serve, hbusy, hconn]
  cases hrequest : held.request with
  | fetch body =>
    refine .serve _ _ conn held hbusy (Server.challenges_afterHandler ..)
      (fun row hrow hgone => ?_) ?_
    · rw [Server.store_afterHandler] at hgone
      exact absurd hrow hgone
    · rintro deposits ⟨bytes, hsend⟩
      refine ⟨body, hrequest, ?_⟩
      unfold send at hsend
      split at hsend
      · cases hsend
        rfl
      · cases hsend
  | delete body =>
    refine .serve _ _ conn held hbusy (Server.challenges_afterHandler ..)
      (fun row hrow hgone => ?_) ?_
    · refine ⟨body, hrequest, ?_⟩
      by_contra hother
      refine hgone (Store.mem_delete body.depositIds hrow ?_)
      exact not_and_or.mp hother
    · intro deposits hdiscloses
      exact absurd hdiscloses (not_discloses_send (fun body h => by cases h) deposits)

theorem step_change (world : World) (action : Action) :
    Change crypto action world (world.step policy crypto action).1
      (world.step policy crypto action).2 := by
  have hnone : ∀ deposits, ¬ Discloses .none deposits := by
    rintro deposits ⟨bytes, h⟩
    cases h
  cases action with
  | connect conn nowSecs =>
    simp only [World.step, Server.step]
    split
    · exact .of_same rfl rfl hnone
    · exact .of_same rfl rfl hnone
  | receive conn incoming now nowSecs fresh =>
    simp only [World.step, World.receive]
    split
    · next connRl hheld hconn =>
      split
      · next request hrequest =>
        exact authenticate_change world conn connRl now nowSecs hrequest
      · next hrequest => exact plain_change now nowSecs fresh hconn hrequest
    · exact .of_same rfl rfl hnone
  | serve conn =>
    simp only [World.step]
    cases hheld : world.held conn with
    | none =>
      simp only [World.serve, hheld]
      exact .of_same rfl rfl hnone
    | some held =>
      cases hconn : world.server.conns.get conn with
      | none =>
        simp only [World.serve, hheld, hconn]
        exact .of_same rfl rfl hnone
      | some connRl => exact serve_change hheld hconn _
  | expireSweep now =>
    refine .quiet _ _ (fun nonce issued hget => hget) (fun row hrow hgone => ?_) hnone
    refine ⟨now, rfl, ?_⟩
    by_contra hlive
    exact hgone (Store.mem_expireSweep hrow (by omega))
  | challengeSweep now =>
    refine .quiet _ _ (fun nonce issued hget => ?_)
      (fun row hrow hgone => absurd hrow hgone) hnone
    have hmem := Table.get_eq_some_iff.mp hget
    exact Table.get_eq_some_iff.mpr (Table.mem_deleteWhere.mp hmem).1

/-! ### The invariant -/

/-- The operation was authorised by a nonce that was issued to the hash of its key at most thirty
seconds before. -/
def Authorised (crypto : Crypto) (issues : List Issue) (use : Use) : Prop :=
  ∃ issue, issues[use.serial]? = some issue ∧ issue.nonce = use.intent.nonce ∧
    issue.issued.identityHash = crypto.sha256 use.intent.key.bytes ∧
    use.time - issue.issued.issuedAt ≤ CHALLENGE_TTL_SECS

theorem Authorised.lt (h : Authorised crypto issues use) : use.serial < issues.length := by
  obtain ⟨issue, hget, -⟩ := h
  exact (List.getElem?_eq_some_iff.mp hget).1

theorem Authorised.append (h : Authorised crypto issues use) (issue : Issue) :
    Authorised crypto (issues ++ [issue]) use := by
  have hlt := h.lt
  obtain ⟨old, hget, hrest⟩ := h
  refine ⟨old, ?_, hrest⟩
  rw [List.getElem?_append_left hlt]
  exact hget

structure Inv (crypto : Crypto) (world : World) : Prop where
  entry : ∀ nonce issued, world.server.challenges.get nonce = some issued →
    ∃ serial, world.outstanding nonce = some serial ∧
      world.issues[serial]? = some ⟨nonce, issued⟩
  nonce : ∀ nonce serial, world.outstanding nonce = some serial →
    ∃ issued, world.issues[serial]? = some ⟨nonce, issued⟩
  unserved : ∀ nonce serial, world.outstanding nonce = some serial →
    serial ∉ world.served.map Use.serial
  unheld : ∀ nonce serial conn held, world.outstanding nonce = some serial →
    world.held conn = some held → held.use.serial ≠ serial
  servedOnce : (world.served.map Use.serial).Nodup
  heldUnserved : ∀ conn held, world.held conn = some held →
    held.use.serial ∉ world.served.map Use.serial
  heldOnce : ∀ conn conn' held held', world.held conn = some held → world.held conn' = some held' →
    held.use.serial = held'.use.serial → conn = conn'
  heldIntent : ∀ conn held, world.held conn = some held → held.use.intent = held.request.intent
  heldAuthorised : ∀ conn held, world.held conn = some held →
    Authorised crypto world.issues held.use
  servedAuthorised : ∀ use ∈ world.served, Authorised crypto world.issues use

theorem Inv.init (policy : Policy) (nowSecs : ℚ) : Inv crypto (World.init policy nowSecs) where
  entry nonce issued h := by cases h
  nonce nonce serial h := by cases h
  unserved nonce serial h := by cases h
  unheld nonce serial conn held h := by cases h
  servedOnce := List.nodup_nil
  heldUnserved conn held h := by cases h
  heldOnce conn conn' held held' h := by cases h
  heldIntent conn held h := by cases h
  heldAuthorised conn held h := by cases h
  servedAuthorised use h := by cases h

theorem Inv.issue (h : Inv crypto world) {issue : Issue}
    (hchallenges : server.challenges = world.server.challenges.put issue.nonce issue.issued) :
    Inv crypto ({ world with server := server }.record (some issue)) := by
  have hnew : (world.issues ++ [issue])[world.issues.length]? = some issue := by simp
  have hold {serial : Nat} {old : Issue} (hget : world.issues[serial]? = some old) :
      (world.issues ++ [issue])[serial]? = some old := by
    rw [List.getElem?_append_left (List.getElem?_eq_some_iff.mp hget).1]
    exact hget
  have hserved (use : Use) (hserial : use.serial = world.issues.length)
      (hauthorised : Authorised crypto world.issues use) : False := by
    have hlt := hauthorised.lt
    omega
  -- the nonce just issued has the new place, and every other one its old place
  have hplace {nonce : Nonce} {serial : Nat}
      (hout : Function.update world.outstanding issue.nonce (some world.issues.length) nonce =
        some serial) :
      (nonce = issue.nonce ∧ serial = world.issues.length) ∨
        world.outstanding nonce = some serial := by
    rcases update_eq_some_cases hout with ⟨hnonce, hserial⟩ | ⟨-, hbefore⟩
    · exact .inl ⟨hnonce, (Option.some.inj hserial).symm⟩
    · exact .inr hbefore
  constructor
  case entry =>
    intro nonce issued hget
    have hget : server.challenges.get nonce = some issued := hget
    rw [hchallenges] at hget
    by_cases hnonce : nonce = issue.nonce
    · subst hnonce
      rw [Table.get_put_self] at hget
      cases hget
      exact ⟨world.issues.length, Function.update_self .., hnew⟩
    · rw [Table.get_put_ne _ _ hnonce] at hget
      obtain ⟨serial, hout, hissue⟩ := h.entry nonce issued hget
      refine ⟨serial, ?_, hold hissue⟩
      show Function.update world.outstanding issue.nonce _ nonce = some serial
      rw [Function.update_of_ne hnonce]
      exact hout
  case nonce =>
    intro nonce serial hout
    rcases hplace hout with ⟨rfl, rfl⟩ | hout
    · exact ⟨issue.issued, hnew⟩
    · obtain ⟨issued, hissue⟩ := h.nonce nonce serial hout
      exact ⟨issued, hold hissue⟩
  case unserved =>
    intro nonce serial hout hmem
    rcases hplace hout with ⟨rfl, rfl⟩ | hout
    · obtain ⟨use, huse, hserial⟩ := List.mem_map.mp hmem
      exact hserved use hserial (h.servedAuthorised use huse)
    · exact h.unserved nonce serial hout hmem
  case unheld =>
    intro nonce serial conn held hout hheld hserial
    rcases hplace hout with ⟨rfl, rfl⟩ | hout
    · exact hserved held.use hserial (h.heldAuthorised conn held hheld)
    · exact h.unheld nonce serial conn held hout hheld hserial
  case servedOnce =>
    exact h.servedOnce
  case heldUnserved =>
    exact h.heldUnserved
  case heldOnce =>
    exact h.heldOnce
  case heldIntent =>
    exact h.heldIntent
  case heldAuthorised =>
    intro conn held hheld
    exact (h.heldAuthorised conn held hheld).append issue
  case servedAuthorised =>
    intro use huse
    exact (h.servedAuthorised use huse).append issue

theorem Inv.authorise (h : Inv crypto world) {issued : Issued}
    (hlive : world.server.challenges.get request.intent.nonce = some issued)
    (hage : now - issued.issuedAt ≤ CHALLENGE_TTL_SECS)
    (hhash : crypto.sha256 request.intent.key.bytes = issued.identityHash)
    (hchallenges : server.challenges = world.server.challenges.delete request.intent.nonce) :
    Inv crypto { world with
      server := server
      held := Function.update world.held conn (some ⟨request, request.intent, now,
        (world.outstanding request.intent.nonce).getD 0⟩)
      outstanding := Function.update world.outstanding request.intent.nonce none } := by
  obtain ⟨serial, hout, hissue⟩ := h.entry _ _ hlive
  have hauthorised : Authorised crypto world.issues ⟨request.intent, now, serial⟩ :=
    ⟨_, hissue, rfl, hhash.symm, hage⟩
  simp only [hout, Option.getD_some]
  -- a held handler is the new one or was held before
  have hheldCases {other : ConnId} {held : Held}
      (hupdate : Function.update world.held conn
        (some ⟨request, request.intent, now, serial⟩) other = some held) :
      (other = conn ∧ held = ⟨request, request.intent, now, serial⟩) ∨
        (other ≠ conn ∧ world.held other = some held) := by
    rcases update_eq_some_cases hupdate with ⟨hconn, hheld⟩ | hbefore
    · exact .inl ⟨hconn, (Option.some.inj hheld).symm⟩
    · exact .inr hbefore
  constructor
  case entry =>
    intro nonce entry hget
    have hget : server.challenges.get nonce = some entry := hget
    rw [hchallenges] at hget
    obtain ⟨hnonce, hget⟩ := Table.get_delete_eq_some.mp hget
    obtain ⟨place, hplace, hentry⟩ := h.entry nonce entry hget
    refine ⟨place, ?_, hentry⟩
    show Function.update world.outstanding _ none nonce = some place
    rw [Function.update_of_ne hnonce]
    exact hplace
  case nonce =>
    intro nonce place hupdate
    exact h.nonce nonce place (of_update_none hupdate).2
  case unserved =>
    intro nonce place hupdate
    exact h.unserved nonce place (of_update_none hupdate).2
  case unheld =>
    intro nonce place other held hupdate hheld hserial
    obtain ⟨hnonce, hplace⟩ := of_update_none hupdate
    rcases hheldCases hheld with ⟨rfl, rfl⟩ | ⟨-, hheld⟩
    · -- the two places would be one, and with it the two nonces
      obtain ⟨entry, hentry⟩ := h.nonce nonce place hplace
      have hserial : serial = place := hserial
      rw [← hserial, hissue] at hentry
      exact hnonce (congrArg Issue.nonce (Option.some.inj hentry)).symm
    · exact h.unheld nonce place other held hplace hheld hserial
  case servedOnce =>
    exact h.servedOnce
  case heldUnserved =>
    intro other held hheld
    rcases hheldCases hheld with ⟨rfl, rfl⟩ | ⟨-, hheld⟩
    · exact h.unserved _ serial hout
    · exact h.heldUnserved other held hheld
  case heldOnce =>
    intro first second held held' hfirst hsecond hserial
    rcases hheldCases hfirst with ⟨rfl, rfl⟩ | ⟨-, hbefore⟩
    · rcases hheldCases hsecond with ⟨rfl, rfl⟩ | ⟨-, hbefore'⟩
      · rfl
      · exact absurd hserial.symm (h.unheld _ serial second held' hout hbefore')
    · rcases hheldCases hsecond with ⟨rfl, rfl⟩ | ⟨-, hbefore'⟩
      · exact absurd hserial (h.unheld _ serial first held hout hbefore)
      · exact h.heldOnce first second held held' hbefore hbefore' hserial
  case heldIntent =>
    intro other held hheld
    rcases hheldCases hheld with ⟨rfl, rfl⟩ | ⟨-, hheld⟩
    · rfl
    · exact h.heldIntent other held hheld
  case heldAuthorised =>
    intro other held hheld
    rcases hheldCases hheld with ⟨rfl, rfl⟩ | ⟨-, hheld⟩
    · exact hauthorised
    · exact h.heldAuthorised other held hheld
  case servedAuthorised =>
    exact h.servedAuthorised

theorem Inv.serve (h : Inv crypto world) (hbusy : world.held conn = some held)
    (hchallenges : server.challenges = world.server.challenges) :
    Inv crypto { world with
      server := server
      held := Function.update world.held conn none
      served := world.served ++ [held.use] } := by
  have hserved {serial : Nat} (hmem : serial ∈ (world.served ++ [held.use]).map Use.serial) :
      serial ∈ world.served.map Use.serial ∨ serial = held.use.serial := by
    simpa using hmem
  constructor
  case entry =>
    intro nonce issued hget
    exact h.entry nonce issued (hchallenges ▸ hget)
  case nonce =>
    exact h.nonce
  case unserved =>
    intro nonce serial hout hmem
    rcases hserved hmem with hold | rfl
    · exact h.unserved nonce serial hout hold
    · exact h.unheld nonce _ conn held hout hbusy rfl
  case unheld =>
    intro nonce serial other held' hout hheld
    exact h.unheld nonce serial other held' hout (of_update_none hheld).2
  case servedOnce =>
    rw [List.map_append, List.nodup_append]
    refine ⟨h.servedOnce, List.nodup_singleton _, ?_⟩
    intro serial hserial other hother heq
    have hother : other = held.use.serial := by simpa using hother
    exact h.heldUnserved conn held hbusy (hother ▸ heq ▸ hserial)
  case heldUnserved =>
    intro other held' hheld hmem
    obtain ⟨hne, hbefore⟩ := of_update_none hheld
    rcases hserved hmem with hold | hsame
    · exact h.heldUnserved other held' hbefore hold
    · exact hne (h.heldOnce other conn held' held hbefore hbusy hsame)
  case heldOnce =>
    intro first second held' held'' hfirst hsecond
    exact h.heldOnce first second held' held'' (of_update_none hfirst).2 (of_update_none hsecond).2
  case heldIntent =>
    intro other held' hheld
    exact h.heldIntent other held' (of_update_none hheld).2
  case heldAuthorised =>
    intro other held' hheld
    exact h.heldAuthorised other held' (of_update_none hheld).2
  case servedAuthorised =>
    intro use huse
    rcases List.mem_append.mp huse with hold | hnew
    · exact h.servedAuthorised use hold
    · rw [List.mem_singleton.mp hnew]
      exact h.heldAuthorised conn held hbusy

theorem Change.inv {next : World} (hchange : Change crypto action world next reply)
    (h : Inv crypto world) : Inv crypto next := by
  cases hchange with
  | quiet server reply hchallenges =>
    exact { h with entry := fun nonce issued hget => h.entry nonce issued (hchallenges _ _ hget) }
  | issue server reply issue hchallenges => exact h.issue hchallenges
  | authorise server conn request now issued _ hlive hage hhash _ hchallenges =>
    exact h.authorise hlive hage hhash hchallenges
  | serve server reply conn held hbusy hchallenges => exact h.serve hbusy hchallenges

/-- What the cryptography is taken to give in a run. `signed intent` says that the holder of the
intent's key signed its authentication string, and `hashed` are the byte strings that anyone
hashes. -/
structure Assumptions (crypto : Crypto) (signed : Intent → Prop) (hashed : Set Bytes)
    (actions : List Action) : Prop where
  /-- Ed25519 is unforgeable: a signature that is presented and verifies was made by the holder of
  the key, over the same authentication string. -/
  unforgeable : ∀ action ∈ actions, ∀ request, action.request = some request →
    crypto.verify request.intent.key (request.intent.input crypto) request.signature = true →
      ∃ intent, signed intent ∧ intent.key = request.intent.key ∧
        intent.input crypto = request.intent.input crypto
  /-- SHA-256 has no collision among the strings that are hashed. -/
  injective : Set.InjOn crypto.sha256 hashed
  /-- A signer hashes what it signs. -/
  signed_hashed : ∀ intent, signed intent → intent.payload ∈ hashed
  /-- The server hashes the tuple and the key of a request. -/
  requests_hashed : ∀ action ∈ actions, ∀ request, action.request = some request →
    request.intent.payload ∈ hashed ∧ request.intent.key.bytes ∈ hashed

/-- The holder of the key asked for the operation. -/
def Asked (signed : Intent → Prop) (hashed : Set Bytes) (intent : Intent) : Prop :=
  signed intent ∧ intent.key.bytes ∈ hashed

theorem Assumptions.asked {actions : List Action} (h : Assumptions crypto signed hashed actions)
    (haction : action ∈ actions) (hrequest : action.request = some request)
    (hverify : crypto.verify request.intent.key (request.intent.input crypto) request.signature =
      true) : Asked signed hashed request.intent := by
  obtain ⟨hpayload, hkey⟩ := h.requests_hashed action haction request hrequest
  obtain ⟨other, hsigned, -, hinput⟩ := h.unforgeable action haction request hrequest hverify
  obtain ⟨-, hop, hdigest⟩ := signingInput_inj hinput
  refine ⟨?_, hkey⟩
  rw [← payload_inj hop (h.injective (h.signed_hashed other hsigned) hpayload hdigest)]
  exact hsigned

/-- Every authorised operation was asked for. -/
structure Known (signed : Intent → Prop) (hashed : Set Bytes) (world : World) : Prop where
  held : ∀ conn held, world.held conn = some held → Asked signed hashed held.use.intent
  served : ∀ use ∈ world.served, Asked signed hashed use.intent

theorem Change.known {next : World} (hchange : Change crypto action world next reply)
    (h : Known signed hashed world)
    (hasks : ∀ request, action.request = some request →
      crypto.verify request.intent.key (request.intent.input crypto) request.signature = true →
        Asked signed hashed request.intent) : Known signed hashed next := by
  cases hchange with
  | quiet | issue => exact ⟨h.held, h.served⟩
  | authorise server conn request now issued hasked _ _ _ hsigned =>
    refine ⟨fun other held hheld => ?_, h.served⟩
    rcases update_eq_some_cases hheld with ⟨-, hnew⟩ | ⟨-, hbefore⟩
    · cases hnew
      exact hasks request hasked hsigned
    · exact h.held other held hbefore
  | serve server reply conn held hbusy =>
    refine ⟨fun other held' hheld => ?_, fun use huse => ?_⟩
    · exact h.held other held' (of_update_none hheld).2
    · rcases List.mem_append.mp huse with hold | hnew
      · exact h.served use hold
      · rw [List.mem_singleton.mp hnew]
        exact h.held conn held hbusy

/-- The owner of a deposit asked for this operation: every key that hashes to the recipient hash
is the key that authorised it, and its holder signed it. -/
def OwnerAsked (crypto : Crypto) (signed : Intent → Prop) (hashed : Set Bytes)
    (recipient : RecipientHash) (intent : Intent) : Prop :=
  crypto.sha256 intent.key.bytes = recipient ∧ signed intent ∧
    ∀ key : PubKey, key.bytes ∈ hashed → crypto.sha256 key.bytes = recipient → key = intent.key

theorem Asked.ownerAsked {intent : Intent} (h : Asked signed hashed intent)
    (hinjective : Set.InjOn crypto.sha256 hashed) :
    OwnerAsked crypto signed hashed (crypto.sha256 intent.key.bytes) intent := by
  refine ⟨rfl, h.1, fun key hkey heq => ?_⟩
  have hbytes := hinjective hkey h.2 heq
  obtain ⟨bytes, hlength⟩ := key
  revert hbytes
  rcases intent.key with ⟨_, _⟩
  rintro rfl
  rfl

section Owner

variable {signed : Intent → Prop} {hashed : Set Bytes} {action : Action} {world next : World}
  {reply : Reply}

theorem Change.removed (hchange : Change crypto action world next reply)
    (hinjective : Set.InjOn crypto.sha256 hashed) (hinv : Inv crypto world)
    (hknown : Known signed hashed world) {row : DepositId × DepositRow}
    (hrow : row ∈ world.server.store.rows) (hgone : row ∉ next.server.store.rows) :
    (∃ now, action.time = some now ∧ row.2.expiresAt < now) ∨
      ∃ use ∈ next.served,
        (∃ version key nonce ids, use.intent = .delete version key nonce ids ∧ row.1 ∈ ids) ∧
        OwnerAsked crypto signed hashed row.2.recipientHash use.intent := by
  cases hchange with
  | quiet server reply _ hstore => exact .inl (hstore row hrow hgone)
  | issue server reply issue _ hstore =>
    exact absurd (show row ∈ server.store.rows from hstore ▸ hrow) hgone
  | authorise server conn request now issued _ _ _ _ _ _ hstore =>
    exact absurd (show row ∈ server.store.rows from hstore ▸ hrow) hgone
  | serve server reply conn held hbusy _ hstore =>
    have hasked := (hknown.held conn held hbusy).ownerAsked hinjective
    have hintent := hinv.heldIntent conn held hbusy
    obtain ⟨body, hrequest, hid, hrecipient⟩ := hstore row hrow hgone
    rw [hrequest] at hintent
    refine .inr ⟨held.use, List.mem_append_right _ (List.mem_singleton_self _),
      ⟨_, _, _, _, hintent, hid⟩, ?_⟩
    rw [hintent] at hasked ⊢
    rw [hrecipient]
    exact hasked

end Owner

end Authorisation

end Skattr.Mailbox
