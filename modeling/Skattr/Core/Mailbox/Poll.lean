import Skattr.Core.Basic
import Skattr.Mailbox.Authorisation
import Skattr.Mailbox.PickUp

/-!
# One poll of a mailbox

The mailbox client's exchanges with a server at the other end of its connection, and one poll: a
fetch, the dispatch of every fetched deposit to the inbound pipeline, and one delete for those that
it persisted. The server runs its own handlers on its own state.

`delete_store` says what the delete exchange does to the server: it removes the named deposits, or
nothing at all when there are more ids than the server takes in one request. That decides whether
a poll cleans up after itself (`poll_cleans_up_iff`).
-/

namespace Skattr.Core.Poll

open Lib Fallible Mailbox

/-! ### The client -/

inductive MailboxClientErrorKind where
  | unreachable
  | unsupportedVersion
  | rateLimited
  | recipientFull
  | invalidSignature
  | nonceExpired
  | malformed
  | hashMismatch
  | other (message : String)
  deriving DecidableEq

def mapError : ErrorCode → MailboxClientErrorKind
  | .unsupportedVersion => .unsupportedVersion
  | .rateLimited => .rateLimited
  | .recipientFull => .recipientFull
  | .invalidSignature => .invalidSignature
  | .nonceExpired => .nonceExpired
  | .hashMismatch => .hashMismatch
  | .malformedRequest => .malformed
  | .tooLarge => .other "server error: TooLarge"
  | .ttlTooLong => .other "server error: TtlTooLong"
  | .ttlTooShort => .other "server error: TtlTooShort"
  | .notFound => .other "server error: NotFound"
  | .internal => .other "server error: Internal"

/-- A computation of the client, with the state of the server as the server's handlers see it. -/
abbrev Client := Fallible MailboxClientErrorKind DispatchCtx

/-- What the server reads from its clocks and its random generator when it handles a frame. -/
structure Tick where
  now : Int
  nowSecs : ℚ
  fresh : Fresh

/-- The identity key of the client. -/
structure Signer where
  key : PubKey
  sign : Bytes → Signature

section Client

variable (policy : Policy) (crypto : Crypto)

/-- Send a frame and wait for the reply. The server closes the connection when it cannot encode
its reply. -/
def exchange (tick : Tick) (frame : MailboxFrame) : Client MailboxFrame :=
  ExceptT.mk fun ctx =>
    match send frame with
    | .sent _ _ =>
      let (result, next) :=
        exec (dispatch policy crypto frame tick.now tick.nowSecs tick.fresh) ctx
      match send (replyFrame result) with
      | .sent reply _ => (.ok reply, next)
      | _ => (.error .unreachable, next)
    | _ => (.error .unreachable, ctx)

def accept {α : Type} (expect : MailboxFrame → Option α) (reply : MailboxFrame) :
    Except MailboxClientErrorKind α :=
  match expect reply with
  | some value => .ok value
  | none =>
    match reply with
    | .error body => .error (mapError body.code)
    | _ => .error .malformed

def challengeNonce? : MailboxFrame → Option Nonce
  | .challengeNonce body => some body.nonce
  | _ => none

def fetchResponse? : MailboxFrame → Option FetchResponse
  | .fetchResponse body => some body
  | _ => none

def deleteOk? : MailboxFrame → Option DeleteOk
  | .deleteOk body => some body
  | _ => none

def challenge (tick : Tick) (identityHash : RecipientHash) : Client Nonce := do
  let reply ← exchange policy crypto tick (.challenge ⟨PROTOCOL_VERSION, identityHash⟩)
  attempt (accept challengeNonce? reply)

def fetch (signer : Signer) (first second : Tick) : Client FetchResponse := do
  let nonce ← challenge policy crypto first (crypto.sha256 signer.key.bytes)
  let input := (Intent.fetch PROTOCOL_VERSION signer.key nonce).input crypto
  let reply ← exchange policy crypto second
    (.fetch ⟨PROTOCOL_VERSION, signer.key, nonce, signer.sign input⟩)
  attempt (accept fetchResponse? reply)

def delete (signer : Signer) (ids : List DepositId) (first second : Tick) : Client DeleteOk := do
  let nonce ← challenge policy crypto first (crypto.sha256 signer.key.bytes)
  let input := (Intent.delete PROTOCOL_VERSION signer.key nonce ids).input crypto
  let reply ← exchange policy crypto second
    (.delete ⟨PROTOCOL_VERSION, signer.key, nonce, signer.sign input, ids⟩)
  attempt (accept deleteOk? reply)

end Client

/-! ### The poll -/

/-- The inbound pipeline: what it makes of a ciphertext, as an attachment chunk and as a message.
It tells only whether it persisted the deposit. -/
structure Inbound (σ : Type) where
  dispatchAttachmentChunk : Bytes → σ → Bool × σ
  dispatchMailbox : Bytes → σ → Option MessageId × σ

variable {σ : Type}

def Inbound.dispatch (inbound : Inbound σ) (ciphertext : Bytes) (state : σ) : Bool × σ :=
  let (chunk, state) := inbound.dispatchAttachmentChunk ciphertext state
  if chunk then (true, state)
  else
    let (id, state) := inbound.dispatchMailbox ciphertext state
    (id.isSome, state)

def dispatchAll (inbound : Inbound σ) : List PendingDeposit → σ → List (PendingDeposit × Bool) × σ
  | [], state => ([], state)
  | deposit :: deposits, state =>
    let (persisted, state) := inbound.dispatch deposit.ciphertext state
    let (outcomes, state) := dispatchAll inbound deposits state
    ((deposit, persisted) :: outcomes, state)

def dispatched (outcomes : List (PendingDeposit × Bool)) : List DepositId :=
  (outcomes.filter fun outcome => outcome.2).map fun outcome => outcome.1.depositId

/-- The four frames of a poll, as the server handles them. -/
structure Ticks where
  fetchChallenge : Tick
  fetch : Tick
  deleteChallenge : Tick
  delete : Tick

/-- One fetch, dispatch and delete. The count is of the persisted deposits. -/
def pollDispatchOnce (policy : Policy) (crypto : Crypto) (signer : Signer) (inbound : Inbound σ)
    (state : σ) (ticks : Ticks) : Client Nat := do
  let response ← fetch policy crypto signer ticks.fetchChallenge ticks.fetch
  let ids := dispatched (dispatchAll inbound response.deposits state).1
  if response.deposits = [] then return 0
  else if ids = [] then return 0
  else do
    let _ ← delete policy crypto signer ids ticks.deleteChallenge ticks.delete
    return ids.length

/-! ### What the exchanges do -/

variable {policy : Policy} {crypto : Crypto}

theorem send_challenge (hash : RecipientHash) :
    ∃ bytes, send (.challenge ⟨PROTOCOL_VERSION, hash⟩) =
      .sent (.challenge ⟨PROTOCOL_VERSION, hash⟩) bytes := by
  have hversion := Cbor.headSize_le PROTOCOL_VERSION.toNat
  have hhash := Cbor.byteSeqSize_arr_le hash
  refine send_of_two_fields rfl (by decide) ?_
  rw [Cbor.length_uint, Cbor.length_byteSeq]
  show Cbor.headSize PROTOCOL_VERSION.toNat + Cbor.byteSeqSize hash.bytes ≤ 1000
  omega

variable {tick early late : Tick} {frame : MailboxFrame} {next ctx : DispatchCtx}
  {result : Except MailboxError MailboxFrame} {body : Delete} {signer : Signer} {issuedAt now : Int}

theorem exchange_cases {outcome : Except MailboxClientErrorKind MailboxFrame}
    (h : exec (exchange policy crypto tick frame) ctx = (outcome, next)) :
    (outcome = .error .unreachable ∧ next = ctx) ∨
      ∃ result, exec (dispatch policy crypto frame tick.now tick.nowSecs tick.fresh) ctx =
        (result, next) ∧ (outcome = .ok (replyFrame result) ∨ outcome = .error .unreachable) := by
  change (match send frame with
    | .sent _ _ => _
    | _ => _) = _ at h
  split at h
  · simp only at h
    right
    rcases hexec : exec (dispatch policy crypto frame tick.now tick.nowSecs tick.fresh) ctx
      with ⟨result, after⟩
    rw [hexec] at h
    simp only at h
    split at h
    · next reply bytes hsend =>
      cases h
      refine ⟨result, rfl, .inl ?_⟩
      unfold send at hsend
      split at hsend
      · cases hsend
        rfl
      · cases hsend
    · cases h
      exact ⟨result, rfl, .inr rfl⟩
  · cases h
    exact .inl ⟨rfl, rfl⟩

theorem exec_exchange_of_sent {reply : MailboxFrame} {request response : List UInt8}
    (hrequest : send frame = .sent frame request)
    (hdispatch : exec (dispatch policy crypto frame tick.now tick.nowSecs tick.fresh) ctx =
      (result, next)) (hreply : send (replyFrame result) = .sent reply response) :
    exec (exchange policy crypto tick frame) ctx = (.ok reply, next) := by
  show (match send frame with
    | .sent _ _ => _
    | _ => _) = _
  rw [hrequest]
  simp only [hdispatch, hreply]

theorem exec_challenge (tick : Tick) (hash : RecipientHash) (ctx : DispatchCtx) :
    exec (challenge policy crypto tick hash) ctx = (.ok tick.fresh.nonce, { ctx with
      challenges := ctx.challenges.issue tick.fresh.nonce hash tick.now }) := by
  obtain ⟨request, hrequest⟩ := send_challenge hash
  obtain ⟨reply, hreply⟩ := send_challengeNonce ⟨tick.fresh.nonce, tick.now⟩
  have hdispatch : exec (dispatch policy crypto (.challenge ⟨PROTOCOL_VERSION, hash⟩) tick.now
      tick.nowSecs tick.fresh) ctx = (.ok (.challengeNonce ⟨tick.fresh.nonce, tick.now⟩), { ctx with
        challenges := ctx.challenges.issue tick.fresh.nonce hash tick.now }) := by
    simp only [dispatch, Authorisation.exec_handleChallenge, if_true]
  rw [challenge, exec_bind, exec_exchange_of_sent hrequest hdispatch hreply]
  rfl

theorem dispatch_request_cases (request : Request)
    (h : exec (dispatch policy crypto request.frame tick.now tick.nowSecs tick.fresh) ctx =
      (result, next)) :
    (∃ e, result = .error e ∧ next.store = ctx.store) ∨
      ∃ middle : DispatchCtx, middle.store = ctx.store ∧
        exec (request.serve crypto tick.now) middle = (result, next) := by
  rw [Request.dispatch_frame] at h
  rcases exec_bind_cases h with ⟨e, hauth, rfl⟩ | ⟨_, middle, hauth, hserve⟩
  · exact .inl ⟨e, rfl, (authenticate_cases hauth).1⟩
  · exact .inr ⟨middle, (authenticate_cases hauth).1, hserve⟩

theorem fetch_ok {first second : Tick} {response : FetchResponse}
    (h : exec (fetch policy crypto signer first second) ctx = (.ok response, next)) :
    next.store = ctx.store ∧
      response.deposits = ctx.store.fetch (crypto.sha256 signer.key.bytes) second.now := by
  rw [fetch, exec_bind, exec_challenge] at h
  obtain ⟨reply, middle, hexchange, haccept⟩ := exec_bind_ok h
  rw [exec_attempt] at haccept
  obtain ⟨haccept, rfl⟩ := Prod.mk.inj haccept
  rcases exchange_cases hexchange with ⟨hfailed, -⟩ | ⟨result, hdispatch, hreply | hfailed⟩
  · cases hfailed
  · cases hreply
    rcases dispatch_request_cases (.fetch _) hdispatch with
      ⟨e, rfl, -⟩ | ⟨served, hserved, hserve⟩
    · cases haccept
    · cases hserve
      cases haccept
      exact ⟨hserved, congrArg (fun store => Store.fetch store _ _) hserved⟩
  · cases hfailed

theorem send_delete (hids : body.depositIds.length ≤ 1024) :
    ∃ bytes, send (.delete body) = .sent (.delete body) bytes := by
  apply send_of_fits
  have hversion := Cbor.headSize_le body.version.toNat
  have hkey := Cbor.byteSeqSize_arr_le body.identityPubkey
  have hnonce := Cbor.byteSeqSize_arr_le body.nonce
  have hsignature := Cbor.byteSeqSize_arr_le body.signature
  have hnames : (Cbor.text "version").length + (Cbor.text "identity_pubkey").length +
      (Cbor.text "nonce").length + (Cbor.text "signature").length +
      (Cbor.text "deposit_ids").length = 52 := by decide
  have hitems : ∀ size ∈ (body.depositIds.map fun id => Cbor.byteSeq id.bytes).map List.length,
      size ≤ 153 := by
    intro size hsize
    obtain ⟨item, hitem, rfl⟩ := List.mem_map.mp hsize
    obtain ⟨id, -, rfl⟩ := List.mem_map.mp hitem
    have hid := Cbor.byteSeqSize_arr_le id
    rw [Cbor.length_byteSeq]
    exact hid
  have hsum := List.sum_le_card_nsmul _ _ hitems
  rw [List.length_map, List.length_map, smul_eq_mul] at hsum
  have hhead := Cbor.headSize_le (body.depositIds.map fun id => Cbor.byteSeq id.bytes).length
  have hfields := Cbor.headSize_le (0 + 1 + 1 + 1 + 1 + 1)
  rw [MailboxFrame.encodeCbor, Cbor.length_map]
  simp only [List.map_cons, List.map_nil, List.sum_cons, List.sum_nil, Cbor.length_uint,
    Cbor.length_byteSeq, Cbor.length_array, List.length_cons, List.length_nil, MAX_FRAME_SIZE]
  omega

theorem handleDelete_of_too_many (ctx : DispatchCtx) (hversion : body.version = PROTOCOL_VERSION)
    (hids : ¬ body.depositIds.length ≤ policy.maxDeleteIds) :
    exec (handleDelete policy crypto body now) ctx =
      (.error (.policy .tooManyDeleteIds), ctx) := by
  simp only [handleDelete, checkVersion, exec_bind, exec_ensure, hversion, hids, if_true, if_false]

theorem handleDelete_of_signed (hversion : body.version = PROTOCOL_VERSION)
    (hids : body.depositIds.length ≤ policy.maxDeleteIds)
    (hissued : ctx.challenges.get body.nonce = some ⟨crypto.sha256 body.identityPubkey.bytes,
      issuedAt⟩) (hage : now - issuedAt ≤ CHALLENGE_TTL_SECS)
    (hsigned : crypto.verify body.identityPubkey (signingInput body.nonce OP_BYTE_DELETE
      (deleteDigest crypto body)) body.signature = true) :
    (exec (handleDelete policy crypto body now) ctx).2.store =
      (ctx.store.delete (crypto.sha256 body.identityPubkey.bytes) body.depositIds).1 := by
  have hverify : ctx.challenges.verify crypto body.nonce body.identityPubkey body.signature
      OP_BYTE_DELETE (deleteDigest crypto body) now =
      (.ok (), ctx.challenges.delete body.nonce) := by
    simp only [Challenges.verify, hissued, hsigned, if_true]
    rw [if_neg (by omega), if_neg (by simp)]
  simp only [handleDelete, checkVersion, verifyChallenge, exec_bind, exec_ensure, hversion, hids,
    if_true, exec_onPart, hverify, exec_get, exec_modify, exec_pure]

theorem exec_bind_attempt {α β : Type} (x : Client α) (f : α → Except MailboxClientErrorKind β)
    (ctx : DispatchCtx) : (exec (x >>= fun a => attempt (f a)) ctx).2 = (exec x ctx).2 := by
  rw [exec_bind]
  rcases exec x ctx with ⟨result, next⟩
  cases result with
  | error | ok => rfl

theorem exchange_state {request : MailboxFrame} {bytes : Bytes} (ctx : DispatchCtx)
    (hsent : send frame = .sent request bytes) :
    (exec (exchange policy crypto tick frame) ctx).2 =
      (exec (dispatch policy crypto frame tick.now tick.nowSecs tick.fresh) ctx).2 := by
  show (match send frame with
    | .sent _ _ => _
    | _ => _ : Except MailboxClientErrorKind MailboxFrame × DispatchCtx).2 = _
  rw [hsent]
  dsimp only
  split
  · rfl
  · rfl

theorem exchange_delete_store (hversion : body.version = PROTOCOL_VERSION)
    (hissued : ctx.challenges.get body.nonce = some ⟨crypto.sha256 body.identityPubkey.bytes,
      issuedAt⟩) (hage : tick.now - issuedAt ≤ CHALLENGE_TTL_SECS)
    (hsigned : crypto.verify body.identityPubkey (signingInput body.nonce OP_BYTE_DELETE
      (deleteDigest crypto body)) body.signature = true) :
    (exec (exchange .recommended crypto tick (.delete body)) ctx).2.store =
      if body.depositIds.length ≤ 1024 then
        (ctx.store.delete (crypto.sha256 body.identityPubkey.bytes) body.depositIds).1
      else ctx.store := by
  by_cases hids : body.depositIds.length ≤ 1024
  · obtain ⟨bytes, hsent⟩ := send_delete hids
    rw [if_pos hids, exchange_state ctx hsent]
    exact handleDelete_of_signed hversion hids hissued hage hsigned
  · rw [if_neg hids]
    rcases hexchange : exec (exchange .recommended crypto tick (.delete body)) ctx
      with ⟨outcome, next⟩
    rcases exchange_cases hexchange with ⟨-, rfl⟩ | ⟨result, hdispatch, -⟩
    · rfl
    · have hrefused := hdispatch.symm.trans (handleDelete_of_too_many ctx hversion hids)
      rw [(Prod.mk.inj hrefused).2]

/-- The delete exchange removes the named deposits of the signer, or nothing when there are more
of them than the server takes in one request. -/
theorem delete_store (ids : List DepositId)
    (hsign : ∀ message, crypto.verify signer.key message (signer.sign message) = true)
    (hage : late.now - early.now ≤ CHALLENGE_TTL_SECS) (ctx : DispatchCtx) :
    (exec (delete .recommended crypto signer ids early late) ctx).2.store =
      if ids.length ≤ 1024 then (ctx.store.delete (crypto.sha256 signer.key.bytes) ids).1
      else ctx.store := by
  rw [delete, exec_bind, exec_challenge]
  dsimp only
  rw [exec_bind_attempt]
  exact exchange_delete_store rfl (Table.get_put_self _ _ _) hage (hsign _)

/-! ### What a poll leaves behind -/

/-- The deposits that the poll persisted are gone from the server, and those that it could not
persist are still there. -/
structure CleanedUp (outcomes : List (PendingDeposit × Bool)) (before after : Store) : Prop where
  gone : ∀ deposit, (deposit, true) ∈ outcomes → ∀ row, (deposit.depositId, row) ∉ after.rows
  kept : ∀ deposit, (deposit, false) ∈ outcomes → ∀ row,
    (deposit.depositId, row) ∈ before.rows → (deposit.depositId, row) ∈ after.rows

theorem map_fst_dispatchAll (inbound : Inbound σ) (deposits : List PendingDeposit) (state : σ) :
    (dispatchAll inbound deposits state).1.map Prod.fst = deposits := by
  induction deposits generalizing state with
  | nil => rfl
  | cons deposit deposits ih =>
    show deposit :: (dispatchAll inbound deposits _).1.map Prod.fst = _
    rw [ih]

theorem nodup_fetch (store : Store) (recipient : RecipientHash) (now : Int) :
    ((store.fetch recipient now).map PendingDeposit.depositId).Nodup := by
  have hkeys : (((store.rowsFor recipient).filter fun row => row.2.expiresAt > now).map
      Prod.fst).Nodup :=
    store.nodup.sublist ((List.filter_sublist.trans List.filter_sublist).map Prod.fst)
  have hmap : (store.fetch recipient now).map PendingDeposit.depositId =
      (Store.orderByDepositedAt ((store.rowsFor recipient).filter
        fun row => row.2.expiresAt > now)).map Prod.fst := by
    simp [Store.fetch, Function.comp_def]
  rw [hmap]
  exact ((List.perm_insertionSort _ _).map Prod.fst).nodup_iff.mpr hkeys

theorem mem_dispatched {outcomes : List (PendingDeposit × Bool)} {id : DepositId} :
    id ∈ dispatched outcomes ↔ ∃ deposit, (deposit, true) ∈ outcomes ∧ deposit.depositId = id := by
  constructor
  · intro h
    obtain ⟨⟨deposit, persisted⟩, houtcome, rfl⟩ := List.mem_map.mp h
    obtain ⟨hmem, hpersisted⟩ := List.mem_filter.mp houtcome
    have hpersisted : persisted = true := hpersisted
    subst hpersisted
    exact ⟨deposit, hmem, rfl⟩
  · rintro ⟨deposit, hmem, rfl⟩
    exact List.mem_map.mpr ⟨(deposit, true), List.mem_filter.mpr ⟨hmem, rfl⟩, rfl⟩

theorem length_dispatched (outcomes : List (PendingDeposit × Bool)) :
    (dispatched outcomes).length = outcomes.countP fun outcome => outcome.2 := by
  rw [dispatched, List.length_map, List.countP_eq_length_filter]

section Poll

variable {signer : Signer} {inbound : Inbound σ} {state : σ} {ticks : Ticks}
  {ctx fetched : DispatchCtx} {response : FetchResponse}

theorem poll_store
    (hsign : ∀ message, crypto.verify signer.key message (signer.sign message) = true)
    (hage : ticks.delete.now - ticks.deleteChallenge.now ≤ CHALLENGE_TTL_SECS)
    (hfetch : exec (fetch .recommended crypto signer ticks.fetchChallenge ticks.fetch) ctx =
      (.ok response, fetched)) :
    (exec (pollDispatchOnce .recommended crypto signer inbound state ticks) ctx).2.store =
      if dispatched (dispatchAll inbound response.deposits state).1 = [] then ctx.store
      else if (dispatched (dispatchAll inbound response.deposits state).1).length ≤ 1024 then
        (ctx.store.delete (crypto.sha256 signer.key.bytes)
          (dispatched (dispatchAll inbound response.deposits state).1)).1
      else ctx.store := by
  have hstore := (fetch_ok hfetch).1
  rw [pollDispatchOnce, exec_bind, hfetch]
  dsimp only
  by_cases hempty : response.deposits = []
  · rw [if_pos hempty, hempty]
    exact hstore
  rw [if_neg hempty]
  by_cases hids : dispatched (dispatchAll inbound response.deposits state).1 = []
  · rw [if_pos hids, if_pos hids]
    exact hstore
  · rw [if_neg hids, if_neg hids]
    have hdelete := delete_store (dispatched (dispatchAll inbound response.deposits state).1)
      hsign hage fetched
    rw [hstore] at hdelete
    rw [← hdelete, exec_bind]
    split
    · next a after hexec => rw [hexec]; rfl
    · next e after hexec => rw [hexec]

theorem cleanedUp_delete {store : Store} {recipient : RecipientHash}
    {outcomes : List (PendingDeposit × Bool)}
    (hids : ((outcomes.map Prod.fst).map PendingDeposit.depositId).Nodup)
    (hrow : ∀ deposit, (deposit, true) ∈ outcomes → ∃ row,
      (deposit.depositId, row) ∈ store.rows ∧ row.recipientHash = recipient) :
    CleanedUp outcomes store (store.delete recipient (dispatched outcomes)).1 where
  gone := by
    intro deposit hpersisted row hstored
    obtain ⟨hbefore, hother⟩ := (Store.mem_delete_iff _).mp hstored
    rcases hother with hid | hhash
    · exact hid (mem_dispatched.mpr ⟨deposit, hpersisted, rfl⟩)
    · obtain ⟨owned, howned, hrecipient⟩ := hrow deposit hpersisted
      have heq := Table.row_unique hbefore howned rfl
      cases heq
      exact hhash hrecipient
  kept := by
    intro deposit hfailed row hstored
    refine Store.mem_delete _ hstored (.inl fun hid => ?_)
    obtain ⟨other, hother, hsame⟩ := mem_dispatched.mp hid
    have heq := List.inj_on_of_nodup_map hids (List.mem_map_of_mem hother)
      (List.mem_map_of_mem hfailed) hsame
    have hpair := List.inj_on_of_nodup_map (List.Nodup.of_map _ hids) hother hfailed heq
    cases hpair

/-- A poll cleans up after itself exactly when it persisted at most 1024 of the deposits that it
fetched, which is the number of ids that a server with the recommended policy takes at once. -/
theorem poll_cleans_up_iff
    (hsign : ∀ message, crypto.verify signer.key message (signer.sign message) = true)
    (hage : ticks.delete.now - ticks.deleteChallenge.now ≤ CHALLENGE_TTL_SECS)
    (hfetch : exec (fetch .recommended crypto signer ticks.fetchChallenge ticks.fetch) ctx =
      (.ok response, fetched)) :
    CleanedUp (dispatchAll inbound response.deposits state).1 ctx.store
        (exec (pollDispatchOnce .recommended crypto signer inbound state ticks) ctx).2.store ↔
      ((dispatchAll inbound response.deposits state).1.countP fun outcome => outcome.2) ≤ 1024 := by
  have hresponse := (fetch_ok hfetch).2
  have hfst := map_fst_dispatchAll inbound response.deposits state
  rw [poll_store hsign hage hfetch, ← length_dispatched]
  generalize (dispatchAll inbound response.deposits state).1 = outcomes at hfst
  -- an outcome is about a fetched deposit, so about a row of the signer
  have hrow {deposit : PendingDeposit} {persisted : Bool} (h : (deposit, persisted) ∈ outcomes) :
      ∃ row, (deposit.depositId, row) ∈ ctx.store.rows ∧
        row.recipientHash = crypto.sha256 signer.key.bytes := by
    have hmem : deposit ∈ response.deposits := hfst ▸ List.mem_map_of_mem h
    rw [hresponse] at hmem
    exact Store.of_mem_fetch hmem
  have hids : ((outcomes.map Prod.fst).map PendingDeposit.depositId).Nodup := by
    rw [hfst, hresponse]
    exact nodup_fetch _ _ _
  constructor
  · intro h
    by_contra hmany
    have hsome : dispatched outcomes ≠ [] := by
      intro hnil
      rw [hnil] at hmany
      exact hmany (Nat.zero_le _)
    rw [if_neg hsome, if_neg hmany] at h
    obtain ⟨id, hid⟩ := List.exists_mem_of_ne_nil _ hsome
    obtain ⟨deposit, hpersisted, -⟩ := mem_dispatched.mp hid
    obtain ⟨row, hstored, -⟩ := hrow hpersisted
    exact h.gone deposit hpersisted row hstored
  · intro hfew
    rw [if_pos hfew]
    split
    · next hnil =>
      refine ⟨fun deposit hpersisted => ?_, fun deposit _ row hstored => hstored⟩
      have hid : deposit.depositId ∈ dispatched outcomes :=
        mem_dispatched.mpr ⟨deposit, hpersisted, rfl⟩
      rw [hnil] at hid
      cases hid
    · exact cleanedUp_delete hids fun deposit hpersisted => hrow hpersisted

end Poll

/-! ### A mailbox of small deposits -/

theorem send_fetch (body : Fetch) : ∃ bytes, send (.fetch body) = .sent (.fetch body) bytes := by
  apply send_of_fits
  have hversion := Cbor.headSize_le body.version.toNat
  have hkey := Cbor.byteSeqSize_arr_le body.identityPubkey
  have hnonce := Cbor.byteSeqSize_arr_le body.nonce
  have hsignature := Cbor.byteSeqSize_arr_le body.signature
  have hnames : (Cbor.text "version").length + (Cbor.text "identity_pubkey").length +
      (Cbor.text "nonce").length + (Cbor.text "signature").length = 40 := by decide
  have hfields := Cbor.headSize_le (0 + 1 + 1 + 1 + 1)
  rw [MailboxFrame.encodeCbor, Cbor.length_map]
  simp only [List.map_cons, List.map_nil, List.sum_cons, List.sum_nil, Cbor.length_uint,
    Cbor.length_byteSeq, List.length_cons, List.length_nil, MAX_FRAME_SIZE]
  omega

theorem fetch_of_fits
    (hsign : ∀ message, crypto.verify signer.key message (signer.sign message) = true)
    (hage : late.now - early.now ≤ CHALLENGE_TTL_SECS)
    (htoken : 1 ≤ (ctx.connRl.fetches.refill late.nowSecs).available)
    (hfits : fetchResponseSize (ctx.store.fetch (crypto.sha256 signer.key.bytes) late.now) ≤
      MAX_FRAME_SIZE) :
    ∃ fetched, exec (fetch policy crypto signer early late) ctx =
      (.ok ⟨ctx.store.fetch (crypto.sha256 signer.key.bytes) late.now⟩, fetched) := by
  rw [← length_fetchResponse] at hfits
  obtain ⟨reply, hreply⟩ := send_of_fits hfits
  rw [fetch, exec_bind, exec_challenge]
  dsimp only
  generalize hbody : Fetch.mk PROTOCOL_VERSION signer.key early.fresh.nonce (signer.sign
    ((Intent.fetch PROTOCOL_VERSION signer.key early.fresh.nonce).input crypto)) = body
  obtain ⟨request, hrequest⟩ := send_fetch body
  have hsigned : CorrectlySigned crypto body late.now late.nowSecs { ctx with
      challenges := ctx.challenges.issue early.fresh.nonce (crypto.sha256 signer.key.bytes)
        early.now } := by
    subst hbody
    exact ⟨rfl, htoken, ⟨early.now, Table.get_put_self _ _ _, hage⟩, hsign _⟩
  have hkey : body.identityPubkey = signer.key := by rw [← hbody]
  have hresult := handleFetch_of_signed hsigned
  rw [hkey] at hresult
  rcases hhandle : exec (handleFetch crypto body late.now late.nowSecs) { ctx with
    challenges := ctx.challenges.issue early.fresh.nonce (crypto.sha256 signer.key.bytes)
      early.now } with ⟨result, next⟩
  rw [hhandle] at hresult
  subst hresult
  have hexchange := exec_exchange_of_sent hrequest (show exec (dispatch policy crypto (.fetch body)
    late.now late.nowSecs late.fresh) _ = _ from hhandle) hreply
  exact ⟨next, by rw [exec_bind, hexchange]; rfl⟩

def wideId (n : Nat) : DepositId := ⟨beBytes 16 n, length_beBytes 16 n⟩

theorem wideId_injective {m n : Nat} (hm : m < 2000) (hn : n < 2000) (h : wideId m = wideId n) :
    m = n := by
  have hback {k : Nat} (hk : k < 2000) : ofBe (wideId k).bytes = k := by
    show ofBe (beBytes 16 k) = k
    exact ofBe_beBytes (by omega)
  rw [← hback hm, h, hback hn]

def smallRow : DepositRow := ⟨.fill 32 0, [], 0, 100⟩

def stocked (n : Nat) (h : n ≤ 2000) : Store where
  rows := (List.range n).map fun i => (wideId i, smallRow)
  nodup := by
    rw [List.map_map]
    refine List.Nodup.map_on ?_ List.nodup_range
    intro i hi j hj heq
    rw [List.mem_range] at hi hj
    exact wideId_injective (by omega) (by omega) heq

theorem fetch_stocked (n : Nat) (h : n ≤ 2000) :
    ((stocked n h).fetch (.fill 32 0) 0).length = n ∧
      ∀ deposit ∈ (stocked n h).fetch (.fill 32 0) 0, deposit.wireSize ≤ 200 := by
  have hlive : ((stocked n h).rowsFor (.fill 32 0)).filter (fun row => row.2.expiresAt > 0) =
      (stocked n h).rows := by
    rw [Store.rowsFor, List.filter_filter, List.filter_eq_self]
    intro row hrow
    obtain ⟨i, -, rfl⟩ := List.mem_map.mp hrow
    simp [smallRow]
  rw [Store.fetch, hlive]
  constructor
  · rw [List.length_map]
    show (List.insertionSort _ _).length = n
    rw [List.length_insertionSort]
    simp [stocked]
  · intro deposit hdeposit
    obtain ⟨row, hrow, rfl⟩ := List.mem_map.mp hdeposit
    rw [Store.mem_orderByDepositedAt] at hrow
    obtain ⟨i, -, rfl⟩ := List.mem_map.mp hrow
    have hid := Cbor.byteSeqSize_arr_le (wideId i)
    show 35 + Cbor.byteSeqSize (wideId i).bytes + Cbor.byteSeqSize [] + Cbor.intSize 0 ≤ 200
    have hempty : Cbor.byteSeqSize [] + Cbor.intSize 0 = 2 := by decide
    omega

def stockedCtx (n : Nat) (h : n ≤ 2000) : DispatchCtx where
  store := stocked n h
  challenges := .empty
  connRl := .fromPolicy .recommended 0
  globalRl := .new 0 0

def zeroSigner : Signer := ⟨.fill 32 0, fun _ => .fill 64 0⟩

def zeroTick : Tick := ⟨0, 0, wideId 0, .fill 32 0⟩

def zeroTicks : Ticks := ⟨zeroTick, zeroTick, zeroTick, zeroTick⟩

def persistAll : Inbound Unit := ⟨fun _ state => (true, state), fun _ state => (none, state)⟩

theorem dispatchAll_persistAll (deposits : List PendingDeposit) :
    (dispatchAll persistAll deposits ()).1 = deposits.map fun deposit => (deposit, true) := by
  induction deposits with
  | nil => rfl
  | cons deposit deposits ih =>
    show (deposit, true) :: (dispatchAll persistAll deposits ()).1 = _
    rw [ih, List.map_cons]

theorem fetch_stockedCtx (n : Nat) (h : n ≤ 2000) :
    ∃ fetched, exec (fetch .recommended trustingCrypto zeroSigner zeroTicks.fetchChallenge
      zeroTicks.fetch) (stockedCtx n h) = (.ok ⟨(stocked n h).fetch (.fill 32 0) 0⟩, fetched) := by
  obtain ⟨hlength, hsizes⟩ := fetch_stocked n h
  apply fetch_of_fits
  · intro message
    rfl
  · decide
  · simp only [stockedCtx, ConnRateLimiter.fromPolicy, Policy.recommended,
      TokenBucket.refill, TokenBucket.new]
    norm_num
  · have hsum := List.sum_le_card_nsmul (((stocked n h).fetch (.fill 32 0) 0).map
      PendingDeposit.wireSize) 200 (by simpa using hsizes)
    rw [List.length_map, hlength, smul_eq_mul] at hsum
    have hhead := Cbor.headSize_le n
    show 11 + Cbor.headSize ((stocked n h).fetch (.fill 32 0) 0).length + _ ≤ 16 * 1024 * 1024
    rw [hlength]
    change (((stocked n h).fetch _ _).map PendingDeposit.wireSize).sum ≤ _ at hsum
    show 11 + Cbor.headSize n + (((stocked n h).fetch (.fill 32 0) 0).map
      PendingDeposit.wireSize).sum ≤ _
    omega

/-- A poll of 1025 deposits that persists all of them deletes none. -/
theorem poll_of_1025_deletes_nothing :
    ∃ (ctx fetched : DispatchCtx) (response : FetchResponse),
      exec (fetch .recommended trustingCrypto zeroSigner zeroTicks.fetchChallenge zeroTicks.fetch)
        ctx = (.ok response, fetched) ∧
      (∀ message, trustingCrypto.verify zeroSigner.key message (zeroSigner.sign message) = true) ∧
      response.deposits.length = 1025 ∧
      (∀ outcome ∈ (dispatchAll persistAll response.deposits ()).1, outcome.2 = true) ∧
      (exec (pollDispatchOnce .recommended trustingCrypto zeroSigner persistAll () zeroTicks)
        ctx).2.store = ctx.store ∧
      ¬CleanedUp (dispatchAll persistAll response.deposits ()).1 ctx.store
        (exec (pollDispatchOnce .recommended trustingCrypto zeroSigner persistAll () zeroTicks)
          ctx).2.store := by
  obtain ⟨n, hn⟩ : ∃ n, n = 1025 := ⟨1025, rfl⟩
  have h : n ≤ 2000 := by omega
  obtain ⟨fetched, hfetch⟩ := fetch_stockedCtx n h
  have hlength := (fetch_stocked n h).1
  have hsign (message : Bytes) :
      trustingCrypto.verify zeroSigner.key message (zeroSigner.sign message) = true := rfl
  have hids : (dispatched (dispatchAll persistAll ((stocked n h).fetch (.fill 32 0) 0)
      ()).1).length = n := by
    simp [dispatched, dispatchAll_persistAll, hlength, List.filter_map, Function.comp_def]
  have hstore : (exec (pollDispatchOnce .recommended trustingCrypto zeroSigner persistAll ()
      zeroTicks) (stockedCtx n h)).2.store = (stockedCtx n h).store := by
    rw [poll_store hsign (by decide) hfetch]
    dsimp only
    rw [if_neg (by intro hnil; rw [hnil, List.length_nil] at hids; omega),
      if_neg (by omega)]
  refine ⟨stockedCtx n h, fetched, _, hfetch, hsign, hlength.trans hn, ?_, hstore, ?_⟩
  · intro outcome houtcome
    rw [dispatchAll_persistAll] at houtcome
    obtain ⟨deposit, -, rfl⟩ := List.mem_map.mp houtcome
    rfl
  · intro hclean
    rw [hstore, dispatchAll_persistAll] at hclean
    obtain ⟨deposit, hdeposit⟩ := List.exists_mem_of_length_pos (by omega :
      0 < ((stocked n h).fetch (.fill 32 0) 0).length)
    obtain ⟨row, hrow, -⟩ := Store.of_mem_fetch hdeposit
    exact hclean.gone deposit (List.mem_map_of_mem hdeposit) row hrow

/-- A poll of as many deposits as one delete may name deletes them. -/
theorem full_poll_cleans_up :
    ∃ (ctx fetched : DispatchCtx) (response : FetchResponse),
      exec (fetch .recommended trustingCrypto zeroSigner zeroTicks.fetchChallenge zeroTicks.fetch)
        ctx = (.ok response, fetched) ∧
      response.deposits.length = 1024 ∧
      CleanedUp (dispatchAll persistAll response.deposits ()).1 ctx.store
        (exec (pollDispatchOnce .recommended trustingCrypto zeroSigner persistAll () zeroTicks)
          ctx).2.store := by
  obtain ⟨n, hn⟩ : ∃ n, n = 1024 := ⟨1024, rfl⟩
  have h : n ≤ 2000 := by omega
  obtain ⟨fetched, hfetch⟩ := fetch_stockedCtx n h
  have hlength := (fetch_stocked n h).1
  refine ⟨stockedCtx n h, fetched, _, hfetch, hlength.trans hn, ?_⟩
  refine (poll_cleans_up_iff (fun _ => rfl) (by decide) hfetch).mpr ?_
  calc _ ≤ (dispatchAll persistAll ((stocked n h).fetch (.fill 32 0) 0) ()).1.length :=
        List.countP_le_length
    _ = n := by rw [dispatchAll_persistAll, List.length_map, hlength]
    _ ≤ 1024 := by omega

end Skattr.Core.Poll
