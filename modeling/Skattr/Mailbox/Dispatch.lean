import Skattr.Mailbox.Store

/-!
# Challenges and request handlers

The challenge-response authentication of fetch and delete requests, and one handler for each
request frame. A handler returns the reply frame or raises an error; the rate limiters and the
challenge table keep what a rejected request did to them. The hash and the signature scheme are
parameters. `handleDeposit_spec` and `handleDelete_spec` say when a handler touches the store,
and `handleFetch_of_signed` that a correctly signed fetch is answered with every live deposit.
-/

namespace Skattr.Mailbox

open Lib

/-- The primitives that the server takes from its cryptographic libraries. `verify` covers the
decoding of the public key and the check of the signature. -/
structure Crypto where
  sha256 : Bytes → ByteArr 32
  verify : PubKey → Bytes → Signature → Bool

/-! ### Challenges -/

def CHALLENGE_TTL_SECS : Int := 30

def AUTH_DOMAIN : Bytes := "skattr-mailbox-auth-v1".toUTF8.data.toList

def OP_BYTE_FETCH : UInt8 := 0x86

def OP_BYTE_DELETE : UInt8 := 0x88

structure Issued where
  identityHash : RecipientHash
  issuedAt : Int
  deriving DecidableEq

abbrev Challenges := Table Nonce Issued

def signingInput (nonce : Nonce) (opByte : UInt8) (payloadDigest : ByteArr 32) : Bytes :=
  AUTH_DOMAIN ++ nonce.bytes ++ [opByte] ++ payloadDigest.bytes

def Challenges.issue (challenges : Challenges) (nonce : Nonce) (identityHash : RecipientHash)
    (now : Int) : Challenges :=
  challenges.put nonce ⟨identityHash, now⟩

/-- Check a signed request. The nonce is consumed on success and dropped when it is stale. -/
def Challenges.verify (crypto : Crypto) (challenges : Challenges) (nonce : Nonce)
    (identityPubkey : PubKey) (signature : Signature) (opByte : UInt8)
    (payloadHash : ByteArr 32) (now : Int) : Except MailboxError Unit × Challenges :=
  match challenges.get nonce with
  | none => (.error (.auth .nonceExpired), challenges)
  | some issued =>
    if now - issued.issuedAt > CHALLENGE_TTL_SECS then
      (.error (.auth .nonceExpired), challenges.delete nonce)
    else if crypto.sha256 identityPubkey.bytes ≠ issued.identityHash then
      (.error (.auth .hashMismatch), challenges)
    else if crypto.verify identityPubkey (signingInput nonce opByte payloadHash) signature then
      (.ok (), challenges.delete nonce)
    else
      (.error (.auth .invalidSignature), challenges)

def Challenges.sweep (challenges : Challenges) (now : Int) : Challenges :=
  challenges.deleteWhere fun _ issued => now - issued.issuedAt > CHALLENGE_TTL_SECS

/-! ### Handlers -/

/-- The shared state that the handlers of one connection work on. -/
structure DispatchCtx where
  store : Store
  challenges : Challenges
  connRl : ConnRateLimiter
  globalRl : TokenBucket

abbrev Handler := Fallible MailboxError DispatchCtx

open Fallible

def checkVersion (version : UInt16) : Handler Unit :=
  ensure (version = PROTOCOL_VERSION) (.transport .unsupportedVersion)

def acquireDeposit (nowSecs : ℚ) : Handler Unit :=
  onPart (fun ctx => ctx.connRl.deposits)
    (fun bucket ctx => { ctx with connRl := { ctx.connRl with deposits := bucket } })
    fun bucket => bucket.tryAcquire nowSecs

def acquireFetch (nowSecs : ℚ) : Handler Unit :=
  onPart (fun ctx => ctx.connRl.fetches)
    (fun bucket ctx => { ctx with connRl := { ctx.connRl with fetches := bucket } })
    fun bucket => bucket.tryAcquire nowSecs

def acquireGlobal (nowSecs : ℚ) : Handler Unit :=
  onPart (fun ctx => ctx.globalRl) (fun bucket ctx => { ctx with globalRl := bucket })
    fun bucket => bucket.tryAcquire nowSecs

def verifyChallenge (crypto : Crypto) (nonce : Nonce) (identityPubkey : PubKey)
    (signature : Signature) (opByte : UInt8) (payloadHash : ByteArr 32) (now : Int) :
    Handler Unit :=
  onPart (fun ctx => ctx.challenges) (fun challenges ctx => { ctx with challenges := challenges })
    fun challenges => challenges.verify crypto nonce identityPubkey signature opByte payloadHash now

def i64Max : Int := 2 ^ 63 - 1

def handleDeposit (policy : Policy) (body : Deposit) (now : Int) (nowSecs : ℚ)
    (id : DepositId) : Handler MailboxFrame := do
  checkVersion body.version
  ensure (body.ciphertext.length ≤ policy.maxDepositSize) (.policy .tooLarge)
  acquireDeposit nowSecs
  acquireGlobal nowSecs
  let ttl ← attempt (policy.resolveTtl body.ttlRequest)
  let expiresAt := min (now + ttl) i64Max
  let ctx ← get
  let store ← attempt (ctx.store.insert id ⟨body.recipientHash, body.ciphertext, now, expiresAt⟩
    policy.recipientCapBytes policy.globalStorageCapBytes policy.maxRecipients now)
  modify fun ctx => { ctx with store := store }
  return .depositOk ⟨id, expiresAt⟩

def handleChallenge (body : Challenge) (now : Int) (nonce : Nonce) : Handler MailboxFrame := do
  checkVersion body.version
  modify fun ctx => { ctx with challenges := ctx.challenges.issue nonce body.identityHash now }
  return .challengeNonce ⟨nonce, now⟩

/-- The digest that a fetch signs, over the positional tuple of its other fields. -/
def fetchDigest (crypto : Crypto) (body : Fetch) : ByteArr 32 :=
  crypto.sha256 (Cbor.array [Cbor.uint body.version.toNat, Cbor.byteSeq body.identityPubkey.bytes,
    Cbor.byteSeq body.nonce.bytes])

def handleFetch (crypto : Crypto) (body : Fetch) (now : Int) (nowSecs : ℚ) :
    Handler MailboxFrame := do
  checkVersion body.version
  acquireFetch nowSecs
  verifyChallenge crypto body.nonce body.identityPubkey body.signature OP_BYTE_FETCH
    (fetchDigest crypto body) now
  let ctx ← get
  return .fetchResponse ⟨ctx.store.fetch (crypto.sha256 body.identityPubkey.bytes) now⟩

def deleteDigest (crypto : Crypto) (body : Delete) : ByteArr 32 :=
  crypto.sha256 (Cbor.array [Cbor.uint body.version.toNat, Cbor.byteSeq body.identityPubkey.bytes,
    Cbor.byteSeq body.nonce.bytes,
    Cbor.array (body.depositIds.map fun id => Cbor.byteSeq id.bytes)])

def handleDelete (policy : Policy) (crypto : Crypto) (body : Delete) (now : Int) :
    Handler MailboxFrame := do
  checkVersion body.version
  ensure (body.depositIds.length ≤ policy.maxDeleteIds) (.policy .tooManyDeleteIds)
  verifyChallenge crypto body.nonce body.identityPubkey body.signature OP_BYTE_DELETE
    (deleteDigest crypto body) now
  let ctx ← get
  let (store, counts) := ctx.store.delete (crypto.sha256 body.identityPubkey.bytes) body.depositIds
  modify fun ctx => { ctx with store := store }
  return .deleteOk counts

/-! ### What the handlers do to the store -/

def SameStore (ctx next : DispatchCtx) : Prop := next.store = ctx.store

instance : Std.Refl SameStore := ⟨fun _ => rfl⟩

instance : IsTrans DispatchCtx SameStore := ⟨fun _ _ _ h₁ h₂ => h₂.trans h₁⟩

theorem checkVersion_sameStore (version : UInt16) : Keeps SameStore (checkVersion version) :=
  Keeps.ensure _ _

theorem acquireDeposit_sameStore (nowSecs : ℚ) : Keeps SameStore (acquireDeposit nowSecs) :=
  fun _ => rfl

theorem acquireFetch_sameStore (nowSecs : ℚ) : Keeps SameStore (acquireFetch nowSecs) :=
  fun _ => rfl

theorem acquireGlobal_sameStore (nowSecs : ℚ) : Keeps SameStore (acquireGlobal nowSecs) :=
  fun _ => rfl

theorem verifyChallenge_sameStore (crypto : Crypto) (nonce : Nonce) (key : PubKey)
    (signature : Signature) (opByte : UInt8) (hash : ByteArr 32) (now : Int) :
    Keeps SameStore (verifyChallenge crypto nonce key signature opByte hash now) :=
  fun _ => rfl

theorem handleChallenge_sameStore (body : Challenge) (now : Int) (nonce : Nonce) :
    Keeps SameStore (handleChallenge body now nonce) :=
  (checkVersion_sameStore _).bind fun _ => Keeps.bind (fun _ => rfl) fun _ => Keeps.pure _

theorem handleFetch_sameStore (crypto : Crypto) (body : Fetch) (now : Int) (nowSecs : ℚ) :
    Keeps SameStore (handleFetch crypto body now nowSecs) :=
  (checkVersion_sameStore _).bind fun _ => (acquireFetch_sameStore _).bind fun _ =>
    (verifyChallenge_sameStore _ _ _ _ _ _ _).bind fun _ => Keeps.get.bind fun _ => Keeps.pure _

variable {policy : Policy} {now : Int} {nowSecs : ℚ} {ctx next : DispatchCtx}
  {result : Except MailboxError MailboxFrame} {crypto : Crypto} {body : Deposit} {id : DepositId}

theorem handleDeposit_spec
    (h : exec (handleDeposit policy body now nowSecs id) ctx = (result, next)) :
    (∃ expiresAt, result = .ok (.depositOk ⟨id, expiresAt⟩) ∧
      ctx.store.insert id ⟨body.recipientHash, body.ciphertext, now, expiresAt⟩
        policy.recipientCapBytes policy.globalStorageCapBytes policy.maxRecipients now =
        .ok next.store) ∨
      ∃ e, result = .error e ∧ next.store = ctx.store := by
  unfold handleDeposit at h
  rcases (checkVersion_sameStore _).bind_cases h with ⟨e, rfl, hs⟩ | ⟨_, ctx₁, -, h₁, h⟩
  · exact .inr ⟨e, rfl, hs⟩
  rcases (Keeps.ensure (R := SameStore) _ _).bind_cases h with ⟨e, rfl, hs⟩ | ⟨_, ctx₂, -, h₂, h⟩
  · exact .inr ⟨e, rfl, hs.trans h₁⟩
  rcases (acquireDeposit_sameStore _).bind_cases h with ⟨e, rfl, hs⟩ | ⟨_, ctx₃, -, h₃, h⟩
  · exact .inr ⟨e, rfl, hs.trans (h₂.trans h₁)⟩
  rcases (acquireGlobal_sameStore _).bind_cases h with ⟨e, rfl, hs⟩ | ⟨_, ctx₄, -, h₄, h⟩
  · exact .inr ⟨e, rfl, hs.trans (h₃.trans (h₂.trans h₁))⟩
  have hstore : ctx₄.store = ctx.store := h₄.trans (h₃.trans (h₂.trans h₁))
  rw [← hstore]
  -- the two remaining ways to fail leave the state as it is
  cases httl : policy.resolveTtl body.ttlRequest with
  | error e =>
    simp only [httl, exec_bind, exec_attempt] at h
    cases h
    exact .inr ⟨e, rfl, rfl⟩
  | ok ttl =>
    simp only [httl, exec_bind, exec_attempt, exec_get] at h
    split at h
    · next store ctx₅ hinsert =>
      obtain ⟨hrow, rfl⟩ := Prod.mk.inj hinsert
      simp only [exec_modify, exec_pure] at h
      cases h
      exact .inl ⟨_, rfl, hrow⟩
    · next e ctx₅ hinsert =>
      obtain ⟨-, rfl⟩ := Prod.mk.inj hinsert
      cases h
      exact .inr ⟨e, rfl, rfl⟩

theorem handleDeposit_of_accepted {connBucket globalBucket : TokenBucket} {ttl : Nat}
    {store : Store} (hversion : body.version = PROTOCOL_VERSION)
    (hsize : body.ciphertext.length ≤ policy.maxDepositSize)
    (hconn : ctx.connRl.deposits.tryAcquire nowSecs = (.ok (), connBucket))
    (hglobal : ctx.globalRl.tryAcquire nowSecs = (.ok (), globalBucket))
    (httl : policy.resolveTtl body.ttlRequest = .ok ttl)
    (hinsert : ctx.store.insert id ⟨body.recipientHash, body.ciphertext, now, min (now + ttl)
      i64Max⟩ policy.recipientCapBytes policy.globalStorageCapBytes policy.maxRecipients now = .ok
      store) :
    exec (handleDeposit policy body now nowSecs id) ctx =
      (.ok (.depositOk ⟨id, min (now + ttl) i64Max⟩),
        ⟨store, ctx.challenges, { ctx.connRl with deposits := connBucket }, globalBucket⟩) := by
  simp only [handleDeposit, checkVersion, acquireDeposit, acquireGlobal, exec_bind, exec_ensure,
    hversion, hsize, if_true, exec_onPart, hconn, hglobal, exec_attempt, httl, exec_get, hinsert,
    exec_modify, exec_pure]

theorem handleDelete_spec {body : Delete}
    (h : exec (handleDelete policy crypto body now) ctx = (result, next)) :
    (∃ counts, result = .ok (.deleteOk counts) ∧
      ctx.store.delete (crypto.sha256 body.identityPubkey.bytes) body.depositIds =
        (next.store, counts)) ∨
      ∃ e, result = .error e ∧ next.store = ctx.store := by
  unfold handleDelete at h
  rcases (checkVersion_sameStore _).bind_cases h with ⟨e, rfl, hs⟩ | ⟨_, ctx₁, -, h₁, h⟩
  · exact .inr ⟨e, rfl, hs⟩
  rcases (Keeps.ensure (R := SameStore) _ _).bind_cases h with ⟨e, rfl, hs⟩ | ⟨_, ctx₂, -, h₂, h⟩
  · exact .inr ⟨e, rfl, hs.trans h₁⟩
  rcases (verifyChallenge_sameStore _ _ _ _ _ _ _).bind_cases h with
    ⟨e, rfl, hs⟩ | ⟨_, ctx₃, -, h₃, h⟩
  · exact .inr ⟨e, rfl, hs.trans (h₂.trans h₁)⟩
  have hstore : ctx₃.store = ctx.store := h₃.trans (h₂.trans h₁)
  rw [← hstore]
  simp only [exec_bind, exec_get, exec_modify, exec_pure] at h
  cases h
  exact .inl ⟨_, rfl, rfl⟩

/-! ### A correctly signed fetch -/

/-- The fetch is authenticated and correctly signed at `now`: its nonce was issued to the hash of
its key and is still alive, its signature verifies, and the connection has a fetch token left. -/
structure CorrectlySigned (crypto : Crypto) (body : Fetch) (now : Int) (nowSecs : ℚ)
    (ctx : DispatchCtx) : Prop where
  version : body.version = PROTOCOL_VERSION
  token : 1 ≤ (ctx.connRl.fetches.refill nowSecs).available
  issued : ∃ issuedAt, ctx.challenges.get body.nonce =
    some ⟨crypto.sha256 body.identityPubkey.bytes, issuedAt⟩ ∧ now - issuedAt ≤ CHALLENGE_TTL_SECS
  signed : crypto.verify body.identityPubkey
    (signingInput body.nonce OP_BYTE_FETCH (fetchDigest crypto body)) body.signature = true

theorem handleFetch_of_signed {body : Fetch} (h : CorrectlySigned crypto body now nowSecs ctx) :
    (exec (handleFetch crypto body now nowSecs) ctx).1 =
      .ok (.fetchResponse ⟨ctx.store.fetch (crypto.sha256 body.identityPubkey.bytes) now⟩) := by
  obtain ⟨issuedAt, hget, hage⟩ := h.issued
  have hverify : ctx.challenges.verify crypto body.nonce body.identityPubkey body.signature
      OP_BYTE_FETCH (fetchDigest crypto body) now = (.ok (), ctx.challenges.delete body.nonce) := by
    simp only [Challenges.verify, hget, h.signed, if_true]
    rw [if_neg (by omega), if_neg (by simp)]
  have hacquire : (ctx.connRl.fetches.tryAcquire nowSecs).1 = .ok () := by
    simp only [TokenBucket.tryAcquire]
    rw [if_pos h.token]
  simp only [handleFetch, checkVersion, acquireFetch, verifyChallenge, exec_bind, exec_ensure,
    h.version, if_true, exec_onPart, hacquire, hverify, exec_get, exec_pure]

end Skattr.Mailbox
