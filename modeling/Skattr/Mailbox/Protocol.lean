import Skattr.Lib.Cbor

/-!
# The mailbox wire protocol

The request and reply bodies of the mailbox protocol, the error taxonomy of the server with its
projection to wire codes, and the frame encoder. A frame is a big-endian `u32` length, a type byte
and a CBOR body, and the encoder refuses a frame above `MAX_FRAME_SIZE`. Byte vectors are
serialised element by element, so the size of a `FetchResponse` depends on the values of the
ciphertext bytes; `length_fetchResponse` gives it exactly.
-/

namespace Skattr.Mailbox

open Lib

def PROTOCOL_VERSION : UInt16 := 1

def MAX_FRAME_SIZE : Nat := 16 * 1024 * 1024

abbrev DepositId := ByteArr 16

/-- Lists of ids are searched by comparing ids. -/
instance : LawfulBEq DepositId := inferInstance

abbrev RecipientHash := ByteArr 32

abbrev Nonce := ByteArr 32

abbrev PubKey := ByteArr 32

abbrev Signature := ByteArr 64

structure Deposit where
  version : UInt16
  recipientHash : RecipientHash
  ciphertext : Bytes
  ttlRequest : UInt32
  deriving DecidableEq

structure DepositOk where
  depositId : DepositId
  expiresAt : Int
  deriving DecidableEq

/-- Request a nonce for a later fetch or delete. -/
structure Challenge where
  version : UInt16
  identityHash : RecipientHash
  deriving DecidableEq

structure ChallengeNonce where
  nonce : Nonce
  issuedAt : Int
  deriving DecidableEq

/-- Retrieve all pending deposits of an authenticated identity. -/
structure Fetch where
  version : UInt16
  identityPubkey : PubKey
  nonce : Nonce
  signature : Signature
  deriving DecidableEq

structure PendingDeposit where
  depositId : DepositId
  ciphertext : Bytes
  receivedAt : Int
  deriving DecidableEq

structure FetchResponse where
  deposits : List PendingDeposit
  deriving DecidableEq

/-- Remove deposits that the recipient has processed. -/
structure Delete where
  version : UInt16
  identityPubkey : PubKey
  nonce : Nonce
  signature : Signature
  depositIds : List DepositId
  deriving DecidableEq

structure DeleteOk where
  deleted : Nat
  notFound : Nat
  deriving DecidableEq

inductive ErrorCode where
  | unsupportedVersion
  | malformedRequest
  | tooLarge
  | rateLimited
  | recipientFull
  | ttlTooLong
  | ttlTooShort
  | invalidSignature
  | hashMismatch
  | nonceExpired
  | notFound
  | internal
  deriving DecidableEq

def ErrorCode.name : ErrorCode → String
  | .unsupportedVersion => "UnsupportedVersion"
  | .malformedRequest => "MalformedRequest"
  | .tooLarge => "TooLarge"
  | .rateLimited => "RateLimited"
  | .recipientFull => "RecipientFull"
  | .ttlTooLong => "TtlTooLong"
  | .ttlTooShort => "TtlTooShort"
  | .invalidSignature => "InvalidSignature"
  | .hashMismatch => "HashMismatch"
  | .nonceExpired => "NonceExpired"
  | .notFound => "NotFound"
  | .internal => "Internal"

structure ErrorBody where
  code : ErrorCode
  message : String
  deriving DecidableEq

/-! ### Errors of the server -/

inductive StorageErrorKind where
  | sqlite (message : String)
  | notFound
  deriving DecidableEq

inductive AuthErrorKind where
  | hashMismatch
  | invalidSignature
  | nonceExpired
  deriving DecidableEq

inductive PolicyErrorKind where
  | tooLarge
  | ttlTooLong
  | ttlTooShort
  | rateLimited
  | recipientFull
  | serverFull
  | recipientLimit
  | tooManyDeleteIds
  deriving DecidableEq

inductive TransportErrorKind where
  | encodeFailed (message : String)
  | decodeFailed (message : String)
  | unsupportedVersion
  deriving DecidableEq

/-- The errors that a request handler or the codec can raise. -/
inductive MailboxError where
  | storage (kind : StorageErrorKind)
  | auth (kind : AuthErrorKind)
  | policy (kind : PolicyErrorKind)
  | transport (kind : TransportErrorKind)
  deriving DecidableEq

/-- The wire code of an error; what has no code of its own is `internal`. -/
def MailboxError.toWireCode : MailboxError → ErrorCode
  | .auth .hashMismatch => .hashMismatch
  | .auth .invalidSignature => .invalidSignature
  | .auth .nonceExpired => .nonceExpired
  | .policy .tooLarge => .tooLarge
  | .policy .ttlTooLong => .ttlTooLong
  | .policy .ttlTooShort => .ttlTooShort
  | .policy .rateLimited => .rateLimited
  | .policy .recipientFull => .recipientFull
  | .policy .serverFull => .recipientFull
  | .policy .recipientLimit => .recipientFull
  | .policy .tooManyDeleteIds => .malformedRequest
  | .storage .notFound => .notFound
  | .transport (.decodeFailed _) => .malformedRequest
  | .transport .unsupportedVersion => .unsupportedVersion
  | _ => .internal

/-! ### Frames -/

inductive MailboxFrame where
  | deposit (body : Deposit)
  | depositOk (body : DepositOk)
  | challenge (body : Challenge)
  | challengeNonce (body : ChallengeNonce)
  | fetch (body : Fetch)
  | fetchResponse (body : FetchResponse)
  | delete (body : Delete)
  | deleteOk (body : DeleteOk)
  | error (body : ErrorBody)
  deriving DecidableEq

def MailboxFrame.kind : MailboxFrame → UInt8
  | .deposit _ => 0x82
  | .depositOk _ => 0x83
  | .challenge _ => 0x84
  | .challengeNonce _ => 0x85
  | .fetch _ => 0x86
  | .fetchResponse _ => 0x87
  | .delete _ => 0x88
  | .deleteOk _ => 0x89
  | .error _ => 0x8F

def errorFrame (err : MailboxError) : MailboxFrame :=
  let message := match err with
    | .auth _ => "auth failed"
    | .policy .tooLarge => "too large"
    | .policy .ttlTooLong => "ttl too long"
    | .policy .ttlTooShort => "ttl too short"
    | .policy .rateLimited => "rate limited"
    | .policy .recipientFull => "recipient full"
    | .policy .serverFull => "server full"
    | .policy .recipientLimit => "recipient limit"
    | .policy .tooManyDeleteIds => "too many delete ids"
    | .transport .unsupportedVersion => "unsupported version"
    | .transport (.decodeFailed _) => "malformed request"
    | _ => "internal error"
  .error ⟨err.toWireCode, message⟩

def PendingDeposit.toCbor (d : PendingDeposit) : Bytes :=
  Cbor.map [("deposit_id", Cbor.byteSeq d.depositId.bytes),
    ("ciphertext", Cbor.byteSeq d.ciphertext),
    ("received_at", Cbor.int d.receivedAt)]

/-- The CBOR body of a frame: a map from the field names in declaration order. -/
def MailboxFrame.encodeCbor : MailboxFrame → Bytes
  | .deposit b =>
    Cbor.map [("version", Cbor.uint b.version.toNat),
      ("recipient_hash", Cbor.byteSeq b.recipientHash.bytes),
      ("ciphertext", Cbor.byteSeq b.ciphertext),
      ("ttl_request", Cbor.uint b.ttlRequest.toNat)]
  | .depositOk b =>
    Cbor.map [("deposit_id", Cbor.byteSeq b.depositId.bytes),
      ("expires_at", Cbor.int b.expiresAt)]
  | .challenge b =>
    Cbor.map [("version", Cbor.uint b.version.toNat),
      ("identity_hash", Cbor.byteSeq b.identityHash.bytes)]
  | .challengeNonce b =>
    Cbor.map [("nonce", Cbor.byteSeq b.nonce.bytes), ("issued_at", Cbor.int b.issuedAt)]
  | .fetch b =>
    Cbor.map [("version", Cbor.uint b.version.toNat),
      ("identity_pubkey", Cbor.byteSeq b.identityPubkey.bytes),
      ("nonce", Cbor.byteSeq b.nonce.bytes),
      ("signature", Cbor.byteSeq b.signature.bytes)]
  | .fetchResponse b =>
    Cbor.map [("deposits", Cbor.array (b.deposits.map PendingDeposit.toCbor))]
  | .delete b =>
    Cbor.map [("version", Cbor.uint b.version.toNat),
      ("identity_pubkey", Cbor.byteSeq b.identityPubkey.bytes),
      ("nonce", Cbor.byteSeq b.nonce.bytes),
      ("signature", Cbor.byteSeq b.signature.bytes),
      ("deposit_ids", Cbor.array (b.depositIds.map fun id => Cbor.byteSeq id.bytes))]
  | .deleteOk b =>
    Cbor.map [("deleted", Cbor.uint b.deleted), ("not_found", Cbor.uint b.notFound)]
  | .error b =>
    Cbor.map [("code", Cbor.text b.code.name), ("message", Cbor.text b.message)]

/-- Encode a frame, or refuse one whose type byte and body exceed `MAX_FRAME_SIZE`. -/
def encode (item : MailboxFrame) : Except MailboxError Bytes :=
  let payload := item.encodeCbor
  let length := 1 + payload.length
  if length > MAX_FRAME_SIZE then
    .error (.transport (.encodeFailed s!"frame too large: {length} bytes"))
  else
    .ok (beBytes 4 length ++ item.kind :: payload)

/-! ### Sizes -/

def PendingDeposit.wireSize (d : PendingDeposit) : Nat :=
  35 + Cbor.byteSeqSize d.depositId.bytes + Cbor.byteSeqSize d.ciphertext +
    Cbor.intSize d.receivedAt

/-- The number of bytes of a `FetchResponse` frame, length field excluded. -/
def fetchResponseSize (deposits : List PendingDeposit) : Nat :=
  11 + Cbor.headSize deposits.length + (deposits.map PendingDeposit.wireSize).sum

theorem length_toCbor (d : PendingDeposit) : d.toCbor.length = d.wireSize := by
  have h₁ : (Cbor.text "deposit_id").length = 11 := by decide
  have h₂ : (Cbor.text "ciphertext").length = 11 := by decide
  have h₃ : (Cbor.text "received_at").length = 12 := by decide
  rw [PendingDeposit.toCbor, Cbor.length_map]
  simp only [List.map_cons, List.map_nil, List.sum_cons, List.sum_nil, h₁, h₂, h₃,
    Cbor.length_byteSeq, Cbor.length_int, List.length_cons, List.length_nil,
    PendingDeposit.wireSize, Cbor.headSize]
  simp only [Nat.reduceAdd, Nat.reduceLT, if_true]
  omega

theorem length_fetchResponse (deposits : List PendingDeposit) :
    1 + (MailboxFrame.fetchResponse ⟨deposits⟩).encodeCbor.length =
      fetchResponseSize deposits := by
  have hname : (Cbor.text "deposits").length = 9 := by decide
  have hitems : deposits.map (List.length ∘ PendingDeposit.toCbor) =
      deposits.map PendingDeposit.wireSize :=
    List.map_congr_left fun d _ => length_toCbor d
  rw [MailboxFrame.encodeCbor, Cbor.length_map]
  simp only [List.map_cons, List.map_nil, List.sum_cons, List.sum_nil, hname, Cbor.length_array,
    List.length_map, List.map_map, hitems, List.length_cons, List.length_nil, fetchResponseSize]
  have hhead : Cbor.headSize (0 + 1) = 1 := by decide
  omega

theorem encode_eq_ok_iff {item : MailboxFrame} :
    (∃ bytes, encode item = .ok bytes) ↔ 1 + item.encodeCbor.length ≤ MAX_FRAME_SIZE := by
  unfold encode
  simp only
  split
  · next h => simp; omega
  · next h => simp; omega

theorem length_of_encode {item : MailboxFrame} {bytes : Bytes} (h : encode item = .ok bytes) :
    bytes.length = 4 + (1 + item.encodeCbor.length) := by
  unfold encode at h
  simp only at h
  split at h
  · cases h
  · cases h
    simp
    omega

end Skattr.Mailbox
