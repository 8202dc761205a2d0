import Skattr.Lib.Cbor
import Skattr.Lib.Fallible
import Mathlib.Data.List.DropRight

/-!
# Keys, cards, envelopes and errors

The values that the daemon's modules pass to each other. A contact card is checked against its
expiry and its signature; the signature scheme is a parameter.
-/

namespace Skattr.Core

open Lib

abbrev PublicKey := ByteArr 32

abbrev MessageId := ByteArr 16

/-- An opaque group id; `create_solo` draws 32 bytes, a joiner takes what the Welcome says. -/
abbrev GroupId := Bytes

inductive AttachmentErrorKind where
  | tooLarge
  | chunkHashMismatch
  | aeadFailed
  | sizeMismatch
  | manifestInvalid (message : String)
  | stripFailed (message : String)
  deriving DecidableEq

/-- The errors of the modelled functions. A storage error carries the text of the failing
operation; the database's own message after it is left out. -/
inductive CoreError where
  | mls (message : String)
  | groupCorrupt
  | storage (message : String)
  | duplicateMessage
  | contact (message : String)
  | contactNotFound
  | invite (message : String)
  | inviteExpired
  | inviteConsumed
  | inviteSignatureInvalid
  | torNotReady
  | delivery (message : String)
  | deliveryTimeout
  | transport (message : String)
  | frame (message : String)
  | attachment (kind : AttachmentErrorKind)
  | identity (message : String)
  | io (message : String)
  | invalidArgument (message : String)
  | cborEncode (message : String)
  | cborDecode (message : String)
  deriving DecidableEq

def saturate (value : Int) : Int := max (-(2 ^ 63)) (min (2 ^ 63 - 1) value)

def isWhitespace (c : Char) : Bool :=
  (9 ≤ c.toNat && c.toNat ≤ 13) || (0x2000 ≤ c.toNat && c.toNat ≤ 0x200a) ||
    [0x20, 0x85, 0xa0, 0x1680, 0x2028, 0x2029, 0x202f, 0x205f, 0x3000].contains c.toNat

def trim (text : String) : String :=
  .ofList ((text.toList.dropWhile isWhitespace).rdropWhile isWhitespace)

/-- The content that a card's owner signs. -/
structure ContactCardBody where
  identity : PublicKey
  onion : String
  mailboxes : List String
  version : Nat
  expiresAt : Int
  deriving DecidableEq

/-- A contact's published routing record. -/
structure ContactCard where
  body : ContactCardBody
  signature : ByteArr 64
  deriving DecidableEq

def ContactCard.sign (signCbor : ContactCardBody → Except CoreError (ByteArr 64))
    (signer : PublicKey) (onion : String) (mailboxes : List String) (version ttlSecs : Nat)
    (now : Int) : Except CoreError ContactCard := do
  check (ttlSecs < 2 ^ 63) (.contact "card: ttl overflows i64")
  check (now + ttlSecs < 2 ^ 63) (.contact "card: expires_at overflows i64")
  let body : ContactCardBody := ⟨signer, onion, mailboxes, version, now + ttlSecs⟩
  let signature ← signCbor body
  pure ⟨body, signature⟩

/-- Check the expiry and the signature of a card and return the identity it is for. -/
def ContactCard.verify (verifyCbor : PublicKey → ContactCardBody → ByteArr 64 → Bool)
    (card : ContactCard) (now : Int) : Except CoreError PublicKey :=
  if now > card.body.expiresAt then .error (.contact "card: expired")
  else if verifyCbor card.body.identity card.body card.signature then .ok card.body.identity
  else .error (.contact "card: signature verification failed")

theorem ContactCard.verify_ok {verifyCbor : PublicKey → ContactCardBody → ByteArr 64 → Bool}
    {card : ContactCard} {now : Int} {identity : PublicKey}
    (h : card.verify verifyCbor now = .ok identity) :
    card.body.identity = identity ∧ verifyCbor identity card.body card.signature = true := by
  unfold ContactCard.verify at h
  split at h
  · cases h
  · split at h
    · next hverifies =>
      cases h
      exact ⟨rfl, hverifies⟩
    · cases h

inductive Kind where
  | text (body : String)
  | file (manifest : Bytes)
  | reaction (target : MessageId) (emoji : String)
  | edit (target : MessageId) (body : String)
  | delete (target : MessageId)
  | typing
  | contactCardUpdate (card : ContactCard)
  deriving DecidableEq

/-- The kind is the daemon's own card update, which is never a message of the history. -/
def Kind.isCardUpdate : Kind → Bool
  | .contactCardUpdate _ => true
  | _ => false

/-- The envelope carried inside an MLS application message. -/
structure Envelope where
  v : Nat
  id : MessageId
  ts : Int
  replyTo : Option MessageId
  kind : Kind
  deriving DecidableEq

end Skattr.Core
