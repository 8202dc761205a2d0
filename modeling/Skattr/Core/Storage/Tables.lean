import Skattr.Core.Attachment.Manifest
import Skattr.Lib.Table
import Skattr.Lib.Transaction
import Mathlib.Data.List.Sort

/-!
# The daemon's tables and repositories

The tables of the daemon's database and the repository functions on them. A function that the
source runs inside a caller's transaction is a transaction body; the others read the committed
tables. Row ids, and columns that no modelled function reads, are left out. The cards of a contact
are kept with its row, since deleting the contact deletes them.
-/

namespace Skattr.Core

open Lib

/-- A canonical KeyPackageRef. -/
abbrev KeyPackageRef := ByteArr 32

/-- A row of `contacts`, with the rows of `contact_cards` that belong to it. An empty group id
means that the contact is not linked to a group. -/
structure ContactRow where
  displayName : Option String
  addedAt : Int
  groupId : GroupId
  hidden : Bool
  cards : List ContactCard
  deriving DecidableEq

structure GroupRow where
  stateBlob : Bytes
  epoch : Nat
  deriving DecidableEq

/-- A row of `messages`; the kind, the text and the blob columns are functions of the envelope. -/
structure MessageRow where
  sender : PublicKey
  envelope : Envelope
  mlsGeneration : Nat
  tsDaemonRecv : Int
  deriving DecidableEq

structure OutboxRow where
  payload : Bytes
  nextRetryAt : Int
  deriving DecidableEq

structure PendingWelcomeRow where
  groupId : GroupId
  welcomeBytes : Bytes
  nextRetryAt : Int
  attempts : Nat
  createdAt : Int
  failed : Bool
  deriving DecidableEq

structure PendingWelcomeDue where
  peer : PublicKey
  groupId : GroupId
  welcomeBytes : Bytes
  attempts : Nat
  createdAt : Int
  deriving DecidableEq

structure OutstandingInviteRow where
  psk : ByteArr 32
  inviterKp : Bytes
  providerSnapshot : Option Bytes
  expiresAt : Int
  nickname : Option String
  deriving DecidableEq

/-- Who made a key package. -/
inductive Direction where
  | ours
  | theirs
  deriving DecidableEq

structure KeyPackageRow where
  kpBytes : Bytes
  direction : Direction
  consumed : Bool
  deriving DecidableEq

structure FirstContactAck where
  peerX25519 : ByteArr 32
  peerIdentity : PublicKey
  deriving DecidableEq

/-- Whether we send or receive an attachment: `out` and `in`. -/
inductive TransferDirection where
  | outbound
  | inbound
  deriving DecidableEq

inductive AttachmentStatus where
  | pending
  | complete
  | failed
  deriving DecidableEq

/-- A row of `attachments`. The sender of an incoming file is its peer; an outgoing one has none. -/
structure AttachmentRow where
  direction : TransferDirection
  manifest : Bytes
  totalChunks : Nat
  status : AttachmentStatus
  createdAt : Int
  peer : Option PublicKey
  deriving DecidableEq

/-- A row of `attachment_deposits`: a chunk that waits for a mailbox, or that one has accepted. -/
structure ChunkDepositRow where
  recipient : PublicKey
  attempts : Nat
  nextRetryAt : Int
  deposited : Bool
  deriving DecidableEq

/-- The database, keyed as its unique indexes are. The rows of `outbox` that wait for a mailbox are
in `mailboxOutbox`, with the mailbox in their key. A row of `attachmentChunks` is a received chunk,
a row of `readState` the last message of a group that was read, and `selfCardVersion` the one row
of `self_card_state`. -/
structure Tables where
  contacts : Table PublicKey ContactRow
  groups : Table GroupId GroupRow
  messages : Table (GroupId × MessageId) MessageRow
  seenMessages : Table (PublicKey × MessageId) Int
  outbox : Table (PublicKey × MessageId) OutboxRow
  mailboxOutbox : Table (PublicKey × MessageId × Nat) OutboxRow
  pendingWelcomes : Table PublicKey PendingWelcomeRow
  outstandingInvites : Table KeyPackageRef OutstandingInviteRow
  keyPackages : Table (ByteArr 32) KeyPackageRow
  firstContactAcks : Table KeyPackageRef FirstContactAck
  attachments : Table AttachmentId AttachmentRow
  attachmentChunks : Table (AttachmentId × UInt32) Unit
  attachmentDeposits : Table (AttachmentId × UInt32) ChunkDepositRow
  readState : Table GroupId Nat
  selfCardVersion : Nat
  deriving DecidableEq

def Tables.empty : Tables :=
  ⟨.empty, .empty, .empty, .empty, .empty, .empty, .empty, .empty, .empty, .empty, .empty, .empty,
    .empty, .empty, 0⟩

def Tables.delivery (tables : Tables) :
    Table GroupId GroupRow × Table (PublicKey × MessageId) OutboxRow :=
  (tables.groups, tables.outbox)

def Tables.transfers (tables : Tables) : Table AttachmentId AttachmentRow ×
    Table (AttachmentId × UInt32) Unit × Table (AttachmentId × UInt32) ChunkDepositRow :=
  (tables.attachments, tables.attachmentChunks, tables.attachmentDeposits)

abbrev DbTx := Tx CoreError Tables

/-- Run a transaction on the pool. `budget` is the number of statements before a storage fault. -/
def Pool.transaction {α : Type} (budget : Option Nat) (body : DbTx α) (tables : Tables) :
    Except CoreError α × Tables :=
  Tx.run (.storage "commit") budget body tables

/-! ### Contacts -/

namespace ContactRepo

/-- Insert a contact, or set the display name of the existing one and un-hide it. -/
def upsertInTx (identity : PublicKey) (displayName : Option String) (addedAt : Int) : DbTx Unit :=
  Tx.update (.storage "upsert contact (tx)") fun tables =>
    match tables.contacts.get identity with
    | none => { tables with
        contacts := tables.contacts.put identity ⟨displayName, addedAt, [], false, []⟩ }
    | some row => { tables with
        contacts := tables.contacts.put identity
          { row with displayName := displayName, hidden := false } }

/-- Two contacts in the order of `list`: named ones first, by name without regard to case. -/
def listedBefore (a b : PublicKey × ContactRow) : Bool :=
  match a.2.displayName, b.2.displayName with
  | some left, some right => left.map Char.toLower ≤ right.map Char.toLower
  | none, some _ => false
  | _, none => true

def list (tables : Tables) : List (PublicKey × ContactRow) :=
  (tables.contacts.rows.filter fun row => !row.2.hidden).insertionSort (listedBefore · ·)

def putCardInTx (card : ContactCard) : DbTx Unit := do
  Fallible.ensure (card.body.version < 2 ^ 63) (.contact "card: version overflows i64")
  Tx.statement (.contact "card: insert") fun tables =>
    match tables.contacts.get card.body.identity with
    | none => .error .contactNotFound
    | some row =>
      if row.cards.all fun stored => stored.body.version < card.body.version then
        .ok ((), { tables with
          contacts := tables.contacts.put card.body.identity
            { row with cards := row.cards ++ [card] } })
      else .error (.contact "card: stale version")

def latestCard (tables : Tables) (identity : PublicKey) : Option ContactCard :=
  (tables.contacts.get identity).bind fun row =>
    (row.cards.insertionSort fun a b => b.body.version ≤ a.body.version).head?

def setGroupIdInTx (identity : PublicKey) (groupId : GroupId) : DbTx Unit :=
  Tx.statement (.storage "set group_id (tx)") fun tables =>
    match tables.contacts.get identity with
    | none => .error .contactNotFound
    | some row => .ok ((), { tables with
        contacts := tables.contacts.put identity { row with groupId := groupId } })

def contactForGroup (tables : Tables) (groupId : GroupId) : Option PublicKey :=
  (tables.contacts.rows.find? fun row => row.2.groupId = groupId).map Prod.fst

/-- The group that a contact is linked to; empty when it is not linked yet. -/
def getGroupId (tables : Tables) (identity : PublicKey) : Option GroupId :=
  (tables.contacts.get identity).map ContactRow.groupId

def setHidden (identity : PublicKey) (hidden : Bool) : DbTx Unit :=
  Tx.statement (.storage "set hidden") fun tables =>
    match tables.contacts.get identity with
    | none => .error .contactNotFound
    | some row => .ok ((), { tables with
        contacts := tables.contacts.put identity { row with hidden := hidden } })

def removeInTx (identity : PublicKey) : DbTx Unit :=
  Tx.update (.storage "delete contact") fun tables =>
    { tables with contacts := tables.contacts.delete identity }

/-- Resolve a Noise static key to the first listed contact whose identity converts to it;
`toX25519` is the conversion, undefined for bytes that are not a curve point. -/
def findByNoiseX25519 (toX25519 : PublicKey → Option (ByteArr 32)) (tables : Tables)
    (x : ByteArr 32) : Option PublicKey :=
  ((list tables).find? fun row => toX25519 row.1 = some x).map Prod.fst

end ContactRepo

def MailboxRepo.listForContact (tables : Tables) (identity : PublicKey) : List String :=
  (ContactRepo.latestCard tables identity).elim [] fun card => card.body.mailboxes

/-! ### Groups and messages -/

namespace MlsGroupRepo

def putInTx (groupId : GroupId) (stateBlob : Bytes) (epoch : Nat) : DbTx Unit := do
  Fallible.ensure (epoch < 2 ^ 63) (.storage "epoch overflows i64")
  Tx.update (.storage "put mls group") fun tables =>
    { tables with groups := tables.groups.put groupId ⟨stateBlob, epoch⟩ }

def get (tables : Tables) (groupId : GroupId) : Option Bytes :=
  (tables.groups.get groupId).map GroupRow.stateBlob

def list (tables : Tables) : List GroupId := tables.groups.keys

def deleteInTx (groupId : GroupId) : DbTx Unit :=
  Tx.update (.storage "delete mls group") fun tables =>
    { tables with groups := tables.groups.delete groupId }

end MlsGroupRepo

def SeenMessagesRepo.insertInTx (sender : PublicKey) (messageId : MessageId) (seenAt : Int) :
    DbTx Bool :=
  Tx.statement (.storage "insert seen") fun tables =>
    .ok (tables.seenMessages.get (sender, messageId) = none, { tables with
      seenMessages := tables.seenMessages.insertOrIgnore (sender, messageId) seenAt })

def SeenMessagesRepo.sweepOlderThan (cutoff : Int) (tables : Tables) : Tables := { tables with
  seenMessages := tables.seenMessages.deleteWhere fun _ seenAt => seenAt < cutoff }

/-- Insert a message of the history. A message id that the group already has is refused. -/
def MessageRepo.insertInTx (encode : Envelope → Except String Bytes) (groupId : GroupId)
    (row : MessageRow) : DbTx Unit := do
  let _ ← Fallible.attempt ((encode row.envelope).mapError CoreError.cborEncode)
  Tx.statement (.storage "messages INSERT") fun tables =>
    match tables.messages.insert (groupId, row.envelope.id) row with
    | none => .error .duplicateMessage
    | some messages => .ok ((), { tables with messages := messages })

def MessageRepo.deleteByGroupInTx (groupId : GroupId) : DbTx Unit :=
  Tx.update (.storage "delete messages") fun tables =>
    { tables with messages := tables.messages.deleteWhere fun key _ => key.1 = groupId }

/-- Delete the messages of a group, or of all groups, that were received before a time. -/
def MessageRepo.pruneBefore (groupId : Option GroupId) (beforeTsRecv : Int)
    (messages : Table (GroupId × MessageId) MessageRow) :
    Table (GroupId × MessageId) MessageRow :=
  messages.deleteWhere fun key row =>
    groupId.all (· = key.1) ∧ row.tsDaemonRecv < beforeTsRecv

namespace OutboxRepo

/-- Queue a ciphertext for direct delivery, once for each target and message. -/
def insertInTx (target : PublicKey) (messageId : MessageId) (payload : Bytes)
    (nextRetryAt : Int) : DbTx Unit :=
  Tx.update (.storage "insert outbox") fun tables =>
    { tables with
      outbox := tables.outbox.insertOrIgnore (target, messageId) ⟨payload, nextRetryAt⟩ }

def deleteByTargetInTx (target : PublicKey) : DbTx Unit :=
  Tx.update (.storage "delete outbox by target") fun tables =>
    { tables with
      outbox := tables.outbox.deleteWhere fun key _ => key.1 = target
      mailboxOutbox := tables.mailboxOutbox.deleteWhere fun key _ => key.1 = target }

end OutboxRepo

/-! ### First contact -/

namespace PendingWelcomeRepo

/-- Record an unacknowledged Welcome. A row that the peer already has is kept as it is. -/
def insertInTx (peer : PublicKey) (groupId : GroupId) (welcomeBytes : Bytes)
    (nextRetryAt now : Int) : DbTx Unit :=
  Tx.update (.storage "pending_welcomes insert_in_tx") fun tables =>
    { tables with
      pendingWelcomes := tables.pendingWelcomes.insertOrIgnore peer
        ⟨groupId, welcomeBytes, nextRetryAt, 0, now, false⟩ }

def isPending (tables : Tables) (peer : PublicKey) : Bool :=
  (tables.pendingWelcomes.get peer).isSome

def deleteRow (fault : String) (peer : PublicKey) : DbTx Unit :=
  Tx.update (.storage fault) fun tables =>
    { tables with pendingWelcomes := tables.pendingWelcomes.delete peer }

theorem does_deleteRow {fault : String} {peer : PublicKey} {s t : Tables} {u : Unit}
    (h : Tx.Does (deleteRow fault peer) s u t) :
    t = { s with pendingWelcomes := s.pendingWelcomes.delete peer } :=
  (Tx.does_update h).symm

def deleteInTx (peer : PublicKey) : DbTx Unit := deleteRow "delete pending welcome" peer

def delete (peer : PublicKey) : DbTx Unit := deleteRow "pending_welcomes delete" peer

/-- The rows to send again, oldest first: those whose retry time has come and that have not
failed. -/
def due (tables : Tables) (now : Int) (limit : Nat) : List PendingWelcomeDue :=
  (((tables.pendingWelcomes.rows.filter fun row =>
    row.2.nextRetryAt ≤ now ∧ row.2.failed = false).insertionSort fun a b =>
      a.2.nextRetryAt ≤ b.2.nextRetryAt).take limit).map fun row =>
    ⟨row.1, row.2.groupId, row.2.welcomeBytes, row.2.attempts, row.2.createdAt⟩

/-- Give up on a Welcome. The row stays, so that the contact stays pending. -/
def markFailed (peer : PublicKey) : DbTx Unit :=
  Tx.update (.storage "mark_failed") fun tables =>
    { tables with
      pendingWelcomes := tables.pendingWelcomes.modify peer fun row => { row with failed := true } }

def reschedule (peer : PublicKey) (nextRetryAt : Int) : DbTx Unit :=
  Tx.update (.storage "pending_welcomes reschedule") fun tables =>
    { tables with
      pendingWelcomes := tables.pendingWelcomes.modify peer fun row =>
        { row with attempts := row.attempts + 1, nextRetryAt := nextRetryAt } }

end PendingWelcomeRepo

namespace OutstandingInviteRepo

def putWithProvider (kpRef : KeyPackageRef) (row : OutstandingInviteRow) : DbTx Unit :=
  Tx.update (.storage "oi: put_with_provider") fun tables =>
    { tables with
      outstandingInvites := (tables.outstandingInvites.delete kpRef).put kpRef row }

def zeroizeInTx (kpRef : KeyPackageRef) : DbTx Unit :=
  Tx.update (.storage "oi: zeroize_in_tx") fun tables =>
    { tables with
      outstandingInvites := tables.outstandingInvites.modify kpRef fun row =>
        { row with psk := .fill 32 0 } }

/-- Zeroize the secret and delete the row. That there is a row is not checked. -/
def markConsumedInTx (kpRef : KeyPackageRef) : DbTx Unit := do
  zeroizeInTx kpRef
  Tx.update (.storage "oi: delete_in_tx") fun tables =>
    { tables with outstandingInvites := tables.outstandingInvites.delete kpRef }

end OutstandingInviteRepo

namespace KeyPackageRepo

def insert (hash : ByteArr 32) (bytes : Bytes) (direction : Direction) : DbTx Unit :=
  Tx.statement (.storage "insert key_package") fun tables =>
    match tables.keyPackages.insert hash ⟨bytes, direction, false⟩ with
    | none => .error (.storage "insert key_package")
    | some keyPackages => .ok ((), { tables with keyPackages := keyPackages })

def markConsumedInTx (hash : ByteArr 32) : DbTx Unit :=
  Tx.update (.storage "kp: mark_consumed_in_tx") fun tables =>
    { tables with
      keyPackages := tables.keyPackages.modify hash fun row => { row with consumed := true } }

end KeyPackageRepo

namespace FirstContactAckRepo

def insertInTx (kpRef : KeyPackageRef) (peerX25519 : ByteArr 32) (peerIdentity : PublicKey) :
    DbTx Unit :=
  Tx.update (.storage "first_contact_acks insert_in_tx") fun tables =>
    { tables with
      firstContactAcks := tables.firstContactAcks.insertOrIgnore kpRef
        ⟨peerX25519, peerIdentity⟩ }

def deleteByPeerInTx (peerIdentity : PublicKey) : DbTx Unit :=
  Tx.update (.storage "delete first_contact_ack") fun tables =>
    { tables with
      firstContactAcks := tables.firstContactAcks.deleteWhere fun _ ack =>
        ack.peerIdentity = peerIdentity }

end FirstContactAckRepo

end Skattr.Core
