import Skattr.Core.Attachment.Manifest
import Skattr.Core.Daemon.History
import Skattr.Lib.Run

/-!
# The delivery and attachment stores of the interface

Replies, events and loaded history write to two stores. The last write wins, whatever it says, but
for the progress of a complete attachment. `success_kept_iff` says that a run keeps the successes it
shows exactly when no reply, event or record comes in that says less of one of them, and
`late_reply_hides_delivery` shows the reply of a send that comes after the delivery.
-/

namespace Skattr.Ui

open Skattr.Core Skattr.Core.Daemon.History Lib

inductive DeliveryStatus where
  | queued
  | delivered
  | deposited
  | failed (reason : String)
  deriving DecidableEq

inductive AttachmentStatus where
  | queued
  | sending
  | receiving
  | complete
  | failed
  deriving DecidableEq

structure AttachmentState where
  status : AttachmentStatus
  received : Nat
  total : Nat
  filename : Option String
  mime : Option String
  size : Option Nat
  available : Bool
  reason : Option String
  retrying : Bool
  deriving DecidableEq

/-- What a manifest says of a file. -/
structure FileInfo where
  filename : String
  mime : String
  size : Nat

namespace AttachmentState

def seed : AttachmentState := ⟨.queued, 0, 0, none, none, none, false, none, false⟩

def markQueued (filename : Option String) (size total : Option Nat) (prev : AttachmentState) :
    AttachmentState :=
  { prev with
    status := .queued, total := total.getD prev.total, filename := filename.or prev.filename
    size := size.or prev.size }

def applyManifest (info : FileInfo) (total : Nat) (prev : AttachmentState) : AttachmentState :=
  { prev with
    filename := some info.filename, mime := some info.mime, size := some info.size
    total := if prev.total = 0 then total else prev.total }

def applyProgress (received total : Nat) (prev : AttachmentState) : AttachmentState :=
  { prev with
    status := if prev.status = .complete then .complete else .receiving
    received, total, retrying := false }

def markAvailable (info : FileInfo) (prev : AttachmentState) : AttachmentState :=
  { prev with
    status := .complete, received := if prev.total = 0 then prev.received else prev.total
    filename := some info.filename, mime := some info.mime, size := some info.size
    available := true, retrying := false }

def applyFailed (reason : String) (prev : AttachmentState) : AttachmentState :=
  { prev with status := .failed, reason := some reason, retrying := false }

def markRetrying (prev : AttachmentState) : AttachmentState :=
  { prev with status := .queued, reason := none, retrying := true }

def markDelivered (prev : AttachmentState) : AttachmentState := { prev with status := .complete }

end AttachmentState

structure Stores where
  delivery : Table MessageId DeliveryStatus
  attachments : Table AttachmentId AttachmentState

/-- What reaches the stores. A send whose conversation is no longer `active` is not recorded, and
one that was known to the daemon comes without a record. -/
inductive StoreEvent where
  | deliveryStatusChanged (message : MessageId) (status : DeliveryStatus)
  | hydrated (record : MessageRecord)
  | messageSent (active hasRecord delivered : Bool) (message : MessageId)
  | fileQueued (active : Bool) (message : MessageId) (aid : AttachmentId) (filename : String)
      (size total : Nat)
  | manifest (aid : AttachmentId) (info : FileInfo) (total : Nat)
  | progress (aid : AttachmentId) (received total : Nat)
  | available (aid : AttachmentId) (info : FileInfo)
  | attachmentFailed (aid : AttachmentId) (reason : String)
  | retryAccepted (aid : AttachmentId)
  | attachmentDelivered (aid : AttachmentId)

/-- What the history says of a message; a delivery or a dismissal hides a failure. -/
def failureFromRecord (record : MessageRecord) : Option String :=
  if record.deliveredAt.isNone ∧ record.dismissedAt.isNone then record.failedReason else none

def hydrateDeliveryFromRecord (record : MessageRecord) : Option (MessageId × DeliveryStatus) :=
  if record.direction ≠ .outgoing then none
  else if record.deliveredAt.isSome then some (record.messageId, .delivered)
  else (failureFromRecord record).map fun reason => (record.messageId, .failed reason)

namespace StoreEvent

def recorded : StoreEvent → Option (MessageId × DeliveryStatus)
  | deliveryStatusChanged message status => some (message, status)
  | hydrated record => hydrateDeliveryFromRecord record
  | messageSent active hasRecord delivered message =>
    if active ∧ hasRecord then some (message, if delivered then .delivered else .queued) else none
  | fileQueued active message _ _ _ _ => if active then some (message, .queued) else none
  | _ => none

def patched : StoreEvent → Option (AttachmentId × (AttachmentState → AttachmentState))
  | fileQueued active _ aid filename size total =>
    if active then some (aid, .markQueued (some filename) (some size) (some total)) else none
  | manifest aid info total => some (aid, .applyManifest info total)
  | progress aid received total => some (aid, .applyProgress received total)
  | available aid info => some (aid, .markAvailable info)
  | attachmentFailed aid reason => some (aid, .applyFailed reason)
  | retryAccepted aid => some (aid, .markRetrying)
  | attachmentDelivered aid => some (aid, .markDelivered)
  | _ => none

/-- The event says that the message is not delivered: a status that is no delivery, a record that
failed and was not dismissed, or the reply of a send that did not deliver or that queued a file. -/
def Denies (message : MessageId) : StoreEvent → Prop
  | deliveryStatusChanged other status => other = message ∧ status ≠ .delivered
  | hydrated record =>
    record.messageId = message ∧ record.direction = .outgoing ∧ record.deliveredAt = none ∧
      record.dismissedAt = none ∧ record.failedReason ≠ none
  | messageSent active hasRecord delivered other =>
    other = message ∧ active = true ∧ hasRecord = true ∧ delivered = false
  | fileQueued active other _ _ _ _ => other = message ∧ active = true
  | _ => False

def Lowers (aid : AttachmentId) : StoreEvent → Prop
  | fileQueued active _ other _ _ _ => active = true ∧ other = aid
  | attachmentFailed other _ => other = aid
  | _ => False

end StoreEvent

namespace Stores

/-- An event records a delivery status and patches the entry of an attachment. -/
def step (stores : Stores) (event : StoreEvent) : Stores where
  delivery := event.recorded.elim stores.delivery fun write => stores.delivery.put write.1 write.2
  attachments := event.patched.elim stores.attachments fun write =>
    stores.attachments.put write.1 (write.2 ((stores.attachments.get write.1).getD .seed))

def Delivered (stores : Stores) (message : MessageId) : Prop :=
  stores.delivery.get message = some .delivered

def Complete (stores : Stores) (aid : AttachmentId) : Prop :=
  (stores.attachments.get aid).map AttachmentState.status = some .complete

/-- The event leaves what is delivered delivered, and what is complete complete unless the user
retries it. -/
structure KeepsSuccess (stores : Stores) (event : StoreEvent) : Prop where
  delivered : ∀ message, stores.Delivered message → (stores.step event).Delivered message
  complete : ∀ aid, event ≠ .retryAccepted aid → stores.Complete aid →
    (stores.step event).Complete aid

/-- The event does not say that a delivered message is not delivered, and is no new transfer or
failure of a complete attachment. -/
structure Harmless (stores : Stores) (event : StoreEvent) : Prop where
  delivery : ∀ message, event.Denies message → ¬stores.Delivered message
  attachment : ∀ aid, event.Lowers aid → ¬stores.Complete aid

variable {stores : Stores} {event : StoreEvent} {prev : AttachmentState} {aid : AttachmentId}

theorem delivered_step {message : MessageId} (hdelivered : stores.Delivered message) :
    (stores.step event).Delivered message ↔
      ∀ write ∈ event.recorded, write.1 = message → write.2 = .delivered := by
  unfold Delivered step
  cases hwrite : event.recorded with
  | none => exact iff_of_true hdelivered nofun
  | some write =>
    rw [Option.elim_some]
    by_cases heq : message = write.1
    · rw [heq, Table.get_put_self]
      simp [eq_comm]
    · rw [Table.get_put_ne _ _ heq]
      refine iff_of_true hdelivered fun other hother hsame => ?_
      cases hother
      exact absurd hsame.symm heq

theorem complete_step (hget : stores.attachments.get aid = some prev)
    (hprev : prev.status = .complete) :
    (stores.step event).Complete aid ↔
      ∀ write ∈ event.patched, write.1 = aid → (write.2 prev).status = .complete := by
  unfold Complete step
  cases hwrite : event.patched with
  | none => exact iff_of_true (by rw [Option.elim_none, hget, Option.map_some, hprev]) nofun
  | some write =>
    rw [Option.elim_some]
    by_cases heq : aid = write.1
    · subst heq
      rw [Table.get_put_self, hget]
      simp
    · rw [Table.get_put_ne _ _ heq, hget, Option.map_some, hprev]
      refine iff_of_true rfl fun other hother hsame => ?_
      cases hother
      exact absurd hsame.symm heq

theorem hydrateDeliveryFromRecord_iff (record : MessageRecord) (message : MessageId) :
    (∀ write ∈ hydrateDeliveryFromRecord record, write.1 = message → write.2 = .delivered) ↔
      ¬(StoreEvent.hydrated record).Denies message := by
  unfold hydrateDeliveryFromRecord failureFromRecord StoreEvent.Denies
  by_cases houtgoing : record.direction = .outgoing
  · cases hdelivered : record.deliveredAt with
    | some time => simp [houtgoing, hdelivered]
    | none =>
      cases hdismissed : record.dismissedAt with
      | some time => simp [houtgoing, hdismissed]
      | none =>
        cases hfailed : record.failedReason <;> simp [houtgoing, hdelivered, hdismissed, hfailed]
  · simp [houtgoing]

theorem delivered_recorded_iff {message : MessageId} :
    (∀ write ∈ event.recorded, write.1 = message → write.2 = .delivered) ↔
      ¬event.Denies message := by
  cases event with
  | deliveryStatusChanged other status => simp [StoreEvent.recorded, StoreEvent.Denies]
  | hydrated record => exact hydrateDeliveryFromRecord_iff record message
  | messageSent active hasRecord delivered other =>
    cases active <;> cases hasRecord <;> cases delivered <;>
      simp [StoreEvent.recorded, StoreEvent.Denies]
  | fileQueued active => cases active <;> simp [StoreEvent.recorded, StoreEvent.Denies]
  | manifest | progress | available | attachmentFailed | retryAccepted | attachmentDelivered =>
    exact iff_of_true nofun id

theorem complete_patched_iff (hprev : prev.status = .complete)
    (hretry : event ≠ .retryAccepted aid) :
    (∀ write ∈ event.patched, write.1 = aid → (write.2 prev).status = .complete) ↔
      ¬event.Lowers aid := by
  cases event with
  | deliveryStatusChanged | hydrated | messageSent => exact iff_of_true nofun id
  | fileQueued active message other =>
    cases active <;>
      simp [StoreEvent.patched, StoreEvent.Lowers, AttachmentState.markQueued]
  | attachmentFailed other reason =>
    simp [StoreEvent.patched, StoreEvent.Lowers, AttachmentState.applyFailed]
  | retryAccepted other =>
    have hne : other ≠ aid := fun heq => hretry (congrArg _ heq)
    simp [StoreEvent.patched, StoreEvent.Lowers, hne]
  | manifest | progress | available | attachmentDelivered =>
    simp [StoreEvent.patched, StoreEvent.Lowers, AttachmentState.applyManifest,
      AttachmentState.applyProgress, AttachmentState.markAvailable, AttachmentState.markDelivered,
      hprev]

theorem keepsSuccess_iff (stores : Stores) (event : StoreEvent) :
    stores.KeepsSuccess event ↔ stores.Harmless event := by
  constructor
  · intro h
    refine ⟨fun message hdenies hdelivered => ?_, fun aid hlowers hcomplete => ?_⟩
    · have hafter := (delivered_step hdelivered).mp (h.delivered message hdelivered)
      exact delivered_recorded_iff.mp hafter hdenies
    · have hretry : event ≠ .retryAccepted aid := by
        rintro rfl
        exact hlowers
      obtain ⟨prev, hget, hprev⟩ := Option.map_eq_some_iff.mp hcomplete
      have hafter := (complete_step hget hprev).mp (h.complete aid hretry hcomplete)
      exact (complete_patched_iff hprev hretry).mp hafter hlowers
  · intro h
    refine ⟨fun message hdelivered => ?_, fun aid hretry hcomplete => ?_⟩
    · exact (delivered_step hdelivered).mpr (delivered_recorded_iff.mpr fun hdenies =>
        h.delivery message hdenies hdelivered)
    · obtain ⟨prev, hget, hprev⟩ := Option.map_eq_some_iff.mp hcomplete
      refine (complete_step hget hprev).mpr ((complete_patched_iff hprev hretry).mpr ?_)
      exact fun hlowers => h.attachment aid hlowers hcomplete

end Stores

/-- A run takes back no success that it has shown exactly when no event of it says less of one. -/
theorem success_kept_iff (stores : Stores) (events : List StoreEvent) :
    Meets Stores.step Stores.KeepsSuccess stores events ↔
      Meets Stores.step Stores.Harmless stores events := by
  have hguards : Stores.KeepsSuccess = Stores.Harmless :=
    funext fun stores => funext fun event => propext (stores.keepsSuccess_iff event)
  rw [hguards]

/-- A message that is delivered, the records of another one that failed and of the same one, a file
that arrives before the last notice of its progress, and a reply after the conversation was left. -/
def quietRun (message other : MessageId) (aid : AttachmentId) (record : MessageRecord) :
    List StoreEvent :=
  [.messageSent true true false message, .deliveryStatusChanged message .delivered,
    .hydrated { record with messageId := other, deliveredAt := none, failedReason := some "gone" },
    .hydrated { record with messageId := message, failedReason := some "gone" },
    .available aid ⟨"a", "b", 1⟩, .progress aid 1 2, .messageSent false true false message]

theorem quiet_run_keeps :
    let message : MessageId := .fill 16 0
    let other : MessageId := .fill 16 1
    let aid : AttachmentId := .fill 16 0
    let record : MessageRecord :=
      ⟨1, message, .fill 32 0, .outgoing, .text "a", 0, 0, 0, some 1, none, none⟩
    let stores : Stores := ⟨.empty, .empty⟩
    Meets Stores.step Stores.KeepsSuccess stores (quietRun message other aid record) ∧
      ((quietRun message other aid record).foldl Stores.step stores).Delivered message ∧
      ((quietRun message other aid record).foldl Stores.step stores).Complete aid := by
  intro message other aid record stores
  refine ⟨(success_kept_iff _ _).mpr ?_, ?_, ?_⟩
  · refine ⟨⟨?_, nofun⟩, ⟨?_, nofun⟩, ⟨?_, nofun⟩, ⟨?_, nofun⟩, ⟨nofun, nofun⟩, ⟨nofun, nofun⟩,
      ⟨?_, nofun⟩, trivial⟩
    · rintro _ ⟨rfl, -⟩
      unfold Stores.Delivered
      decide
    · rintro _ ⟨-, hstatus⟩
      exact absurd rfl hstatus
    · rintro _ ⟨rfl, -⟩
      unfold Stores.Delivered
      decide
    · rintro _ ⟨-, -, hdelivered, -⟩
      cases hdelivered
    · rintro _ ⟨-, hactive, -⟩
      cases hactive
  · unfold Stores.Delivered
    decide
  · unfold Stores.Complete
    decide

/-- The delivery of a message is known before the reply of its send, and an attachment fails after
it has been received. -/
theorem late_reply_hides_delivery :
    let message : MessageId := .fill 16 0
    let aid : AttachmentId := .fill 16 0
    let stores := [.deliveryStatusChanged message .delivered, .available aid ⟨"a", "b", 1⟩].foldl
      Stores.step ⟨.empty, .empty⟩
    stores.Delivered message ∧ stores.Complete aid ∧
      ¬(stores.step (.messageSent true true false message)).Delivered message ∧
      ¬(stores.step (.attachmentFailed aid "gone")).Complete aid := by
  unfold Stores.Delivered Stores.Complete
  decide

end Skattr.Ui
