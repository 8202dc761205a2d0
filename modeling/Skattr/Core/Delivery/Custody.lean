import Skattr.Core.Delivery.Lanes

/-!
# The custody of a queued message

A row may leave the outbox only for a reason: an Ack for it, a deposit that a mailbox accepted, a
recorded failure, or the removal of its contact. Every worker that is about to delete a row or to
announce a status carries the reason with it, and what has happened is never forgotten, so the
reasons last through every interleaving.
-/

namespace Skattr.Core.Delivery

open Lib

def OutboxRow.sent (row : OutboxRow) : Sent := ⟨row.target, row.messageId, row.payload⟩

/-- Every row is one of the rows of another outbox, up to its lane and its attempts. -/
def Outbox.Within (outbox old : Outbox) : Prop :=
  ∀ id row, outbox.rows.get id = some row → ∃ row', old.rows.get id = some row' ∧
    row.sent = row'.sent

variable (outbox : Outbox)

theorem Outbox.Within.refl : outbox.Within outbox :=
  fun _ row hrow => ⟨row, hrow, rfl⟩

theorem Outbox.within_deleteWhere (p : Nat → OutboxRow → Bool) :
    (outbox.deleteWhere p).Within outbox :=
  fun _ row hrow => ⟨row, (get_deleteWhere.mp hrow).1, rfl⟩

theorem Outbox.within_reschedule (id : Nat) (nextRetryAt : Int) :
    (outbox.reschedule id nextRetryAt).Within outbox := by
  intro key row hrow
  rw [get_reschedule] at hrow
  split at hrow
  · obtain ⟨old, hold, rfl⟩ := Option.map_eq_some_iff.mp hrow
    exact ⟨old, hold, rfl⟩
  · exact ⟨row, hrow, rfl⟩

theorem Outbox.within_setMailboxTarget {outbox next : Outbox} {id mailboxId : Nat}
    (hset : outbox.setMailboxTarget id mailboxId = some next) : next.Within outbox := by
  obtain ⟨-, row, hrow, hget⟩ := setMailboxTarget_eq_some hset
  intro key found hfound
  rw [hget] at hfound
  split at hfound
  · next hkey =>
    cases hfound
    exact ⟨row, hkey ▸ hrow, rfl⟩
  · exact ⟨found, hfound, rfl⟩

/-- A reason for which a row may be gone: an Ack for it, an accepted deposit of its payload, a
recorded failure, or the removal of its contact. -/
def Excused (lanes : Lanes) (id : Nat) (sent : Sent) : Prop :=
  (sent.target, sent.messageId, true) ∈ lanes.acks ∨
    (sent.target, sent.payload) ∈ lanes.accepted ∨
    ⟨sent.messageId, .failed, false⟩ ∈ lanes.history ∨ id ∈ lanes.purged

def WasSent (lanes : Lanes) (messageId : MessageId) : Prop :=
  ∃ id sent, lanes.sent.get id = some sent ∧ sent.messageId = messageId

/-- An Ack for the message has come from the peer that it was sent to, while its row was there. -/
def Receipt (lanes : Lanes) (messageId : MessageId) : Prop :=
  ∃ id sent, lanes.sent.get id = some sent ∧ sent.messageId = messageId ∧
    (sent.target, messageId, true) ∈ lanes.acks

/-- A mailbox has accepted the payload of the message for the peer that it was sent to. -/
def InMailbox (lanes : Lanes) (messageId : MessageId) : Prop :=
  ∃ id sent, lanes.sent.get id = some sent ∧ sent.messageId = messageId ∧
    (sent.target, sent.payload) ∈ lanes.accepted

def Entry.Truthful (lanes : Lanes) (entry : Entry) : Prop :=
  match entry.status with
  | .delivered => Receipt lanes entry.messageId ∧
      ∀ message, lanes.messages.get entry.messageId = some message → message.deliveredAt ≠ none
  | .deposited => InMailbox lanes entry.messageId
  | .failed => WasSent lanes entry.messageId ∧
      ∀ message, lanes.messages.get entry.messageId = some message → message.failedReason ≠ none

def Worker.Ok (lanes : Lanes) : Worker → Prop
  | .acked messageId =>
    Receipt lanes messageId ∧ ∀ id sent, lanes.sent.get id = some sent →
      sent.messageId = messageId → lanes.outbox.rows.get id = none
  | .announcingDelivered messageId => ⟨messageId, .delivered, false⟩ ∈ lanes.history
  | .fallback peer messageId payload => ∃ id, lanes.sent.get id = some ⟨peer, messageId, payload⟩
  | .walking peer messageId payload id _ | .depositing peer messageId payload id _ =>
    lanes.sent.get id = some ⟨peer, messageId, payload⟩
  | .redeposit id row | .redepositing id row _ | .sweeping id row _ | .expiring id row =>
    lanes.sent.get id = some row.sent
  | .deposited id messageId => ∃ sent, lanes.sent.get id = some sent ∧
      sent.messageId = messageId ∧ (sent.target, sent.payload) ∈ lanes.accepted
  | .announcingDeposited messageId => InMailbox lanes messageId
  | .expired id row marked => lanes.sent.get id = some row.sent ∧ Excused lanes id row.sent ∧
      (marked = true → ⟨row.messageId, .failed, false⟩ ∈ lanes.history)
  | .announcingFailed messageId => ⟨messageId, .failed, false⟩ ∈ lanes.history
  | .finished => True

/-- What holds in every state. -/
structure Inv (lanes : Lanes) : Prop where
  rowSent : ∀ id row, lanes.outbox.rows.get id = some row → lanes.sent.get id = some row.sent
  issued : ∀ id sent, lanes.sent.get id = some sent → id < lanes.outbox.nextId
  distinct : ∀ id id' sent sent', lanes.sent.get id = some sent → lanes.sent.get id' = some sent' →
    sent.messageId = sent'.messageId → id = id'
  message : ∀ id sent, lanes.sent.get id = some sent → id ∈ lanes.purged ∨
    ∃ message, lanes.messages.get sent.messageId = some message ∧ message.peer = sent.target
  recorded : ∀ messageId message, lanes.messages.get messageId = some message →
    message.deliveredAt ≠ none → ⟨messageId, .delivered, false⟩ ∈ lanes.history
  truthful : ∀ entry ∈ lanes.history, entry.Truthful lanes
  excused : ∀ id sent, lanes.sent.get id = some sent →
    lanes.outbox.rows.get id ≠ none ∨ Excused lanes id sent
  workers : ∀ worker ∈ lanes.workers, worker.Ok lanes

/-! ### What a step keeps -/

variable {before after : Lanes} {messageId : MessageId} {entry : Entry}

/-- Nothing that has happened is forgotten. -/
structure Extends (before after : Lanes) : Prop where
  sent : ∀ id sent, before.sent.get id = some sent → after.sent.get id = some sent := by
    exact fun _ _ h => h
  acks : ∀ ack ∈ before.acks, ack ∈ after.acks := by exact fun _ h => h
  history : ∀ entry ∈ before.history, entry ∈ after.history := by exact fun _ h => h
  accepted : ∀ deposit ∈ before.accepted, deposit ∈ after.accepted := by exact fun _ h => h
  purged : ∀ id ∈ before.purged, id ∈ after.purged := by exact fun _ h => h

theorem Extends.of_history (hhistory : ∀ entry ∈ before.history, entry ∈ after.history)
    (hsent : after.sent = before.sent) (hacks : after.acks = before.acks)
    (haccepted : after.accepted = before.accepted) (hpurged : after.purged = before.purged) :
    Extends before after := by
  refine ⟨?_, ?_, hhistory, ?_, ?_⟩
  · rw [hsent]
    exact fun _ _ => id
  · rw [hacks]
    exact fun _ => id
  · rw [haccepted]
    exact fun _ => id
  · rw [hpurged]
    exact fun _ => id

def Message.Keeps (old new : Message) : Prop :=
  (old.deliveredAt ≠ none → new.deliveredAt ≠ none) ∧
    (old.failedReason ≠ none → new.failedReason ≠ none)

theorem Excused.mono (hext : Extends before after) {id : Nat} {sent : Sent}
    (h : Excused before id sent) : Excused after id sent := by
  rcases h with hack | hdeposit | hfailed | hpurged
  · exact .inl (hext.acks _ hack)
  · exact .inr (.inl (hext.accepted _ hdeposit))
  · exact .inr (.inr (.inl (hext.history _ hfailed)))
  · exact .inr (.inr (.inr (hext.purged _ hpurged)))

theorem WasSent.mono (hext : Extends before after) (h : WasSent before messageId) :
    WasSent after messageId := by
  obtain ⟨id, sent, hsent, hid⟩ := h
  exact ⟨id, sent, hext.sent id sent hsent, hid⟩

theorem Receipt.mono (hext : Extends before after) (h : Receipt before messageId) :
    Receipt after messageId := by
  obtain ⟨id, sent, hsent, hid, hack⟩ := h
  exact ⟨id, sent, hext.sent id sent hsent, hid, hext.acks _ hack⟩

theorem InMailbox.mono (hext : Extends before after) (h : InMailbox before messageId) :
    InMailbox after messageId := by
  obtain ⟨id, sent, hsent, hid, hdeposit⟩ := h
  exact ⟨id, sent, hext.sent id sent hsent, hid, hext.accepted _ hdeposit⟩

theorem Entry.Truthful.wasSent {lanes : Lanes} (h : entry.Truthful lanes) :
    WasSent lanes entry.messageId := by
  obtain ⟨messageId, status, announced⟩ := entry
  cases status with
  | delivered =>
    obtain ⟨⟨id, sent, hsent, hid, -⟩, -⟩ := h
    exact ⟨id, sent, hsent, hid⟩
  | deposited =>
    obtain ⟨id, sent, hsent, hid, -⟩ := h
    exact ⟨id, sent, hsent, hid⟩
  | failed => exact h.1

theorem Entry.Truthful.mono (hext : Extends before after)
    (hmessages : ∀ message, after.messages.get entry.messageId = some message → ∃ old,
      before.messages.get entry.messageId = some old ∧ old.Keeps message)
    (h : entry.Truthful before) : entry.Truthful after := by
  obtain ⟨messageId, status, announced⟩ := entry
  cases status with
  | delivered =>
    refine ⟨h.1.mono hext, fun message hmessage => ?_⟩
    obtain ⟨old, hold, hkeeps⟩ := hmessages message hmessage
    exact hkeeps.1 (h.2 old hold)
  | deposited => exact InMailbox.mono hext h
  | failed =>
    refine ⟨h.1.mono hext, fun message hmessage => ?_⟩
    obtain ⟨old, hold, hkeeps⟩ := hmessages message hmessage
    exact hkeeps.2 (h.2 old hold)

theorem Worker.Ok.mono (hext : Extends before after)
    (hgone : ∀ id sent, after.sent.get id = some sent → before.sent.get id = some sent ∨
      ∀ id' sent', before.sent.get id' = some sent' → sent'.messageId ≠ sent.messageId)
    (hrows : ∀ id, (∃ sent, before.sent.get id = some sent) → before.outbox.rows.get id = none →
      after.outbox.rows.get id = none)
    {worker : Worker} (h : worker.Ok before) : worker.Ok after := by
  cases worker with
  | acked messageId =>
    obtain ⟨hreceipt, hnone⟩ := h
    refine ⟨hreceipt.mono hext, fun id sent hsent hid => ?_⟩
    rcases hgone id sent hsent with hold | hnew
    · exact hrows id ⟨sent, hold⟩ (hnone id sent hold hid)
    · obtain ⟨id', sent', hsent', hid', -⟩ := hreceipt
      exact absurd (hid'.trans hid.symm) (hnew id' sent' hsent')
  | announcingDelivered | announcingFailed => exact hext.history _ h
  | fallback peer messageId payload =>
    obtain ⟨id, hsent⟩ := h
    exact ⟨id, hext.sent _ _ hsent⟩
  | walking | depositing | redeposit | redepositing | sweeping | expiring =>
    exact hext.sent _ _ h
  | deposited id messageId =>
    obtain ⟨sent, hsent, hid, hdeposit⟩ := h
    exact ⟨sent, hext.sent _ _ hsent, hid, hext.accepted _ hdeposit⟩
  | announcingDeposited => exact InMailbox.mono hext h
  | expired id row marked =>
    obtain ⟨hsent, hexcused, hmarked⟩ := h
    exact ⟨hext.sent _ _ hsent, hexcused.mono hext, fun hm => hext.history _ (hmarked hm)⟩
  | finished => trivial

/-- A step that sends nothing: every row that goes is excused, the marks of the messages agree with
the history, and new statuses and workers have their reasons. What is not said is unchanged. -/
structure Keeps (before after : Lanes) : Prop extends Extends before after where
  sameSent : after.sent = before.sent := by rfl
  nextId : after.outbox.nextId = before.outbox.nextId := by rfl
  rows : after.outbox.Within before.outbox := by exact .refl _
  deleted : ∀ id row, before.outbox.rows.get id = some row →
    after.outbox.rows.get id ≠ none ∨ Excused after id row.sent := by
      exact fun _ row hrow => .inl fun hnone => Option.some_ne_none row (hrow.symm.trans hnone)
  messages : ∀ messageId message, after.messages.get messageId = some message →
    ∃ old, before.messages.get messageId = some old ∧ old.Keeps message ∧
      (message.deliveredAt ≠ none → old.deliveredAt ≠ none ∨
        ⟨messageId, .delivered, false⟩ ∈ after.history) := by
      exact fun _ message hmessage => ⟨message, hmessage, ⟨id, id⟩, .inl⟩
  missing : ∀ id sent message, before.sent.get id = some sent →
    before.messages.get sent.messageId = some message → message.peer = sent.target →
      id ∈ after.purged ∨ ∃ kept, after.messages.get sent.messageId = some kept ∧
        kept.peer = sent.target := by
      exact fun _ _ message _ hmessage hpeer => .inr ⟨message, hmessage, hpeer⟩
  noted : ∀ entry ∈ after.history, entry ∈ before.history ∨ entry.Truthful after := by
    exact fun _ hentry => .inl hentry
  spawned : ∀ worker ∈ after.workers, worker ∈ before.workers ∨ worker.Ok after := by
    exact fun _ hworker => .inl hworker

theorem Inv.keep (h : Inv before) (hkeeps : Keeps before after) : Inv after where
  rowSent := by
    intro id row hrow
    obtain ⟨old, hold, hsame⟩ := hkeeps.rows id row hrow
    rw [hkeeps.sameSent, hsame]
    exact h.rowSent id old hold
  issued := by
    rw [hkeeps.sameSent, hkeeps.nextId]
    exact h.issued
  distinct := by
    rw [hkeeps.sameSent]
    exact h.distinct
  message := by
    intro id sent hsent
    rw [hkeeps.sameSent] at hsent
    rcases h.message id sent hsent with hpurged | ⟨message, hmessage, hpeer⟩
    · exact .inl (hkeeps.purged id hpurged)
    · exact hkeeps.missing id sent message hsent hmessage hpeer
  recorded := by
    intro messageId message hmessage hdelivered
    obtain ⟨old, hold, -, hnew⟩ := hkeeps.messages messageId message hmessage
    rcases hnew hdelivered with hbefore | hnow
    · exact hkeeps.history _ (h.recorded messageId old hold hbefore)
    · exact hnow
  truthful := by
    intro entry hentry
    rcases hkeeps.noted entry hentry with hold | hnew
    · refine (h.truthful entry hold).mono hkeeps.toExtends fun message hmessage => ?_
      obtain ⟨old, hold, hmarks, -⟩ := hkeeps.messages _ message hmessage
      exact ⟨old, hold, hmarks⟩
    · exact hnew
  excused := by
    intro id sent hsent
    rw [hkeeps.sameSent] at hsent
    rcases h.excused id sent hsent with hthere | hexcused
    · obtain ⟨row, hrow⟩ := Option.ne_none_iff_exists'.mp hthere
      have hsame := h.rowSent id row hrow
      rw [hsent] at hsame
      cases hsame
      exact hkeeps.deleted id row hrow
    · exact .inr (hexcused.mono hkeeps.toExtends)
  workers := by
    intro worker hworker
    rcases hkeeps.spawned worker hworker with hold | hnew
    · refine (h.workers worker hold).mono hkeeps.toExtends
        (fun id sent hsent => .inl (hkeeps.sameSent ▸ hsent)) fun id _ hnone => ?_
      refine Option.eq_none_iff_forall_ne_some.mpr fun row hrow => ?_
      obtain ⟨old, hold, -⟩ := hkeeps.rows id row hrow
      exact Option.some_ne_none old (hold.symm.trans hnone)
    · exact hnew

namespace Lanes

variable {lanes : Lanes} {i : Nat}

/-! ### The workers and the log -/

variable {worker : Worker} {workers : List Worker} {id : Nat} {sent : Sent}
  {messages next : Table MessageId Message} {row : OutboxRow} {messageId : MessageId}
  {peer : PublicKey} {payload : Bytes} {status : DeliveryStatus} {announced : Bool}
  {outbox : Outbox} {action : Action} {now : Int} (pick : MessageId → Nat → Nat)

theorem ok_of_workers (h : worker.Ok lanes) : worker.Ok { lanes with workers } :=
  h.mono (.of_history (fun _ => id) rfl rfl rfl rfl) (fun _ _ h => .inl h) (fun _ _ h => h)

theorem inv_workers (h : Inv lanes)
    (hworkers : ∀ worker ∈ workers, worker ∈ lanes.workers ∨ worker.Ok lanes) :
    Inv { lanes with workers } :=
  h.keep { spawned := fun worker hworker => (hworkers worker hworker).imp id ok_of_workers }

theorem inv_become (h : Inv lanes) (hok : worker.Ok lanes) : Inv (lanes.become i worker) := by
  refine inv_workers h fun other hother => ?_
  rcases List.mem_or_eq_of_mem_set hother with hold | rfl
  · exact .inl hold
  · exact .inr hok

theorem inv_spawn (h : Inv lanes) (hok : ∀ worker ∈ workers, worker.Ok lanes) :
    Inv (lanes.spawn workers) :=
  inv_workers h fun worker hworker => (List.mem_append.mp hworker).imp id (hok worker)

theorem extends_note (lanes : Lanes) (messageId : MessageId) (status : DeliveryStatus)
    (announced : Bool) : Extends lanes (lanes.note messageId status announced) :=
  .of_history (fun _ hentry => List.mem_append_left _ hentry) rfl rfl rfl rfl

theorem mem_note :
    entry ∈ (lanes.note messageId status announced).history ↔
      entry ∈ lanes.history ∨ entry = ⟨messageId, status, announced⟩ := by
  rw [note, List.mem_append, List.mem_singleton]

theorem note_self (lanes : Lanes) (messageId : MessageId) (status : DeliveryStatus)
    (announced : Bool) :
    ⟨messageId, status, announced⟩ ∈ (lanes.note messageId status announced).history :=
  mem_note.mpr (.inr rfl)

theorem inv_note (h : Inv lanes) (htrue : Entry.Truthful lanes ⟨messageId, status, announced⟩) :
    Inv (lanes.note messageId status announced) := by
  have hext := extends_note lanes messageId status announced
  refine h.keep { hext with noted := fun entry hentry => ?_ }
  rcases mem_note.mp hentry with hold | rfl
  · exact .inl hold
  · exact .inr (htrue.mono hext fun message hmessage => ⟨message, hmessage, id, id⟩)

theorem inv_accepted (h : Inv lanes) (deposit : PublicKey × Bytes) :
    Inv { lanes with accepted := lanes.accepted ++ [deposit] } :=
  h.keep { accepted := fun _ h => List.mem_append_left _ h }

theorem inv_acks (h : Inv lanes) (ack : PublicKey × MessageId × Bool) :
    Inv { lanes with acks := lanes.acks ++ [ack] } :=
  h.keep { acks := fun _ h => List.mem_append_left _ h }

/-! ### The outbox -/

theorem inv_outbox (h : Inv lanes) (hnext : outbox.nextId = lanes.outbox.nextId)
    (hrows : outbox.Within lanes.outbox)
    (hdeleted : ∀ id row, lanes.outbox.rows.get id = some row → outbox.rows.get id ≠ none ∨ Excused
      lanes id row.sent) : Inv { lanes with outbox } :=
  h.keep { nextId := hnext, rows := hrows, deleted := hdeleted }

theorem inv_deleteWhere (h : Inv lanes) {p : Nat → OutboxRow → Bool}
    (hexcused : ∀ id row, lanes.outbox.rows.get id = some row → p id row = true →
      Excused lanes id row.sent) : Inv { lanes with outbox := lanes.outbox.deleteWhere p } := by
  refine inv_outbox h rfl (Outbox.within_deleteWhere _ p) fun id row hrow => ?_
  cases hp : p id row with
  | false =>
    left
    rw [Outbox.get_deleteWhere.mpr ⟨hrow, hp⟩]
    exact Option.some_ne_none row
  | true => exact .inr (hexcused id row hrow hp)

theorem inv_reschedule (h : Inv lanes) (id : Nat) (nextRetryAt : Int) :
    Inv { lanes with outbox := lanes.outbox.reschedule id nextRetryAt } := by
  refine inv_outbox h rfl (Outbox.within_reschedule _ id nextRetryAt) fun key row hrow => .inl ?_
  rw [Outbox.get_reschedule, hrow]
  split <;> exact Option.some_ne_none _

theorem inv_setMailboxTarget (h : Inv lanes) {mailboxId : Nat}
    (hset : lanes.outbox.setMailboxTarget id mailboxId = some outbox) :
    Inv { lanes with outbox } := by
  obtain ⟨hnext, row, hrow, hget⟩ := Outbox.setMailboxTarget_eq_some hset
  refine inv_outbox h hnext (Outbox.within_setMailboxTarget hset) fun key found hfound => .inl ?_
  rw [hget, hfound]
  split <;> exact Option.some_ne_none _

theorem extends_deleteById (lanes : Lanes) (choice : Choice) (id : Nat) :
    Extends lanes (lanes.deleteById choice id) := by
  unfold Lanes.deleteById
  split <;> exact .of_history (fun _ hentry => hentry) rfl rfl rfl rfl

theorem inv_deleteById (h : Inv lanes) (choice : Choice) (hsent : lanes.sent.get id = some sent)
    (hexcused : Excused lanes id sent) : Inv (lanes.deleteById choice id) := by
  unfold Lanes.deleteById
  split
  · refine inv_deleteWhere h fun key row hrow hkey => ?_
    obtain rfl : key = id := of_decide_eq_true hkey
    have hsame := h.rowSent key row hrow
    rw [hsent] at hsame
    cases hsame
    exact hexcused
  · exact h

theorem inv_ack (h : Inv lanes) (peer : PublicKey) (messageId : MessageId) (writeOk : Bool) :
    Inv (lanes.ack peer messageId writeOk) := by
  have hlogged := inv_acks h (peer, messageId, (lanes.outbox.ackByMessageId peer messageId).1)
  have hdeleted := inv_deleteWhere hlogged
    (p := fun _ row => row.target = peer ∧ row.messageId = messageId) (by
      intro id row hrow hsame
      have hparts : row.target = peer ∧ row.messageId = messageId := of_decide_eq_true hsame
      refine .inl (List.mem_append_right _ ?_)
      have hfound := Outbox.ackByMessageId_fst.mpr ⟨id, row, hrow, hparts⟩
      rw [OutboxRow.sent, hparts.1, hparts.2, List.mem_singleton, hfound])
  unfold Lanes.ack
  dsimp only
  split
  · split
    · next hfound =>
      refine inv_spawn hdeleted fun worker hworker => ?_
      rw [List.mem_singleton] at hworker
      subst hworker
      obtain ⟨id, row, hrow, htarget, hid⟩ := Outbox.ackByMessageId_fst.mp hfound
      have hsent := h.rowSent id row hrow
      refine ⟨⟨id, row.sent, hsent, hid, ?_⟩, fun other sent hother hsame => ?_⟩
      · refine List.mem_append_right _ ?_
        rw [OutboxRow.sent, htarget, hfound]
        exact List.mem_singleton_self _
      · -- the only row of the message is the one that has been removed
        obtain rfl := h.distinct other id sent row.sent hother hsent (hsame.trans hid.symm)
        refine Option.eq_none_iff_forall_ne_some.mpr fun found hget => ?_
        obtain ⟨hold, hkept⟩ := Outbox.get_deleteWhere.mp hget
        change lanes.outbox.rows.get other = some found at hold
        rw [hrow] at hold
        cases hold
        simp [htarget, hid] at hkept
    · exact hdeleted
  · exact hlogged

/-! ### The message rows -/

theorem markDelivered_true {id : MessageId} (h : markDelivered messages id now = (true, next)) :
    (∃ message, messages.get id = some message ∧ message.deliveredAt = none) ∧
      next = messages.modify id fun message => { message with deliveredAt := some now } := by
  unfold markDelivered at h
  split at h
  · next peer failedReason dismissedAt hget => exact ⟨⟨_, hget, rfl⟩, (Prod.mk.inj h).2.symm⟩
  · cases h

theorem markFailed_true {id : MessageId} (h : markFailed messages id = (true, next)) :
    (∃ message, messages.get id = some message ∧ message.deliveredAt = none) ∧
      next = messages.modify id fun message =>
        { message with failedReason := some NO_MAILBOX_REASON } := by
  unfold markFailed at h
  split at h
  · next peer failedReason dismissedAt hget => exact ⟨⟨_, hget, rfl⟩, (Prod.mk.inj h).2.symm⟩
  · cases h

theorem markFailed_false {id : MessageId} (h : markFailed messages id = (false, next)) :
    messages.get id = none ∨
      ∃ message, messages.get id = some message ∧ message.deliveredAt ≠ none := by
  unfold markFailed at h
  split at h
  · cases h
  · next hother =>
    cases hget : messages.get id with
    | none => exact .inl rfl
    | some message =>
      refine .inr ⟨message, rfl, fun hnone => ?_⟩
      obtain ⟨peer, deliveredAt, failedReason, dismissedAt⟩ := message
      cases hnone
      exact hother _ _ _ hget

theorem keeps_modify (lanes : Lanes) (messageId : MessageId) (f : Message → Message)
    (hpeer : ∀ message, (f message).peer = message.peer)
    (hmarks : ∀ message : Message, message.Keeps (f message))
    {history : List Entry} (hhistory : ∀ entry ∈ lanes.history, entry ∈ history)
    (hdelivered : ∀ message, (f message).deliveredAt ≠ none → message.deliveredAt ≠ none ∨
      ⟨messageId, .delivered, false⟩ ∈ history)
    (hnoted : ∀ entry ∈ history, entry ∈ lanes.history ∨ entry.Truthful
      { lanes with messages := lanes.messages.modify messageId f, history }) :
    Keeps lanes { lanes with messages := lanes.messages.modify messageId f, history } where
  history := hhistory
  noted := hnoted
  messages := by
    intro key message hmessage
    change (lanes.messages.modify messageId f).get key = some message at hmessage
    rw [Table.get_modify] at hmessage
    split at hmessage
    · next hkey =>
      subst hkey
      obtain ⟨old, hold, rfl⟩ := Option.map_eq_some_iff.mp hmessage
      exact ⟨old, hold, hmarks old, hdelivered old⟩
    · exact ⟨message, hmessage, ⟨id, id⟩, .inl⟩
  missing := by
    intro id sent old hsent hold htarget
    right
    show ∃ kept, (lanes.messages.modify messageId f).get sent.messageId = some kept ∧ _
    rw [Table.get_modify, hold]
    split
    · exact ⟨f old, rfl, (hpeer old).trans htarget⟩
    · exact ⟨old, rfl, htarget⟩

theorem inv_dismiss (h : Inv lanes) (messageId : MessageId) (now : Int) :
    Inv { lanes with messages := markDismissed lanes.messages messageId now } :=
  h.keep (keeps_modify lanes messageId (fun message => { message with dismissedAt := some now })
    (fun _ => rfl) (fun _ => ⟨id, id⟩) (fun _ => id) (fun _ => .inl) (fun _ => .inl))

theorem inv_deliver (h : Inv lanes)
    (hmark : markDelivered lanes.messages messageId now = (true, messages))
    (hreceipt : Receipt lanes messageId) :
    Inv ({ lanes with messages }.note messageId .delivered false) := by
  obtain ⟨⟨message, hmessage, -⟩, rfl⟩ := markDelivered_true hmark
  refine h.keep (keeps_modify lanes messageId
    (fun message => { message with deliveredAt := some now }) (fun _ => rfl)
    (fun _ => ⟨fun _ => Option.some_ne_none _, id⟩) (fun _ hentry => List.mem_append_left _ hentry)
    (fun _ _ => .inr (List.mem_append_right _ List.mem_cons_self)) fun entry hentry => ?_)
  rcases mem_note.mp hentry with hold | rfl
  · exact .inl hold
  · refine .inr ⟨hreceipt, ?_⟩
    intro found hfound
    change (lanes.messages.modify messageId _).get messageId = some found at hfound
    rw [Table.get_modify_self, hmessage] at hfound
    cases hfound
    exact Option.some_ne_none _

theorem inv_fail (h : Inv lanes) (hmark : markFailed lanes.messages messageId = (true, messages))
    (hsent : WasSent lanes messageId) :
    Inv ({ lanes with messages }.note messageId .failed false) := by
  obtain ⟨⟨message, hmessage, -⟩, rfl⟩ := markFailed_true hmark
  refine h.keep (keeps_modify lanes messageId
    (fun message => { message with failedReason := some NO_MAILBOX_REASON }) (fun _ => rfl)
    (fun _ => ⟨id, fun _ => Option.some_ne_none _⟩)
    (fun _ hentry => List.mem_append_left _ hentry) (fun _ => .inl) fun entry hentry => ?_)
  rcases mem_note.mp hentry with hold | rfl
  · exact .inl hold
  · refine .inr ⟨hsent, ?_⟩
    intro found hfound
    change (lanes.messages.modify messageId _).get messageId = some found at hfound
    rw [Table.get_modify_self, hmessage] at hfound
    cases hfound
    exact Option.some_ne_none _

theorem inv_removeContact (h : Inv lanes) (peer : PublicKey) : Inv (lanes.removeContact peer) := by
  have hpurged (id : Nat) (sent : Sent) (hsent : lanes.sent.get id = some sent)
      (hpeer : sent.target = peer) : id ∈ (lanes.removeContact peer).purged := by
    refine List.mem_append_right _ (List.mem_map.mpr ⟨(id, sent), ?_, rfl⟩)
    exact List.mem_filter.mpr ⟨Table.get_eq_some_iff.mp hsent, decide_eq_true hpeer⟩
  have hmessages (messageId : MessageId) (message : Message) :
      (lanes.removeContact peer).messages.get messageId = some message ↔
        lanes.messages.get messageId = some message ∧ message.peer ≠ peer := by
    show (lanes.messages.deleteWhere _).get messageId = some message ↔ _
    rw [Table.get_deleteWhere, Option.filter_eq_some_iff, Bool.not_eq_eq_eq_not, Bool.not_true,
      decide_eq_false_iff_not]
  exact h.keep
    { purged := fun _ hid => List.mem_append_left _ hid
      rows := Outbox.within_deleteWhere _ _
      deleted := by
        intro id row hrow
        by_cases hpeer : row.target = peer
        · exact .inr (.inr (.inr (.inr (hpurged id row.sent (h.rowSent id row hrow) hpeer))))
        · left
          rw [show (lanes.removeContact peer).outbox.rows.get id = some row from
            Outbox.get_deleteWhere.mpr ⟨hrow, decide_eq_false hpeer⟩]
          exact Option.some_ne_none row
      messages := by
        intro messageId message hmessage
        exact ⟨message, ((hmessages messageId message).mp hmessage).1, ⟨id, id⟩, .inl⟩
      missing := by
        intro id sent message hsent hmessage hpeer
        by_cases hgone : sent.target = peer
        · exact .inl (hpurged id sent hsent hgone)
        · exact .inr ⟨message, (hmessages _ message).mpr ⟨hmessage, hpeer ▸ hgone⟩, hpeer⟩ }

/-! ### Sending -/

/-- What a lookup finds after a message has been sent. -/
structure Sending (before after : Lanes) (peer : PublicKey) (messageId : MessageId)
    (payload : Bytes) : Prop where
  nextId : after.outbox.nextId = before.outbox.nextId + 1
  row : ∀ id, after.outbox.rows.get id = if id = before.outbox.nextId then
    some ⟨peer, payload, messageId, 0, .direct, 0⟩ else before.outbox.rows.get id
  sent : ∀ id, after.sent.get id = if id = before.outbox.nextId then
    some ⟨peer, messageId, payload⟩ else before.sent.get id
  message : ∀ key, after.messages.get key = if key = messageId then
    some ⟨peer, none, none, none⟩ else before.messages.get key
  log : after.workers = before.workers ∧ after.history = before.history ∧
    after.acks = before.acks ∧ after.accepted = before.accepted ∧ after.purged = before.purged

theorem sending_send (h : Inv lanes) (hfresh : Fresh lanes (.send peer messageId payload))
    (hmessage : lanes.messages.get messageId = none) :
    Sending lanes (lanes.send peer messageId payload) peer messageId payload := by
  have hnew : ∀ id row, lanes.outbox.rows.get id = some row → row.messageId ≠ messageId :=
    fun id row hrow => hfresh id row.sent (h.rowSent id row hrow)
  obtain ⟨hnext, hrows⟩ := Outbox.insert_of_new hnew peer payload 0
  rw [Lanes.send, if_pos hmessage]
  refine ⟨hnext, hrows, fun id => ?_, fun key => ?_, rfl, rfl, rfl, rfl, rfl⟩
  · show (lanes.sent.put _ _).get id = _
    split
    · next hid => rw [hid, Table.get_put_self]
    · next hid => rw [Table.get_put_ne _ _ hid]
  · show (lanes.messages.put _ _).get key = _
    split
    · next hkey => rw [hkey, Table.get_put_self]
    · next hkey => rw [Table.get_put_ne _ _ hkey]

namespace Sending

variable {peer : PublicKey} {messageId : MessageId} {payload : Bytes}

theorem sent_cases (hsending : Sending before after peer messageId payload) {id : Nat}
    (hsent : after.sent.get id = some sent) :
    (id = before.outbox.nextId ∧ sent = ⟨peer, messageId, payload⟩) ∨
      before.sent.get id = some sent := by
  rw [hsending.sent] at hsent
  split at hsent
  · next hid => exact .inl ⟨hid, (Option.some.inj hsent).symm⟩
  · exact .inr hsent

theorem toExtends (hsending : Sending before after peer messageId payload) (h : Inv before) :
    Extends before after := by
  obtain ⟨-, hhistory, hacks, haccepted, hpurged⟩ := hsending.log
  refine ⟨fun id sent hsent => ?_, ?_, ?_, ?_, ?_⟩
  · rw [hsending.sent, if_neg (h.issued id sent hsent).ne]
    exact hsent
  · rw [hacks]
    exact fun _ => id
  · rw [hhistory]
    exact fun _ => id
  · rw [haccepted]
    exact fun _ => id
  · rw [hpurged]
    exact fun _ => id

theorem inv (hsending : Sending before after peer messageId payload) (h : Inv before)
    (hfresh : ∀ id sent, before.sent.get id = some sent → sent.messageId ≠ messageId) :
    Inv after := by
  have hext := hsending.toExtends h
  have hnext := hsending.nextId
  obtain ⟨hworkers, hhistory, -, -, hpurged⟩ := hsending.log
  constructor
  case rowSent =>
    intro id row hrow
    rw [hsending.row] at hrow
    rw [hsending.sent]
    split at hrow
    · next hid =>
      cases hrow
      rw [if_pos hid]
      rfl
    · next hid =>
      rw [if_neg hid]
      exact h.rowSent id row hrow
  case issued =>
    intro id sent hsent
    rcases hsending.sent_cases hsent with ⟨hid, -⟩ | hold
    · omega
    · have := h.issued id sent hold
      omega
  case distinct =>
    intro id id' sent sent' hsent hsent' hsame
    rcases hsending.sent_cases hsent with ⟨hid, rfl⟩ | hold <;>
      rcases hsending.sent_cases hsent' with ⟨hid', rfl⟩ | hold'
    · omega
    · exact absurd hsame.symm (hfresh id' sent' hold')
    · exact absurd hsame (hfresh id sent hold)
    · exact h.distinct id id' sent sent' hold hold' hsame
  case message =>
    intro id sent hsent
    rw [hpurged]
    rcases hsending.sent_cases hsent with ⟨-, rfl⟩ | hold
    · exact .inr ⟨_, by rw [hsending.message, if_pos rfl], rfl⟩
    · rw [hsending.message, if_neg (hfresh id sent hold)]
      exact h.message id sent hold
  case recorded =>
    intro key message hget hdelivered
    rw [hhistory]
    rw [hsending.message] at hget
    split at hget
    · cases hget
      exact absurd rfl hdelivered
    · exact h.recorded key message hget hdelivered
  case truthful =>
    intro entry hentry
    rw [hhistory] at hentry
    have htrue := h.truthful entry hentry
    obtain ⟨id, sent, hsent, hid⟩ := htrue.wasSent
    refine htrue.mono hext fun message hget => ⟨message, ?_, fun h => h, fun h => h⟩
    rw [hsending.message, if_neg (hid ▸ hfresh id sent hsent)] at hget
    exact hget
  case excused =>
    intro id sent hsent
    rcases hsending.sent_cases hsent with ⟨hid, -⟩ | hold
    · left
      rw [hsending.row, if_pos hid]
      exact Option.some_ne_none _
    · rw [hsending.row, if_neg (h.issued id sent hold).ne]
      exact (h.excused id sent hold).imp_right fun hexcused => hexcused.mono hext
  case workers =>
    intro worker hworker
    rw [hworkers] at hworker
    refine (h.workers worker hworker).mono hext (fun id sent hsent => ?_) fun id hsent hrow => ?_
    · rcases hsending.sent_cases hsent with ⟨-, rfl⟩ | hold
      · exact .inr hfresh
      · exact .inl hold
    · obtain ⟨sent, hsent⟩ := hsent
      rw [hsending.row, if_neg (h.issued id sent hsent).ne]
      exact hrow

end Sending

theorem inv_send (h : Inv lanes) (hfresh : Fresh lanes (.send peer messageId payload)) :
    Inv (lanes.send peer messageId payload) := by
  by_cases hmessage : lanes.messages.get messageId = none
  · exact (sending_send h hfresh hmessage).inv h hfresh
  · rw [Lanes.send, if_neg hmessage]
    exact h

theorem sent_send (h : Inv lanes) (hfresh : Fresh lanes (.send peer messageId payload))
    (hsent : (lanes.send peer messageId payload).sent.get id = some sent) :
    sent.messageId = messageId ∨ lanes.sent.get id = some sent := by
  by_cases hmessage : lanes.messages.get messageId = none
  · rcases (sending_send h hfresh hmessage).sent_cases hsent with ⟨-, rfl⟩ | hold
    · exact .inl rfl
    · exact .inr hold
  · rw [Lanes.send, if_neg hmessage] at hsent
    exact .inr hsent

/-! ### The steps of a worker -/

theorem inv_finish (h : Inv lanes) : Inv (lanes.become i .finished) := inv_become h trivial

theorem inv_messageDelivered (h : Inv lanes) (choice : Choice)
    (hreceipt : Receipt lanes messageId) : Inv (lanes.messageDelivered i choice messageId) := by
  unfold Lanes.messageDelivered
  split
  · next messages hmark =>
    split
    · exact inv_become (inv_deliver h hmark hreceipt) (note_self ..)
    · exact inv_finish h
  · exact inv_finish h

theorem inv_startFallback (h : Inv lanes) (pick : MessageId → Nat → Nat) (choice : Choice)
    (hok : (Worker.fallback peer messageId payload).Ok lanes) :
    Inv (lanes.startFallback pick i choice peer messageId payload) := by
  unfold Lanes.startFallback
  split
  · split
    · exact inv_finish h
    · next id hfind =>
      refine inv_become h ?_
      obtain ⟨row, hrow, -, hid⟩ := Outbox.findDirectId_eq_some hfind
      obtain ⟨other, hsent⟩ := hok
      obtain rfl := h.distinct id other row.sent _ (h.rowSent id row hrow) hsent hid
      exact hsent
  · exact inv_finish h

theorem inv_walk (h : Inv lanes) (choice : Choice)
    (hsent : lanes.sent.get id = some ⟨peer, messageId, payload⟩) (onions : List String) :
    Inv (lanes.walk i choice peer messageId payload id onions) := by
  unfold Lanes.walk
  split
  · exact inv_finish h
  · split
    · split
      · exact inv_become h hsent
      · next outbox hset => exact inv_become (inv_setMailboxTarget h hset) hsent
    · exact inv_become h hsent

theorem inv_accept (h : Inv lanes) (hsent : lanes.sent.get id = some ⟨peer, messageId, payload⟩) :
    Inv (lanes.accept i peer messageId payload id) :=
  inv_become (inv_accepted h (peer, payload))
    ⟨_, hsent, rfl, List.mem_append_right _ List.mem_cons_self⟩

theorem inv_putOff (h : Inv lanes) (choice : Choice) (id : Nat) :
    Inv (lanes.reschedule choice id) := by
  unfold Lanes.reschedule
  split
  · exact inv_reschedule h id choice.nextRetryAt
  · exact h

theorem inv_redepositNext (h : Inv lanes) (choice : Choice)
    (hsent : lanes.sent.get id = some row.sent) (onions : List String) :
    Inv (lanes.redepositNext i choice id row onions) := by
  unfold Lanes.redepositNext
  split
  · exact inv_finish (inv_putOff h choice id)
  · split
    · exact inv_accept h hsent
    · exact inv_become h hsent

theorem inv_sweepRow (h : Inv lanes) (choice : Choice) (hsent : lanes.sent.get id = some row.sent)
    (now : Int) : Inv (lanes.sweepRow i choice id row now) := by
  unfold Lanes.sweepRow
  split
  · exact inv_finish h
  · split
    · exact inv_finish h
    · split
      · split
        · exact inv_become h ⟨id, hsent⟩
        · exact inv_become h hsent
      · exact inv_finish h

theorem excused_of_unmarked (h : Inv lanes) (hsent : lanes.sent.get id = some sent)
    (hmark : markFailed lanes.messages sent.messageId = (false, messages)) :
    Excused lanes id sent := by
  rcases markFailed_false hmark with hnone | ⟨message, hmessage, hdelivered⟩
  · rcases h.message id sent hsent with hpurged | ⟨message, hmessage, -⟩
    · exact .inr (.inr (.inr hpurged))
    · exact absurd (hmessage.symm.trans hnone) (Option.some_ne_none message)
  · obtain ⟨⟨other, sent', hsent', hid, hack⟩, -⟩ :=
      h.truthful _ (h.recorded _ message hmessage hdelivered)
    obtain rfl := h.distinct other id sent' sent hsent' hsent hid
    obtain rfl := Option.some.inj (hsent'.symm.trans hsent)
    exact .inl hack

theorem inv_expire (h : Inv lanes) (choice : Choice) (hsent : lanes.sent.get id = some row.sent) :
    Inv (lanes.expire i choice id row) := by
  unfold Lanes.expire
  split
  · split
    · next messages hmark =>
      have hnoted := note_self { lanes with messages } row.messageId .failed false
      exact inv_become (inv_fail h hmark ⟨id, row.sent, hsent, rfl⟩)
        ⟨hsent, .inr (.inr (.inl hnoted)), fun _ => hnoted⟩
    · next messages hmark =>
      exact inv_become h ⟨hsent, excused_of_unmarked h hsent hmark, nofun⟩
  · exact inv_finish h

theorem inv_work (h : Inv lanes) (pick : MessageId → Nat → Nat) (choice : Choice)
    (hok : worker.Ok lanes) : Inv (lanes.work pick i choice worker) := by
  cases worker with
  | acked messageId => exact inv_messageDelivered h choice hok.1
  | announcingDelivered messageId =>
    exact inv_finish (inv_note h (h.truthful ⟨messageId, .delivered, false⟩ hok))
  | fallback peer messageId payload => exact inv_startFallback h pick choice hok
  | walking peer messageId payload id onions => exact inv_walk h choice hok onions
  | depositing peer messageId payload id onions =>
    show Inv (if choice.depositOk then _ else _)
    split
    · exact inv_accept h hok
    · exact inv_become h hok
  | redeposit id row =>
    show Inv (if choice.readOk ∧ choice.onions ≠ [] then _ else _)
    split
    · exact inv_become h hok
    · exact inv_finish (inv_putOff h choice id)
  | redepositing id row onions => exact inv_redepositNext h choice hok onions
  | deposited id messageId =>
    obtain ⟨sent, hsent, hid, hdeposit⟩ := hok
    refine inv_become (inv_deleteById h choice hsent (.inr (.inl hdeposit))) ?_
    exact InMailbox.mono (extends_deleteById lanes choice id) ⟨id, sent, hsent, hid, hdeposit⟩
  | announcingDeposited messageId => exact inv_finish (inv_note h hok)
  | sweeping id row now => exact inv_sweepRow h choice hok now
  | expiring id row => exact inv_expire h choice hok
  | expired id row marked =>
    obtain ⟨hsent, hexcused, hmarked⟩ := hok
    refine inv_become (inv_deleteById h choice hsent hexcused) ?_
    cases marked with
    | false => trivial
    | true => exact (extends_deleteById lanes choice id).history _ (hmarked rfl)
  | announcingFailed messageId =>
    exact inv_finish (inv_note h (h.truthful ⟨messageId, .failed, false⟩ hok))
  | finished => exact h

theorem inv_init : Inv init where
  rowSent := nofun
  issued := nofun
  distinct := nofun
  message := nofun
  recorded := nofun
  truthful := nofun
  excused := nofun
  workers := nofun

theorem inv_step (h : Inv lanes) (hfresh : Fresh lanes action) : Inv (lanes.step pick action) := by
  cases action with
  | send peer messageId payload => exact inv_send h hfresh
  | ack peer messageId writeOk => exact inv_ack h peer messageId writeOk
  | directFallback peer now =>
    refine inv_spawn h fun worker hworker => ?_
    obtain ⟨row, hrow, rfl⟩ := List.mem_map.mp hworker
    exact ⟨row.1, h.rowSent _ _ (Outbox.of_mem_dueDirectFor hrow).1⟩
  | mailboxSweep now batch =>
    refine inv_spawn h fun worker hworker => ?_
    obtain ⟨row, hrow, rfl⟩ := List.mem_map.mp hworker
    exact h.rowSent _ _ (Outbox.of_mem_dueMailbox hrow)
  | outboxSweep now batch =>
    refine inv_spawn h fun worker hworker => ?_
    obtain ⟨row, hrow, rfl⟩ := List.mem_map.mp hworker
    exact h.rowSent _ _ (Outbox.of_mem_due (List.mem_filter.mp hrow).1)
  | retried id nextRetryAt => exact inv_reschedule h id nextRetryAt
  | dismiss messageId now => exact inv_dismiss h messageId now
  | removeContact peer => exact inv_removeContact h peer
  | restart => exact inv_workers h (by simp)
  | work i choice =>
    rcases step_work_cases pick lanes i choice with ⟨worker, hi, hstep⟩ | hstep
    · rw [hstep]
      exact inv_work h pick choice (h.workers worker (List.mem_of_getElem? hi))
    · rw [hstep]
      exact h

theorem sent_work (choice : Choice) (worker : Worker) :
    (lanes.work pick i choice worker).sent = lanes.sent := by
  have hreschedule (id : Nat) : (lanes.reschedule choice id).sent = lanes.sent := by
    unfold Lanes.reschedule
    split <;> rfl
  have hdelete (id : Nat) : (lanes.deleteById choice id).sent = lanes.sent := by
    unfold Lanes.deleteById
    split <;> rfl
  cases worker with
  | acked messageId =>
    show (lanes.messageDelivered i choice messageId).sent = lanes.sent
    unfold Lanes.messageDelivered
    split
    · split <;> rfl
    · rfl
  | fallback peer messageId payload =>
    show (lanes.startFallback pick i choice peer messageId payload).sent = lanes.sent
    unfold Lanes.startFallback
    split
    · split <;> rfl
    · rfl
  | walking peer messageId payload id onions =>
    show (lanes.walk i choice peer messageId payload id onions).sent = lanes.sent
    unfold Lanes.walk
    repeat' split
    all_goals rfl
  | depositing peer messageId payload id onions =>
    show (if choice.depositOk then _ else _ : Lanes).sent = lanes.sent
    split <;> rfl
  | redeposit id row =>
    show (if choice.readOk ∧ choice.onions ≠ [] then _ else _ : Lanes).sent = lanes.sent
    split
    · rfl
    · exact hreschedule id
  | redepositing id row onions =>
    show (lanes.redepositNext i choice id row onions).sent = lanes.sent
    unfold Lanes.redepositNext
    split
    · exact hreschedule id
    · split <;> rfl
  | deposited id messageId => exact hdelete id
  | expired id row marked => exact hdelete id
  | sweeping id row now =>
    show (lanes.sweepRow i choice id row now).sent = lanes.sent
    unfold Lanes.sweepRow
    repeat' split
    all_goals rfl
  | expiring id row =>
    show (lanes.expire i choice id row).sent = lanes.sent
    unfold Lanes.expire
    repeat' split
    all_goals rfl
  | announcingDelivered | announcingDeposited | announcingFailed | finished => rfl

theorem sent_step (lanes : Lanes)
    (hsend : ∀ peer messageId payload, action ≠ .send peer messageId payload) :
    (lanes.step pick action).sent = lanes.sent := by
  cases action with
  | send peer messageId payload => exact absurd rfl (hsend peer messageId payload)
  | ack peer messageId writeOk =>
    show (lanes.ack peer messageId writeOk).sent = lanes.sent
    unfold Lanes.ack
    dsimp only
    split
    · split <;> rfl
    · rfl
  | work i choice =>
    rcases step_work_cases pick lanes i choice with ⟨worker, -, hstep⟩ | hstep
    · rw [hstep, sent_work]
    · rw [hstep]
  | directFallback | mailboxSweep | outboxSweep | retried | dismiss | removeContact | restart => rfl

theorem inv_run {actions : List Action} (hfresh : Meets (step pick) Fresh init actions) :
    Inv (init.run pick actions) :=
  have halong : Along (step pick) Inv init actions :=
    along_of_meets (P := Inv) (fun _ _ h hfresh => inv_step pick h hfresh) inv_init hfresh
  halong.last

/-! ### No silent loss -/

/-- A row that a sent message put into the queue is there until an Ack for it was received, a
mailbox accepted a deposit of its payload, its failure was recorded on the message, or its contact
was removed; and a peer and a message id have one row at most. This is so in every interleaving,
whatever fails. -/
theorem queued_until_excused (pick : MessageId → Nat → Nat) (actions : List Action)
    (hfresh : Meets (step pick) Fresh init actions) :
    (∀ id sent, (init.run pick actions).sent.get id = some sent →
      (∃ row, (init.run pick actions).outbox.rows.get id = some row ∧ row.sent = sent) ∨
        (sent.target, sent.messageId, true) ∈ (init.run pick actions).acks ∨
        (sent.target, sent.payload) ∈ (init.run pick actions).accepted ∨
        (∃ message, (init.run pick actions).messages.get sent.messageId = some message ∧
          message.failedReason ≠ none) ∨ id ∈ (init.run pick actions).purged) ∧
      ∀ id id' row row', (init.run pick actions).outbox.rows.get id = some row →
        (init.run pick actions).outbox.rows.get id' = some row' →
        row.target = row'.target → row.messageId = row'.messageId → id = id' := by
  have h := inv_run pick hfresh
  refine ⟨fun id sent hsent => ?_, fun id id' row row' hrow hrow' _ hsame => ?_⟩
  · rcases h.excused id sent hsent with hthere | hack | hdeposit | hfailed | hpurged
    · obtain ⟨row, hrow⟩ := Option.ne_none_iff_exists'.mp hthere
      exact .inl ⟨row, hrow, Option.some.inj ((h.rowSent id row hrow).symm.trans hsent)⟩
    · exact .inr (.inl hack)
    · exact .inr (.inr (.inl hdeposit))
    · rcases h.message id sent hsent with hpurged | ⟨message, hmessage, -⟩
      · exact .inr (.inr (.inr (.inr hpurged)))
      · have htrue := (h.truthful _ hfailed).2 message hmessage
        exact .inr (.inr (.inr (.inl ⟨message, hmessage, htrue⟩)))
    · exact .inr (.inr (.inr (.inr hpurged)))
  · exact h.distinct id id' row.sent row'.sent (h.rowSent id row hrow) (h.rowSent id' row' hrow')
      hsame

def oneAcked : List Action :=
  [.send (.fill 32 1) (.fill 16 2) [3], .send (.fill 32 1) (.fill 16 4) [5],
    .ack (.fill 32 1) (.fill 16 2) true]

/-- The acknowledged one has left the queue, and the other one is in it. -/
theorem other_row_queued :
    (init.run (fun _ _ => 0) oneAcked).outbox.rows.get 0 = none ∧
      (.fill 32 1, .fill 16 2, true) ∈ (init.run (fun _ _ => 0) oneAcked).acks ∧
      ∃ row, (init.run (fun _ _ => 0) oneAcked).outbox.rows.get 1 = some row ∧
        row.sent = ⟨.fill 32 1, .fill 16 4, [5]⟩ := by
  have hfresh : Meets (step fun _ _ => 0) Fresh init oneAcked := by
    refine ⟨nofun, fun id sent hsent => ?_, trivial, trivial⟩
    have hfirst : sent = ⟨.fill 32 1, .fill 16 2, [3]⟩ :=
      congrArg Prod.snd (List.mem_singleton.mp (Table.get_eq_some_iff.mp hsent))
    rw [hfirst]
    decide
  have hgone : (init.run (fun _ _ => 0) oneAcked).outbox.rows.get 0 = none := by decide
  have hqueued := (queued_until_excused (fun _ _ => 0) _ hfresh).1
  refine ⟨hgone, ?_, ?_⟩
  · rcases hqueued 0 ⟨.fill 32 1, .fill 16 2, [3]⟩ rfl with
      ⟨row, hrow, -⟩ | hack | hdeposit | ⟨message, hmessage, hfailed⟩ | hpurged
    · rw [hgone] at hrow
      cases hrow
    · exact hack
    · cases hdeposit
    · cases hmessage
      exact absurd rfl hfailed
    · cases hpurged
  · rcases hqueued 1 ⟨.fill 32 1, .fill 16 4, [5]⟩ rfl with
      hrow | hack | hdeposit | ⟨message, hmessage, hfailed⟩ | hpurged
    · exact hrow
    · exact absurd hack (by decide)
    · cases hdeposit
    · cases hmessage
      exact absurd rfl hfailed
    · cases hpurged

end Lanes

end Skattr.Core.Delivery
