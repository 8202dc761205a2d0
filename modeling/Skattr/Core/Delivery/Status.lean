import Skattr.Core.Delivery.Custody

/-!
# The status of a message

The statuses of a message are recorded on its row and announced to the clients by different tasks.
A delivery is recorded once and announced once, and only with its Ack. But the mailbox fallback and
the sweeps do not look at the message again before they announce what they have done: a deposit or
a failure that is under way when the delivery is recorded is announced after it. What a step does
to the statuses is said once, in `Effect`; everything else follows from that.
-/

namespace Skattr.Core.Delivery

open Lib

def Worker.Announces (messageId : MessageId) : Worker → Bool
  | .announcingDelivered id => id = messageId
  | _ => false

def Worker.Busy (messageId : MessageId) : Worker → Prop
  | .depositing _ id _ _ _ | .deposited _ id | .announcingDeposited id | .announcingFailed id =>
    id = messageId
  | .redeposit _ row => row.messageId = messageId
  | .redepositing _ row onions => row.messageId = messageId ∧ onions ≠ []
  | .expired _ row marked => row.messageId = messageId ∧ marked = true
  | .acked _ | .announcingDelivered _ | .fallback _ _ _ | .walking _ _ _ _ _ | .sweeping _ _ _
  | .expiring _ _ | .finished => False

namespace Lanes

def announcing (lanes : Lanes) (messageId : MessageId) : Nat :=
  lanes.workers.countP (Worker.Announces messageId)

/-- Something may still become of the message: it is in the queue, or a worker is busy with it. -/
def Open (lanes : Lanes) (messageId : MessageId) : Prop :=
  (∃ id row, lanes.outbox.rows.get id = some row ∧ row.messageId = messageId) ∨
    ∃ worker ∈ lanes.workers, worker.Busy messageId

def Records (lanes : Lanes) (messageId : MessageId) : Action → Prop
  | .work i choice => lanes.workers[i]? = some (.acked messageId) ∧ choice.writeOk = true ∧
      (markDelivered lanes.messages messageId choice.now).1 = true
  | _ => False

def Undisturbed (lanes : Lanes) (action : Action) : Prop :=
  ∀ messageId, lanes.Records messageId action →
    ∀ worker ∈ lanes.workers, ¬worker.Busy messageId

end Lanes

def Entry.Before (entry later : Entry) : Prop :=
  entry.status = .delivered → later.messageId = entry.messageId → later.status = .delivered

/-- What a step does to the statuses: the entry that it notes, and on what grounds. -/
structure Effect (before after : Lanes) (action : Lanes.Action) (noted : Option Entry) : Prop where
  history : after.history = before.history ++ noted.toList
  announcing : ∀ messageId,
    after.announcing messageId + noted.toList.count ⟨messageId, .delivered, true⟩ ≤
      before.announcing messageId + noted.toList.count ⟨messageId, .delivered, false⟩
  opened : ∀ messageId, after.Open messageId →
    before.Open messageId ∨ ⟨messageId, .delivered, false⟩ ∉ after.history
  delivered : ∀ messageId, noted = some ⟨messageId, .delivered, false⟩ →
    before.Records messageId action ∧ ⟨messageId, .delivered, false⟩ ∉ before.history ∧
      ∀ id row, before.outbox.rows.get id = some row → row.messageId ≠ messageId
  other : ∀ entry, noted = some entry → entry.status ≠ .delivered →
    before.Open entry.messageId ∨ ⟨entry.messageId, .delivered, false⟩ ∉ before.history

namespace Lanes

variable {lanes mid after : Lanes} {i : Nat} {action : Action}

/-! ### What each step does -/

theorem announcing_become {old : Worker} (hi : lanes.workers[i]? = some old) (worker : Worker)
    (messageId : MessageId) :
    (lanes.become i worker).announcing messageId + (old.Announces messageId).toNat =
      lanes.announcing messageId + (worker.Announces messageId).toNat := by
  obtain ⟨hlt, hget⟩ := List.getElem?_eq_some_iff.mp hi
  show (lanes.workers.set i worker).countP (Worker.Announces messageId) + _ =
    lanes.workers.countP (Worker.Announces messageId) + _
  rw [List.countP_set hlt, hget]
  have hold : (old.Announces messageId).toNat ≤
      lanes.workers.countP (Worker.Announces messageId) := by
    cases hannounces : old.Announces messageId with
    | false => exact Nat.zero_le _
    | true => exact List.countP_pos_iff.mpr ⟨old, hget ▸ List.getElem_mem hlt, hannounces⟩
  cases hannounces : old.Announces messageId <;> cases worker.Announces messageId <;>
    simp only [hannounces, Bool.toNat_true, Bool.toNat_false] at hold ⊢ <;> simp <;> omega

theorem Open.of_within {messageId : MessageId} (h : mid.Open messageId)
    (hrows : mid.outbox.Within lanes.outbox)
    (hworkers : ∀ worker ∈ mid.workers, worker.Busy messageId →
      worker ∈ lanes.workers ∨ lanes.Open messageId) : lanes.Open messageId := by
  rcases h with ⟨id, row, hrow, hid⟩ | ⟨worker, hworker, hbusy⟩
  · obtain ⟨old, hold, hsame⟩ := hrows id row hrow
    exact .inl ⟨id, old, hold, (congrArg Sent.messageId hsame).symm.trans hid⟩
  · exact (hworkers worker hworker hbusy).elim (fun hold => .inr ⟨worker, hold, hbusy⟩) id

theorem effect_quiet (hhistory : after.history = lanes.history)
    (hannouncing : ∀ messageId, after.announcing messageId ≤ lanes.announcing messageId)
    (hopened : ∀ messageId, after.Open messageId →
      lanes.Open messageId ∨ ⟨messageId, .delivered, false⟩ ∉ lanes.history) :
    Effect lanes after action none where
  history := hhistory.trans (List.append_nil _).symm
  announcing := hannouncing
  opened := by
    rw [hhistory]
    exact hopened
  delivered := nofun
  other := nofun

theorem effect_become {old worker : Worker} (hi : lanes.workers[i]? = some old)
    (hhistory : mid.history = lanes.history) (hworkers : mid.workers = lanes.workers)
    (hrows : mid.outbox.Within lanes.outbox)
    (hquiet : ∀ messageId, worker.Announces messageId = false)
    (hbusy : ∀ messageId, worker.Busy messageId → lanes.Open messageId) :
    Effect lanes (mid.become i worker) action none := by
  refine effect_quiet hhistory (fun messageId => ?_) fun messageId hopen => .inl ?_
  · have hbalance := announcing_become hi worker messageId
    rw [hquiet messageId, Bool.toNat_false] at hbalance
    have hsame : (mid.become i worker).announcing messageId =
        (lanes.become i worker).announcing messageId := by
      show (mid.workers.set i worker).countP _ = _
      rw [hworkers]
      rfl
    omega
  · refine hopen.of_within hrows fun other hother hother' => ?_
    rcases List.mem_or_eq_of_mem_set hother with hold | rfl
    · exact .inl (hworkers ▸ hold)
    · exact .inr (hbusy messageId hother')

variable {status : DeliveryStatus} {peer : PublicKey} {payload : Bytes} {id : Nat}
  {onions : List String} {row : OutboxRow}

theorem effect_note {old worker : Worker} (hi : lanes.workers[i]? = some old)
    {messages : Table MessageId Message} {messageId : MessageId} {announced : Bool}
    (hannouncing : ∀ other, (worker.Announces other).toNat + [Entry.mk messageId status
      announced].count ⟨other, .delivered, true⟩ ≤ (old.Announces other).toNat + [Entry.mk messageId
      status announced].count ⟨other, .delivered, false⟩)
    (hbusy : ∀ other, worker.Busy other → lanes.Open other ∨ ⟨other, .delivered, false⟩ ∉
      lanes.history ++ [⟨messageId, status, announced⟩])
    (hdelivered : status = .delivered → announced = false → lanes.Records messageId action ∧
      ⟨messageId, .delivered, false⟩ ∉ lanes.history ∧ ∀ id row, lanes.outbox.rows.get id = some row
      → row.messageId ≠ messageId)
    (hother : status ≠ .delivered → lanes.Open messageId ∨ ⟨messageId, .delivered, false⟩ ∉
      lanes.history) :
    Effect lanes (({ lanes with messages }.note messageId status announced).become i worker)
      action (some ⟨messageId, status, announced⟩) where
  history := rfl
  announcing := by
    intro other
    have hbalance := announcing_become hi worker other
    have hentry := hannouncing other
    show (lanes.become i worker).announcing other + [Entry.mk ..].count _ ≤
      lanes.announcing other + [Entry.mk ..].count _
    omega
  opened := by
    intro other hopen
    rcases hopen with hrow | ⟨found, hfound, hfound'⟩
    · exact .inl (.inl hrow)
    · rcases List.mem_or_eq_of_mem_set hfound with hold | rfl
      · exact .inl (.inr ⟨found, hold, hfound'⟩)
      · exact hbusy other hfound'
  delivered := by
    rintro _ ⟨⟩
    exact hdelivered rfl rfl
  other := by
    rintro _ ⟨⟩ hstatus
    exact hother hstatus

theorem effect_idle {old worker : Worker} (hi : lanes.workers[i]? = some old)
    (hquiet : ∀ messageId, worker.Announces messageId = false)
    (hidle : ∀ messageId, ¬worker.Busy messageId) :
    Effect lanes (lanes.become i worker) action none :=
  effect_become hi rfl rfl (.refl _) hquiet fun messageId hnow => absurd hnow (hidle messageId)

theorem effect_finish {old : Worker} (hi : lanes.workers[i]? = some old) :
    Effect lanes (lanes.become i .finished) action none :=
  effect_idle hi (fun _ => rfl) (fun _ => False.elim)

theorem effect_busy {old worker : Worker} (hi : lanes.workers[i]? = some old)
    (hhistory : mid.history = lanes.history) (hworkers : mid.workers = lanes.workers)
    (hrows : mid.outbox.Within lanes.outbox)
    (hquiet : ∀ messageId, worker.Announces messageId = false)
    (hbusy : ∀ messageId, worker.Busy messageId → old.Busy messageId) :
    Effect lanes (mid.become i worker) action none :=
  effect_become hi hhistory hworkers hrows hquiet fun messageId hnow =>
    .inr ⟨old, List.mem_of_getElem? hi, hbusy messageId hnow⟩

theorem within_deleteById (lanes : Lanes) (choice : Choice) (id : Nat) :
    (lanes.deleteById choice id).outbox.Within lanes.outbox := by
  unfold Lanes.deleteById
  split
  · exact Outbox.within_deleteWhere _ _
  · exact .refl _

theorem within_reschedule (lanes : Lanes) (choice : Choice) (id : Nat) :
    (lanes.reschedule choice id).outbox.Within lanes.outbox := by
  unfold Lanes.reschedule
  split
  · exact Outbox.within_reschedule _ _ _
  · exact .refl _

theorem log_deleteById (lanes : Lanes) (choice : Choice) (id : Nat) :
    (lanes.deleteById choice id).history = lanes.history ∧
      (lanes.deleteById choice id).workers = lanes.workers := by
  unfold Lanes.deleteById
  split <;> exact ⟨rfl, rfl⟩

theorem log_reschedule (lanes : Lanes) (choice : Choice) (id : Nat) :
    (lanes.reschedule choice id).history = lanes.history ∧
      (lanes.reschedule choice id).workers = lanes.workers := by
  unfold Lanes.reschedule
  split <;> exact ⟨rfl, rfl⟩

theorem not_recorded (h : Inv lanes) {messageId : MessageId} {message : Message}
    (hmessage : lanes.messages.get messageId = some message) (hnone : message.deliveredAt = none) :
    ⟨messageId, .delivered, false⟩ ∉ lanes.history :=
  fun hentry => (h.truthful _ hentry).2 message hmessage hnone

theorem effect_acked (h : Inv lanes) (choice : Choice) {messageId : MessageId}
    (hi : lanes.workers[i]? = some (.acked messageId)) :
    ∃ noted, Effect lanes (lanes.messageDelivered i choice messageId) (.work i choice) noted := by
  have hok := h.workers _ (List.mem_of_getElem? hi)
  unfold Lanes.messageDelivered
  split
  · next messages hmark =>
    split
    · next hwrite =>
      obtain ⟨⟨message, hmessage, hnone⟩, -⟩ := markDelivered_true hmark
      refine ⟨some ⟨messageId, .delivered, false⟩, effect_note hi (fun other => ?_)
        (fun _ => False.elim) (fun _ _ => ?_) (fun hstatus => absurd rfl hstatus)⟩
      · by_cases hsame : messageId = other <;> simp [Worker.Announces, hsame]
      · refine ⟨⟨hi, hwrite, by rw [hmark]⟩, not_recorded h hmessage hnone, ?_⟩
        intro id row hrow hid
        have hgone := hok.2 id row.sent (h.rowSent id row hrow) hid
        exact Option.some_ne_none row (hrow.symm.trans hgone)
    · exact ⟨none, effect_finish hi⟩
  · exact ⟨none, effect_finish hi⟩

theorem effect_startFallback (pick : MessageId → Nat → Nat) (choice : Choice)
    {messageId : MessageId} (hi : lanes.workers[i]? = some (.fallback peer messageId payload)) :
    Effect lanes (lanes.startFallback pick i choice peer messageId payload) action none := by
  unfold Lanes.startFallback
  split
  · split
    · exact effect_finish hi
    · exact effect_idle hi (fun _ => rfl) (fun _ => False.elim)
  · exact effect_finish hi

theorem effect_walk (h : Inv lanes) (choice : Choice) {messageId : MessageId}
    (hi : lanes.workers[i]? = some (.walking peer messageId payload id onions)) :
    Effect lanes (lanes.walk i choice peer messageId payload id onions) action none := by
  have hsent : lanes.sent.get id = some ⟨peer, messageId, payload⟩ :=
    h.workers _ (List.mem_of_getElem? hi)
  unfold Lanes.walk
  split
  · exact effect_finish hi
  · split
    · split
      · exact effect_idle hi (fun _ => rfl) (fun _ => False.elim)
      · next outbox hset =>
        refine effect_become hi rfl rfl
          (Outbox.within_setMailboxTarget hset) (fun _ => rfl) ?_
        rintro _ ⟨⟩
        obtain ⟨-, row, hrow, -⟩ := Outbox.setMailboxTarget_eq_some hset
        have hsame := Option.some.inj ((h.rowSent id row hrow).symm.trans hsent)
        exact .inl ⟨id, row, hrow, congrArg Sent.messageId hsame⟩
    · exact effect_idle hi (fun _ => rfl) (fun _ => False.elim)

theorem effect_redepositNext (choice : Choice)
    (hi : lanes.workers[i]? = some (.redepositing id row onions)) :
    Effect lanes (lanes.redepositNext i choice id row onions) action none := by
  obtain ⟨hhistory, hworkers⟩ := log_reschedule lanes choice id
  unfold Lanes.redepositNext
  split
  · exact effect_become hi hhistory hworkers (within_reschedule lanes choice id) (fun _ => rfl)
      (fun _ => False.elim)
  · split
    · exact effect_busy hi rfl rfl (.refl _) (fun _ => rfl)
        fun _ hnow => ⟨hnow, List.cons_ne_nil _ _⟩
    · exact effect_busy hi rfl rfl (.refl _) (fun _ => rfl)
        fun _ hnow => ⟨hnow.1, List.cons_ne_nil _ _⟩

theorem effect_sweepRow (choice : Choice) {now : Int}
    (hi : lanes.workers[i]? = some (.sweeping id row now)) :
    Effect lanes (lanes.sweepRow i choice id row now) action none := by
  unfold Lanes.sweepRow
  split
  · exact effect_finish hi
  · split
    · exact effect_finish hi
    · split
      · split
        · exact effect_idle hi (fun _ => rfl) (fun _ => False.elim)
        · exact effect_idle hi (fun _ => rfl) (fun _ => False.elim)
      · exact effect_finish hi

theorem effect_expire (h : Inv lanes) (choice : Choice)
    (hi : lanes.workers[i]? = some (.expiring id row)) :
    ∃ noted, Effect lanes (lanes.expire i choice id row) action noted := by
  unfold Lanes.expire
  split
  · split
    · next messages hmark =>
      obtain ⟨⟨message, hmessage, hnone⟩, -⟩ := markFailed_true hmark
      have hunrecorded := not_recorded h hmessage hnone
      refine ⟨some ⟨row.messageId, .failed, false⟩, effect_note hi (fun other => ?_)
        (fun other hnow => .inr ?_) nofun (fun _ => .inr hunrecorded)⟩
      · simp [Worker.Announces]
      · obtain rfl := hnow.1
        simpa using hunrecorded
    · exact ⟨none, effect_idle hi (fun _ => rfl) fun _ hnow => Bool.false_ne_true hnow.2⟩
  · exact ⟨none, effect_finish hi⟩

theorem effect_announce {old : Worker} {messageId : MessageId} (hi : lanes.workers[i]? = some old)
    (hbusy : old.Busy messageId) (hstatus : status ≠ .delivered) :
    Effect lanes ((lanes.note messageId status true).become i .finished) action
      (some ⟨messageId, status, true⟩) := by
  refine effect_note hi (fun other => ?_) (fun _ => False.elim) (fun hdelivered => ?_) (fun _ => ?_)
  · simp [Worker.Announces, hstatus]
  · exact absurd hdelivered hstatus
  · exact .inl (.inr ⟨old, List.mem_of_getElem? hi, hbusy⟩)

theorem effect_work (h : Inv lanes) (pick : MessageId → Nat → Nat) (choice : Choice)
    {worker : Worker} (hi : lanes.workers[i]? = some worker) :
    ∃ noted, Effect lanes (lanes.work pick i choice worker) (.work i choice) noted := by
  cases worker with
  | acked messageId => exact effect_acked h choice hi
  | announcingDelivered messageId =>
    refine ⟨some ⟨messageId, .delivered, true⟩, effect_note hi (fun other => ?_)
      (fun _ => False.elim) nofun (fun hstatus => absurd rfl hstatus)⟩
    by_cases hsame : messageId = other <;> simp [Worker.Announces, hsame]
  | fallback peer messageId payload => exact ⟨none, effect_startFallback pick choice hi⟩
  | walking peer messageId payload id onions => exact ⟨none, effect_walk h choice hi⟩
  | depositing peer messageId payload id onions =>
    refine ⟨none, ?_⟩
    show Effect lanes (if choice.depositOk then _ else _) _ none
    split
    · exact effect_busy hi rfl rfl (.refl _) (fun _ => rfl) (fun _ hnow => hnow)
    · exact effect_idle hi (fun _ => rfl) (fun _ => False.elim)
  | redeposit id row =>
    refine ⟨none, ?_⟩
    obtain ⟨hhistory, hworkers⟩ := log_reschedule lanes choice id
    show Effect lanes (if choice.readOk ∧ choice.onions ≠ [] then _ else _) _ none
    split
    · exact effect_busy hi rfl rfl (.refl _) (fun _ => rfl) (fun _ => And.left)
    · exact effect_become hi hhistory hworkers (within_reschedule lanes choice id) (fun _ => rfl)
        (fun _ => False.elim)
  | redepositing id row onions => exact ⟨none, effect_redepositNext choice hi⟩
  | deposited id messageId =>
    obtain ⟨hhistory, hworkers⟩ := log_deleteById lanes choice id
    exact ⟨none, effect_busy hi hhistory hworkers (within_deleteById lanes choice id)
      (fun _ => rfl) (fun _ hnow => hnow)⟩
  | announcingDeposited | announcingFailed => exact ⟨_, effect_announce hi rfl nofun⟩
  | sweeping id row now => exact ⟨none, effect_sweepRow choice hi⟩
  | expiring id row => exact effect_expire h choice hi
  | expired id row marked =>
    obtain ⟨hhistory, hworkers⟩ := log_deleteById lanes choice id
    refine ⟨none, effect_busy hi hhistory hworkers (within_deleteById lanes choice id) ?_ ?_⟩
    · cases marked <;> exact fun _ => rfl
    · cases marked with
      | false => exact fun _ => False.elim
      | true => exact fun _ hnow => ⟨hnow, rfl⟩
  | finished => exact ⟨none, effect_quiet rfl (fun _ => Nat.le_refl _) (fun _ => .inl)⟩

theorem effect_spawn {workers : List Worker}
    (hnew : ∀ worker ∈ workers, ∀ messageId, worker.Announces messageId = false ∧
      (worker.Busy messageId → lanes.Open messageId))
    (hhistory : mid.history = lanes.history) (hworkers : mid.workers = lanes.workers)
    (hrows : mid.outbox.Within lanes.outbox) : Effect lanes (mid.spawn workers) action none := by
  refine effect_quiet hhistory (fun messageId => ?_) fun messageId hopen => .inl ?_
  · show (mid.workers ++ workers).countP _ ≤ _
    have hnone : workers.countP (Worker.Announces messageId) = 0 :=
      List.countP_eq_zero.mpr fun worker hworker => by simp [hnew worker hworker messageId]
    rw [List.countP_append, hworkers, hnone]
    exact Nat.le_refl _
  · refine hopen.of_within hrows fun worker hworker hnow => ?_
    rcases List.mem_append.mp hworker with hold | hspawned
    · exact .inl (hworkers ▸ hold)
    · exact .inr ((hnew worker hspawned messageId).2 hnow)

theorem effect_batch {rows : List (Nat × OutboxRow)} {task : Nat × OutboxRow → Worker}
    (hnew : ∀ row ∈ rows, ∀ messageId, (task row).Announces messageId = false ∧
      ((task row).Busy messageId → lanes.Open messageId)) :
    Effect lanes (lanes.spawn (rows.map task)) action none := by
  refine effect_spawn (fun worker hworker => ?_) rfl rfl (.refl _)
  obtain ⟨row, hrow, rfl⟩ := List.mem_map.mp hworker
  exact hnew row hrow

theorem effect_within (hhistory : after.history = lanes.history)
    (hworkers : after.workers.Sublist lanes.workers) (hrows : after.outbox.Within lanes.outbox) :
    Effect lanes after action none :=
  effect_quiet hhistory (fun _ => hworkers.countP_le) fun _ hopen =>
    .inl (hopen.of_within hrows fun _ hworker _ => .inl (hworkers.mem hworker))

theorem effect_send (h : Inv lanes) {messageId : MessageId}
    (hfresh : Fresh lanes (.send peer messageId payload)) :
    Effect lanes (lanes.send peer messageId payload) action none := by
  by_cases hmessage : lanes.messages.get messageId = none
  · have hsending := sending_send h hfresh hmessage
    obtain ⟨hworkers, hhistory, -⟩ := hsending.log
    refine effect_quiet hhistory (fun other => ?_) fun other hopen => ?_
    · unfold announcing
      rw [hworkers]
    · rcases hopen with ⟨id, row, hrow, hid⟩ | ⟨worker, hworker, hbusy⟩
      · rw [hsending.row] at hrow
        split at hrow
        · -- a message that is only now sent has no status
          cases hrow
          refine .inr fun hentry => ?_
          obtain ⟨key, sent, hsent, hsame⟩ := (h.truthful _ hentry).wasSent
          exact hfresh key sent hsent (hsame.trans hid.symm)
        · exact .inl (.inl ⟨id, row, hrow, hid⟩)
      · exact .inl (.inr ⟨worker, hworkers ▸ hworker, hbusy⟩)
  · rw [Lanes.send, if_neg hmessage]
    exact effect_within rfl (.refl _) (.refl _)

theorem effect_ack (peer : PublicKey) (messageId : MessageId) (writeOk : Bool) :
    Effect lanes (lanes.ack peer messageId writeOk) action none := by
  unfold Lanes.ack
  dsimp only
  split
  · split
    · refine effect_spawn (fun worker hworker other => ?_) rfl rfl (Outbox.within_deleteWhere _ _)
      cases List.mem_singleton.mp hworker
      exact ⟨rfl, False.elim⟩
    · exact effect_within rfl (.refl _) (Outbox.within_deleteWhere _ _)
  · exact effect_within rfl (.refl _) (.refl _)

theorem effect_step (pick : MessageId → Nat → Nat) (h : Inv lanes) (hfresh : Fresh lanes action) :
    ∃ noted, Effect lanes (lanes.step pick action) action noted := by
  cases action with
  | send peer messageId payload => exact ⟨none, effect_send h hfresh⟩
  | ack peer messageId writeOk => exact ⟨none, effect_ack peer messageId writeOk⟩
  | directFallback | outboxSweep =>
    exact ⟨none, effect_batch fun row _ _ => ⟨rfl, False.elim⟩⟩
  | mailboxSweep now batch =>
    refine ⟨none, effect_batch fun row hrow messageId => ⟨rfl, fun hbusy => .inl ?_⟩⟩
    exact ⟨row.1, row.2, Outbox.of_mem_dueMailbox hrow, hbusy⟩
  | retried id nextRetryAt =>
    exact ⟨none, effect_within rfl (.refl _) (Outbox.within_reschedule _ _ _)⟩
  | dismiss messageId now => exact ⟨none, effect_within rfl (.refl _) (.refl _)⟩
  | removeContact peer =>
    exact ⟨none, effect_within rfl (.refl _) (Outbox.within_deleteWhere _ _)⟩
  | restart => exact ⟨none, effect_within rfl (List.nil_sublist _) (.refl _)⟩
  | work i choice =>
    rcases step_work_cases pick lanes i choice with ⟨worker, hi, hstep⟩ | hstep
    · rw [hstep]
      exact effect_work h pick choice hi
    · rw [hstep]
      exact ⟨none, effect_within rfl (.refl _) (.refl _)⟩

/-! ### What holds along a run -/

/-- A delivery is recorded once, and every announcement, made or due, has its record. -/
def Once (lanes : Lanes) : Prop :=
  ∀ messageId, lanes.history.count ⟨messageId, .delivered, true⟩ + lanes.announcing messageId ≤
      lanes.history.count ⟨messageId, .delivered, false⟩ ∧
    lanes.history.count ⟨messageId, .delivered, false⟩ ≤ 1

def Settled (lanes : Lanes) : Prop :=
  ∀ messageId, ⟨messageId, .delivered, false⟩ ∈ lanes.history → ¬lanes.Open messageId

variable {noted : Option Entry} {actions : List Action}

theorem Once.step (h : Once lanes) (heffect : Effect lanes after action noted) : Once after := by
  intro messageId
  obtain ⟨hannounced, hrecorded⟩ := h messageId
  have hdue := heffect.announcing messageId
  rw [heffect.history, List.count_append, List.count_append]
  refine ⟨by omega, ?_⟩
  by_cases hnew : noted = some ⟨messageId, .delivered, false⟩
  · obtain ⟨-, hnot, -⟩ := heffect.delivered messageId hnew
    rw [List.count_eq_zero_of_not_mem hnot, hnew]
    simp
  · have hnone : noted.toList.count ⟨messageId, .delivered, false⟩ = 0 := by
      refine List.count_eq_zero_of_not_mem fun hmem => hnew ?_
      exact Option.mem_toList.mp hmem
    omega

theorem Once.recorded (h : Once lanes) {entry : Entry} (hentry : entry ∈ lanes.history)
    (hdelivered : entry.status = .delivered) :
    ⟨entry.messageId, .delivered, false⟩ ∈ lanes.history := by
  obtain ⟨messageId, status, announced⟩ := entry
  cases hdelivered
  cases announced with
  | false => exact hentry
  | true =>
    have hone := List.count_pos_iff.mpr hentry
    have hbound := (h messageId).1
    have hrecorded : 0 < lanes.history.count ⟨messageId, .delivered, false⟩ := by omega
    exact List.count_pos_iff.mp hrecorded

theorem Settled.step (h : Settled lanes) (heffect : Effect lanes after action noted)
    (hundisturbed : Undisturbed lanes action) : Settled after := by
  intro messageId hentry hopen
  rcases heffect.opened messageId hopen with hbefore | hnot
  · rw [heffect.history, List.mem_append, Option.mem_toList] at hentry
    rcases hentry with hold | hnew
    · exact h messageId hold hbefore
    · obtain ⟨hrecords, -, hrows⟩ := heffect.delivered messageId hnew
      rcases hbefore with ⟨id, row, hrow, hid⟩ | ⟨worker, hworker, hbusy⟩
      · exact hrows id row hrow hid
      · exact hundisturbed messageId hrecords worker hworker hbusy
  · exact hnot hentry

theorem final_step (hfinal : lanes.history.Pairwise Entry.Before) (honce : Once lanes)
    (hsettled : Settled lanes) (heffect : Effect lanes after action noted) :
    after.history.Pairwise Entry.Before := by
  rw [heffect.history, List.pairwise_append]
  refine ⟨hfinal, ?_, fun entry hentry later hlater hdelivered hsame => ?_⟩
  · cases noted with
    | none => exact List.Pairwise.nil
    | some entry => exact List.pairwise_singleton _ _
  · by_contra hother
    have hrecorded := honce.recorded hentry hdelivered
    rw [← hsame] at hrecorded
    rcases heffect.other later (Option.mem_toList.mp hlater) hother with hopen | hnot
    · exact hsettled _ hrecorded hopen
    · exact hnot hrecorded

theorem once_init : Once init := fun _ => ⟨Nat.le_refl _, Nat.zero_le _⟩

theorem once_run (pick : MessageId → Nat → Nat) (hfresh : Meets (step pick) Fresh init actions) :
    Once (init.run pick actions) := by
  have halong : Along (step pick) (fun lanes => Inv lanes ∧ Once lanes) init actions := by
    refine along_of_meets (fun lanes action h hfresh => ?_) ⟨inv_init, once_init⟩ hfresh
    obtain ⟨noted, heffect⟩ := effect_step pick h.1 hfresh
    exact ⟨inv_step pick h.1 hfresh, h.2.step heffect⟩
  exact halong.last.2

theorem final_run (pick : MessageId → Nat → Nat) (hfresh : Meets (step pick) Fresh init actions)
    (hundisturbed : Meets (step pick) Undisturbed init actions) :
    (init.run pick actions).history.Pairwise Entry.Before := by
  have halong : Along (step pick) (fun lanes => Inv lanes ∧ Once lanes ∧ Settled lanes ∧
      lanes.history.Pairwise Entry.Before) init actions := by
    refine along_of_meets (fun lanes action h hguard => ?_)
      ⟨inv_init, once_init, nofun, List.Pairwise.nil⟩ (hfresh.and hundisturbed)
    obtain ⟨hinv, honce, hsettled, hfinal⟩ := h
    obtain ⟨noted, heffect⟩ := effect_step pick hinv hguard.1
    exact ⟨inv_step pick hinv hguard.1, honce.step heffect, hsettled.step heffect hguard.2,
      final_step hfinal honce hsettled heffect⟩
  exact halong.last.2.2.2

/-! ### A busy worker can always announce -/

/-- The run can go on to the announcement of a deposit or a failure of the message. -/
def CanAnnounce (pick : MessageId → Nat → Nat) (lanes : Lanes) (messageId : MessageId) : Prop :=
  ∃ later status, (lanes.run pick later).history = lanes.history ++ [⟨messageId, status, true⟩] ∧
    status ≠ .delivered

def Choice.lucky : Choice := ⟨true, true, true, ["mailbox"], none, 0, 0, 0⟩

variable {pick : MessageId → Nat → Nat} {messageId : MessageId} {old worker : Worker}

theorem canAnnounce_now (hi : lanes.workers[i]? = some worker)
    (hwork : lanes.work pick i .lucky worker = (lanes.note messageId status true).become i
      .finished)
    (hstatus : status ≠ .delivered) : CanAnnounce pick lanes messageId := by
  refine ⟨[.work i .lucky], status, ?_, hstatus⟩
  show (lanes.step pick (.work i .lucky)).history = _
  rw [step_work hi, hwork]
  rfl

theorem canAnnounce_become (hi : lanes.workers[i]? = some old)
    (hwork : lanes.work pick i .lucky old = mid.become i worker)
    (hhistory : mid.history = lanes.history) (hworkers : mid.workers = lanes.workers)
    (hnext : (mid.become i worker).workers[i]? = some worker →
      CanAnnounce pick (mid.become i worker) messageId) : CanAnnounce pick lanes messageId := by
  have hlt := (List.getElem?_eq_some_iff.mp hi).1
  have hthere : (mid.become i worker).workers[i]? = some worker := by
    show (mid.workers.set i worker)[i]? = some worker
    rw [hworkers, List.getElem?_set_self hlt]
  obtain ⟨later, status, hlater, hstatus⟩ := hnext hthere
  refine ⟨.work i .lucky :: later, status, ?_, hstatus⟩
  show ((lanes.step pick (.work i .lucky)).run pick later).history = _
  rw [step_work hi, hwork, hlater, ← hhistory]
  rfl

theorem canAnnounce_deposited (hi : lanes.workers[i]? = some (.deposited id messageId)) :
    CanAnnounce pick lanes messageId := by
  obtain ⟨hhistory, hworkers⟩ := log_deleteById lanes .lucky id
  exact canAnnounce_become hi rfl hhistory hworkers fun hi => canAnnounce_now hi rfl nofun

theorem canAnnounce_accept (hi : lanes.workers[i]? = some old)
    (hwork : lanes.work pick i .lucky old = lanes.accept i peer messageId payload id) :
    CanAnnounce pick lanes messageId := by
  unfold Lanes.accept at hwork
  exact canAnnounce_become hi hwork rfl rfl canAnnounce_deposited

theorem canAnnounce_redepositing (hi : lanes.workers[i]? = some (.redepositing id row onions))
    (honions : onions ≠ []) : CanAnnounce pick lanes row.messageId := by
  obtain ⟨onion, onions, rfl⟩ := List.exists_cons_of_ne_nil honions
  exact canAnnounce_accept hi rfl

theorem canAnnounce_of_busy (hi : lanes.workers[i]? = some worker)
    (hbusy : worker.Busy messageId) : CanAnnounce pick lanes messageId := by
  cases worker with
  | depositing peer id payload key onions =>
    cases hbusy
    exact canAnnounce_accept hi rfl
  | deposited id key =>
    cases hbusy
    exact canAnnounce_deposited hi
  | announcingDeposited | announcingFailed =>
    cases hbusy
    exact canAnnounce_now hi rfl nofun
  | redeposit id row =>
    cases hbusy
    exact canAnnounce_become hi rfl rfl rfl fun hi =>
      canAnnounce_redepositing hi (List.cons_ne_nil _ _)
  | redepositing id row onions =>
    obtain ⟨rfl, honions⟩ := hbusy
    exact canAnnounce_redepositing hi honions
  | expired id row marked =>
    obtain ⟨rfl, rfl⟩ := hbusy
    obtain ⟨hhistory, hworkers⟩ := log_deleteById lanes .lucky id
    exact canAnnounce_become hi rfl hhistory hworkers fun hi => canAnnounce_now hi rfl nofun
  | acked | announcingDelivered | fallback | walking | sweeping | expiring | finished =>
    exact hbusy.elim

theorem disturbed_breaks (hdisturbed : ¬Undisturbed lanes action) :
    ∃ later, ¬((lanes.step pick action).run pick later).history.Pairwise Entry.Before := by
  obtain ⟨messageId, hrecords, worker, hworker, hbusy⟩ : ∃ messageId,
      lanes.Records messageId action ∧ ∃ worker ∈ lanes.workers, worker.Busy messageId := by
    by_contra hnone
    exact hdisturbed fun messageId hrecords worker hworker hbusy =>
      hnone ⟨messageId, hrecords, worker, hworker, hbusy⟩
  cases action with
  | work i choice =>
    obtain ⟨hi, hwrite, hmark⟩ := hrecords
    obtain ⟨j, hj⟩ := List.getElem?_of_mem hworker
    have hne : i ≠ j := by
      rintro rfl
      rw [hi] at hj
      cases hj
      exact hbusy
    have hstep : lanes.step pick (.work i choice) = Lanes.become (Lanes.note { lanes with
        messages := (markDelivered lanes.messages messageId choice.now).2 } messageId .delivered
        false) i (.announcingDelivered messageId) := by
      rw [step_work hi]
      show lanes.messageDelivered i choice messageId = _
      unfold Lanes.messageDelivered
      split
      · next messages hmarked => rw [if_pos hwrite, hmarked]
      · next messages hmarked =>
        rw [hmarked] at hmark
        cases hmark
    have hthere : (lanes.step pick (.work i choice)).workers[j]? = some worker := by
      rw [hstep]
      show (lanes.workers.set i _)[j]? = some worker
      rw [List.getElem?_set_ne hne, hj]
    have hcan : CanAnnounce pick (lanes.step pick (.work i choice)) messageId :=
      canAnnounce_of_busy hthere hbusy
    obtain ⟨later, status, hlater, hstatus⟩ := hcan
    refine ⟨later, fun hfinal => hstatus ?_⟩
    rw [hlater, List.pairwise_append] at hfinal
    refine hfinal.2.2 ⟨messageId, .delivered, false⟩ ?_ _ List.mem_cons_self rfl rfl
    rw [hstep]
    exact note_self ..
  | send | ack | directFallback | mailboxSweep | outboxSweep | retried | dismiss | removeContact
  | restart => exact hrecords.elim

/-! ### The status of a message -/

/-- In every run, a message is recorded or announced as delivered only if an Ack for it came from
its peer while its row was in the outbox, and it is announced as delivered at most once. No later
status follows a delivery if no delivery is recorded while a deposit or a failure of the message is
under way; and each time one is, a later status can follow. -/
theorem delivery_status_truthful (pick : MessageId → Nat → Nat) (actions : List Action)
    (hfresh : Meets (step pick) Fresh init actions) :
    (∀ entry ∈ (init.run pick actions).history, entry.status = .delivered →
      Receipt (init.run pick actions) entry.messageId) ∧
    (∀ messageId, (init.run pick actions).history.count ⟨messageId, .delivered, true⟩ ≤ 1) ∧
    (Meets (step pick) Undisturbed init actions →
      (init.run pick actions).history.Pairwise Entry.Before) ∧
    ∀ action, ¬Undisturbed (init.run pick actions) action →
      ∃ later, ¬(((init.run pick actions).step pick action).run pick later).history.Pairwise
        Entry.Before := by
  have h := inv_run pick hfresh
  refine ⟨fun entry hentry hdelivered => ?_, fun messageId => ?_, final_run pick hfresh,
    fun action => disturbed_breaks⟩
  · have htrue := h.truthful entry hentry
    unfold Entry.Truthful at htrue
    rw [hdelivered] at htrue
    exact htrue.1
  · obtain ⟨hannounced, hrecorded⟩ := once_run pick hfresh messageId
    omega

/-- A message is acknowledged while another one, which has expired, is deposited. -/
def ackAmidDeposit : List Action :=
  [.send (.fill 32 1) (.fill 16 2) [3], .outboxSweep DIRECT_EXPIRY_MS 1,
    .work 0 { Choice.lucky with envelopeTs := some 0 }, .work 0 .lucky, .work 0 .lucky,
    .send (.fill 32 1) (.fill 16 4) [5], .ack (.fill 32 1) (.fill 16 4) true, .work 1 .lucky,
    .work 0 .lucky, .work 1 .lucky, .work 0 .lucky, .work 0 .lucky]

/-- Nothing follows the delivery of the one, and the deposit of the other is announced. -/
theorem ack_amid_deposit_final :
    Meets (step fun _ _ => 0) Fresh init ackAmidDeposit ∧
      Meets (step fun _ _ => 0) Undisturbed init ackAmidDeposit ∧
      (init.run (fun _ _ => 0) ackAmidDeposit).history.Pairwise Entry.Before ∧
      (init.run (fun _ _ => 0) ackAmidDeposit).history =
        [⟨.fill 16 4, .delivered, false⟩, ⟨.fill 16 4, .delivered, true⟩,
          ⟨.fill 16 2, .deposited, true⟩] := by
  have hfresh : Meets (step fun _ _ => 0) Fresh init ackAmidDeposit := by
    refine ⟨nofun, trivial, trivial, trivial, trivial, fun id sent hsent => ?_, trivial, trivial,
      trivial, trivial, trivial, trivial, trivial⟩
    have hrow : sent = ⟨.fill 32 1, .fill 16 2, [3]⟩ :=
      congrArg Prod.snd (List.mem_singleton.mp (Table.get_eq_some_iff.mp hsent))
    rw [hrow]
    decide
  have hundisturbed : Meets (step fun _ _ => 0) Undisturbed init ackAmidDeposit := by
    refine ⟨fun _ => False.elim, fun _ => False.elim, fun _ h => (nomatch h.1),
      fun _ h => (nomatch h.1), fun _ h => (nomatch h.1), fun _ => False.elim, fun _ => False.elim,
      fun messageId h worker hworker => ?_, fun _ h => (nomatch h.1), fun _ h => (nomatch h.1),
      fun _ h => (nomatch h.1), fun _ h => (nomatch h.1), trivial⟩
    -- the other worker is about the other message
    cases h.1
    change worker ∈ [.depositing (.fill 32 1) (.fill 16 2) [3] 0 [], .acked (.fill 16 4)] at hworker
    rcases List.mem_pair.mp hworker with rfl | rfl
    · exact show ByteArr.fill 16 2 ≠ .fill 16 4 by decide
    · exact id
  exact ⟨hfresh, hundisturbed,
    (delivery_status_truthful (fun _ _ => 0) ackAmidDeposit hfresh).2.2.1 hundisturbed, by decide⟩

/-- An expired row is handed to the fallback; its Ack comes while the deposit is on its way. -/
def lateDeposit : List Action :=
  [.send (.fill 32 1) (.fill 16 2) [3], .outboxSweep DIRECT_EXPIRY_MS 1,
    .work 0 { Choice.lucky with envelopeTs := some 0 }, .work 0 .lucky, .work 0 .lucky,
    .ack (.fill 32 1) (.fill 16 2) true, .work 1 .lucky, .work 1 .lucky,
    .work 0 .lucky, .work 0 .lucky, .work 0 .lucky]

theorem fresh_lateDeposit : Meets (step fun _ _ => 0) Fresh init lateDeposit :=
  ⟨nofun, trivial, trivial, trivial, trivial, trivial, trivial, trivial, trivial, trivial, trivial,
    trivial⟩

/-- The deposit is announced after the delivery. -/
theorem deposit_announced_after_delivery :
    Meets (step fun _ _ => 0) Fresh init lateDeposit ∧
      (init.run (fun _ _ => 0) lateDeposit).history =
        [⟨.fill 16 2, .delivered, false⟩, ⟨.fill 16 2, .delivered, true⟩,
          ⟨.fill 16 2, .deposited, true⟩] ∧
      ¬(init.run (fun _ _ => 0) lateDeposit).history.Pairwise Entry.Before := by
  have hhistory : (init.run (fun _ _ => 0) lateDeposit).history =
      [⟨.fill 16 2, .delivered, false⟩, ⟨.fill 16 2, .delivered, true⟩,
        ⟨.fill 16 2, .deposited, true⟩] := by decide
  refine ⟨fresh_lateDeposit, hhistory, ?_⟩
  rw [hhistory]
  intro hfinal
  have hlast := List.rel_of_pairwise_cons hfinal (List.mem_cons_of_mem _ List.mem_cons_self)
  cases hlast rfl rfl

end Lanes

end Skattr.Core.Delivery
