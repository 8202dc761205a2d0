import Skattr.Core.Delivery.Backoff
import Skattr.Core.Delivery.Peer
import Skattr.Lib.Run

/-!
# The order of the direct lane

The rows of a peer are queued in the order in which they were encrypted, and the peer keeps the
keys of a few generations only that it has gone past. A retry tick transmits the due rows in the
order of their retry times, and each transmission draws a new one.

`transmission_order` says that the lane keeps to the order of encryption, and that the peer can
decrypt each row that reaches it, in every run in which no row of a tick's batch has an older row
behind it that is not in flight. `retransmission_reversed` shows seven rows that are sent again in
the opposite order, of which the peer cannot decrypt two.
-/

namespace Skattr.Core.Delivery

open Lib

/-! ### The receiver -/

/-- The keys that a receiver can take for the messages of a sender: those of the chain from a
generation on, and the ones it has kept from before. -/
structure Ratchet where
  next : Nat
  kept : List Nat
  deriving DecidableEq

/-- Take the key of a generation. The keys of the generations that are passed over are kept as long
as they are not more than `tolerance` behind. -/
def Ratchet.decrypt (tolerance : Nat) (ratchet : Ratchet) (generation : Nat) : Option Ratchet :=
  if ratchet.next ≤ generation then
    let passed := List.range' ratchet.next (generation - ratchet.next)
    some ⟨generation + 1,
      (ratchet.kept ++ passed).filter fun kept => generation + 1 ≤ kept + tolerance⟩
  else if generation ∈ ratchet.kept then
    some { ratchet with kept := ratchet.kept.erase generation }
  else none

/-- The generations under which the rows were encrypted. A row is inserted in the transaction that
saves the ratchet, under the lock of its group, so ids and generations grow together. -/
structure Numbering where
  generation : Nat → Nat
  strictMono : StrictMono generation

/-! ### The lane -/

def OutboxRow.DirectTo (row : OutboxRow) (peer : PublicKey) : Prop :=
  row.target = peer ∧ row.lane = .direct

instance (row : OutboxRow) (peer : PublicKey) : Decidable (row.DirectTo peer) :=
  inferInstanceAs (Decidable (row.target = peer ∧ row.lane = .direct))

/-- The direct lane of a peer from the queue to the receiver: the rows that are on their way, in
order, those that have reached the peer, and those of them that it could not decrypt when they came
first. `ticks` has the rows that each retry tick has transmitted. -/
structure Channel where
  actor : Actor
  outbox : Outbox
  wire : List Nat
  received : List Nat
  ratchet : Ratchet
  undecrypted : List Nat
  ticks : List (List Nat)

/-- An event of the lane. Those of the actor bring what the link takes at that time. -/
inductive ChannelEvent where
  | queue (messageId : MessageId) (payload : Bytes) (now : Int)
  | retryTick (env : TickEnv) (link : Connection) (directTimeout : Nat) (fallbackEnabled : Bool)
  | ack (messageId : MessageId) (ackOk : Bool)
  | relink (conn : Option Connection) (arriving : Nat)
  | arrive

namespace Channel

def onLink (link : Connection) (channel : Channel) : Actor :=
  { channel.actor with conn := channel.actor.conn.map fun _ => link }

/-- The frame at the head of the stream reaches the peer. A generation is decrypted once; a row
that comes again is no news. -/
def arrive (tolerance : Nat) (numbering : Numbering) (channel : Channel) : Channel :=
  match channel.wire with
  | [] => channel
  | id :: wire =>
    let channel' := { channel with wire, received := channel.received ++ [id] }
    if id ∈ channel.received then channel'
    else
      match channel.ratchet.decrypt tolerance (numbering.generation id) with
      | some ratchet => { channel' with ratchet }
      | none => { channel' with undecrypted := channel.undecrypted ++ [id] }

/-- One event. A connection that is lost or replaced takes with it what has not arrived. -/
def step (tolerance : Nat) (numbering : Numbering) (peer : PublicKey) (channel : Channel) :
    ChannelEvent → Channel
  | .queue messageId payload now =>
    { channel with outbox := channel.outbox.insert peer messageId payload now }
  | .retryTick env link directTimeout fallbackEnabled =>
    let tick :=
      (retryTick env peer directTimeout fallbackEnabled (channel.onLink link) channel.outbox).2
    let transmitted := tick.transmitted.map Prod.fst
    { channel with
      actor := tick.actor
      outbox := tick.outbox
      wire := channel.wire ++ transmitted
      ticks := channel.ticks ++ [transmitted] }
  | .ack messageId ackOk =>
    if channel.actor.conn.isNone then channel
    else
      { channel with
        actor := { channel.actor with pending := channel.actor.pending.delete messageId }
        outbox :=
          if ackOk then (channel.outbox.ackByMessageId peer messageId).2 else channel.outbox }
  | .relink conn arriving =>
    { channel with
      actor := { channel.actor with conn, pending := .empty }
      wire := channel.wire.take arriving }
  | .arrive => channel.arrive tolerance numbering

end Channel

/-! ### What follows the order of encryption -/

/-- No row of the batch that is not in flight has an older row behind it: one of the peer's direct
rows that was encrypted before, is not in flight and is to be retried later. -/
def FirstInFirstOut (env : TickEnv) (peer : PublicKey) (actor : Actor) (outbox : Outbox) : Prop :=
  ∀ row ∈ batch env peer outbox,
    (actor.evictStale env.instant).pending.get row.2.messageId = none →
      ∀ older ∈ outbox.rows.rows, older.2.DirectTo peer → older.1 < row.1 →
        (actor.evictStale env.instant).pending.get older.2.messageId = none →
          older.2.nextRetryAt ≤ row.2.nextRetryAt

instance (env : TickEnv) (peer : PublicKey) (actor : Actor) (outbox : Outbox) :
    Decidable (FirstInFirstOut env peer actor outbox) :=
  inferInstanceAs (Decidable (∀ row ∈ batch env peer outbox, _))

/-- What a tick has transmitted is in the order of encryption, and none of it has gone ahead of an
older row that is not in flight. -/
structure Follows (env : TickEnv) (peer : PublicKey) (actor : Actor) (outbox : Outbox)
    (transmitted : List (Nat × OutboxRow)) : Prop where
  ordered : (transmitted.map Prod.fst).Pairwise (· < ·)
  complete : ∀ row ∈ transmitted, ∀ older ∈ outbox.rows.rows, older.2.DirectTo peer →
    older.1 < row.1 → (actor.evictStale env.instant).pending.get older.2.messageId = none →
      older ∈ transmitted

/-! ### What a tick transmits -/

/-- Rows leave the queue, or stay with a new retry time. -/
structure Outbox.Shrinks (outbox next : Outbox) : Prop where
  nextId : next.nextId = outbox.nextId
  keys : next.rows.keys.Sublist outbox.rows.keys
  row : ∀ {id row}, (id, row) ∈ next.rows.rows → ∃ old, (id, old) ∈ outbox.rows.rows ∧
    row.target = old.target ∧ row.lane = old.lane ∧ row.messageId = old.messageId

theorem Outbox.Shrinks.refl (outbox : Outbox) : outbox.Shrinks outbox :=
  ⟨rfl, .refl _, fun {_ row} h => ⟨row, h, rfl, rfl, rfl⟩⟩

variable {outbox next : Outbox}

theorem Outbox.Shrinks.trans {last : Outbox} (h : outbox.Shrinks next) (hlast : next.Shrinks last) :
    outbox.Shrinks last := by
  refine ⟨hlast.nextId.trans h.nextId, hlast.keys.trans h.keys, fun hrow => ?_⟩
  obtain ⟨mid, hmid, htarget, hlane, hmessage⟩ := hlast.row hrow
  obtain ⟨old, hold, htarget', hlane', hmessage'⟩ := h.row hmid
  exact ⟨old, hold, htarget.trans htarget', hlane.trans hlane', hmessage.trans hmessage'⟩

theorem Outbox.reschedule_shrinks (outbox : Outbox) (id : Nat) (nextRetryAt : Int) :
    outbox.Shrinks (outbox.reschedule id nextRetryAt) := by
  refine ⟨rfl, ?_, fun {key row} hrow => ?_⟩
  · show (outbox.rows.modify id _).keys.Sublist outbox.rows.keys
    rw [Table.keys_modify]
  · rw [← Table.get_eq_some_iff, Outbox.get_reschedule] at hrow
    split at hrow
    · obtain ⟨old, hold, rfl⟩ := Option.map_eq_some_iff.mp hrow
      exact ⟨old, Table.get_eq_some_iff.mp hold, rfl, rfl, rfl⟩
    · exact ⟨row, Table.get_eq_some_iff.mp hrow, rfl, rfl, rfl⟩

theorem Outbox.deleteWhere_shrinks (outbox : Outbox) (p : Nat → OutboxRow → Bool) :
    outbox.Shrinks (outbox.deleteWhere p) := by
  refine ⟨rfl, List.filter_sublist.map Prod.fst, fun {key row} hrow => ?_⟩
  exact ⟨row, (Table.mem_deleteWhere.mp hrow).1, rfl, rfl, rfl⟩

theorem Outbox.Shrinks.ascending (h : outbox.Shrinks next)
    (hascending : Outbox.Ascending outbox.rows.rows) : Outbox.Ascending next.rows.rows :=
  List.pairwise_map.mp ((List.pairwise_map.mpr hascending).sublist h.keys)

/-- The loop has transmitted these rows. Every other send in flight was in flight before. -/
structure Sends (tick after : Tick) (sent : List (Nat × OutboxRow)) : Prop where
  transmitted : after.transmitted = tick.transmitted ++ sent
  pending : ∀ messageId, after.actor.pending.get messageId ≠ none →
    tick.actor.pending.get messageId ≠ none ∨ ∃ row ∈ sent, row.2.messageId = messageId
  outbox : tick.outbox.Shrinks after.outbox

def Actor.free (actor : Actor) (rows : List (Nat × OutboxRow)) : List (Nat × OutboxRow) :=
  rows.filter fun row => (actor.pending.get row.2.messageId).isNone

variable {row : Nat × OutboxRow} {peer : PublicKey} {env : TickEnv}

theorem Actor.mem_free {actor : Actor} {rows : List (Nat × OutboxRow)} :
    row ∈ actor.free rows ↔ row ∈ rows ∧ actor.pending.get row.2.messageId = none := by
  rw [Actor.free, List.mem_filter, Option.isNone_iff_eq_none]

theorem Tick.transmit_shrinks (tick : Tick) (env : TickEnv) (id : Nat) (row : OutboxRow) :
    tick.outbox.Shrinks (tick.transmit env id row).outbox := by
  unfold Tick.transmit
  dsimp only
  split
  · exact tick.outbox.reschedule_shrinks id _
  · exact .refl _

theorem retryRows_sends (env : TickEnv) (due : List (Nat × OutboxRow))
    (hdue : (due.map fun row => row.2.messageId).Nodup) (tick : Tick) :
    ∃ sent, sent <+: tick.actor.free due ∧ Sends tick (retryRows env due tick) sent := by
  induction due generalizing tick with
  | nil => exact ⟨[], List.nil_prefix, (List.append_nil _).symm, fun _ h => .inl h, .refl _⟩
  | cons head due ih =>
    obtain ⟨id, row⟩ := head
    rw [List.map_cons, List.nodup_cons] at hdue
    obtain ⟨hhead, hdue⟩ := hdue
    unfold retryRows
    split
    · next hflight =>
      obtain ⟨sent, hsent, hsends⟩ := ih hdue tick
      refine ⟨sent, ?_, hsends⟩
      have hnone : (tick.actor.pending.get row.messageId).isNone = false := by
        rw [← Option.not_isSome, hflight, Bool.not_true]
      rw [Actor.free, List.filter_cons_of_neg (by simp only [hnone, Bool.false_eq_true,
        not_false_eq_true])]
      exact hsent
    · next hflight =>
      have hfree : tick.actor.pending.get row.messageId = none := by simpa using hflight
      split
      · exact ⟨[], List.nil_prefix, (List.append_nil _).symm, fun _ h => .inl h, .refl _⟩
      · split
        · exact ⟨[], List.nil_prefix, (List.append_nil _).symm, fun _ h => absurd rfl h,
            .refl _⟩
        · -- the other rows are about other messages, so they stay as free as they were
          have hsame : (tick.transmit env id row).actor.free due = tick.actor.free due := by
            refine List.filter_congr fun other hother => ?_
            rw [show (tick.transmit env id row).actor.pending.get other.2.messageId =
                tick.actor.pending.get other.2.messageId from
              Actor.sent_get _ _ fun heq => hhead (heq ▸ List.mem_map_of_mem hother)]
          obtain ⟨sent, hsent, hsends⟩ := ih hdue (tick.transmit env id row)
          refine ⟨(id, row) :: sent, ?_, ?_, fun messageId hpending => ?_,
            (tick.transmit_shrinks env id row).trans hsends.outbox⟩
          · rw [Actor.free, List.filter_cons_of_pos (by rw [hfree]; rfl)]
            rw [hsame] at hsent
            exact List.prefix_cons_inj _ |>.mpr hsent
          · rw [hsends.transmitted]
            exact List.append_assoc ..
          · rcases hsends.pending messageId hpending with hbefore | ⟨other, hother, hsame⟩
            · by_cases heq : messageId = row.messageId
              · exact .inr ⟨(id, row), List.mem_cons_self, heq.symm⟩
              · rw [show (tick.transmit env id row).actor.pending.get messageId =
                  tick.actor.pending.get messageId from Actor.sent_get _ _ heq] at hbefore
                exact .inl hbefore
            · exact .inr ⟨other, List.mem_cons_of_mem _ hother, hsame⟩

theorem Actor.pending_dialForDue (actor : Actor) (env : TickEnv) (due : List (Nat × OutboxRow)) :
    (actor.dialForDue env due).pending = actor.pending := by
  unfold Actor.dialForDue
  dsimp only
  split
  · cases hconn : actor.conn with
    | some conn => simp only [Actor.ensureConn, hconn, if_true]
    | none => cases hdial : env.dial <;> simp [Actor.ensureConn, hconn]
  · rfl

theorem retryTick_sends (env : TickEnv) (peer : PublicKey) (directTimeout : Nat)
    (fallbackEnabled : Bool) (actor : Actor) (outbox : Outbox) :
    ∃ sent, sent <+: (actor.evictStale env.instant).free (batch env peer outbox) ∧
      Sends ⟨actor.evictStale env.instant, outbox, []⟩
        (retryTick env peer directTimeout fallbackEnabled actor outbox).2 sent := by
  obtain ⟨sent, hsent, hsends⟩ := retryRows_sends env (batch env peer outbox)
    (nodup_batch env peer outbox)
    ⟨(actor.evictStale env.instant).dialForDue env (batch env peer outbox), outbox, []⟩
  have hpending := (actor.evictStale env.instant).pending_dialForDue env (batch env peer outbox)
  obtain ⟨-, hafter, htransmitted⟩ := Tick.fallback_spec env (retryRows env
    (batch env peer outbox)
    ⟨(actor.evictStale env.instant).dialForDue env (batch env peer outbox), outbox, []⟩) peer
    directTimeout fallbackEnabled
  have houtbox (tick : Tick) :
      (tick.fallback env peer directTimeout fallbackEnabled).2.outbox = tick.outbox := by
    unfold Tick.fallback
    dsimp only
    split <;> rfl
  refine ⟨sent, ?_, ?_, fun messageId h => ?_, ?_⟩
  · unfold Actor.free at hsent ⊢
    rw [hpending] at hsent
    exact hsent
  · exact htransmitted.trans hsends.transmitted
  · have hbefore := hsends.pending messageId (by rw [← hafter]; exact h)
    rw [hpending] at hbefore
    exact hbefore
  · show outbox.Shrinks (Tick.fallback _ env peer directTimeout fallbackEnabled).2.outbox
    rw [houtbox]
    exact hsends.outbox

/-! ### When a tick follows the order of encryption -/

theorem pairwise_batch (env : TickEnv) (peer : PublicKey) (h : Outbox.Ascending outbox.rows.rows) :
    (batch env peer outbox).Pairwise Outbox.Precedes := by
  unfold batch
  split
  · exact (Outbox.pairwise_orderByNextRetryAt (h.sublist List.filter_sublist)).sublist
      (List.take_sublist _ _)
  · exact .nil

theorem of_mem_batch (h : row ∈ batch env peer outbox) :
    row ∈ outbox.rows.rows ∧ row.2.DirectTo peer := by
  unfold batch at h
  split at h
  · obtain ⟨hget, hdirect⟩ := Outbox.of_mem_dueDirectFor h
    exact ⟨Table.get_eq_some_iff.mp hget, hdirect⟩
  · cases h

theorem mem_batch_of_precedes (h : Outbox.Ascending outbox.rows.rows) {older : Nat × OutboxRow}
    (hrow : row ∈ batch env peer outbox) (holder : older ∈ outbox.rows.rows)
    (hdirect : older.2.DirectTo peer) (hprecedes : Outbox.Precedes older row) :
    older ∈ batch env peer outbox := by
  unfold batch at hrow ⊢
  split at hrow
  · next hread =>
    have hdue := List.mem_filter.mp (Outbox.mem_orderByNextRetryAt.mp (List.mem_of_mem_take hrow))
    have htime : row.2.nextRetryAt ≤ env.now := (of_decide_eq_true hdue.2).1
    rw [if_pos hread]
    refine Outbox.mem_front_of_precedes
      (Outbox.pairwise_orderByNextRetryAt (h.sublist List.filter_sublist))
      (List.take_prefix _ _) hrow (Outbox.mem_orderByNextRetryAt.mpr ?_) hprecedes
    exact List.mem_filter.mpr
      ⟨holder, decide_eq_true ⟨hprecedes.le.trans htime, hdirect.1, hdirect.2⟩⟩
  · cases hrow

section Tick

variable {env : TickEnv} {peer : PublicKey} {actor : Actor} {outbox : Outbox}
  {sent : List (Nat × OutboxRow)}

theorem pairwise_sent (hascending : Outbox.Ascending outbox.rows.rows)
    (hsent : sent <+: (actor.evictStale env.instant).free (batch env peer outbox)) :
    sent.Pairwise Outbox.Precedes :=
  ((pairwise_batch env peer hascending).sublist List.filter_sublist).sublist hsent.sublist

theorem FirstInFirstOut.follows (h : FirstInFirstOut env peer actor outbox)
    (hascending : Outbox.Ascending outbox.rows.rows)
    (hsent : sent <+: (actor.evictStale env.instant).free (batch env peer outbox)) :
    Follows env peer actor outbox sent := by
  have hfree {row : Nat × OutboxRow} (hrow : row ∈ sent) := Actor.mem_free.mp (hsent.mem hrow)
  -- an older row that is not in flight comes before a row that is transmitted
  have holder {row older : Nat × OutboxRow} (hrow : row ∈ sent) (hmem : older ∈ outbox.rows.rows)
      (hdirect : older.2.DirectTo peer) (hid : older.1 < row.1)
      (hflight : (actor.evictStale env.instant).pending.get older.2.messageId = none) :
      Outbox.Precedes older row :=
    .of_lt hid (h row (hfree hrow).1 (hfree hrow).2 older hmem hdirect hid hflight)
  constructor
  · rw [List.pairwise_map]
    refine List.Pairwise.imp_of_mem (fun {row next} hrow hnext hprecedes => ?_)
      (pairwise_sent hascending hsent)
    obtain ⟨hmem, -⟩ := of_mem_batch (hfree hrow).1
    obtain ⟨hmem', hdirect⟩ := of_mem_batch (hfree hnext).1
    by_contra hle
    rcases (Nat.not_lt.mp hle).lt_or_eq with hlt | heq
    · exact hprecedes.asymm (holder hrow hmem' hdirect hlt (hfree hnext).2)
    · rw [Table.row_unique hmem' hmem heq] at hprecedes
      exact hprecedes.asymm hprecedes
  · intro row hrow older hmem hdirect hid hflight
    have hprecedes := holder hrow hmem hdirect hid hflight
    have hbatch := mem_batch_of_precedes hascending (hfree hrow).1 hmem hdirect hprecedes
    exact Outbox.mem_front_of_precedes
      ((pairwise_batch env peer hascending).sublist List.filter_sublist) hsent hrow
      (Actor.mem_free.mpr ⟨hbatch, hflight⟩) hprecedes

end Tick

/-! ### Runs -/

namespace Channel

/-- The condition on an event: a tick has no row behind a younger one. The id of a message is not
that of a send in flight. -/
def Aligned (peer : PublicKey) (channel : Channel) : ChannelEvent → Prop
  | .queue messageId _ _ => channel.actor.pending.get messageId = none
  | .retryTick env _ _ _ => FirstInFirstOut env peer channel.actor channel.outbox
  | .ack _ _ | .relink _ _ | .arrive => True

/-- A lane on which nothing has been sent. The rows of the queue are in the order of their ids, and
the peer is at no later generation than theirs. -/
structure New (numbering : Numbering) (peer : PublicKey) (channel : Channel) : Prop where
  ascending : Outbox.Ascending channel.outbox.rows.rows
  pending : channel.actor.pending = .empty
  wire : channel.wire = []
  received : channel.received = []
  undecrypted : channel.undecrypted = []
  ticks : channel.ticks = []
  queued : ∀ row ∈ channel.outbox.rows.rows, row.2.DirectTo peer →
    channel.ratchet.next ≤ numbering.generation row.1
  coming : channel.ratchet.next ≤ numbering.generation channel.outbox.nextId

variable {tolerance : Nat} {numbering : Numbering} {peer : PublicKey} {channel : Channel}

def history (channel : Channel) : List Nat := channel.received ++ channel.wire

def Ascends (history : List Nat) : Prop :=
  ∀ earlier id later, history = earlier ++ id :: later →
    id ∈ earlier ∨ ∀ other ∈ earlier, other < id

/-- The row may still reach the peer: it is on its way, queued, or to be queued later. -/
def Awaited (peer : PublicKey) (channel : Channel) (id : Nat) : Prop :=
  id ∈ channel.wire ∨ (∃ row ∈ channel.outbox.rows.rows, row.1 = id ∧ row.2.DirectTo peer) ∨
    channel.outbox.nextId ≤ id

/-- The first transmissions are in the order of encryption, no queued row has been overtaken, and
the peer has not gone past any row that it has not received. -/
structure InOrder (numbering : Numbering) (peer : PublicKey) (channel : Channel) : Prop where
  ascending : Outbox.Ascending channel.outbox.rows.rows
  history : Ascends channel.history
  queued : ∀ row ∈ channel.outbox.rows.rows, row.2.DirectTo peer →
    row.1 ∈ channel.history ∨ ∀ other ∈ channel.history, other < row.1
  inFlight : ∀ row ∈ channel.outbox.rows.rows, row.2.DirectTo peer →
    channel.actor.pending.get row.2.messageId ≠ none → row.1 ∈ channel.history
  issued : ∀ id ∈ channel.history, id < channel.outbox.nextId
  ratchet : ∀ id, id ∉ channel.received → channel.Awaited peer id →
    channel.ratchet.next ≤ numbering.generation id
  undecrypted : channel.undecrypted = []
  ticks : ∀ transmitted ∈ channel.ticks, transmitted.Pairwise (· < ·)

theorem New.inOrder (h : channel.New numbering peer) : channel.InOrder numbering peer := by
  have hhistory : channel.history = [] := by rw [history, h.received, h.wire, List.append_nil]
  refine ⟨h.ascending, ?_, ?_, ?_, ?_, ?_, h.undecrypted, ?_⟩
  · intro earlier id later heq
    rw [hhistory] at heq
    exact absurd heq (by simp)
  · intro row _ _
    rw [hhistory]
    exact .inr nofun
  · intro row _ _ hpending
    rw [h.pending] at hpending
    exact absurd rfl hpending
  · rw [hhistory]
    exact nofun
  · rintro id - (hwire | ⟨row, hrow, rfl, hdirect⟩ | hnext)
    · rw [h.wire] at hwire
      cases hwire
    · exact h.queued row hrow hdirect
    · exact h.coming.trans (numbering.strictMono.monotone hnext)
  · rw [h.ticks]
    exact nofun

/-! #### The history -/

variable {past wire : List Nat} {id instant : Nat} {messageId : MessageId}

theorem Ascends.append {new : List Nat} (h : Ascends past)
    (hnew : ∀ earlier id later, new = earlier ++ id :: later → id ∈ past ++ earlier ∨ ∀ other ∈ past
      ++ earlier, other < id) :
    Ascends (past ++ new) := by
  intro earlier id later heq
  rcases List.append_eq_append_iff.mp heq with ⟨rest, hearlier, hrest⟩ | ⟨rest, hpast, hrest⟩
  · rw [hearlier]
    exact hnew rest id later hrest
  · cases rest with
    | nil =>
      rw [List.append_nil] at hpast
      rw [← hpast]
      have hfirst := hnew [] id later hrest.symm
      rw [List.append_nil] at hfirst
      exact hfirst
    | cons head rest =>
      rw [List.cons_append] at hrest
      obtain ⟨rfl, -⟩ := List.cons.inj hrest
      exact h earlier _ rest hpast

theorem Ascends.of_append {new : List Nat} (h : Ascends (past ++ new)) : Ascends past := by
  intro earlier id later heq
  refine h earlier id (later ++ new) ?_
  rw [heq, List.append_assoc, List.cons_append]

theorem Ascends.lt_of_mem {new : List Nat} (h : Ascends (past ++ new)) (hmem : id ∈ new)
    (hnot : id ∉ past) : ∀ other ∈ past, other < id := by
  obtain ⟨earlier, later, rfl, hfirst⟩ := List.eq_append_cons_of_mem hmem
  rw [← List.append_assoc] at h
  rcases h _ id later rfl with hin | hlt
  · exact absurd hin (by simp [hnot, hfirst])
  · exact fun other hother => hlt other (List.mem_append_left _ hother)

/-! #### Steps -/

/-- Queued rows of the peer have been sent in the order of encryption, and none before an older one
that was never sent. -/
structure Sent (peer : PublicKey) (channel next : Channel) (new : List Nat) : Prop where
  wire : next.wire = channel.wire ++ new
  received : next.received = channel.received
  ratchet : next.ratchet = channel.ratchet
  undecrypted : next.undecrypted = channel.undecrypted
  ticks : next.ticks = channel.ticks ∨ next.ticks = channel.ticks ++ [new]
  outbox : channel.outbox.Shrinks next.outbox
  queued : ∀ id ∈ new, ∃ row ∈ channel.outbox.rows.rows, row.1 = id ∧ row.2.DirectTo peer
  ordered : new.Pairwise (· < ·)
  complete : ∀ id ∈ new, ∀ older ∈ channel.outbox.rows.rows, older.2.DirectTo peer →
    older.1 < id → older.1 ∈ channel.history ∨ older.1 ∈ new
  inFlight : ∀ row ∈ next.outbox.rows.rows, row.2.DirectTo peer →
    next.actor.pending.get row.2.messageId ≠ none → row.1 ∈ channel.history ∨ row.1 ∈ new

variable {next : Channel} {new : List Nat}

theorem Sent.history_eq (h : Sent peer channel next new) :
    next.history = channel.history ++ new := by
  rw [history, history, h.received, h.wire, List.append_assoc]

theorem Sent.queued_before (h : Sent peer channel next new) (hrow : row ∈ next.outbox.rows.rows)
    (hdirect : row.2.DirectTo peer) :
    ∃ old ∈ channel.outbox.rows.rows, old.1 = row.1 ∧ old.2.DirectTo peer := by
  obtain ⟨old, hold, htarget, hlane, -⟩ := h.outbox.row hrow
  exact ⟨(row.1, old), hold, rfl, htarget ▸ hdirect.1, hlane ▸ hdirect.2⟩

theorem InOrder.sent (h : channel.InOrder numbering peer) (hsent : Sent peer channel next new) :
    next.InOrder numbering peer := by
  refine ⟨hsent.outbox.ascending h.ascending, ?_, ?_, ?_, ?_, ?_,
    hsent.undecrypted.trans h.undecrypted, ?_⟩
  · rw [hsent.history_eq]
    refine h.history.append fun earlier id later heq => ?_
    obtain ⟨row, hrow, rfl, hdirect⟩ := hsent.queued id (by rw [heq]; simp)
    rcases h.queued row hrow hdirect with hmem | hlt
    · exact .inl (List.mem_append_left _ hmem)
    · have hordered := hsent.ordered
      rw [heq, List.pairwise_append] at hordered
      refine .inr fun other hother => ?_
      rcases List.mem_append.mp hother with hpast | hearlier
      · exact hlt other hpast
      · exact hordered.2.2 other hearlier row.1 List.mem_cons_self
  · intro row hrow hdirect
    obtain ⟨old, hold, hid, hdirect'⟩ := hsent.queued_before hrow hdirect
    rw [hsent.history_eq, ← hid]
    rcases h.queued old hold hdirect' with hmem | hlt
    · exact .inl (List.mem_append_left _ hmem)
    · by_cases hnew : old.1 ∈ new
      · exact .inl (List.mem_append_right _ hnew)
      · refine .inr fun other hother => ?_
        rcases List.mem_append.mp hother with hpast | hother
        · exact hlt other hpast
        · -- a younger row that was sent would have left this one behind
          by_contra hle
          have hne : old.1 ≠ other := fun heq => hnew (heq ▸ hother)
          rcases hsent.complete other hother old hold hdirect' (by omega) with hpast | hin
          · exact absurd (hlt old.1 hpast) (lt_irrefl _)
          · exact hnew hin
  · intro row hrow hdirect hpending
    rw [hsent.history_eq, List.mem_append]
    exact hsent.inFlight row hrow hdirect hpending
  · intro id hid
    rw [hsent.history_eq] at hid
    rw [hsent.outbox.nextId]
    rcases List.mem_append.mp hid with hpast | hnew
    · exact h.issued id hpast
    · obtain ⟨row, hrow, rfl, -⟩ := hsent.queued id hnew
      exact channel.outbox.issued (Table.get_eq_some_iff.mpr hrow)
  · intro id hid hwhere
    rw [hsent.ratchet]
    rw [hsent.received] at hid
    refine h.ratchet id hid ?_
    rcases hwhere with hwire | ⟨row, hrow, rfl, hdirect⟩ | hnext
    · rw [hsent.wire, List.mem_append] at hwire
      exact hwire.imp_right fun hnew => .inl (hsent.queued id hnew)
    · exact .inr (.inl (hsent.queued_before hrow hdirect))
    · rw [hsent.outbox.nextId] at hnext
      exact .inr (.inr hnext)
  · intro transmitted hmem
    rcases hsent.ticks with hticks | hticks <;> rw [hticks] at hmem
    · exact h.ticks transmitted hmem
    · rcases List.mem_append.mp hmem with hpast | hlast
      · exact h.ticks transmitted hpast
      · rw [List.mem_singleton.mp hlast]
        exact hsent.ordered

theorem eq_of_messageId {other : Nat × OutboxRow} (hrow : row ∈ outbox.rows.rows)
    (hother : other ∈ outbox.rows.rows) (hdirect : row.2.DirectTo peer)
    (hdirect' : other.2.DirectTo peer) (hmessage : row.2.messageId = other.2.messageId) :
    row.1 = other.1 :=
  outbox.unique (Table.get_eq_some_iff.mpr hrow) (Table.get_eq_some_iff.mpr hother) (by
    simp only [OutboxRow.key, hdirect.1, hdirect.2, hdirect'.1, hdirect'.2, hmessage])

theorem pending_of_evictStale {actor : Actor}
    (h : (actor.evictStale instant).pending.get messageId ≠ none) :
    actor.pending.get messageId ≠ none := by
  intro hnone
  refine h ?_
  show (actor.pending.deleteWhere _).get messageId = none
  rw [Table.get_deleteWhere, hnone]
  rfl

theorem InOrder.retryTick_sent (h : channel.InOrder numbering peer)
    (hfifo : FirstInFirstOut env peer channel.actor channel.outbox) (link : Connection)
    (directTimeout : Nat) (fallbackEnabled : Bool) :
    ∃ new, Sent peer channel (channel.step tolerance numbering peer
      (.retryTick env link directTimeout fallbackEnabled)) new := by
  obtain ⟨sent, hsent, hsends⟩ := retryTick_sends env peer directTimeout fallbackEnabled
    (channel.onLink link) channel.outbox
  have hfollows : Follows env peer channel.actor channel.outbox sent :=
    hfifo.follows h.ascending hsent
  have htransmitted : (retryTick env peer directTimeout fallbackEnabled (channel.onLink link)
      channel.outbox).2.transmitted = sent := hsends.transmitted
  -- a row that is in flight was sent before
  have hflight {row : Nat × OutboxRow} (hrow : row ∈ channel.outbox.rows.rows)
      (hdirect : row.2.DirectTo peer)
      (hpending : (channel.actor.evictStale env.instant).pending.get row.2.messageId ≠ none) :
      row.1 ∈ channel.history :=
    h.inFlight row hrow hdirect (pending_of_evictStale hpending)
  refine ⟨sent.map Prod.fst, ?_, rfl, rfl, rfl, .inr ?_, hsends.outbox, ?_, hfollows.ordered, ?_,
    ?_⟩
  · show channel.wire ++ _ = _
    rw [htransmitted]
  · show channel.ticks ++ _ = _
    rw [htransmitted]
  · intro id hid
    obtain ⟨row, hrow, rfl⟩ := List.mem_map.mp hid
    obtain ⟨hmem, hdirect⟩ := of_mem_batch (Actor.mem_free.mp (hsent.mem hrow)).1
    exact ⟨row, hmem, rfl, hdirect⟩
  · intro id hid older holder hdirect hlt
    obtain ⟨row, hrow, rfl⟩ := List.mem_map.mp hid
    by_cases hpending :
        (channel.actor.evictStale env.instant).pending.get older.2.messageId = none
    · exact .inr (List.mem_map_of_mem
        (hfollows.complete row hrow older holder hdirect hlt hpending))
    · exact .inl (hflight holder hdirect hpending)
  · intro row hrow hdirect hpending
    obtain ⟨old, hold, htarget, hlane, hmessage⟩ := hsends.outbox.row hrow
    have hdirect' : OutboxRow.DirectTo old peer := ⟨htarget ▸ hdirect.1, hlane ▸ hdirect.2⟩
    rcases hsends.pending row.2.messageId hpending with hbefore | ⟨other, hother, hsame⟩
    · rw [hmessage] at hbefore
      have hpast := hflight hold hdirect' hbefore
      exact .inl hpast
    · obtain ⟨hmem, hdirect''⟩ := of_mem_batch (Actor.mem_free.mp (hsent.mem hother)).1
      have hid := eq_of_messageId hold hmem hdirect' hdirect'' (hmessage.symm.trans hsame.symm)
      exact .inr (hid ▸ List.mem_map_of_mem hother)

theorem InOrder.ack_sent (h : channel.InOrder numbering peer) (messageId : MessageId)
    (ackOk : Bool) :
    Sent peer channel (channel.step tolerance numbering peer (.ack messageId ackOk)) [] := by
  unfold Channel.step
  dsimp only
  split
  · exact ⟨(List.append_nil _).symm, rfl, rfl, rfl, .inl rfl, .refl _, nofun, .nil, nofun,
      fun row hrow hdirect hpending => .inl (h.inFlight row hrow hdirect hpending)⟩
  · have hshrinks : channel.outbox.Shrinks
        (if ackOk then (channel.outbox.ackByMessageId peer messageId).2 else channel.outbox) := by
      split
      · exact channel.outbox.deleteWhere_shrinks _
      · exact .refl _
    refine ⟨(List.append_nil _).symm, rfl, rfl, rfl, .inl rfl, hshrinks, nofun, .nil, nofun,
      fun row hrow hdirect hpending => .inl ?_⟩
    obtain ⟨old, hold, htarget, hlane, hmessage⟩ := hshrinks.row hrow
    refine h.inFlight (row.1, old) hold ⟨htarget ▸ hdirect.1, hlane ▸ hdirect.2⟩ fun hnone => ?_
    refine hpending ?_
    show (channel.actor.pending.delete messageId).get row.2.messageId = none
    rw [hmessage, Table.delete, Table.get_deleteWhere]
    rw [show channel.actor.pending.get old.messageId = none from hnone]
    rfl

theorem InOrder.queue (h : channel.InOrder numbering peer)
    (hfresh : channel.actor.pending.get messageId = none) (payload : Bytes) (now : Int) :
    (channel.step tolerance numbering peer (.queue messageId payload now)).InOrder numbering
      peer := by
  unfold Channel.step Outbox.insert
  dsimp only
  split
  · exact ⟨h.ascending, h.history, h.queued, h.inFlight, h.issued, h.ratchet, h.undecrypted,
      h.ticks⟩
  · -- the new row is the last one of the table
    refine ⟨?_, h.history, ?_, ?_, ?_, ?_, h.undecrypted, h.ticks⟩
    · refine List.pairwise_append.mpr ⟨h.ascending, List.pairwise_singleton _ _, ?_⟩
      intro row hrow last hlast
      rw [List.mem_singleton.mp hlast]
      exact channel.outbox.issued (Table.get_eq_some_iff.mpr hrow)
    · intro row hrow hdirect
      rcases List.mem_append.mp hrow with hold | hnew
      · exact h.queued row hold hdirect
      · rw [List.mem_singleton.mp hnew]
        exact .inr h.issued
    · intro row hrow hdirect hpending
      rcases List.mem_append.mp hrow with hold | hnew
      · exact h.inFlight row hold hdirect hpending
      · rw [List.mem_singleton.mp hnew] at hpending
        exact absurd hfresh hpending
    · intro id hid
      exact (h.issued id hid).trans (Nat.lt_succ_self _)
    · intro id hid hwhere
      refine h.ratchet id hid ?_
      rcases hwhere with hwire | ⟨row, hrow, rfl, hdirect⟩ | hnext
      · exact .inl hwire
      · rcases List.mem_append.mp hrow with hold | hnew
        · exact .inr (.inl ⟨row, hold, rfl, hdirect⟩)
        · rw [List.mem_singleton.mp hnew]
          exact .inr (.inr le_rfl)
      · exact .inr (.inr (Nat.le_of_succ_le hnext))

theorem InOrder.relink (h : channel.InOrder numbering peer) (conn : Option Connection)
    (arriving : Nat) :
    (channel.step tolerance numbering peer (.relink conn arriving)).InOrder numbering peer := by
  have hsplit : channel.history =
      (channel.received ++ channel.wire.take arriving) ++ channel.wire.drop arriving := by
    rw [List.append_assoc, List.take_append_drop, Channel.history]
  have hmem {id : Nat} (hid : id ∈ channel.received ++ channel.wire.take arriving) :
      id ∈ channel.history := by
    rw [hsplit]
    exact List.mem_append_left _ hid
  have hhistory := h.history
  rw [hsplit] at hhistory
  refine ⟨h.ascending, hhistory.of_append, ?_, ?_, fun id hid => h.issued id (hmem hid), ?_,
    h.undecrypted, h.ticks⟩
  · intro row hrow hdirect
    show row.1 ∈ channel.received ++ channel.wire.take arriving ∨
      ∀ other ∈ channel.received ++ channel.wire.take arriving, other < row.1
    by_cases hin : row.1 ∈ channel.received ++ channel.wire.take arriving
    · exact .inl hin
    · refine .inr ?_
      rcases h.queued row hrow hdirect with hpast | hlt
      · rw [hsplit] at hpast
        exact hhistory.lt_of_mem ((List.mem_append.mp hpast).resolve_left hin) hin
      · exact fun other hother => hlt other (hmem hother)
  · exact fun row _ _ hpending => absurd rfl hpending
  · intro id hid hwhere
    exact h.ratchet id hid (hwhere.imp_left fun hwire => List.mem_of_mem_take hwire)

theorem history_of_wire (hwire : channel.wire = id :: wire) :
    channel.history = channel.received ++ [id] ++ wire := by
  rw [Channel.history, hwire, List.append_assoc]
  rfl

theorem InOrder.arrived (h : channel.InOrder numbering peer) (hwire : channel.wire = id :: wire)
    {ratchet : Ratchet}
    (hratchet : ∀ other, other ∉ channel.received ++ [id] → Awaited peer { channel with wire } other
      → ratchet.next ≤ numbering.generation other) :
    InOrder numbering peer
      { channel with wire, received := channel.received ++ [id], ratchet } := by
  have hhistory : Channel.history { channel with
      wire, received := channel.received ++ [id], ratchet } = channel.history :=
    (history_of_wire hwire).symm
  refine ⟨h.ascending, ?_, ?_, ?_, ?_, hratchet, h.undecrypted, h.ticks⟩ <;> rw [hhistory]
  · exact h.history
  · exact h.queued
  · exact h.inFlight
  · exact h.issued

theorem InOrder.lt_of_awaited (h : channel.InOrder numbering peer) {other : Nat}
    (hwire : channel.wire = id :: wire) (hother : other ∉ channel.received ++ [id])
    (hawaited : Awaited peer { channel with wire } other) : id < other := by
  have hhistory := history_of_wire hwire
  have hascends := hhistory ▸ h.history
  have hlast : id ∈ channel.received ++ [id] := List.mem_append_right _ List.mem_cons_self
  have hid : id ∈ channel.history := by
    rw [hhistory]
    exact List.mem_append_left _ hlast
  rcases hawaited with hin | ⟨row, hrow, rfl, hdirect⟩ | hissued
  · exact hascends.lt_of_mem hin hother id hlast
  · rcases h.queued row hrow hdirect with hpast | hlt
    · rw [hhistory, List.mem_append] at hpast
      exact hascends.lt_of_mem (hpast.resolve_left hother) hother id hlast
    · exact hlt id hid
  · exact (h.issued id hid).trans_le hissued

theorem InOrder.arrive (h : channel.InOrder numbering peer) :
    (channel.arrive tolerance numbering).InOrder numbering peer := by
  unfold Channel.arrive
  split
  · exact h
  · next id wire hwire =>
    dsimp only
    split
    · refine h.arrived hwire fun other hother hawaited => h.ratchet other ?_ ?_
      · exact fun hin => hother (List.mem_append_left _ hin)
      · exact hawaited.imp_left fun hin => hwire ▸ List.mem_cons_of_mem _ hin
    · next hnew =>
      have hnext : channel.ratchet.next ≤ numbering.generation id :=
        h.ratchet id hnew (.inl (by rw [hwire]; exact List.mem_cons_self))
      rw [Ratchet.decrypt, if_pos hnext]
      exact h.arrived hwire fun other hother hawaited =>
        numbering.strictMono (h.lt_of_awaited hwire hother hawaited)

theorem InOrder.step (h : channel.InOrder numbering peer) {event : ChannelEvent}
    (haligned : channel.Aligned peer event) :
    (channel.step tolerance numbering peer event).InOrder numbering peer := by
  cases event with
  | queue messageId payload now => exact h.queue haligned payload now
  | retryTick env link directTimeout fallbackEnabled =>
    obtain ⟨new, hsent⟩ := h.retryTick_sent haligned link directTimeout fallbackEnabled
    exact h.sent hsent
  | ack messageId ackOk => exact h.sent (h.ack_sent messageId ackOk)
  | relink conn arriving => exact h.relink conn arriving
  | arrive => exact h.arrive

end Channel

/-- In a run from a new lane in which no tick has an older row behind one of its batch, every tick
transmits its rows in the order of encryption, on whatever link, and the peer can decrypt each row
that reaches it. -/
theorem transmission_order (tolerance : Nat) (numbering : Numbering) (peer : PublicKey)
    (channel : Channel) (hnew : channel.New numbering peer) (events : List ChannelEvent)
    (hmeets : Meets (Channel.step tolerance numbering peer) (Channel.Aligned peer) channel events) :
    Along (Channel.step tolerance numbering peer) (fun channel => channel.undecrypted = [] ∧
      ∀ transmitted ∈ channel.ticks, transmitted.Pairwise (· < ·)) channel events :=
  (along_of_meets (fun _ _ h haligned => h.step haligned) hnew.inOrder hmeets).imp
    fun _ h => ⟨h.undecrypted, h.ticks⟩

/-! ### Rows that are sent again -/

/-- An empty lane without a connection, whose peer waits for the first generation. -/
def emptyLane : Channel :=
  ⟨⟨none, .empty, 0, none, none, none, 0⟩, .empty, [], [], ⟨0, []⟩, [], []⟩

def byId : Numbering := ⟨fun id => id, strictMono_id⟩

theorem emptyLane_new : emptyLane.New byId (.fill 32 1) :=
  ⟨.nil, rfl, rfl, rfl, rfl, rfl, nofun, le_rfl⟩

def redrawn (now : Int) (factor : Nat → ℚ) (id : Nat) (row : OutboxRow) : Option Int :=
  some (saturate (now + backoff (UInt32.ofNat row.attempts) (factor id)))

def dialTick (instant : Nat) (factor : Nat → ℚ) : ChannelEvent :=
  .retryTick ⟨instant, instant, true, some openConn, redrawn instant factor⟩ openConn 0 false

/-- Rows are queued while the peer is away. The connection to it breaks before anything arrives,
and the rows are sent again two seconds later. -/
def brokenOnce (rows : Nat) (factor : Nat → ℚ) : List ChannelEvent :=
  ((List.range rows).map fun i => .queue (.fill 16 (.ofNat i)) [] i) ++
    [dialTick 1000 factor, .relink none 0, dialTick 3000 factor] ++
      List.replicate rows .arrive

/-- Two rows that are sent again in the order of encryption. -/
theorem rows_sent_again_in_order :
    Meets (Channel.step 5 byId (.fill 32 1)) (Channel.Aligned (.fill 32 1)) emptyLane
        (brokenOnce 2 fun _ => 1) ∧
      Along (Channel.step 5 byId (.fill 32 1)) (fun channel => channel.undecrypted = [] ∧
        ∀ transmitted ∈ channel.ticks, transmitted.Pairwise (· < ·)) emptyLane
        (brokenOnce 2 fun _ => 1) := by
  have hmeets : Meets (Channel.step 5 byId (.fill 32 1)) (Channel.Aligned (.fill 32 1)) emptyLane
      (brokenOnce 2 fun _ => 1) :=
    ⟨rfl, rfl, show FirstInFirstOut .. by decide +kernel, trivial,
      show FirstInFirstOut .. by decide +kernel, trivial, trivial, trivial⟩
  exact ⟨hmeets, transmission_order 5 byId (.fill 32 1) emptyLane emptyLane_new _ hmeets⟩

def falling (id : Nat) : ℚ := max (3 / 4) (31 / 25 - 2 / 25 * id)

/-- Seven rows are transmitted, and again in the opposite order after the connection has broken. A
peer that keeps five generations decrypts the last row, which comes first, and cannot decrypt the
two oldest ones any more. -/
theorem retransmission_reversed :
    (∀ id, 3 / 4 ≤ falling id ∧ falling id ≤ 5 / 4) ∧ emptyLane.New byId (.fill 32 1) ∧
      ((brokenOnce 7 falling).foldl (Channel.step 5 byId (.fill 32 1)) emptyLane).ticks =
        [[0, 1, 2, 3, 4, 5, 6], [6, 5, 4, 3, 2, 1, 0]] ∧
      ((brokenOnce 7 falling).foldl (Channel.step 5 byId (.fill 32 1)) emptyLane).undecrypted =
        [1, 0] := by
  refine ⟨fun id => ⟨le_max_left _ _, max_le (by norm_num) ?_⟩, emptyLane_new, by decide +kernel,
    by decide +kernel⟩
  have hid : (0 : ℚ) ≤ id := Nat.cast_nonneg _
  linarith

end Skattr.Core.Delivery
