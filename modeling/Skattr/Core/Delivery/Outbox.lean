import Mathlib.Data.List.Sort
import Skattr.Core.Basic
import Skattr.Lib.Table

/-!
# The outbox

The send queue with both of its lanes. A row starts in the direct lane; the mailbox fallback moves
it to the mailbox lane, where it stays. Row ids are never used again, and no two rows agree in
target, message and lane, as the unique index has it. Every operation is specified by what a
lookup finds afterwards.
-/

namespace Skattr.Core.Delivery

open Lib

/-- How a row is delivered. The columns `target_kind` and `mailbox_id` are one value here: only a
mailbox row names a mailbox. -/
inductive Lane where
  | direct
  | mailbox (mailboxId : Nat)
  deriving DecidableEq

/-- A row of the queue, without its id. -/
structure OutboxRow where
  target : PublicKey
  payload : Bytes
  messageId : MessageId
  attempts : Nat
  lane : Lane
  nextRetryAt : Int
  deriving DecidableEq

def OutboxRow.key (row : OutboxRow) : PublicKey × MessageId × Lane :=
  (row.target, row.messageId, row.lane)

/-- The queue. The ids of its rows are below `nextId`, and its rows differ in the unique index. -/
structure Outbox where
  rows : Table Nat OutboxRow
  nextId : Nat
  issued : ∀ {id row}, rows.get id = some row → id < nextId
  unique : ∀ {id other row row'}, rows.get id = some row → rows.get other = some row' →
    row.key = row'.key → id = other

namespace Outbox

def empty : Outbox where
  rows := .empty
  nextId := 0
  issued := fun h => by cases h
  unique := fun h => by cases h

/-! ### Queries -/

def orderByNextRetryAt (rows : List (Nat × OutboxRow)) : List (Nat × OutboxRow) :=
  rows.insertionSort fun a b => a.2.nextRetryAt ≤ b.2.nextRetryAt

def due (outbox : Outbox) (now : Int) (limit : Nat) : List (Nat × OutboxRow) :=
  (orderByNextRetryAt (outbox.rows.rows.filter fun row => row.2.nextRetryAt ≤ now)).take limit

def dueMailbox (outbox : Outbox) (now : Int) (limit : Nat) : List (Nat × OutboxRow) :=
  (orderByNextRetryAt (outbox.rows.rows.filter fun row =>
    row.2.nextRetryAt ≤ now ∧ row.2.lane ≠ .direct)).take limit

def dueDirectFor (outbox : Outbox) (target : PublicKey) (now : Int) (limit : Nat) :
    List (Nat × OutboxRow) :=
  (orderByNextRetryAt (outbox.rows.rows.filter fun row =>
    row.2.nextRetryAt ≤ now ∧ row.2.target = target ∧ row.2.lane = .direct)).take limit

def findDirectId (outbox : Outbox) (target : PublicKey) (messageId : MessageId) : Option Nat :=
  (outbox.rows.rows.find? fun row => row.2.key = (target, messageId, .direct)).map Prod.fst

/-! ### Changes -/

/-- A row that is not in the queue yet is appended under a new id; one that the unique index has
already is left alone. -/
def insert (outbox : Outbox) (target : PublicKey) (messageId : MessageId) (payload : Bytes)
    (nextRetryAt : Int) : Outbox :=
  if hkey : ∃ row ∈ outbox.rows.rows, row.2.key = (target, messageId, .direct) then outbox
  else
    { rows := outbox.rows.push outbox.nextId ⟨target, payload, messageId, 0, .direct, nextRetryAt⟩
        (Table.get_next outbox.issued)
      nextId := outbox.nextId + 1
      issued := Table.issued_push outbox.issued
      unique := fun h h' hsame => Table.unique_push outbox.unique h h' hsame fun id row hrow hold =>
        hkey ⟨(id, row), Table.get_eq_some_iff.mp hrow, hold⟩ }

def deleteWhere (outbox : Outbox) (p : Nat → OutboxRow → Bool) : Outbox :=
  have hget {id : Nat} {row : OutboxRow} (h : (outbox.rows.deleteWhere p).get id = some row) :
      outbox.rows.get id = some row := by
    rw [Table.get_deleteWhere, Option.filter_eq_some_iff] at h
    exact h.1
  { rows := outbox.rows.deleteWhere p
    nextId := outbox.nextId
    issued := fun h => outbox.issued (hget h)
    unique := fun h h' => outbox.unique (hget h) (hget h') }

def deleteByTarget (outbox : Outbox) (target : PublicKey) : Outbox :=
  outbox.deleteWhere fun _ row => row.target = target

def deleteById (outbox : Outbox) (id : Nat) : Outbox := outbox.deleteWhere fun key _ => key = id

/-- Delete the rows of a message, in whichever lane; the result tells whether there was one. -/
def ackByMessageId (outbox : Outbox) (target : PublicKey) (messageId : MessageId) :
    Bool × Outbox :=
  (outbox.rows.rows.any fun row => row.2.target = target ∧ row.2.messageId = messageId,
    outbox.deleteWhere fun _ row => row.target = target ∧ row.messageId = messageId)

/-- Move a row to the lane of a mailbox. A row that is gone is an error, and so is a second row of
the message in that lane. -/
def setMailboxTarget (outbox : Outbox) (id mailboxId : Nat) : Option Outbox :=
  match hrow : outbox.rows.get id with
  | none => none
  | some row =>
    if hfree : ∀ other ∈ outbox.rows.rows,
        other.2.key = (row.target, row.messageId, .mailbox mailboxId) → other.1 = id then
      have hget {key : Nat} {found : OutboxRow} (h : (outbox.rows.modify id fun row =>
          { row with lane := .mailbox mailboxId }).get key = some found) :
          (key = id ∧ found = { row with lane := .mailbox mailboxId }) ∨
            (key ≠ id ∧ outbox.rows.get key = some found) := by
        rw [Table.get_modify] at h
        split at h
        · next heq =>
          subst heq
          rw [hrow] at h
          cases h
          exact .inl ⟨rfl, rfl⟩
        · next hne => exact .inr ⟨hne, h⟩
      some {
        rows := outbox.rows.modify id fun row => { row with lane := .mailbox mailboxId }
        nextId := outbox.nextId
        issued := Table.issued_modify outbox.issued
        unique := by
          intro key other found found' h h' hsame
          rcases hget h with ⟨rfl, rfl⟩ | ⟨hne, hold⟩ <;>
            rcases hget h' with ⟨rfl, rfl⟩ | ⟨hne', hold'⟩
          · rfl
          · exact (hfree (other, found') (Table.get_eq_some_iff.mp hold') hsame.symm).symm
          · exact hfree (key, found) (Table.get_eq_some_iff.mp hold) hsame
          · exact outbox.unique hold hold' hsame }
    else none

def reschedule (outbox : Outbox) (id : Nat) (nextRetryAt : Int) : Outbox where
  rows := outbox.rows.modify id fun row => { row with attempts := row.attempts + 1, nextRetryAt }
  nextId := outbox.nextId
  issued := Table.issued_modify outbox.issued
  unique := fun h h' hsame => Table.unique_modify outbox.unique h h' hsame fun _ => rfl

/-! ### What a lookup finds -/

variable {outbox : Outbox} {messageId : MessageId} {target : PublicKey}
  {rows : List (Nat × OutboxRow)} {row other : Nat × OutboxRow} {now : Int} {limit id : Nat}

theorem get_deleteWhere {p : Nat → OutboxRow → Bool} {row : OutboxRow} :
    (outbox.deleteWhere p).rows.get id = some row ↔
      outbox.rows.get id = some row ∧ p id row = false := by
  show (outbox.rows.deleteWhere p).get id = some row ↔ _
  rw [Table.get_deleteWhere, Option.filter_eq_some_iff, Bool.not_eq_eq_eq_not, Bool.not_true]

theorem get_reschedule (outbox : Outbox) (id key : Nat) (nextRetryAt : Int) :
    (outbox.reschedule id nextRetryAt).rows.get key =
      if key = id then (outbox.rows.get key).map fun row =>
        { row with attempts := row.attempts + 1, nextRetryAt }
      else outbox.rows.get key :=
  Table.get_modify ..

theorem setMailboxTarget_eq_some {next : Outbox} {mailboxId : Nat}
    (h : outbox.setMailboxTarget id mailboxId = some next) :
    next.nextId = outbox.nextId ∧ ∃ row, outbox.rows.get id = some row ∧
      ∀ key, next.rows.get key = if key = id then some { row with lane := .mailbox mailboxId }
        else outbox.rows.get key := by
  unfold setMailboxTarget at h
  split at h
  · cases h
  · next row hrow =>
    split at h
    · cases h
      refine ⟨rfl, row, hrow, fun key => ?_⟩
      show (outbox.rows.modify id _).get key = _
      rw [Table.get_modify]
      split
      · next hkey => rw [hkey, hrow, Option.map_some]
      · rfl
    · cases h

theorem insert_of_new (hnew : ∀ id row, outbox.rows.get id = some row → row.messageId ≠ messageId)
    (target : PublicKey) (payload : Bytes) (nextRetryAt : Int) :
    (outbox.insert target messageId payload nextRetryAt).nextId = outbox.nextId + 1 ∧
      ∀ key, (outbox.insert target messageId payload nextRetryAt).rows.get key =
        if key = outbox.nextId then some ⟨target, payload, messageId, 0, .direct, nextRetryAt⟩
        else outbox.rows.get key := by
  have hkey : ¬∃ row ∈ outbox.rows.rows, row.2.key = (target, messageId, .direct) := by
    rintro ⟨⟨id, row⟩, hrow, hkey⟩
    exact hnew id row (Table.get_eq_some_iff.mpr hrow) (congrArg (fun key => key.2.1) hkey)
  unfold insert
  rw [dif_neg hkey]
  exact ⟨rfl, fun key => Table.get_push _ _ _ _ (Table.get_next outbox.issued)⟩

theorem ackByMessageId_fst :
    (outbox.ackByMessageId target messageId).1 = true ↔
      ∃ id row, outbox.rows.get id = some row ∧ row.target = target ∧
        row.messageId = messageId := by
  unfold ackByMessageId
  rw [List.any_eq_true]
  constructor
  · rintro ⟨⟨id, row⟩, hrow, hsame⟩
    exact ⟨id, row, Table.get_eq_some_iff.mpr hrow, of_decide_eq_true hsame⟩
  · rintro ⟨id, row, hrow, hsame⟩
    exact ⟨(id, row), Table.get_eq_some_iff.mp hrow, decide_eq_true hsame⟩

theorem findDirectId_eq_some (h : outbox.findDirectId target messageId = some id) :
    ∃ row, outbox.rows.get id = some row ∧ row.target = target ∧ row.messageId = messageId := by
  obtain ⟨⟨key, row⟩, hfind, rfl⟩ := Option.map_eq_some_iff.mp h
  have hfound := List.find?_some hfind
  have hkey : row.key = (target, messageId, .direct) := of_decide_eq_true hfound
  have hmem := List.mem_of_find?_eq_some hfind
  exact ⟨row, Table.get_eq_some_iff.mpr hmem, congrArg Prod.fst hkey,
    congrArg (fun key => key.2.1) hkey⟩

theorem mem_orderByNextRetryAt : row ∈ orderByNextRetryAt rows ↔ row ∈ rows :=
  (List.perm_insertionSort _ rows).mem_iff

def Precedes (row other : Nat × OutboxRow) : Prop :=
  row.2.nextRetryAt < other.2.nextRetryAt ∨
    (row.2.nextRetryAt = other.2.nextRetryAt ∧ row.1 < other.1)

instance (row other : Nat × OutboxRow) : Decidable (Precedes row other) :=
  inferInstanceAs (Decidable (_ < _ ∨ (_ = _ ∧ _ < _)))

theorem Precedes.asymm (h : Precedes row other) : ¬Precedes other row := by
  unfold Precedes at h ⊢
  omega

theorem Precedes.le (h : Precedes row other) : row.2.nextRetryAt ≤ other.2.nextRetryAt := by
  unfold Precedes at h
  omega

theorem Precedes.of_lt (hid : row.1 < other.1) (htime : row.2.nextRetryAt ≤ other.2.nextRetryAt) :
    Precedes row other := by
  unfold Precedes
  omega

/-- Rows in the order of their ids, as a table without another order has them. -/
def Ascending (rows : List (Nat × OutboxRow)) : Prop :=
  rows.Pairwise fun row other => row.1 < other.1

theorem pairwise_orderedInsert (hrow : ∀ other ∈ rows, row.1 < other.1) (h : rows.Pairwise Precedes)
    :
    (rows.orderedInsert (fun a b => a.2.nextRetryAt ≤ b.2.nextRetryAt) row).Pairwise Precedes := by
  induction rows with
  | nil => exact List.pairwise_singleton _ _
  | cons head rows ih =>
    obtain ⟨hhead, hrows⟩ := List.pairwise_cons.mp h
    rw [List.orderedInsert]
    split
    · next hle =>
      refine List.pairwise_cons.mpr ⟨fun other hother => ?_, h⟩
      refine .of_lt (hrow other hother) ?_
      rcases List.mem_cons.mp hother with rfl | hother
      · exact hle
      · exact hle.trans (hhead other hother).le
    · next hlt =>
      refine List.pairwise_cons.mpr ⟨fun other hother => ?_,
        ih (fun other hother => hrow other (List.mem_cons_of_mem _ hother)) hrows⟩
      rcases (List.mem_orderedInsert _).mp hother with rfl | hother
      · exact .inl (Int.not_le.mp hlt)
      · exact hhead other hother

theorem pairwise_orderByNextRetryAt (h : Ascending rows) :
    (orderByNextRetryAt rows).Pairwise Precedes := by
  induction rows with
  | nil => exact .nil
  | cons row rows ih =>
    obtain ⟨hrow, hrows⟩ := List.pairwise_cons.mp h
    refine pairwise_orderedInsert (fun other hother => ?_) (ih hrows)
    exact hrow other (mem_orderByNextRetryAt.mp hother)

theorem mem_front_of_precedes {front : List (Nat × OutboxRow)} (h : rows.Pairwise Precedes)
    (hfront : front <+: rows) (hrow : row ∈ front) (hother : other ∈ rows)
    (hprecedes : Precedes other row) : other ∈ front := by
  obtain ⟨back, rfl⟩ := hfront
  rcases List.mem_append.mp hother with hmem | hmem
  · exact hmem
  · exact absurd hprecedes ((List.pairwise_append.mp h).2.2 row hrow other hmem).asymm

theorem of_mem_dueDirectFor (h : row ∈ outbox.dueDirectFor target now limit) :
    outbox.rows.get row.1 = some row.2 ∧ row.2.target = target ∧ row.2.lane = .direct := by
  have hmem := mem_orderByNextRetryAt.mp (List.mem_of_mem_take h)
  obtain ⟨hrow, hdue⟩ := List.mem_filter.mp hmem
  have hparts : row.2.nextRetryAt ≤ now ∧ row.2.target = target ∧ row.2.lane = .direct :=
    of_decide_eq_true hdue
  exact ⟨Table.get_eq_some_iff.mpr hrow, hparts.2⟩

theorem of_mem_dueMailbox (h : row ∈ outbox.dueMailbox now limit) :
    outbox.rows.get row.1 = some row.2 :=
  Table.get_eq_some_iff.mpr
    (List.mem_filter.mp (mem_orderByNextRetryAt.mp (List.mem_of_mem_take h))).1

theorem of_mem_due (h : row ∈ outbox.due now limit) : outbox.rows.get row.1 = some row.2 :=
  Table.get_eq_some_iff.mpr
    (List.mem_filter.mp (mem_orderByNextRetryAt.mp (List.mem_of_mem_take h))).1

theorem nodup_dueDirectFor (outbox : Outbox) (target : PublicKey) (now : Int) (limit : Nat) :
    ((outbox.dueDirectFor target now limit).map fun row => row.2.messageId).Nodup := by
  have hids : ((outbox.dueDirectFor target now limit).map Prod.fst).Nodup := by
    refine ((List.take_sublist _ _).map Prod.fst).nodup ?_
    refine ((List.perm_insertionSort _ _).map Prod.fst).nodup_iff.mpr ?_
    exact (List.filter_sublist.map Prod.fst).nodup outbox.rows.nodup
  refine List.Nodup.map_on ?_ (List.Nodup.of_map _ hids)
  intro row hrow other hother hsame
  obtain ⟨hget, htarget, hlane⟩ := of_mem_dueDirectFor hrow
  obtain ⟨hget', htarget', hlane'⟩ := of_mem_dueDirectFor hother
  have hid : row.1 = other.1 := by
    refine outbox.unique hget hget' ?_
    simp only [OutboxRow.key, htarget, htarget', hlane, hlane', hsame]
  rw [hid, hget'] at hget
  exact Prod.ext hid (Option.some.inj hget).symm

end Outbox

end Skattr.Core.Delivery
