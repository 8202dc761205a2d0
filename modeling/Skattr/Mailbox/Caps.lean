import Mathlib.Algebra.Order.BigOperators.Group.List
import Mathlib.Data.Finset.Card
import Skattr.Lib.Run
import Skattr.Lib.Transaction
import Skattr.Mailbox.Store

/-!
# The store's transactions and its caps

The calls of the deposit store as transactions over the `deposits` table, statement by statement.
The storage may fail at any statement from which on it keeps failing. A failed `DELETE`, `INSERT`
or commit is an error of the call, and a failed aggregate reads as zero; either way the
transaction rolls back. `insertTx_effects` says that a transaction without a fault computes the
pure `Store.insert`.

`WithinCaps` is what the three caps promise, and `call_withinCaps` that every call keeps it.
-/

namespace Skattr.Mailbox

open Lib

namespace Store

open Fallible Tx

def storageFault : MailboxError := .storage (.sqlite "disk I/O error")

/-- The body of a transaction over the `deposits` table. -/
abbrev StoreTx := Tx MailboxError Store

/-! ### The transactions -/

def evictLoopTx (targetBytes : Nat) : Nat → List (DepositId × DepositRow) → StoreTx Unit
  | _, [] => pure ()
  | freed, row :: candidates => do
      update storageFault fun store => Table.delete store row.1
      if freed + row.2.ciphertext.length ≥ targetBytes then pure ()
      else evictLoopTx targetBytes (freed + row.2.ciphertext.length) candidates

variable (recipient : RecipientHash)

def evictExpiredForTx (targetBytes : Nat) (now : Int) :
    StoreTx Unit := do
  let candidates ← select storageFault fun store =>
    orderByDepositedAt ((store.rowsFor recipient).filter fun row => row.2.expiresAt < now)
  evictLoopTx targetBytes 0 candidates

def evictExpiredGlobalTx (targetBytes : Nat) (now : Int) : StoreTx Unit := do
  let candidates ← select storageFault fun store =>
    orderByDepositedAt (store.rows.filter fun row => row.2.expiresAt < now)
  evictLoopTx targetBytes 0 candidates

def fitRecipientTx (newLen capBytes : Nat) (now : Int) :
    StoreTx Unit := do
  let existing ← selectOr 0 fun store => bytesOf (store.rowsFor recipient)
  if existing + newLen > capBytes then do
    evictExpiredForTx recipient (existing + newLen - capBytes) now
    let after ← selectOr 0 fun store => bytesOf (store.rowsFor recipient)
    ensure (¬ after + newLen > capBytes) (.policy .recipientFull)
  else pure ()

def checkRecipientLimitTx (maxRecipients : Nat) : StoreTx Unit := do
  let recipientRows ← selectOr 0 fun store => (store.rowsFor recipient).length
  if recipientRows = 0 then do
    let distinct ← selectOr 0 distinctRecipients
    ensure (¬ distinct ≥ maxRecipients) (.policy .recipientLimit)
  else pure ()

def fitGlobalTx (newLen capBytes : Nat) (now : Int) : StoreTx Unit := do
  let total ← selectOr 0 fun store => bytesOf store.rows
  if total + newLen > capBytes then do
    evictExpiredGlobalTx (total + newLen - capBytes) now
    let after ← selectOr 0 fun store => bytesOf store.rows
    ensure (¬ after + newLen > capBytes) (.policy .serverFull)
  else pure ()

def insertRow (id : DepositId) (row : DepositRow) (store : Store) : Except MailboxError Store :=
  match Table.insert store id row with
  | some store => pure store
  | none => throw (.storage (.sqlite "UNIQUE constraint failed: deposits.deposit_id"))

def insertTx (id : DepositId) (row : DepositRow) (recipientCapBytes globalStorageCapBytes
    maxRecipients : Nat) (now : Int) : StoreTx Unit := do
  let newLen := row.ciphertext.length
  fitRecipientTx row.recipientHash newLen recipientCapBytes now
  checkRecipientLimitTx row.recipientHash maxRecipients
  fitGlobalTx newLen globalStorageCapBytes now
  statement storageFault fun store => (insertRow id row store).map fun store => ((), store)

def deleteLoopTx (recipient : RecipientHash) : Nat → List DepositId → StoreTx Nat
  | deleted, [] => pure deleted
  | deleted, id :: ids => do
      let n ← statement storageFault fun store =>
        let next := Table.deleteWhere store fun key row => key = id ∧ row.recipientHash = recipient
        .ok (store.rows.length - next.rows.length, next)
      deleteLoopTx recipient (deleted + n) ids

def deleteTx (ids : List DepositId) : StoreTx DeleteOk := do
  let deleted ← deleteLoopTx recipient 0 ids
  return ⟨deleted, ids.length - deleted⟩

/-- A call of the store. The `id` of an insert is the one that it draws at random. -/
inductive Op where
  | insert (id : DepositId) (row : DepositRow) (now : Int)
  | fetch (recipient : RecipientHash) (now : Int)
  | delete (recipient : RecipientHash) (ids : List DepositId)
  | expireSweep (now : Int)

inductive Outcome where
  | inserted (id : DepositId)
  | fetched (deposits : List PendingDeposit)
  | deleted (counts : DeleteOk)
  | swept (count : Nat)
  deriving DecidableEq

def Op.tx (policy : Policy) : Op → StoreTx Outcome
  | .insert id row now => do
      insertTx id row policy.recipientCapBytes policy.globalStorageCapBytes policy.maxRecipients now
      return .inserted id
  | .fetch recipient now => select storageFault fun store => .fetched (store.fetch recipient now)
  | .delete recipient ids => do
      let counts ← deleteTx recipient ids
      return .deleted counts
  | .expireSweep now => statement storageFault fun store =>
    .ok (.swept (store.rows.length - (store.expireSweep now).rows.length), store.expireSweep now)

/-- One call, with the number of statements after which the storage fails. -/
def call (policy : Policy) (store : Store) (op : Op) (budget : Option Nat) :
    Except MailboxError Outcome × Store :=
  Tx.run storageFault budget (op.tx policy) store

/-! ### What the transactions compute -/

theorem evictLoopTx_honest (target freed : Nat) (candidates : List (DepositId × DepositRow)) :
    Honest (evictLoopTx target freed candidates) := by
  induction candidates generalizing freed with
  | nil => exact honest_pure _
  | cons row candidates ih =>
    refine honest_bind (honest_statement _ _) fun _ => ?_
    exact honest_ite (honest_pure _) (ih _)

theorem evictLoopTx_effects (target freed : Nat) (candidates : List (DepositId × DepositRow))
    (store : Store) :
    Effects (evictLoopTx target freed candidates) store
      (.ok (evictLoop target freed candidates store)) := by
  induction candidates generalizing freed store with
  | nil => exact computes_pure _ _
  | cons row candidates ih =>
    refine computes_bind (computes_statement _ _ _) ?_
    simp only [evictLoop]
    split
    · exact computes_pure _ _
    · exact ih _ _

theorem fitRecipientTx_honest (recipient : RecipientHash) (newLen capBytes : Nat) (now : Int) :
    Honest (fitRecipientTx recipient newLen capBytes now) := by
  refine honest_bind (honest_selectOr _ _) fun existing => honest_ite ?_ (honest_pure _)
  refine honest_bind (honest_bind (honest_statement _ _) fun _ => evictLoopTx_honest _ _ _)
    fun _ => ?_
  exact honest_bind (honest_selectOr _ _) fun _ => honest_ensure _ _

theorem fitRecipientTx_effects (store : Store) (recipient : RecipientHash) (newLen capBytes : Nat)
    (now : Int) :
    Effects (fitRecipientTx recipient newLen capBytes now) store
      (store.fitRecipient recipient newLen capBytes now) := by
  refine computes_bind (computes_selectOr _ _ _) ?_
  simp only [fitRecipient]
  split
  · have hevict : Effects (evictExpiredForTx recipient
        (bytesOf (store.rowsFor recipient) + newLen - capBytes) now) store
        (.ok (store.evictExpiredFor recipient
          (bytesOf (store.rowsFor recipient) + newLen - capBytes) now)) :=
      computes_bind (computes_statement _ _ _) (evictLoopTx_effects _ _ _ _)
    refine computes_bind hevict (computes_bind (computes_selectOr _ _ _) ?_)
    rw [← ite_not]
    exact effects_ensure
  · exact computes_pure _ _

theorem checkRecipientLimitTx_honest (recipient : RecipientHash) (maxRecipients : Nat) :
    Honest (checkRecipientLimitTx recipient maxRecipients) := by
  refine honest_bind (honest_selectOr _ _) fun rows => honest_ite ?_ (honest_pure _)
  exact honest_bind (honest_selectOr _ _) fun _ => honest_ensure _ _

theorem checkRecipientLimitTx_effects (store : Store) (recipient : RecipientHash)
    (maxRecipients : Nat) :
    Effects (checkRecipientLimitTx recipient maxRecipients) store
      ((store.checkRecipientLimit recipient maxRecipients).map fun _ => store) := by
  refine computes_bind (computes_selectOr _ _ _) ?_
  unfold checkRecipientLimit
  by_cases hrows : (store.rowsFor recipient).length = 0
  · simp only [hrows, if_true, true_and]
    refine computes_bind (computes_selectOr _ _ _) ?_
    have hensure : Effects (ensure (¬ store.distinctRecipients ≥ maxRecipients)
        (MailboxError.policy .recipientLimit)) store
        (if ¬ store.distinctRecipients ≥ maxRecipients then .ok store
          else .error (.policy .recipientLimit)) := effects_ensure
    by_cases hfull : store.distinctRecipients ≥ maxRecipients
    · rw [if_pos hfull]
      rw [if_neg (not_not.mpr hfull)] at hensure
      exact hensure
    · rw [if_neg hfull]
      rw [if_pos hfull] at hensure
      exact hensure
  · simp only [hrows, if_false, false_and]
    exact computes_pure _ _

theorem fitGlobalTx_honest (newLen capBytes : Nat) (now : Int) :
    Honest (fitGlobalTx newLen capBytes now) := by
  refine honest_bind (honest_selectOr _ _) fun total => honest_ite ?_ (honest_pure _)
  refine honest_bind (honest_bind (honest_statement _ _) fun _ => evictLoopTx_honest _ _ _)
    fun _ => ?_
  exact honest_bind (honest_selectOr _ _) fun _ => honest_ensure _ _

theorem fitGlobalTx_effects (store : Store) (newLen capBytes : Nat) (now : Int) :
    Effects (fitGlobalTx newLen capBytes now) store (store.fitGlobal newLen capBytes now) := by
  refine computes_bind (computes_selectOr _ _ _) ?_
  simp only [fitGlobal]
  split
  · have hevict : Effects (evictExpiredGlobalTx (bytesOf store.rows + newLen - capBytes) now) store
        (.ok (store.evictExpiredGlobal (bytesOf store.rows + newLen - capBytes) now)) :=
      computes_bind (computes_statement _ _ _) (evictLoopTx_effects _ _ _ _)
    refine computes_bind hevict (computes_bind (computes_selectOr _ _ _) ?_)
    rw [← ite_not]
    exact effects_ensure
  · exact computes_pure _ _

theorem insertTx_honest (id : DepositId) (row : DepositRow) (recipientCap globalCap
    maxRecipients : Nat) (now : Int) :
    Honest (insertTx id row recipientCap globalCap maxRecipients now) := by
  refine honest_bind (fitRecipientTx_honest _ _ _ _) fun _ => ?_
  refine honest_bind (checkRecipientLimitTx_honest _ _) fun _ => ?_
  exact honest_bind (fitGlobalTx_honest _ _ _) fun _ => honest_statement _ _

theorem insertTx_effects (store : Store) (id : DepositId) (row : DepositRow) (recipientCap
    globalCap maxRecipients : Nat) (now : Int) :
    Effects (insertTx id row recipientCap globalCap maxRecipients now) store
      (store.insert id row recipientCap globalCap maxRecipients now) := by
  refine effects_bind (fitRecipientTx_effects _ _ _ _ _) fun first _ => ?_
  have hlimit := checkRecipientLimitTx_effects first row.recipientHash maxRecipients
  cases hcheck : first.checkRecipientLimit row.recipientHash maxRecipients with
  | error e =>
    rw [hcheck] at hlimit
    exact computes_bind_error hlimit
  | ok _ =>
    rw [hcheck] at hlimit
    refine computes_bind hlimit ?_
    exact effects_bind (fitGlobalTx_effects _ _ _ _) fun second _ => computes_statement _ _ _

theorem deleteLoopTx_honest (recipient : RecipientHash) (deleted : Nat) (ids : List DepositId) :
    Honest (deleteLoopTx recipient deleted ids) := by
  induction ids generalizing deleted with
  | nil => exact honest_pure _
  | cons id ids ih => exact honest_bind (honest_statement _ _) fun _ => ih _

/-- One `DELETE` of the loop in `Store.delete`, with the number of rows deleted so far. -/
def deleteOne (acc : Store × Nat) (id : DepositId) : Store × Nat :=
  let next := Table.deleteWhere acc.1 fun key row => key = id ∧ row.recipientHash = recipient
  (next, acc.2 + (acc.1.rows.length - next.rows.length))

theorem deleteLoopTx_computes (store : Store) (recipient : RecipientHash) (deleted : Nat)
    (ids : List DepositId) :
    Computes (deleteLoopTx recipient deleted ids) store
      (.ok (ids.foldl (deleteOne recipient) (store, deleted)).swap) := by
  induction ids generalizing store deleted with
  | nil => exact computes_pure _ _
  | cons id ids ih => exact computes_bind (computes_statement _ _ _) (ih _ _)

theorem deleteTx_honest (recipient : RecipientHash) (ids : List DepositId) :
    Honest (deleteTx recipient ids) :=
  honest_bind (deleteLoopTx_honest _ _ _) fun _ => honest_pure _

theorem deleteTx_computes (store : Store) (recipient : RecipientHash) (ids : List DepositId) :
    Computes (deleteTx recipient ids) store (.ok (store.delete recipient ids).swap) :=
  computes_bind (deleteLoopTx_computes _ _ _ _) (computes_pure _ _)

theorem Op.tx_honest (policy : Policy) (op : Op) : Honest (op.tx policy) := by
  cases op with
  | insert id row now =>
    exact honest_bind (insertTx_honest _ _ _ _ _ _) fun _ => honest_pure _
  | fetch | expireSweep =>
    unfold Op.tx
    exact honest_statement _ _
  | delete recipient ids => exact honest_bind (deleteTx_honest _ _) fun _ => honest_pure _

def Op.result (policy : Policy) (store : Store) : Op → Except MailboxError (Outcome × Store)
  | .insert id row now =>
    (store.insert id row policy.recipientCapBytes policy.globalStorageCapBytes
      policy.maxRecipients now).map fun next => (.inserted id, next)
  | .fetch recipient now => .ok (.fetched (store.fetch recipient now), store)
  | .delete recipient ids =>
    .ok (.deleted (store.delete recipient ids).2, (store.delete recipient ids).1)
  | .expireSweep now =>
    .ok (.swept (store.rows.length - (store.expireSweep now).rows.length), store.expireSweep now)

theorem Op.tx_computes (policy : Policy) (store : Store) (op : Op) :
    Computes (op.tx policy) store (op.result policy store) := by
  cases op with
  | insert id row now =>
    have heffects := insertTx_effects store id row policy.recipientCapBytes
      policy.globalStorageCapBytes policy.maxRecipients now
    show Computes _ _ ((store.insert id row policy.recipientCapBytes
      policy.globalStorageCapBytes policy.maxRecipients now).map _)
    cases hinsert : store.insert id row policy.recipientCapBytes policy.globalStorageCapBytes
        policy.maxRecipients now with
    | error e =>
      rw [hinsert] at heffects
      exact computes_bind_error heffects
    | ok next =>
      rw [hinsert] at heffects
      exact computes_bind heffects (computes_pure _ _)
  | fetch | expireSweep =>
    unfold Op.tx
    exact computes_statement _ _ store
  | delete recipient ids =>
    exact computes_bind (deleteTx_computes store recipient ids) (computes_pure _ _)

theorem call_cases (policy : Policy) (store : Store) (op : Op) (budget : Option Nat) :
    (∃ outcome next, op.result policy store = .ok (outcome, next) ∧
      store.call policy op budget = (.ok outcome, next)) ∨
      ∃ e, store.call policy op budget = (.error e, store) :=
  run_cases (op.tx_honest policy) (op.tx_computes policy store)

/-! ### Rows only leave -/

theorem bytesOf_sublist {rows kept : List (DepositId × DepositRow)} (h : kept.Sublist rows) :
    bytesOf kept ≤ bytesOf rows :=
  (h.map _).sum_le_sum fun _ _ => Nat.zero_le _

theorem evictLoop_sublist (target freed : Nat) (candidates : List (DepositId × DepositRow))
    (store : Store) : (evictLoop target freed candidates store).rows.Sublist store.rows := by
  induction candidates generalizing freed store with
  | nil => exact List.Sublist.refl _
  | cons candidate candidates ih =>
    have hone : (Table.delete store candidate.1).rows.Sublist store.rows := List.filter_sublist
    simp only [evictLoop]
    split
    · exact hone
    · exact (ih _ _).trans hone

variable {store next : Store} {recipient : RecipientHash} {now : Int} {policy : Policy}
  {row : DepositRow} {id : DepositId} {newLen cap : Nat}

theorem fitRecipient_sublist (h : store.fitRecipient recipient newLen cap now = .ok next) :
    next.rows.Sublist store.rows ∧ bytesOf (next.rowsFor recipient) + newLen ≤ cap := by
  simp only [fitRecipient] at h
  split at h
  · split at h
    · cases h
    · next hroom =>
      cases h
      exact ⟨evictLoop_sublist _ _ _ _, by omega⟩
  · next hroom =>
    cases h
    exact ⟨List.Sublist.refl _, by omega⟩

theorem fitGlobal_sublist (h : store.fitGlobal newLen cap now = .ok next) :
    next.rows.Sublist store.rows ∧ bytesOf next.rows + newLen ≤ cap := by
  simp only [fitGlobal] at h
  split at h
  · split at h
    · cases h
    · next hroom =>
      cases h
      exact ⟨evictLoop_sublist _ _ _ _, by omega⟩
  · next hroom =>
    cases h
    exact ⟨List.Sublist.refl _, by omega⟩

theorem delete_sublist (store : Store) (recipient : RecipientHash) (ids : List DepositId) :
    (store.delete recipient ids).1.rows.Sublist store.rows := by
  let Inv := fun acc : Store × Nat => acc.1.rows.Sublist store.rows
  have hstep : ∀ acc id, Inv acc → Inv (deleteOne recipient acc id) := by
    intro acc id hacc
    exact List.filter_sublist.trans hacc
  have hrun : Inv (ids.foldl (deleteOne recipient) (store, 0)) :=
    foldl_invariant hstep ids (List.Sublist.refl _)
  exact hrun

/-! ### The caps -/

def recipients (store : Store) : Finset RecipientHash :=
  (store.rows.map fun row => row.2.recipientHash).toFinset

theorem distinctRecipients_eq_card (store : Store) :
    store.distinctRecipients = store.recipients.card :=
  (List.card_toFinset _).symm

theorem recipients_subset (h : next.rows.Sublist store.rows) :
    next.recipients ⊆ store.recipients := by
  intro recipient hrecipient
  rw [recipients, List.mem_toFinset] at hrecipient ⊢
  exact (h.map _).subset hrecipient

theorem mem_recipients : recipient ∈ store.recipients ↔ store.rowsFor recipient ≠ [] := by
  rw [recipients, List.mem_toFinset, List.mem_map, ne_eq, rowsFor, List.filter_eq_nil_iff]
  constructor
  · rintro ⟨row, hrow, rfl⟩ hnone
    exact hnone row hrow (by simp)
  · intro hsome
    by_contra hnone
    refine hsome fun row hrow hhash => hnone ⟨row, hrow, ?_⟩
    simpa using hhash

/-- What the three caps of a policy promise. -/
structure WithinCaps (policy : Policy) (store : Store) : Prop where
  recipient : ∀ recipient, bytesOf (store.rowsFor recipient) ≤ policy.recipientCapBytes
  total : bytesOf store.rows ≤ policy.globalStorageCapBytes
  count : store.distinctRecipients ≤ policy.maxRecipients

theorem withinCaps_empty (policy : Policy) : WithinCaps policy Table.empty :=
  ⟨fun _ => Nat.zero_le _, Nat.zero_le _, Nat.zero_le _⟩

theorem WithinCaps.sublist (h : WithinCaps policy store) (hsub : next.rows.Sublist store.rows) :
    WithinCaps policy next where
  recipient recipient := (bytesOf_sublist (hsub.filter _)).trans (h.recipient recipient)
  total := (bytesOf_sublist hsub).trans h.total
  count := by
    rw [distinctRecipients_eq_card]
    exact (Finset.card_le_card (recipients_subset hsub)).trans
      (store.distinctRecipients_eq_card ▸ h.count)

theorem card_insert_of_checkRecipientLimit {maxRecipients : Nat}
    (hcount : store.distinctRecipients ≤ maxRecipients)
    (h : store.checkRecipientLimit recipient maxRecipients = .ok ()) :
    (Insert.insert recipient store.recipients).card ≤ maxRecipients := by
  unfold checkRecipientLimit at h
  split at h
  · cases h
  · next hroom =>
    rw [distinctRecipients_eq_card] at hcount hroom
    by_cases hknown : recipient ∈ store.recipients
    · rw [Finset.insert_eq_self.mpr hknown]
      exact hcount
    · have hnone : (store.rowsFor recipient).length = 0 := by
        rw [mem_recipients, not_not] at hknown
        rw [hknown, List.length_nil]
      have hcard := Finset.card_insert_le recipient store.recipients
      have hlt : store.recipients.card < maxRecipients := by
        by_contra hge
        exact hroom ⟨hnone, by omega⟩
      omega

theorem insert_withinCaps (h : WithinCaps policy store)
    (hinsert : store.insert id row policy.recipientCapBytes policy.globalStorageCapBytes
      policy.maxRecipients now = .ok next) : WithinCaps policy next := by
  obtain ⟨first, second, hfirst, hlimit, hsecond, hrows⟩ := insert_parts hinsert
  obtain ⟨hsub₁, hrecipient⟩ := fitRecipient_sublist hfirst
  obtain ⟨hsub₂, htotal⟩ := fitGlobal_sublist hsecond
  have hcaps₁ := h.sublist hsub₁
  have hcaps₂ := hcaps₁.sublist hsub₂
  constructor
  · intro recipient
    rw [rowsFor, hrows, List.filter_append]
    by_cases hhash : row.recipientHash = recipient
    · -- the evictions for the server only widen the room made for the recipient
      subst hhash
      have hle : bytesOf (second.rowsFor row.recipientHash) ≤
          bytesOf (first.rowsFor row.recipientHash) := bytesOf_sublist (hsub₂.filter _)
      simp only [bytesOf, rowsFor] at hle hrecipient ⊢
      simp only [List.filter_cons, List.filter_nil, decide_true, if_true, List.map_append,
        List.map_cons, List.map_nil, List.sum_append, List.sum_cons, List.sum_nil]
      omega
    · have hcap := hcaps₂.recipient recipient
      simp only [bytesOf, rowsFor] at hcap ⊢
      simpa [hhash] using hcap
  · rw [hrows]
    simp only [bytesOf] at htotal ⊢
    simp only [List.map_append, List.map_cons, List.map_nil, List.sum_append, List.sum_cons,
      List.sum_nil]
    omega
  · have hroom := card_insert_of_checkRecipientLimit hcaps₁.count hlimit
    have hsubset : next.recipients ⊆ Insert.insert row.recipientHash first.recipients := by
      intro recipient hrecipient
      rw [recipients, hrows, List.map_append, List.mem_toFinset, List.mem_append] at hrecipient
      rcases hrecipient with hold | hnew
      · exact Finset.mem_insert_of_mem (recipients_subset hsub₂ (List.mem_toFinset.mpr hold))
      · simp only [List.map_cons, List.map_nil, List.mem_singleton] at hnew
        rw [hnew]
        exact Finset.mem_insert_self _ _
    rw [distinctRecipients_eq_card]
    exact (Finset.card_le_card hsubset).trans hroom

theorem insert_of_result {outcome : Outcome}
    (h : Op.result policy store (.insert id row now) = .ok (outcome, next)) :
    store.insert id row policy.recipientCapBytes policy.globalStorageCapBytes
      policy.maxRecipients now = .ok next := by
  simp only [Op.result] at h
  cases hinsert : store.insert id row policy.recipientCapBytes policy.globalStorageCapBytes
      policy.maxRecipients now with
  | error e =>
    rw [hinsert] at h
    cases h
  | ok result =>
    rw [hinsert] at h
    cases h
    rfl

theorem call_withinCaps (op : Op) (budget : Option Nat) (h : WithinCaps policy store) :
    WithinCaps policy (store.call policy op budget).2 := by
  rcases call_cases policy store op budget with ⟨outcome, next, hresult, hcall⟩ | ⟨e, hcall⟩
  · rw [hcall]
    cases op with
    | insert id row now => exact insert_withinCaps h (insert_of_result hresult)
    | fetch recipient now =>
      cases hresult
      exact h
    | delete recipient ids =>
      cases hresult
      exact h.sublist (delete_sublist _ _ _)
    | expireSweep now =>
      cases hresult
      exact h.sublist List.filter_sublist
  · rw [hcall]
    exact h

theorem mem_call_insert (budget : Option Nat) {kept : DepositId × DepositRow}
    (hkept : kept ∈ store.rows) (hlive : now ≤ kept.2.expiresAt) :
    kept ∈ (store.call policy (.insert id row now) budget).2.rows := by
  rcases call_cases policy store (.insert id row now) budget with
    ⟨outcome, next, hresult, hcall⟩ | ⟨e, hcall⟩
  · rw [hcall]
    obtain ⟨room, hroom, hrows⟩ := insert_spec (insert_of_result hresult)
    show kept ∈ next.rows
    rw [hrows]
    exact List.mem_append_left _ (hroom.live kept hkept hlive)
  · rw [hcall]
    exact hkept

/-- In every run from an empty store the three caps hold at every moment. An insert removes only
rows that have expired, and an insert that fails changes nothing. -/
theorem calls_within_caps (policy : Policy) (calls : List (Op × Option Nat)) :
    Along (fun store c => (call policy store c.1 c.2).2) (WithinCaps policy) Table.empty calls ∧
      ∀ (store : Store) (id : DepositId) (row : DepositRow) (now : Int) (budget : Option Nat),
        (∀ kept ∈ store.rows, now ≤ kept.2.expiresAt →
          kept ∈ (store.call policy (.insert id row now) budget).2.rows) ∧
        ∀ e, (store.call policy (.insert id row now) budget).1 = .error e →
          (store.call policy (.insert id row now) budget).2 = store := by
  constructor
  · have hstep : ∀ (store : Store) (c : Op × Option Nat), WithinCaps policy store →
        WithinCaps policy (store.call policy c.1 c.2).2 := by
      intro store c h
      exact call_withinCaps c.1 c.2 h
    exact along_of_step hstep (withinCaps_empty policy) calls
  · intro store id row now budget
    refine ⟨fun kept hkept hlive => mem_call_insert budget hkept hlive, fun e he => ?_⟩
    rcases call_cases policy store (.insert id row now) budget with
      ⟨outcome, next, -, hcall⟩ | ⟨e', hcall⟩
    · rw [hcall] at he
      cases he
    · rw [hcall]

end Store

end Skattr.Mailbox
