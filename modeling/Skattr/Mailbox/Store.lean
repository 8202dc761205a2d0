import Mathlib.Data.List.Sort
import Skattr.Lib.Fallible
import Skattr.Lib.Table
import Skattr.Mailbox.Policy

/-!
# The deposit store

The `deposits` table and its queries: the insert that enforces the per-recipient, per-server and
recipient-count caps after evicting expired rows, the fetch of every live row of a recipient, the
recipient's delete and the expiry sweep. `Store.insert_spec` says what an accepted insert does:
it appends the new row, and every row that it drops had expired.
-/

namespace Skattr.Mailbox

open Lib

/-- A row of the `deposits` table, its `deposit_id` apart. -/
structure DepositRow where
  recipientHash : RecipientHash
  ciphertext : Bytes
  depositedAt : Int
  expiresAt : Int
  deriving DecidableEq

/-- The `deposits` table, keyed by `deposit_id`. -/
abbrev Store := Table DepositId DepositRow

namespace Store

def bytesOf (rows : List (DepositId × DepositRow)) : Nat :=
  (rows.map fun row => row.2.ciphertext.length).sum

def rowsFor (store : Store) (recipient : RecipientHash) : List (DepositId × DepositRow) :=
  store.rows.filter fun row => row.2.recipientHash = recipient

def orderByDepositedAt (rows : List (DepositId × DepositRow)) : List (DepositId × DepositRow) :=
  rows.insertionSort fun a b => a.2.depositedAt ≤ b.2.depositedAt

def evictLoop (targetBytes : Nat) : Nat → List (DepositId × DepositRow) → Store → Store
  | _, [], store => store
  | freed, row :: candidates, store =>
    let store := store.delete row.1
    let freed := freed + row.2.ciphertext.length
    if freed ≥ targetBytes then store else evictLoop targetBytes freed candidates store

def evictExpiredFor (store : Store) (recipient : RecipientHash) (targetBytes : Nat)
    (now : Int) : Store :=
  let candidates := (store.rowsFor recipient).filter fun row => row.2.expiresAt < now
  evictLoop targetBytes 0 (orderByDepositedAt candidates) store

def evictExpiredGlobal (store : Store) (targetBytes : Nat) (now : Int) : Store :=
  let candidates := store.rows.filter fun row => row.2.expiresAt < now
  evictLoop targetBytes 0 (orderByDepositedAt candidates) store

def distinctRecipients (store : Store) : Nat :=
  (store.rows.map fun row => row.2.recipientHash).dedup.length

def fitRecipient (store : Store) (recipient : RecipientHash) (newLen capBytes : Nat)
    (now : Int) : Except MailboxError Store :=
  let existing := bytesOf (store.rowsFor recipient)
  if existing + newLen > capBytes then
    let evicted := store.evictExpiredFor recipient (existing + newLen - capBytes) now
    if bytesOf (evicted.rowsFor recipient) + newLen > capBytes then
      .error (.policy .recipientFull)
    else .ok evicted
  else .ok store

def checkRecipientLimit (store : Store) (recipient : RecipientHash) (maxRecipients : Nat) :
    Except MailboxError Unit :=
  if (store.rowsFor recipient).length = 0 ∧ store.distinctRecipients ≥ maxRecipients then
    .error (.policy .recipientLimit)
  else .ok ()

def fitGlobal (store : Store) (newLen capBytes : Nat) (now : Int) : Except MailboxError Store :=
  let total := bytesOf store.rows
  if total + newLen > capBytes then
    let evicted := store.evictExpiredGlobal (total + newLen - capBytes) now
    if bytesOf evicted.rows + newLen > capBytes then .error (.policy .serverFull)
    else .ok evicted
  else .ok store

/-- Insert a deposit under a fresh random id. A rejection rolls the transaction back. -/
def insert (store : Store) (id : DepositId) (row : DepositRow) (recipientCapBytes
    globalStorageCapBytes maxRecipients : Nat) (now : Int) : Except MailboxError Store := do
  let newLen := row.ciphertext.length
  let store ← store.fitRecipient row.recipientHash newLen recipientCapBytes now
  store.checkRecipientLimit row.recipientHash maxRecipients
  let store ← store.fitGlobal newLen globalStorageCapBytes now
  match Table.insert store id row with
  | some store => pure store
  | none => throw (.storage (.sqlite "UNIQUE constraint failed: deposits.deposit_id"))

def fetch (store : Store) (recipient : RecipientHash) (now : Int) : List PendingDeposit :=
  (orderByDepositedAt ((store.rowsFor recipient).filter fun row => row.2.expiresAt > now)).map
    fun row => ⟨row.1, row.2.ciphertext, row.2.depositedAt⟩

/-- Delete the recipient's rows with these ids; the counts are of deleted and of unknown ids. -/
def delete (store : Store) (recipient : RecipientHash) (ids : List DepositId) :
    Store × DeleteOk :=
  let result := ids.foldl (fun (acc : Store × Nat) id =>
    let next := Table.deleteWhere acc.1 fun key row => key = id ∧ row.recipientHash = recipient
    (next, acc.2 + (acc.1.rows.length - next.rows.length))) (store, 0)
  (result.1, ⟨result.2, ids.length - result.2⟩)

def expireSweep (store : Store) (now : Int) : Store :=
  Table.deleteWhere store fun _ row => row.expiresAt < now

/-! ### What the operations keep -/

variable {row : DepositId × DepositRow}
  {target freed recipientCap globalCap maxRecipients newLen cap : Nat}
  {candidates : List (DepositId × DepositRow)} {store next : Store} {now : Int}
  {recipient : RecipientHash} {id : DepositId} (ids : List DepositId)

theorem mem_orderByDepositedAt {rows : List (DepositId × DepositRow)} :
    row ∈ orderByDepositedAt rows ↔ row ∈ rows :=
  (List.perm_insertionSort _ rows).mem_iff

theorem mem_of_mem_evictLoop (h : row ∈ (evictLoop target freed candidates store).rows) :
    row ∈ store.rows := by
  induction candidates generalizing freed store with
  | nil => exact h
  | cons candidate candidates ih =>
    simp only [evictLoop] at h
    split at h
    · exact (Table.mem_delete.mp h).1
    · exact (Table.mem_delete.mp (ih h)).1

theorem mem_evictLoop (hrow : row ∈ store.rows)
    (hother : ∀ candidate ∈ candidates, row.1 ≠ candidate.1) :
    row ∈ (evictLoop target freed candidates store).rows := by
  induction candidates generalizing freed store with
  | nil => exact hrow
  | cons candidate candidates ih =>
    have hkept := Table.mem_delete.mpr ⟨hrow, hother candidate List.mem_cons_self⟩
    simp only [evictLoop]
    split
    · exact hkept
    · exact ih hkept fun c hc => hother c (List.mem_cons_of_mem _ hc)

theorem mem_evictLoop_of_live (hrow : row ∈ store.rows) (hlive : now ≤ row.2.expiresAt)
    (hexpired : ∀ c ∈ candidates, c ∈ store.rows ∧ c.2.expiresAt < now) :
    row ∈ (evictLoop target freed candidates store).rows := by
  refine mem_evictLoop hrow fun candidate hc hkey => ?_
  obtain ⟨hmem, hlt⟩ := hexpired candidate hc
  have heq := Table.row_unique hrow hmem hkey
  subst heq
  omega

/-- `next` is `store` without some rows that had expired. -/
structure Evicted (store next : Store) (now : Int) : Prop where
  subset : ∀ row ∈ next.rows, row ∈ store.rows
  live : ∀ row ∈ store.rows, now ≤ row.2.expiresAt → row ∈ next.rows

theorem Evicted.refl (store : Store) (now : Int) : Evicted store store now :=
  ⟨fun _ h => h, fun _ h _ => h⟩

theorem Evicted.trans {first second third : Store} (h₁ : Evicted first second now)
    (h₂ : Evicted second third now) : Evicted first third now :=
  ⟨fun row h => h₁.subset row (h₂.subset row h),
    fun row h hlive => h₂.live row (h₁.live row h hlive) hlive⟩

theorem evictExpiredFor_evicted (store : Store) (recipient : RecipientHash) (target : Nat)
    (now : Int) : Evicted store (store.evictExpiredFor recipient target now) now := by
  refine ⟨fun row h => mem_of_mem_evictLoop h, fun row h hlive => ?_⟩
  refine mem_evictLoop_of_live h hlive fun c hc => ?_
  rw [mem_orderByDepositedAt, List.mem_filter, rowsFor, List.mem_filter] at hc
  exact ⟨hc.1.1, of_decide_eq_true hc.2⟩

theorem evictExpiredGlobal_evicted (store : Store) (target : Nat) (now : Int) :
    Evicted store (store.evictExpiredGlobal target now) now := by
  refine ⟨fun row h => mem_of_mem_evictLoop h, fun row h hlive => ?_⟩
  refine mem_evictLoop_of_live h hlive fun c hc => ?_
  rw [mem_orderByDepositedAt, List.mem_filter] at hc
  exact ⟨hc.1, of_decide_eq_true hc.2⟩

theorem fitRecipient_evicted (h : store.fitRecipient recipient newLen cap now = .ok next) :
    Evicted store next now := by
  unfold fitRecipient at h
  simp only at h
  split at h
  · split at h
    · cases h
    · cases h
      exact evictExpiredFor_evicted _ _ _ _
  · cases h
    exact Evicted.refl _ _

theorem fitGlobal_evicted (h : store.fitGlobal newLen cap now = .ok next) :
    Evicted store next now := by
  unfold fitGlobal at h
  simp only at h
  split at h
  · split at h
    · cases h
    · cases h
      exact evictExpiredGlobal_evicted _ _ _
  · cases h
    exact Evicted.refl _ _

theorem insert_parts {row : DepositRow}
    (h : store.insert id row recipientCap globalCap maxRecipients now = .ok next) :
    ∃ first second : Store,
      store.fitRecipient row.recipientHash row.ciphertext.length recipientCap now = .ok first ∧
      first.checkRecipientLimit row.recipientHash maxRecipients = .ok () ∧
      first.fitGlobal row.ciphertext.length globalCap now = .ok second ∧
      next.rows = second.rows ++ [(id, row)] := by
  obtain ⟨first, hfirst, h⟩ := bind_eq_ok.mp h
  obtain ⟨u, hlimit, h⟩ := bind_eq_ok.mp h
  obtain ⟨second, hsecond, h⟩ := bind_eq_ok.mp h
  refine ⟨first, second, hfirst, hlimit, hsecond, ?_⟩
  split at h
  · next result hinsert =>
    cases h
    exact (Table.insert_eq_some hinsert).2
  · cases h

theorem insert_spec {row : DepositRow}
    (h : store.insert id row recipientCap globalCap maxRecipients now = .ok next) :
    ∃ room : Store, Evicted store room now ∧ next.rows = room.rows ++ [(id, row)] := by
  obtain ⟨first, second, hfirst, -, hsecond, hrows⟩ := insert_parts h
  exact ⟨second, (fitRecipient_evicted hfirst).trans (fitGlobal_evicted hsecond), hrows⟩

theorem insert_of_room {row : DepositRow}
    (hrecipient : bytesOf (store.rowsFor row.recipientHash) + row.ciphertext.length ≤ recipientCap)
    (hlimit : store.distinctRecipients < maxRecipients)
    (hglobal : bytesOf store.rows + row.ciphertext.length ≤ globalCap)
    (hfresh : Table.get store id = none) :
    store.insert id row recipientCap globalCap maxRecipients now =
      .ok (Table.push store id row hfresh) := by
  have hfit : store.fitRecipient row.recipientHash row.ciphertext.length recipientCap now =
      .ok store := by
    simp only [fitRecipient]
    rw [if_neg (by omega)]
  have hcheck : store.checkRecipientLimit row.recipientHash maxRecipients = .ok () := by
    unfold checkRecipientLimit
    rw [if_neg (by omega)]
  have hroom : store.fitGlobal row.ciphertext.length globalCap now = .ok store := by
    simp only [fitGlobal]
    rw [if_neg (by omega)]
  simp only [insert, bind, Except.bind, hfit, hcheck, hroom, Table.insert, dif_pos hfresh]
  rfl

theorem mem_fetch {row : DepositRow} (hrow : (id, row) ∈ store.rows)
    (hrecipient : row.recipientHash = recipient) (hlive : now < row.expiresAt) :
    ⟨id, row.ciphertext, row.depositedAt⟩ ∈ store.fetch recipient now := by
  refine List.mem_map.mpr ⟨(id, row), ?_, rfl⟩
  rw [mem_orderByDepositedAt, List.mem_filter, rowsFor, List.mem_filter]
  exact ⟨⟨hrow, by simpa using hrecipient⟩, by simpa using hlive⟩

theorem of_mem_fetch {deposit : PendingDeposit} (h : deposit ∈ store.fetch recipient now) :
    ∃ row, (deposit.depositId, row) ∈ store.rows ∧ row.recipientHash = recipient := by
  obtain ⟨row, hrow, rfl⟩ := List.mem_map.mp h
  rw [mem_orderByDepositedAt, List.mem_filter, rowsFor, List.mem_filter] at hrow
  exact ⟨row.2, hrow.1.1, of_decide_eq_true hrow.1.2⟩

theorem mem_delete_iff :
    row ∈ (store.delete recipient ids).1.rows ↔
      row ∈ store.rows ∧ (row.1 ∉ ids ∨ row.2.recipientHash ≠ recipient) := by
  -- the induction runs over the ids with the number of deleted rows as accumulator
  suffices h : ∀ (ids : List DepositId) (acc : Store × Nat),
      row ∈ (ids.foldl (fun (acc : Store × Nat) id =>
        let next := Table.deleteWhere acc.1 fun key row => key = id ∧ row.recipientHash = recipient
        (next, acc.2 + (acc.1.rows.length - next.rows.length))) acc).1.rows ↔
      row ∈ acc.1.rows ∧ (row.1 ∉ ids ∨ row.2.recipientHash ≠ recipient) from h ids (store, 0)
  intro ids
  induction ids with
  | nil => simp
  | cons id ids ih =>
    intro acc
    rw [List.foldl_cons, ih, Table.mem_deleteWhere, List.mem_cons, not_or]
    by_cases hid : row.1 = id <;> by_cases hhash : row.2.recipientHash = recipient <;>
      simp [hid, hhash]

theorem mem_delete (hrow : row ∈ store.rows)
    (hother : row.1 ∉ ids ∨ row.2.recipientHash ≠ recipient) :
    row ∈ (store.delete recipient ids).1.rows :=
  (mem_delete_iff ids).mpr ⟨hrow, hother⟩

theorem mem_expireSweep (hrow : row ∈ store.rows) (hlive : now ≤ row.2.expiresAt) :
    row ∈ (store.expireSweep now).rows :=
  Table.mem_deleteWhere.mpr ⟨hrow, by simpa using hlive⟩

end Store

end Skattr.Mailbox
