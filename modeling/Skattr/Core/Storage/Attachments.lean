import Skattr.Core.Storage.Tables

/-!
# Attachments in storage

The repositories of attachments, of the bitmap of received chunks and of the deposits that wait for
a mailbox, and the directory that holds the ciphertexts of the chunks. A statement that a caller may
see fail is a function on the tables here; the caller's model decides when it does.
-/

namespace Skattr.Core

open Lib

/-! ### Chunks on disk -/

/-- The ciphertexts by attachment and index. -/
abbrev ChunkStore := Table (AttachmentId × UInt32) Bytes

namespace ChunkStore

def putChunk (store : ChunkStore) (id : AttachmentId) (index : UInt32) (ciphertext : Bytes) :
    ChunkStore :=
  store.put (id, index) ciphertext

def getChunk (store : ChunkStore) (id : AttachmentId) (index : UInt32) : Option Bytes :=
  store.get (id, index)

def remove (store : ChunkStore) (id : AttachmentId) : ChunkStore :=
  store.deleteWhere fun key _ => key.1 = id

theorem getChunk_putChunk_self (store : ChunkStore) (id : AttachmentId) (index : UInt32)
    (ciphertext : Bytes) :
    (store.putChunk id index ciphertext).getChunk id index = some ciphertext :=
  Table.get_put_self _ _ _

theorem getChunk_remove (store : ChunkStore) (id other : AttachmentId) (index : UInt32) :
    (store.remove id).getChunk other index =
      if other = id then none else store.getChunk other index := by
  rw [getChunk, remove, Table.get_deleteWhere]
  by_cases h : other = id <;> cases hrow : store.get (other, index) <;> simp [getChunk, hrow, h]

end ChunkStore

/-! ### Attachments and received chunks -/

namespace AttachmentRepo

def get (tables : Tables) (id : AttachmentId) : Option AttachmentRow := tables.attachments.get id

def insert (tables : Tables) (id : AttachmentId) (direction : TransferDirection)
    (manifest : Bytes) (totalChunks : Nat) (createdAt : Int) : Option Tables :=
  (tables.attachments.insert id ⟨direction, manifest, totalChunks, .pending, createdAt, none⟩).map
    fun attachments => { tables with attachments := attachments }

def setStatus (tables : Tables) (id : AttachmentId) (status : AttachmentStatus) : Tables :=
  { tables with
    attachments := tables.attachments.modify id fun row => { row with status := status } }

def markReceived (tables : Tables) (id : AttachmentId) (index : UInt32) : Tables :=
  { tables with attachmentChunks := tables.attachmentChunks.put (id, index) () }

def receivedIndices (tables : Tables) (id : AttachmentId) : List UInt32 :=
  ((tables.attachmentChunks.keys.filter fun key => key.1 = id).map Prod.snd).insertionSort (· ≤ ·)

/-- Move a pending attachment to a terminal status; tells whether this call did. -/
def claimTerminal (tables : Tables) (id : AttachmentId) (status : AttachmentStatus) :
    Bool × Tables :=
  if (tables.attachments.get id).any (·.status = .pending) then (true, setStatus tables id status)
  else (false, tables)

/-- Make a failed incoming attachment pending again; tells whether this call did. -/
def rearmFailedIn (tables : Tables) (id : AttachmentId) : Bool × Tables :=
  if (tables.attachments.get id).any fun row => row.direction = .inbound ∧ row.status = .failed then
    (true, setStatus tables id .pending)
  else (false, tables)

def listPendingIn (tables : Tables) : List (AttachmentId × Bytes) :=
  (tables.attachments.rows.filter fun row =>
    row.2.direction = .inbound ∧ row.2.status = .pending).map fun row => (row.1, row.2.manifest)

def peerFor (tables : Tables) (id : AttachmentId) : Option PublicKey :=
  (tables.attachments.get id).bind AttachmentRow.peer

theorem get_setStatus (tables : Tables) (id other : AttachmentId) (status : AttachmentStatus) :
    get (setStatus tables id status) other =
      if other = id then (get tables other).map fun row => { row with status := status }
      else get tables other :=
  Table.get_modify _ _ _ _

theorem mem_receivedIndices {tables : Tables} {id : AttachmentId} {index : UInt32} :
    index ∈ receivedIndices tables id ↔ (tables.attachmentChunks.get (id, index)).isSome := by
  have hkeys : (tables.attachmentChunks.get (id, index)).isSome ↔
      (id, index) ∈ tables.attachmentChunks.keys := by
    rw [← not_iff_not, ← Table.get_eq_none_iff]
    simp
  rw [hkeys, receivedIndices, (List.perm_insertionSort _ _).mem_iff, List.mem_map]
  constructor
  · rintro ⟨key, hkey, rfl⟩
    obtain ⟨hmem, hid⟩ := List.mem_filter.mp hkey
    cases of_decide_eq_true hid
    exact hmem
  · intro hmem
    exact ⟨(id, index), List.mem_filter.mpr ⟨hmem, decide_eq_true rfl⟩, rfl⟩

theorem of_mem_listPendingIn {tables : Tables} {id : AttachmentId} {manifest : Bytes}
    (h : (id, manifest) ∈ listPendingIn tables) :
    ∃ row, get tables id = some row ∧ row.direction = .inbound ∧ row.status = .pending ∧
      row.manifest = manifest := by
  obtain ⟨⟨key, row⟩, hrow, heq⟩ := List.mem_map.mp h
  obtain ⟨rfl, rfl⟩ := Prod.mk.inj heq
  obtain ⟨hmem, hstate⟩ := List.mem_filter.mp hrow
  obtain ⟨hdirection, hstatus⟩ := of_decide_eq_true hstate
  exact ⟨row, Table.get_eq_some_iff.mpr hmem, hdirection, hstatus, rfl⟩

end AttachmentRepo

/-! ### Deposits -/

namespace AttachmentDepositRepo

/-- Queue a deposit for each chunk, due at the same time. A chunk that is queued stays as it is. -/
def enqueueAll (tables : Tables) (id : AttachmentId) (recipient : PublicKey) (totalChunks : Nat)
    (firstDueAt : Int) : Tables :=
  { tables with
    attachmentDeposits := (List.range totalChunks).foldl
      (fun deposits i =>
        deposits.insertOrIgnore (id, UInt32.ofNat i) ⟨recipient, 0, firstDueAt, false⟩)
      tables.attachmentDeposits }

def due (tables : Tables) (now : Int) (limit : Nat) :
    List ((AttachmentId × UInt32) × ChunkDepositRow) :=
  ((tables.attachmentDeposits.rows.filter fun row =>
    row.2.deposited = false ∧ row.2.nextRetryAt ≤ now).insertionSort fun a b =>
      a.2.nextRetryAt ≤ b.2.nextRetryAt).take limit

def markDeposited (tables : Tables) (key : AttachmentId × UInt32) : Tables :=
  { tables with
    attachmentDeposits := tables.attachmentDeposits.modify key fun row =>
      { row with deposited := true } }

def reschedule (tables : Tables) (key : AttachmentId × UInt32) (attempts : Nat)
    (nextRetryAt : Int) : Tables :=
  { tables with
    attachmentDeposits := tables.attachmentDeposits.modify key fun row =>
      { row with attempts := attempts, nextRetryAt := nextRetryAt } }

def allDeposited (tables : Tables) (id : AttachmentId) : Bool :=
  tables.attachmentDeposits.rows.countP (fun row => row.1.1 = id ∧ row.2.deposited = false) = 0

def deleteForAttachment (tables : Tables) (id : AttachmentId) : Tables :=
  { tables with
    attachmentDeposits := tables.attachmentDeposits.deleteWhere fun key _ => key.1 = id }

variable {tables : Tables} {id : AttachmentId}

theorem get_enqueueAll {recipient : PublicKey} {totalChunks : Nat} {firstDueAt : Int}
    {key : AttachmentId × UInt32} {row : ChunkDepositRow} :
    (enqueueAll tables id recipient totalChunks firstDueAt).attachmentDeposits.get key = some row ↔
      tables.attachmentDeposits.get key = some row ∨
        (tables.attachmentDeposits.get key = none ∧
          (∃ i < totalChunks, (id, UInt32.ofNat i) = key) ∧
          row = ⟨recipient, 0, firstDueAt, false⟩) := by
  have hmem : (∃ i < totalChunks, (id, UInt32.ofNat i) = key) ↔
      key ∈ (List.range totalChunks).map fun i => (id, UInt32.ofNat i) := by
    simp only [List.mem_map, List.mem_range]
  rw [hmem, ← Table.get_foldl_insertOrIgnore, List.foldl_map]
  rfl

theorem get_of_mem_due {now : Int} {limit : Nat} {row : (AttachmentId × UInt32) × ChunkDepositRow}
    (h : row ∈ due tables now limit) :
    tables.attachmentDeposits.get row.1 = some row.2 ∧ row.2.deposited = false := by
  have hfilter := (List.perm_insertionSort _ _).mem_iff.mp (List.mem_of_mem_take h)
  obtain ⟨hmem, hdue⟩ := List.mem_filter.mp hfilter
  exact ⟨Table.get_eq_some_iff.mpr hmem, (of_decide_eq_true hdue).1⟩

theorem nodup_due (tables : Tables) (now : Int) (limit : Nat) :
    ((due tables now limit).map Prod.fst).Nodup := by
  refine List.Nodup.sublist ((List.take_sublist _ _).map Prod.fst) ?_
  refine ((List.perm_insertionSort _ _).map Prod.fst).nodup_iff.mpr ?_
  exact tables.attachmentDeposits.nodup.sublist (List.filter_sublist.map Prod.fst)

theorem allDeposited_iff :
    allDeposited tables id = true ↔ ∀ index row,
      tables.attachmentDeposits.get (id, index) = some row → row.deposited = true := by
  rw [allDeposited, decide_eq_true_iff, List.countP_eq_zero]
  constructor
  · intro h index row hrow
    have hnot := h ((id, index), row) (Table.get_eq_some_iff.mp hrow)
    simpa using hnot
  · intro h row hrow
    obtain ⟨⟨other, index⟩, row⟩ := row
    have hget := Table.get_eq_some_iff.mpr hrow
    rw [decide_eq_true_iff]
    rintro ⟨rfl, hpending⟩
    rw [h index row hget] at hpending
    cases hpending

theorem get_deleteForAttachment (tables : Tables) (id other : AttachmentId) (index : UInt32) :
    (deleteForAttachment tables id).attachmentDeposits.get (other, index) =
      if other = id then none else tables.attachmentDeposits.get (other, index) := by
  rw [deleteForAttachment, Table.get_deleteWhere]
  by_cases h : other = id <;>
    cases tables.attachmentDeposits.get (other, index) <;> simp [h]

end AttachmentDepositRepo

end Skattr.Core
