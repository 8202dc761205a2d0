import Skattr.Core.Daemon.Receipt
import Skattr.Core.Daemon.SendFile

/-!
# Depositing chunks in mailboxes

A chunk sweep reads the deposits that are due and brings each chunk to a mailbox of the recipient.
The deposit that leaves none to make finalises the attachment. A world also remembers, for the
statements only, which chunks a mailbox has accepted and for which attachments deposits were queued.
A chunk that cannot be read is marked as deposited, and a finalisation that fails is not made again:
`complete_without_deposit` is a sweep that completes an attachment whose first chunk never left.
`deposits_accounted` says that in a run without these two faults, whatever else fails, a complete
attachment is in the mailboxes and one without pending deposits is complete.
-/

namespace Skattr.Core.Delivery.ChunkSweep

open Lib Lib.Fallible
open Daemon (FileDeps FileEnv FileState plainDeps fileEnv linkedTables)

variable {G : Type}

def BACKOFF_MS : List Int := [15000, 60000, 300000, 900000]

/-- What the turn of one row meets: which reads and writes fail, and how a mailbox answers when it
is tried at a position of the walk. -/
structure RowEnv where
  mailboxFault : Bool
  chunkFault : Bool
  connects : Nat → String → Bool
  takes : Nat → String → Bool
  markFault : Bool
  rescheduleFault : Bool
  allFault : Bool
  deleteFault : Bool
  removeFault : Bool
  statusFault : Bool

/-- What a sweep meets; `rows` is for the due rows in their order. -/
structure SweepEnv where
  now : Int
  batch : Nat
  dueFault : Bool
  rows : Nat → RowEnv

abbrev ChunkKey := AttachmentId × UInt32

/-- The daemon with the chunks that mailboxes have accepted, and the attachments that deposits were
queued for. -/
structure Depot where
  files : FileState
  accepted : List ChunkKey
  queued : List AttachmentId

namespace Depot

def tables (world : Depot) : Tables := world.files.daemon.tables

def row (world : Depot) (id : AttachmentId) : Option AttachmentRow :=
  AttachmentRepo.get world.tables id

def deposit (world : Depot) (key : ChunkKey) : Option ChunkDepositRow :=
  world.tables.attachmentDeposits.get key

def chunk (world : Depot) (key : ChunkKey) : Option Bytes := world.files.chunks.getChunk key.1 key.2

def setTables (world : Depot) (tables : Tables) : Depot :=
  { world with
    files := { world.files with daemon := { world.files.daemon with tables := tables } } }

end Depot

/-! ### The sweep -/

def reschedule (env : RowEnv) (now : Int) (due : ChunkKey × ChunkDepositRow) (world : Depot) :
    Depot :=
  let attempts := min (due.2.attempts + 1) (2 ^ 32 - 1)
  let next := now + BACKOFF_MS.getD (min attempts BACKOFF_MS.length - 1) 0
  if env.rescheduleFault then world
  else world.setTables (AttachmentDepositRepo.reschedule world.tables due.1 attempts next)

def markDeposited (env : RowEnv) (key : ChunkKey) (world : Depot) : Depot :=
  if env.markFault then world
  else world.setTables (AttachmentDepositRepo.markDeposited world.tables key)

/-- If that was the last deposit, delete the deposits and the staged chunks and complete the
attachment. Each failure is only logged. -/
def finalise (env : RowEnv) (id : AttachmentId) (world : Depot) : Depot :=
  if env.allFault = false ∧ AttachmentDepositRepo.allDeposited world.tables id then
    let tables := world.tables
    let tables :=
      if env.deleteFault then tables else AttachmentDepositRepo.deleteForAttachment tables id
    let chunks := if env.removeFault then world.files.chunks else world.files.chunks.remove id
    let tables := if env.statusFault then tables else AttachmentRepo.setStatus tables id .complete
    { world with files := ⟨{ world.files.daemon with tables := tables }, chunks⟩ }
  else world

def mailboxes (env : RowEnv) (world : Depot) (recipient : PublicKey) : List String :=
  if env.mailboxFault then [] else MailboxRepo.listForContact world.tables recipient

def readChunk (env : RowEnv) (world : Depot) (key : ChunkKey) : Option Bytes :=
  if env.chunkFault then none else world.chunk key

/-- Walk the mailboxes, from one that depends on the index, until one takes the chunk. -/
def depositChunk (env : RowEnv) (onions : List String) (index : UInt32) : Bool :=
  (onions.rotate (index.toNat % onions.length)).zipIdx.any fun (onion, offset) =>
    env.connects offset onion && env.takes offset onion

/-- The turn of one due row. A chunk that cannot be read is marked without a deposit, so that it is
not due again, and its attachment is not finalised in this turn. -/
def sweepRow (now : Int) (world : Depot) (turn : RowEnv × ChunkKey × ChunkDepositRow) : Depot :=
  let (env, due) := turn
  match mailboxes env world due.2.recipient with
  | [] => reschedule env now due world
  | onion :: onions =>
    match readChunk env world due.1 with
    | none => markDeposited env due.1 world
    | some _ =>
      if depositChunk env (onion :: onions) due.1.2 then
        finalise env due.1.1
          (markDeposited env due.1 { world with accepted := world.accepted ++ [due.1] })
      else reschedule env now due world

def turns (env : SweepEnv) (world : Depot) : List (RowEnv × ChunkKey × ChunkDepositRow) :=
  (AttachmentDepositRepo.due world.tables env.now env.batch).zipIdx.map fun (due, i) =>
    (env.rows i, due)

def runChunkSweep (env : SweepEnv) (world : Depot) : Depot :=
  if env.dueFault then world else (turns env world).foldl (sweepRow env.now) world

/-! ### Runs -/

/-- What the daemon does between the sweeps, and the sweeps. -/
inductive Action where
  | sendFile (env : FileEnv) (contact : PublicKey) (path : String)
  | dispatch (lane : Daemon.Lane) (env : Daemon.Env) (ciphertext : Bytes)
  | sweep (env : SweepEnv)

def step (deps : FileDeps G) (self : PublicKey) (world : Depot) : Action → Depot
  | .sendFile env contact path =>
    match exec (Daemon.sendFile deps env self contact path) world.files with
    | (.ok (id, _), files) =>
      let fresh :=
        if (files.daemon.tables.attachmentDeposits.get (id, 0)).isSome then [id] else []
      { world with files := files, queued := world.queued ++ fresh }
    | (.error _, files) => { world with files := files }
  | .dispatch lane env ciphertext =>
    let daemon := (lane.dispatch deps.daemon env ciphertext world.files.daemon).2
    { world with files := { world.files with daemon := daemon } }
  | .sweep env => runChunkSweep env world

/-! ### What a turn changes -/

namespace Depot

variable
  {transfers : Table AttachmentId AttachmentRow × Table ChunkKey Unit × Table ChunkKey
    ChunkDepositRow}

theorem row_eq {world : Depot} (h : world.tables.transfers = transfers) (id : AttachmentId) :
    world.row id = transfers.1.get id :=
  h ▸ rfl

theorem deposit_eq {world : Depot} (h : world.tables.transfers = transfers) (key : ChunkKey) :
    world.deposit key = transfers.2.2.get key :=
  h ▸ rfl

end Depot

/-- The deposits change by an update of single rows, the chunks and the attachments not at all. -/
structure Updates (f : ChunkKey → ChunkDepositRow → ChunkDepositRow) (before after : Depot) :
    Prop where
  row : ∀ id, after.row id = before.row id
  chunk : ∀ key, after.chunk key = before.chunk key
  deposit : ∀ key, after.deposit key = (before.deposit key).map (f key)
  queued : after.queued = before.queued

def atKey (key : ChunkKey) (f : ChunkDepositRow → ChunkDepositRow) (other : ChunkKey)
    (row : ChunkDepositRow) : ChunkDepositRow :=
  if other = key then f row else row

variable {key other : ChunkKey} {f : ChunkDepositRow → ChunkDepositRow}

theorem map_atKey {row : Option ChunkDepositRow} :
    row.map (atKey key f other) = if other = key then row.map f else row := by
  split
  · next h => cases row <;> simp [atKey, h]
  · next h => cases row <;> simp [atKey, h]

theorem Updates.refl (key : ChunkKey) (world : Depot) : Updates (atKey key id) world world :=
  ⟨fun _ => rfl, fun _ => rfl, fun other => by rw [map_atKey]; split <;> simp, rfl⟩

theorem Updates.modify (key : ChunkKey) (f : ChunkDepositRow → ChunkDepositRow) (world : Depot) :
    Updates (atKey key f) world (world.setTables { world.tables with
      attachmentDeposits := world.tables.attachmentDeposits.modify key f }) :=
  ⟨fun _ => rfl, fun _ => rfl, fun other => by rw [map_atKey]; exact Table.get_modify _ _ _ _, rfl⟩

theorem reschedule_updates (env : RowEnv) (now : Int) (due : ChunkKey × ChunkDepositRow)
    (world : Depot) :
    ∃ f, (∀ row, (f row).deposited = row.deposited) ∧
      Updates (atKey due.1 f) world (reschedule env now due world) ∧
      (reschedule env now due world).accepted = world.accepted := by
  unfold reschedule
  dsimp only
  split
  · exact ⟨id, fun _ => rfl, Updates.refl due.1 world, rfl⟩
  · refine ⟨_, ?_, Updates.modify due.1 _ world, rfl⟩
    exact fun _ => rfl

theorem markDeposited_updates (env : RowEnv) (key : ChunkKey) (world : Depot) :
    ∃ f, (∀ row, row.deposited = true → (f row).deposited = true) ∧
      Updates (atKey key f) world (markDeposited env key world) ∧
      (markDeposited env key world).accepted = world.accepted := by
  unfold markDeposited
  split
  · exact ⟨id, fun _ hdone => hdone, Updates.refl key world, rfl⟩
  · refine ⟨_, ?_, Updates.modify key _ world, rfl⟩
    exact fun _ _ => rfl

variable {after : Depot} {id : AttachmentId}

variable {before : Depot}

theorem Updates.deposit_ne (h : Updates (atKey key f) before after) (hother : other ≠ key) :
    after.deposit other = before.deposit other := by
  rw [h.deposit, map_atKey, if_neg hother]

theorem finalise_deposit (env : RowEnv) (id : AttachmentId) (world : Depot)
    (h : key.1 ≠ id ∨ ∃ row, world.deposit key = some row ∧ row.deposited = false) :
    (finalise env id world).deposit key = world.deposit key := by
  unfold finalise
  split
  · next hall =>
    have hother : key.1 ≠ id := by
      rcases h with hother | ⟨row, hrow, hpending⟩
      · exact hother
      · rintro rfl
        rw [AttachmentDepositRepo.allDeposited_iff.mp hall.2 key.2 row hrow] at hpending
        cases hpending
    have hdeleted : (if env.deleteFault then world.tables else
        AttachmentDepositRepo.deleteForAttachment world.tables id).attachmentDeposits.get key =
          world.deposit key := by
      split
      · rfl
      · rw [← Prod.eta key, AttachmentDepositRepo.get_deleteForAttachment, if_neg hother]
        rfl
    rw [← hdeleted]
    unfold Depot.deposit Depot.tables
    dsimp only
    split <;> rfl
  · rfl

theorem sweepRow_pending (now : Int) (world : Depot) (turn : RowEnv × ChunkKey × ChunkDepositRow)
    {row : ChunkDepositRow} (hkey : key ≠ turn.2.1) (hrow : world.deposit key = some row)
    (hpending : row.deposited = false) : (sweepRow now world turn).deposit key = some row := by
  obtain ⟨env, due⟩ := turn
  have hrescheduled : (reschedule env now due world).deposit key = some row := by
    obtain ⟨f, -, hupdates, -⟩ := reschedule_updates env now due world
    rw [hupdates.deposit_ne hkey, hrow]
  have hmarked (world : Depot) (hrow : world.deposit key = some row) :
      (markDeposited env due.1 world).deposit key = some row := by
    obtain ⟨f, -, hupdates, -⟩ := markDeposited_updates env due.1 world
    rw [hupdates.deposit_ne hkey, hrow]
  unfold sweepRow
  dsimp only
  split
  · exact hrescheduled
  · split
    · exact hmarked world hrow
    · split
      · have haccepted := hmarked { world with accepted := world.accepted ++ [due.1] } hrow
        rw [finalise_deposit _ _ _ (.inr ⟨row, haccepted, hpending⟩), haccepted]
      · exact hrescheduled

/-! ### Accounts -/

def Depot.Pending (world : Depot) (id : AttachmentId) : Prop :=
  ∃ index row, world.deposit (id, index) = some row ∧ row.deposited = false

def Depot.Finalised (world : Depot) (id : AttachmentId) : Prop :=
  (∀ index, world.deposit (id, index) = none) ∧
    ∃ row, world.row id = some row ∧ row.status = .complete

/-- Every chunk of a complete attachment was accepted by a mailbox, and an attachment that deposits
were queued for has a pending one or is finalised. -/
structure Depot.Accounted (world : Depot) : Prop where
  complete : ∀ {id row}, world.row id = some row → row.status = .complete →
    ∀ i < row.totalChunks, (id, UInt32.ofNat i) ∈ world.accepted
  finalised : ∀ id ∈ world.queued, world.Pending id ∨ world.Finalised id

/-- What every state of a run keeps: deposits belong to an attachment and are for all of its chunks,
those that were made are accepted, and the chunks of the others are staged. -/
structure Depot.Sound (world : Depot) : Prop extends Depot.Accounted world where
  owned : ∀ {key deposit}, world.deposit key = some deposit → ∃ row, world.row key.1 = some row
  whole : ∀ {key deposit row}, world.deposit key = some deposit → world.row key.1 = some row →
    ∀ i < row.totalChunks, ∃ other, world.deposit (key.1, UInt32.ofNat i) = some other
  made : ∀ {key deposit}, world.deposit key = some deposit → deposit.deposited = true →
    key ∈ world.accepted
  staged : ∀ {key deposit}, world.deposit key = some deposit → deposit.deposited = false →
    (world.chunk key).isSome

theorem Depot.Sound.update {f : ChunkKey → ChunkDepositRow → ChunkDepositRow} (h : before.Sound)
    (hupdates : Updates f before after) (haccepted : before.accepted ⊆ after.accepted)
    (hmade : ∀ key deposit, before.deposit key = some deposit → (f key deposit).deposited = true →
      deposit.deposited = true ∨ key ∈ after.accepted)
    (hkept : ∀ key deposit, before.deposit key = some deposit → deposit.deposited = true → (f key
      deposit).deposited = true) (hpending : ∀ id, before.Pending id → after.Pending id) :
    after.Sound := by
  have hback {key : ChunkKey} {deposit : ChunkDepositRow}
      (hdeposit : after.deposit key = some deposit) :
      ∃ old, before.deposit key = some old ∧ f key old = deposit := by
    rw [hupdates.deposit] at hdeposit
    exact Option.map_eq_some_iff.mp hdeposit
  refine ⟨⟨?_, ?_⟩, ?_, ?_, ?_, ?_⟩
  · intro id row hrow hstatus i hi
    rw [hupdates.row] at hrow
    exact haccepted (h.complete hrow hstatus i hi)
  · intro id hid
    rw [hupdates.queued] at hid
    rcases h.finalised id hid with hwaits | ⟨hnone, row, hrow, hstatus⟩
    · exact .inl (hpending id hwaits)
    · refine .inr ⟨fun index => ?_, row, ?_, hstatus⟩
      · rw [hupdates.deposit, hnone]
        rfl
      · rw [hupdates.row, hrow]
  · intro key deposit hdeposit
    obtain ⟨old, hold, -⟩ := hback hdeposit
    rw [hupdates.row]
    exact h.owned hold
  · intro key deposit row hdeposit hrow i hi
    obtain ⟨old, hold, -⟩ := hback hdeposit
    rw [hupdates.row] at hrow
    obtain ⟨other, hother⟩ := h.whole hold hrow i hi
    exact ⟨f _ other, by rw [hupdates.deposit, hother]; rfl⟩
  · intro key deposit hdeposit hdone
    obtain ⟨old, hold, rfl⟩ := hback hdeposit
    rcases hmade key old hold hdone with hdone | hmem
    · exact haccepted (h.made hold hdone)
    · exact hmem
  · intro key deposit hdeposit hopen
    obtain ⟨old, hold, rfl⟩ := hback hdeposit
    rw [hupdates.chunk]
    refine h.staged hold ?_
    cases hflag : old.deposited with
    | false => rfl
    | true =>
      rw [hkept key old hold hflag] at hopen
      cases hopen

variable {world : Depot}

theorem Depot.Sound.reschedule (env : RowEnv) (now : Int) (due : ChunkKey × ChunkDepositRow)
    (h : world.Sound) : (ChunkSweep.reschedule env now due world).Sound := by
  obtain ⟨f, hflag, hupdates, haccepted⟩ := reschedule_updates env now due world
  have hsame (key : ChunkKey) (row : ChunkDepositRow) :
      (atKey due.1 f key row).deposited = row.deposited := by
    unfold atKey
    split
    · exact hflag row
    · rfl
  refine h.update hupdates (fun key hkey => by rw [haccepted]; exact hkey) ?_ ?_ ?_
  · intro key deposit _ hdone
    rw [hsame] at hdone
    exact .inl hdone
  · intro key deposit _ hdone
    rw [hsame]
    exact hdone
  · rintro id ⟨index, row, hrow, hopen⟩
    refine ⟨index, atKey due.1 f (id, index) row, ?_, by rw [hsame]; exact hopen⟩
    rw [hupdates.deposit, hrow]
    rfl

theorem finalise_eq {env : RowEnv}
    (hall : AttachmentDepositRepo.allDeposited world.tables id = true)
    (hread : env.allFault = false) (hdelete : env.deleteFault = false)
    (hstatus : env.statusFault = false) :
    (∀ key, (finalise env id world).deposit key = if key.1 = id then none else world.deposit key) ∧
      (∀ other, (finalise env id world).row other = if other = id then
        (world.row other).map fun row => { row with status := .complete } else world.row other) ∧
      (∀ key, key.1 ≠ id → (finalise env id world).chunk key = world.chunk key) ∧
      (finalise env id world).accepted = world.accepted ∧
      (finalise env id world).queued = world.queued := by
  rw [finalise, if_pos ⟨hread, hall⟩, hdelete, hstatus]
  refine ⟨fun key => ?_, fun other => ?_, fun key hkey => ?_, rfl, rfl⟩
  · exact AttachmentDepositRepo.get_deleteForAttachment world.tables id key.1 key.2
  · exact Table.get_modify world.tables.attachments id other _
  · show (if env.removeFault then _ else _ : ChunkStore).getChunk key.1 key.2 = _
    split
    · rfl
    · rw [ChunkStore.getChunk_remove, if_neg hkey]
      rfl

section Deposited

variable {env : RowEnv} {key : ChunkKey} {world marked : Depot}
  {f : ChunkDepositRow → ChunkDepositRow} (h : world.Sound)
  (hupdates : Updates (atKey key f) world marked)
  (haccepted : marked.accepted = world.accepted ++ [key])

include h hupdates haccepted

theorem Depot.Sound.of_marked (hflag : ∀ row, row.deposited = true → (f row).deposited = true)
    (hall : AttachmentDepositRepo.allDeposited marked.tables key.1 = false) : marked.Sound := by
  refine h.update hupdates (by rw [haccepted]; exact List.subset_append_left _ _) ?_ ?_ ?_
  · intro other deposit _ hdone
    by_cases hother : other = key
    · rw [haccepted, hother]
      exact .inr (List.mem_append_right _ List.mem_cons_self)
    · rw [atKey, if_neg hother] at hdone
      exact .inl hdone
  · intro other deposit _ hdone
    unfold atKey
    split
    · exact hflag deposit hdone
    · exact hdone
  · rintro id ⟨index, row, hrow, hopen⟩
    by_cases hid : id = key.1
    · subst hid
      by_contra hnone
      have hdone : AttachmentDepositRepo.allDeposited marked.tables key.1 = true := by
        refine AttachmentDepositRepo.allDeposited_iff.mpr fun index row hrow => ?_
        by_contra hopen
        exact hnone ⟨index, row, hrow, Bool.eq_false_iff.mpr hopen⟩
      rw [hall] at hdone
      cases hdone
    · refine ⟨index, row, ?_, hopen⟩
      rw [hupdates.deposit_ne fun heq => hid (congrArg Prod.fst heq), hrow]

theorem Depot.Sound.all_accepted (hkey : ∃ deposit, world.deposit key = some deposit)
    (hall : AttachmentDepositRepo.allDeposited marked.tables key.1 = true) {row : AttachmentRow}
    (hrow : world.row key.1 = some row) :
    ∀ i < row.totalChunks, (key.1, UInt32.ofNat i) ∈ marked.accepted := by
  intro i hi
  obtain ⟨deposit, hdeposit⟩ := hkey
  obtain ⟨other, hother⟩ := h.whole hdeposit hrow i hi
  rw [haccepted, List.mem_append, List.mem_singleton]
  by_cases heq : (key.1, UInt32.ofNat i) = key
  · exact .inr heq
  · refine .inl (h.made hother ?_)
    rw [← hupdates.deposit_ne heq] at hother
    exact AttachmentDepositRepo.allDeposited_iff.mp hall (UInt32.ofNat i) other hother

theorem Depot.Sound.last (hkey : ∃ deposit, world.deposit key = some deposit)
    (hall : AttachmentDepositRepo.allDeposited marked.tables key.1 = true)
    (hread : env.allFault = false) (hdelete : env.deleteFault = false)
    (hstatus : env.statusFault = false) : (finalise env key.1 marked).Sound := by
  obtain ⟨hdeposits, hrows, hchunks, haccept, hqueued⟩ := finalise_eq hall hread hdelete hstatus
  have hsubset : world.accepted ⊆ (finalise env key.1 marked).accepted := by
    rw [haccept, haccepted]
    exact List.subset_append_left _ _
  -- the other attachments are as they were
  have hdeposit {other : AttachmentId} (hid : other ≠ key.1) (index : UInt32) :
      (finalise env key.1 marked).deposit (other, index) = world.deposit (other, index) := by
    rw [hdeposits, if_neg hid, hupdates.deposit_ne fun heq => hid (congrArg Prod.fst heq)]
  have hrow {other : AttachmentId} (hid : other ≠ key.1) :
      (finalise env key.1 marked).row other = world.row other := by
    rw [hrows, if_neg hid]
    exact hupdates.row other
  have hkept {other : ChunkKey} {row : ChunkDepositRow}
      (hget : (finalise env key.1 marked).deposit other = some row) :
      other.1 ≠ key.1 ∧ world.deposit other = some row := by
    by_cases hid : other.1 = key.1
    · rw [hdeposits, if_pos hid] at hget
      cases hget
    · rw [hdeposit hid] at hget
      exact ⟨hid, hget⟩
  refine ⟨⟨?_, ?_⟩, ?_, ?_, ?_, ?_⟩
  · intro id row hget hdone i hi
    by_cases hid : id = key.1
    · subst hid
      rw [hrows, if_pos rfl, hupdates.row] at hget
      obtain ⟨old, hold, rfl⟩ := Option.map_eq_some_iff.mp hget
      rw [haccept]
      exact h.all_accepted hupdates haccepted hkey hall hold i hi
    · rw [hrow hid] at hget
      exact hsubset (h.complete hget hdone i hi)
  · intro id hid
    rw [hqueued, hupdates.queued] at hid
    by_cases hown : id = key.1
    · subst hown
      obtain ⟨deposit, hget⟩ := hkey
      obtain ⟨row, hrow⟩ := h.owned hget
      refine .inr ⟨fun index => by rw [hdeposits, if_pos rfl], { row with status := .complete }, ?_,
        rfl⟩
      rw [hrows, if_pos rfl, hupdates.row, hrow]
      rfl
    · rcases h.finalised id hid with ⟨index, row, hget, hopen⟩ | ⟨hnone, row, hget, hdone⟩
      · exact .inl ⟨index, row, by rw [hdeposit hown, hget], hopen⟩
      · exact .inr ⟨fun index => by rw [hdeposit hown, hnone], row, by rw [hrow hown, hget], hdone⟩
  · intro other deposit hget
    obtain ⟨hid, hold⟩ := hkept hget
    rw [hrow hid]
    exact h.owned hold
  · intro other deposit row hget hown i hi
    obtain ⟨hid, hold⟩ := hkept hget
    rw [hrow hid] at hown
    rw [hdeposit hid]
    exact h.whole hold hown i hi
  · intro other deposit hget hdone
    exact hsubset (h.made (hkept hget).2 hdone)
  · intro other deposit hget hopen
    obtain ⟨hid, hold⟩ := hkept hget
    rw [hchunks other hid, hupdates.chunk]
    exact h.staged hold hopen

end Deposited

/-! ### Sweeps -/

/-- With a known mailbox the staged chunk can be read, and if a mailbox takes it, the statements of
the finalisation succeed. -/
def RowReliable (world : Depot) (turn : RowEnv × ChunkKey × ChunkDepositRow) : Prop :=
  let (env, due) := turn
  let onions := mailboxes env world due.2.recipient
  onions ≠ [] → env.chunkFault = false ∧ (depositChunk env onions due.1.2 = true →
    env.allFault = false ∧ env.deleteFault = false ∧ env.statusFault = false)

variable {turn : RowEnv × ChunkKey × ChunkDepositRow} {row : AttachmentRow} {env : SweepEnv}
  {now : Int} (deps : FileDeps G)

theorem Depot.Sound.sweepRow (h : world.Sound) (hreliable : RowReliable world turn)
    (hdue : ∃ row, world.deposit turn.2.1 = some row ∧ row.deposited = false) :
    (ChunkSweep.sweepRow now world turn).Sound := by
  obtain ⟨env, due⟩ := turn
  obtain ⟨row, hrow, hopen⟩ := hdue
  unfold RowReliable at hreliable
  unfold ChunkSweep.sweepRow
  dsimp only at hreliable hrow ⊢
  split
  · exact h.reschedule env now due
  · next onion onions hmailboxes =>
    rw [hmailboxes] at hreliable
    obtain ⟨hread, hfinal⟩ := hreliable (List.cons_ne_nil _ _)
    have hchunk : (readChunk env world due.1).isSome := by
      rw [readChunk, hread]
      exact h.staged hrow hopen
    split
    · next hnone =>
      rw [hnone] at hchunk
      cases hchunk
    · split
      · next htaken =>
        obtain ⟨hall, hdelete, hstatus⟩ := hfinal htaken
        obtain ⟨f, hflag, hupdates, haccepted⟩ := markDeposited_updates env due.1
          { world with accepted := world.accepted ++ [due.1] }
        have hmarks : Updates (atKey due.1 f) world (markDeposited env due.1
            { world with accepted := world.accepted ++ [due.1] }) :=
          ⟨hupdates.row, hupdates.chunk, hupdates.deposit, hupdates.queued⟩
        cases hlast : AttachmentDepositRepo.allDeposited (markDeposited env due.1
            { world with accepted := world.accepted ++ [due.1] }).tables due.1.1 with
        | false =>
          rw [finalise, if_neg fun hboth => Bool.false_ne_true (hlast.symm.trans hboth.2)]
          exact h.of_marked hmarks haccepted hflag hlast
        | true => exact h.last hmarks haccepted ⟨row, hrow⟩ hlast hall hdelete hstatus
      · exact h.reschedule env now due

theorem Depot.Sound.sweepRows {rows : List (RowEnv × ChunkKey × ChunkDepositRow)} (h : world.Sound)
    (hreliable : Meets (ChunkSweep.sweepRow now) RowReliable world rows)
    (hnodup : (rows.map fun turn => turn.2.1).Nodup)
    (hdue : ∀ turn ∈ rows, ∃ row, world.deposit turn.2.1 = some row ∧ row.deposited = false) :
    (rows.foldl (ChunkSweep.sweepRow now) world).Sound := by
  induction rows generalizing world with
  | nil => exact h
  | cons turn rows ih =>
    rw [List.map_cons, List.nodup_cons] at hnodup
    refine ih (h.sweepRow hreliable.1 (hdue turn List.mem_cons_self)) hreliable.2 hnodup.2 ?_
    intro later hlater
    obtain ⟨row, hrow, hopen⟩ := hdue later (List.mem_cons_of_mem _ hlater)
    have hkey : later.2.1 ≠ turn.2.1 := by
      intro hsame
      exact hnodup.1 (List.mem_map.mpr ⟨later, hlater, hsame⟩)
    exact ⟨row, sweepRow_pending now world turn hkey hrow hopen, hopen⟩

theorem mem_turns (h : turn ∈ turns env world) :
    turn.2 ∈ AttachmentDepositRepo.due world.tables env.now env.batch := by
  obtain ⟨⟨due, i⟩, hmem, rfl⟩ := List.mem_map.mp h
  exact List.fst_mem_of_mem_zipIdx hmem

theorem turns_keys (env : SweepEnv) (world : Depot) :
    (turns env world).map (fun turn => turn.2.1) =
      (AttachmentDepositRepo.due world.tables env.now env.batch).map Prod.fst := by
  rw [turns]
  generalize AttachmentDepositRepo.due world.tables env.now env.batch = due
  conv_rhs => rw [← List.zipIdx_map_fst 0 due]
  rw [List.map_map, List.map_map]
  rfl

def Reliable (world : Depot) : Action → Prop
  | .sweep env =>
    env.dueFault = false → Meets (ChunkSweep.sweepRow env.now) RowReliable world (turns env world)
  | _ => True

theorem Depot.Sound.runChunkSweep (h : world.Sound) (hreliable : Reliable world (.sweep env)) :
    (ChunkSweep.runChunkSweep env world).Sound := by
  unfold ChunkSweep.runChunkSweep
  split
  · exact h
  · next hdue =>
    refine h.sweepRows (hreliable (Bool.eq_false_iff.mpr hdue)) ?_ ?_
    · rw [turns_keys]
      exact AttachmentDepositRepo.nodup_due _ _ _
    · intro turn hturn
      exact ⟨turn.2.2, AttachmentDepositRepo.get_of_mem_due (mem_turns hturn)⟩

/-! ### Between the sweeps -/

theorem Depot.Sound.grows (h : world.Sound)
    (hold : ∀ {id row}, world.row id = some row → after.row id = some row)
    (hnew : ∀ {id row}, after.row id = some row → world.row id = some row ∨ row.status = .pending)
    (hdeposits : ∀ key, after.deposit key = world.deposit key)
    (hchunks : ∀ key, (world.chunk key).isSome → (after.chunk key).isSome)
    (haccepted : after.accepted = world.accepted) (hqueued : after.queued = world.queued) :
    after.Sound := by
  refine ⟨⟨?_, ?_⟩, ?_, ?_, ?_, ?_⟩
  · intro id row hrow hdone i hi
    rw [haccepted]
    rcases hnew hrow with hrow | hpending
    · exact h.complete hrow hdone i hi
    · rw [hdone] at hpending
      cases hpending
  · intro id hid
    rw [hqueued] at hid
    rcases h.finalised id hid with ⟨index, row, hget, hopen⟩ | ⟨hnone, row, hget, hdone⟩
    · exact .inl ⟨index, row, by rw [hdeposits, hget], hopen⟩
    · exact .inr ⟨fun index => by rw [hdeposits, hnone], row, hold hget, hdone⟩
  · intro key deposit hget
    rw [hdeposits] at hget
    obtain ⟨row, hrow⟩ := h.owned hget
    exact ⟨row, hold hrow⟩
  · intro key deposit row hget hrow i hi
    rw [hdeposits] at hget
    obtain ⟨known, hknown⟩ := h.owned hget
    cases hrow.symm.trans (hold hknown)
    rw [hdeposits]
    exact h.whole hget hknown i hi
  · intro key deposit hget hdone
    rw [hdeposits] at hget
    rw [haccepted]
    exact h.made hget hdone
  · intro key deposit hget hopen
    rw [hdeposits] at hget
    exact hchunks key (h.staged hget hopen)

theorem Depot.Sound.enqueue {recipient : PublicKey} {firstDueAt : Int} (h : world.Sound)
    (hrow : world.row id = some row) (hpending : row.status = .pending)
    (hfree : ∀ index, world.deposit (id, index) = none)
    (hstaged : ∀ i < row.totalChunks, (world.chunk (id, UInt32.ofNat i)).isSome)
    (hrows : ∀ id, after.row id = world.row id)
    (hdeposits : after.tables.attachmentDeposits = (AttachmentDepositRepo.enqueueAll world.tables
      id recipient row.totalChunks firstDueAt).attachmentDeposits)
    (hchunks : ∀ key, after.chunk key = world.chunk key)
    (haccepted : after.accepted = world.accepted)
    (hqueued : ∀ other ∈ after.queued, other ∈ world.queued ∨ (other = id ∧ (after.deposit (id,
      0)).isSome)) : after.Sound := by
  have hget {key : ChunkKey} {deposit : ChunkDepositRow} : after.deposit key = some deposit ↔
      world.deposit key = some deposit ∨ (world.deposit key = none ∧
        (∃ i < row.totalChunks, (id, UInt32.ofNat i) = key) ∧
        deposit = ⟨recipient, 0, firstDueAt, false⟩) := by
    rw [Depot.deposit, hdeposits]
    exact AttachmentDepositRepo.get_enqueueAll
  refine ⟨⟨?_, ?_⟩, ?_, ?_, ?_, ?_⟩
  · intro other found hfound hdone i hi
    rw [hrows] at hfound
    rw [haccepted]
    exact h.complete hfound hdone i hi
  · intro other hother
    rcases hqueued other hother with hother | ⟨rfl, hsome⟩
    · rcases h.finalised other hother with
        ⟨index, deposit, hold, hopen⟩ | ⟨hnone, found, hfound, hdone⟩
      · exact .inl ⟨index, deposit, hget.mpr (.inl hold), hopen⟩
      · have hother : other ≠ id := by
          rintro rfl
          cases hrow.symm.trans hfound
          rw [hdone] at hpending
          cases hpending
        refine .inr ⟨fun index => ?_, found, by rw [hrows, hfound], hdone⟩
        refine Option.eq_none_iff_forall_ne_some.mpr fun deposit hsome => ?_
        rcases hget.mp hsome with hold | ⟨-, ⟨i, -, heq⟩, -⟩
        · rw [hnone] at hold
          cases hold
        · exact hother (congrArg Prod.fst heq).symm
    · obtain ⟨deposit, hdeposit⟩ := Option.isSome_iff_exists.mp hsome
      refine .inl ⟨0, deposit, hdeposit, ?_⟩
      rcases hget.mp hdeposit with hold | ⟨-, -, rfl⟩
      · rw [hfree] at hold
        cases hold
      · rfl
  · intro key deposit hdeposit
    rw [hrows]
    rcases hget.mp hdeposit with hold | ⟨-, ⟨i, -, rfl⟩, -⟩
    · exact h.owned hold
    · exact ⟨row, hrow⟩
  · intro key deposit found hdeposit hfound i hi
    rw [hrows] at hfound
    by_cases hkey : key.1 = id
    · rw [hkey] at hfound ⊢
      cases hrow.symm.trans hfound
      exact ⟨_, hget.mpr (.inr ⟨hfree _, ⟨i, hi, rfl⟩, rfl⟩)⟩
    · rcases hget.mp hdeposit with hold | ⟨-, ⟨j, -, rfl⟩, -⟩
      · obtain ⟨other, hother⟩ := h.whole hold hfound i hi
        exact ⟨other, hget.mpr (.inl hother)⟩
      · exact absurd rfl hkey
  · intro key deposit hdeposit hdone
    rw [haccepted]
    rcases hget.mp hdeposit with hold | ⟨-, -, rfl⟩
    · exact h.made hold hdone
    · cases hdone
  · intro key deposit hdeposit hopen
    rw [hchunks]
    rcases hget.mp hdeposit with hold | ⟨-, ⟨i, hi, rfl⟩, -⟩
    · exact h.staged hold hopen
    · exact hstaged i hi

theorem Depot.Sound.insert {attachments : Table AttachmentId AttachmentRow} (h : world.Sound)
    (hinsert : world.tables.attachments.insert id row = some attachments)
    (hpending : row.status = .pending)
    (htransfers : after.tables.transfers = (attachments, world.tables.transfers.2))
    (hchunks : ∀ key, (world.chunk key).isSome → (after.chunk key).isSome)
    (haccepted : after.accepted = world.accepted) (hqueued : after.queued = world.queued) :
    after.Sound := by
  refine h.grows ?_ ?_ (Depot.deposit_eq htransfers) hchunks haccepted hqueued
  · intro other found hfound
    rw [Depot.row_eq htransfers]
    exact Table.get_insert_of_some hinsert hfound
  · intro other found hfound
    rw [Depot.row_eq htransfers, Table.get_insert hinsert] at hfound
    split at hfound
    · cases hfound
      exact .inr hpending
    · exact .inl hfound

theorem Depot.Sound.of_transfers (h : world.Sound)
    (htransfers : after.tables.transfers = world.tables.transfers)
    (hchunks : ∀ key, (world.chunk key).isSome → (after.chunk key).isSome)
    (haccepted : after.accepted = world.accepted) (hqueued : after.queued = world.queued) :
    after.Sound := by
  refine h.grows ?_ ?_ (Depot.deposit_eq htransfers) hchunks haccepted hqueued
  · intro id row hget
    rw [Depot.row_eq htransfers]
    exact hget
  · intro id row hget
    rw [Depot.row_eq htransfers] at hget
    exact .inl hget

theorem Depot.Sound.sendFile (self : PublicKey) (h : world.Sound) (env : FileEnv)
    (contact : PublicKey) (path : String) :
    (step deps self world (.sendFile env contact path)).Sound := by
  rcases hsend : exec (Daemon.sendFile deps env self contact path) world.files with ⟨result, files⟩
  rw [step, hsend]
  rcases Daemon.sendFile_cases hsend with ⟨⟨e, rfl⟩, hsame, hchunks⟩ |
    ⟨manifest, cts, tables, hprepare, hstage, hinserted, hrest⟩
  · refine h.of_transfers hsame (fun key hkey => ?_) rfl rfl
    show (files.chunks.getChunk key.1 key.2).isSome
    rcases hchunks with hchunks | ⟨id, cts, hchunks⟩
    · rw [hchunks]
      exact hkey
    · rw [hchunks]
      exact Daemon.stageChunks_keeps hkey
  have hchunks (key : ChunkKey) (hkey : (world.chunk key).isSome) :
      (files.chunks.getChunk key.1 key.2).isSome := by
    have hkept : ((Daemon.stageChunks env.putFault manifest.attachmentId 0 cts
        world.files.chunks).2.getChunk key.1 key.2).isSome := Daemon.stageChunks_keeps hkey
    rw [hstage] at hkept
    exact hkept
  obtain ⟨attachments, hattachments, rfl⟩ := Daemon.insertOutbound_ok hinserted
  rcases hrest with ⟨⟨e, rfl⟩, hafter⟩ | ⟨sent, hsent, rfl, hafter⟩
  · exact h.insert hattachments rfl hafter hchunks rfl rfl
  -- the announced attachment, before its deposits are queued
  set announced : Depot :=
    { world with files := ⟨{ files.daemon with tables := sent }, files.chunks⟩ } with hannounced
  have hsound : announced.Sound := h.insert hattachments rfl hsent hchunks rfl rfl
  have hrow : announced.row manifest.attachmentId = some ⟨.outbound, manifest.toCbor,
      manifest.chunks.length, .pending, env.env.now, none⟩ := by
    have hget : sent.attachments = attachments := congrArg Prod.fst hsent
    show sent.attachments.get _ = _
    rw [hget, Table.get_insert hattachments, if_pos rfl]
  have hfree (index : UInt32) : announced.deposit (manifest.attachmentId, index) = none := by
    have hget : sent.attachmentDeposits = world.tables.attachmentDeposits :=
      congrArg (fun t => t.2.2) hsent
    show sent.attachmentDeposits.get _ = none
    rw [hget]
    refine Option.eq_none_iff_forall_ne_some.mpr fun deposit hdeposit => ?_
    obtain ⟨row, hknown⟩ := h.owned hdeposit
    cases hknown.symm.trans (Table.insert_eq_some hattachments).1
  dsimp only
  by_cases hqueues : manifest.totalSize ≤ MAX_OFFLINE_ATTACHMENT_BYTES ∧ ¬env.enqueueFault
  · rw [Daemon.enqueueDeposits, if_pos hqueues] at hafter
    refine hsound.enqueue hrow rfl hfree ?_ ?_ (congrArg Tables.attachmentDeposits hafter)
      (fun _ => rfl) rfl ?_
    · intro i hi
      refine Daemon.stageChunks_ok hstage (Nat.zero_le i) ?_
      rw [Nat.zero_add, ← Daemon.prepareFile_length hprepare]
      exact hi
    · intro id
      show files.daemon.tables.attachments.get id = sent.attachments.get id
      rw [hafter]
      rfl
    · intro other hother
      rcases List.mem_append.mp hother with hother | hother
      · exact .inl hother
      · split at hother
        · next hsome => exact .inr ⟨List.mem_singleton.mp hother, hsome⟩
        · cases hother
  · rw [Daemon.enqueueDeposits, if_neg hqueues] at hafter
    have hnone : files.daemon.tables.attachmentDeposits.get (manifest.attachmentId, 0) = none := by
      rw [hafter]
      exact hfree 0
    rw [hnone]
    refine hsound.of_transfers ?_ (fun _ hkey => hkey) rfl (List.append_nil _)
    show files.daemon.tables.transfers = sent.transfers
    rw [hafter]

theorem Depot.Sound.step (self : PublicKey) {action : Action} (h : world.Sound)
    (hreliable : Reliable world action) : (ChunkSweep.step deps self world action).Sound := by
  cases action with
  | sendFile env contact path => exact h.sendFile deps self env contact path
  | dispatch lane env ciphertext =>
    rcases Daemon.Lane.dispatch_transfers deps.daemon env ciphertext world.files.daemon lane with
      hsame | ⟨sender, manifest, m, attachments, -, -, hinsert, hafter⟩
    · exact h.of_transfers (congrArg Prod.fst hsame) (fun _ hkey => hkey) rfl rfl
    · exact h.insert hinsert rfl (congrArg Prod.fst hafter) (fun _ hkey => hkey) rfl rfl
  | sweep env => exact h.runChunkSweep hreliable

/-- In every run whose sweeps are reliable, whatever else fails, the chunks of a complete attachment
are in the mailboxes, and an attachment without pending deposits is finalised. -/
theorem deposits_accounted (deps : FileDeps G) (self : PublicKey) {world : Depot}
    (hworld : world.Sound) (actions : List Action)
    (hreliable : Meets (step deps self) Reliable world actions) :
    Along (step deps self) Depot.Accounted world actions := by
  have hsound : Along (step deps self) Depot.Sound world actions :=
    along_of_meets (fun _ _ h hreliable => h.step deps self hreliable) hworld hreliable
  exact hsound.imp fun _ h => h.toAccounted

/-! ### Sweeps with and without faults -/

theorem Depot.Sound.fresh {daemon : Daemon.State} (chunks : ChunkStore)
    (h : daemon.tables.transfers.1 = .empty ∧ daemon.tables.transfers.2.2 = .empty) :
    (Depot.mk ⟨daemon, chunks⟩ [] []).Sound := by
  have hrow (id : AttachmentId) : (Depot.mk ⟨daemon, chunks⟩ [] []).row id = none := by
    show daemon.tables.transfers.1.get id = none
    rw [h.1]
    rfl
  have hdeposit (key : ChunkKey) : (Depot.mk ⟨daemon, chunks⟩ [] []).deposit key = none := by
    show daemon.tables.transfers.2.2.get key = none
    rw [h.2]
    rfl
  refine ⟨⟨fun hget => ?_, fun id hid => nomatch hid⟩, fun hget => ?_, fun hget => ?_,
    fun hget => ?_, fun hget => ?_⟩
  · rw [hrow] at hget
    cases hget
  all_goals
    rw [hdeposit] at hget
    cases hget

theorem runChunkSweep_of_empty (h : world.tables.attachmentDeposits = .empty) (env : SweepEnv) :
    runChunkSweep env world = world := by
  unfold runChunkSweep turns AttachmentDepositRepo.due
  rw [h]
  split
  · rfl
  · simp [Table.empty]

def RowEnv.calm : RowEnv :=
  ⟨false, false, fun _ _ => true, fun _ _ => true, false, false, false, false, false, false⟩

def mailboxTables : Tables := { linkedTables with
  contacts := Table.empty.put (.fill 32 1) ⟨none, 0, List.replicate 32 7, false,
    [⟨⟨.fill 32 1, "peer.onion", ["mailbox.onion"], 1, 0⟩, .fill 64 0⟩]⟩ }

def stagedChunks : Depot :=
  ⟨⟨⟨mailboxTables, [], [], []⟩,
    ChunkStore.putChunk (ChunkStore.putChunk .empty (.fill 16 3) 0 [1]) (.fill 16 3) 1 [2]⟩, [], []⟩

def twoChunkRow : AttachmentRow := ⟨.outbound, [], 2, .pending, 0, none⟩

def twoChunks : Depot := { stagedChunks with
  files.daemon.tables := AttachmentDepositRepo.enqueueAll { mailboxTables with
    attachments := Table.empty.put (.fill 16 3) twoChunkRow } (.fill 16 3) (.fill 32 1) 2 0
  queued := [.fill 16 3] }

theorem twoChunks_sound : twoChunks.Sound := by
  have hinsert : stagedChunks.tables.attachments.insert (.fill 16 3) twoChunkRow =
      some (Table.empty.put (.fill 16 3) twoChunkRow) := rfl
  have hsound : (stagedChunks.setTables { mailboxTables with
      attachments := Table.empty.put (.fill 16 3) twoChunkRow }).Sound :=
    (Depot.Sound.fresh _ ⟨rfl, rfl⟩).insert hinsert rfl rfl (fun _ hkey => hkey) rfl rfl
  have hrow : (stagedChunks.setTables { mailboxTables with
      attachments := Table.empty.put (.fill 16 3) twoChunkRow }).row (.fill 16 3) =
        some twoChunkRow := rfl
  refine hsound.enqueue hrow rfl (fun _ => rfl) (by decide) (fun _ => rfl) rfl (fun _ => rfl) rfl ?_
  intro other hother
  exact .inr ⟨List.mem_singleton.mp hother, rfl⟩

def unreadableSweep : SweepEnv :=
  ⟨100, 30, false, fun i => { RowEnv.calm with chunkFault := i = 0 }⟩

def unwritableSweep : SweepEnv :=
  ⟨100, 30, false, fun _ => { RowEnv.calm with statusFault := true }⟩

/-- A sweep that cannot read the first chunk completes the attachment without it, and after one that
cannot write the status, no sweep completes it. -/
theorem complete_without_deposit :
    twoChunks.Sound ∧
      ((runChunkSweep unreadableSweep twoChunks).row (.fill 16 3)).map (·.status) = some .complete ∧
      (.fill 16 3, 0) ∉ (runChunkSweep unreadableSweep twoChunks).accepted ∧
      ((runChunkSweep unwritableSweep twoChunks).row (.fill 16 3)).map (·.status) = some .pending ∧
      ∀ env, runChunkSweep env (runChunkSweep unwritableSweep twoChunks) =
        runChunkSweep unwritableSweep twoChunks :=
  ⟨twoChunks_sound, by decide +kernel, by decide +kernel, by decide +kernel,
    fun env => runChunkSweep_of_empty (by decide +kernel) env⟩

/-- The mailbox takes the first chunk of a file and refuses the second one, another file of one
chunk is sent, and both chunks are taken after the pause. -/
def mailboxRun : List Action :=
  [.sweep ⟨100, 30, false, fun i => { RowEnv.calm with takes := fun _ _ => i = 0 }⟩,
    .sendFile { fileEnv [1, 2] with attachmentId := .fill 16 4 } (.fill 32 1) "video.bin",
    .sweep ⟨105000, 30, false, fun _ => .calm⟩]

theorem mailbox_run_accounted :
    Along (step plainDeps (.fill 32 0)) Depot.Accounted twoChunks mailboxRun ∧
      ((mailboxRun.take 1).foldl (step plainDeps (.fill 32 0)) twoChunks).accepted =
        [(.fill 16 3, 0)] ∧
      (mailboxRun.foldl (step plainDeps (.fill 32 0)) twoChunks).accepted =
        [(.fill 16 3, 0), (.fill 16 3, 1), (.fill 16 4, 0)] ∧
      ∀ id ∈ [.fill 16 3, .fill 16 4], ((mailboxRun.foldl (step plainDeps (.fill 32 0))
        twoChunks).row id).map (·.status) = some .complete := by
  refine ⟨deposits_accounted plainDeps (.fill 32 0) twoChunks_sound mailboxRun
    ⟨fun _ => ?_, trivial, fun _ => ?_, trivial⟩, by decide +kernel, by decide +kernel,
    by decide +kernel⟩
  all_goals
    refine meets_of_forall (fun turn hturn world => ?_) _
    obtain ⟨due, -, rfl⟩ := List.mem_map.mp hturn
    exact fun _ => ⟨rfl, fun _ => ⟨rfl, rfl, rfl⟩⟩

end Skattr.Core.Delivery.ChunkSweep
