import Skattr.Core.Daemon.Receipt
import Skattr.Core.Daemon.SendFile
import Skattr.Core.Delivery.ChunkTransfer
import Mathlib.Data.List.Perm.Subperm

/-!
# Two lanes for incoming attachments

The chunks of an incoming attachment arrive on the direct lane, where the actor of the sender
requests them, and on the offline lane, from a mailbox. Both lanes record a chunk in the bitmap and
race to claim the terminal status of the row; the one that wins reports it. The offline lane looks
at the bitmap to see whether the file is there, but the direct lane counts in its `ChunkRx`, which
does not see what the other lane brings. `full_bitmap_failed` is a run in which the direct lane
brings the last chunk, does not notice it and fails the transfer. `attachments_settled` says that in
a run in which the direct lane brings the last chunk only when it waits for no other one, every
attachment with a full bitmap is complete and was reported once.
-/

namespace Skattr.Core.Delivery

open Lib Lib.Fallible
open Daemon (FileDeps FileState)

variable {G : Type}

inductive Outcome where
  | received (contact : PublicKey) (filename mime : String) (size : Nat)
  | failed (reason : String)
  deriving DecidableEq

def Outcome.status : Outcome → AttachmentStatus
  | .received .. => .complete
  | .failed _ => .failed

/-- The part of an actor that fetches attachments: the active fetch and the ones that wait. -/
structure RxActor where
  active : Option ChunkRx
  queue : List AttachmentManifest

/-- The daemon with the actors of its peers, the reports on each attachment since it was staged or
last armed again, and the reports of progress. -/
structure Intake where
  files : FileState
  actors : PublicKey → RxActor
  outcomes : AttachmentId → List Outcome
  progress : List (AttachmentId × Nat × Nat)

namespace Intake

def tables (world : Intake) : Tables := world.files.daemon.tables

def row (world : Intake) (id : AttachmentId) : Option AttachmentRow :=
  AttachmentRepo.get world.tables id

def received (world : Intake) (id : AttachmentId) (index : UInt32) : Bool :=
  (world.tables.attachmentChunks.get (id, index)).isSome

def begins (world : Intake) : List (PublicKey × AttachmentManifest) := world.files.daemon.begins

def setTables (world : Intake) (tables : Tables) : Intake :=
  { world with
    files := { world.files with daemon := { world.files.daemon with tables := tables } } }

def setActor (world : Intake) (peer : PublicKey) (actor : RxActor) : Intake :=
  { world with actors := Function.update world.actors peer actor }

def readIndices (world : Intake) (fault : Bool) (id : AttachmentId) : List UInt32 :=
  if fault then [] else AttachmentRepo.receivedIndices world.tables id

def putChunk (world : Intake) (id : AttachmentId) (index : UInt32) (ciphertext : Bytes) : Intake :=
  { world with files := { world.files with
      chunks := world.files.chunks.putChunk id index ciphertext } }

def markReceived (fault : Bool) (id : AttachmentId) (index : UInt32) (world : Intake) : Intake :=
  if fault then world else world.setTables (AttachmentRepo.markReceived world.tables id index)

def report (due : Bool) (id : AttachmentId) (recv total : Nat) (world : Intake) : Intake :=
  { world with progress := world.progress ++ if due then [(id, recv, total)] else [] }

/-- Claim the terminal status of an attachment and report it if this call moved it. -/
def claim (fault : Bool) (id : AttachmentId) (outcome : Outcome) (world : Intake) : Intake :=
  if fault then world
  else
    match AttachmentRepo.claimTerminal world.tables id outcome.status with
    | (true, tables) => { world.setTables tables with
        outcomes := Function.update world.outcomes id (world.outcomes id ++ [outcome]) }
    | (false, _) => world

end Intake

/-! ### The direct lane -/

/-- What starting the next fetch meets. Faults are numbered by the fetches left in the queue. -/
structure StartEnv where
  instant : Nat
  sent : Bool
  readFault : Nat → Bool
  claimFault : Nat → Bool

/-- What the actor meets: the clock, whether there is a connection, whether requests are
transmitted, and which reads and writes fail. -/
structure RxEnv where
  instant : Nat
  connected : Bool
  sent : Bool
  resent : Bool
  putFault : Bool
  markFault : Bool
  claimFault : Bool
  next : StartEnv
  drained : StartEnv

/-- The file is there. -/
def finalizeRx (fault : Bool) (peer : PublicKey) (rx : ChunkRx) (world : Intake) : Intake :=
  world.claim fault rx.attachmentId (.received peer (sanitizeFilename rx.manifest.filename)
    rx.manifest.mime rx.manifest.totalSize)

def failRx (fault : Bool) (rx : ChunkRx) (reason : String) (world : Intake) : Intake :=
  world.claim fault rx.attachmentId (.failed reason)

/-- Start the first fetch of the queue that has chunks to ask for. One that has none is finished. -/
def maybeStartNextRx (env : StartEnv) (peer : PublicKey) :
    List AttachmentManifest → Intake → Intake
  | [], world => world.setActor peer ⟨none, []⟩
  | manifest :: queue, world =>
    let rx := ChunkRx.new manifest
      (world.readIndices (env.readFault queue.length) manifest.attachmentId)
    if rx.isComplete then
      maybeStartNextRx env peer queue (finalizeRx (env.claimFault queue.length) peer rx world)
    else
      let (reqs, rx) := rx.nextRequests env.instant
      world.setActor peer ⟨some (if env.sent then rx else rx.unsent reqs), queue⟩

def countChunk (markFault : Bool) (rx : ChunkRx) (index : UInt32) (ciphertext : Bytes)
    (world : Intake) : Intake :=
  let counted := rx.onReceived index
  ((world.putChunk rx.attachmentId index ciphertext).markReceived markFault rx.attachmentId
    index).report (counted.received % 8 = 0 ∨ counted.received = counted.total) rx.attachmentId
      counted.received counted.total

/-- Take a chunk that has the right hash, and go on with the fetch or finish it. -/
def takeChunk (env : RxEnv) (peer : PublicKey) (rx : ChunkRx) (index : UInt32) (ciphertext : Bytes)
    (world : Intake) : Intake :=
  if env.putFault then world
  else
    let actor := world.actors peer
    let world := countChunk env.markFault rx index ciphertext world
    let rx := rx.onReceived index
    if rx.isComplete then
      maybeStartNextRx env.next peer actor.queue (finalizeRx env.claimFault peer rx world)
    else
      let (reqs, rx) := rx.nextRequests env.instant
      world.setActor peer { actor with active := some (if env.sent then rx else rx.unsent reqs) }

variable (deps : FileDeps G)

/-- Handle a chunk frame of the attachment that is being fetched; other frames are dropped. -/
def onChunk (env : RxEnv) (peer : PublicKey) (id : AttachmentId) (index : UInt32)
    (ciphertext : Bytes) (world : Intake) : Intake :=
  let actor := world.actors peer
  match actor.active.filter fun rx => rx.attachmentId = id with
  | none => world
  | some rx =>
    if rx.verify deps.crypto index ciphertext then takeChunk env peer rx index ciphertext world
    else
      match rx.onBad env.instant index with
      | (.request indices, rx) =>
        world.setActor peer { actor with
          active := some (if env.sent then rx else rx.unsent indices) }
      | (.fail, rx) =>
        maybeStartNextRx env.next peer actor.queue
          (failRx env.claimFault rx "chunk hash mismatch" world)

def onChunkNack (env : RxEnv) (peer : PublicKey) (id : AttachmentId) (reason : UInt8)
    (world : Intake) : Intake :=
  let actor := world.actors peer
  match actor.active.filter fun rx => rx.attachmentId = id with
  | none => world
  | some rx =>
    maybeStartNextRx env.next peer actor.queue
      (failRx env.claimFault rx s!"sender nack reason {reason}" world)

/-- Take over the fetches that were queued for the peer, and start one if none is active. -/
def collect (env : StartEnv) (peer : PublicKey) (world : Intake) : Intake :=
  let actor := world.actors peer
  let queue := actor.queue ++ (world.begins.filter (·.1 = peer)).map Prod.snd
  let world := { world with files := { world.files with daemon := { world.files.daemon with
    begins := world.begins.filter (·.1 ≠ peer) } } }
  match actor.active with
  | some rx => world.setActor peer ⟨some rx, queue⟩
  | none => maybeStartNextRx env peer queue world

def requestNeeded (env : RxEnv) (rx : ChunkRx) : ChunkRx :=
  if env.connected then
    let (reqs, rx) := rx.nextRequests env.instant
    if env.sent then rx else rx.unsent reqs
  else rx

def tick (env : RxEnv) (peer : PublicKey) (world : Intake) : Intake :=
  let actor := world.actors peer
  let world :=
    match actor.active with
    | none => world
    | some rx =>
      match (requestNeeded env rx).timedOut env.instant with
      | (.request indices, rx) =>
        world.setActor peer { actor with
          active := some (if env.resent then rx else rx.unsent indices) }
      | (.fail, rx) =>
        maybeStartNextRx env.next peer actor.queue
          (failRx env.claimFault rx "request timeout" world)
  if env.connected then collect env.drained peer world else world

def reconnect (env : RxEnv) (peer : PublicKey) (world : Intake) : Intake :=
  let actor := world.actors peer
  match actor.active with
  | none => world
  | some rx =>
    world.setActor peer { actor with
      active := some (if env.sent then rx else rx.unsent rx.reissue) }

/-! ### The offline lane -/

/-- What a chunk from a mailbox meets. -/
structure OfflineEnv where
  storeMissing : Bool
  listFault : Bool
  readFault : Bool
  putFault : Bool
  markFault : Bool
  countFault : Bool
  peerFault : Bool
  claimFault : Bool

/-- The first pending attachment that has a chunk with this hash, and the index of the chunk. -/
def matchChunk (decode : Bytes → Except String AttachmentManifest) (hash : ByteArr 32)
    (pending : List (AttachmentId × Bytes)) :
    Option (AttachmentId × AttachmentManifest × UInt32) :=
  pending.findSome? fun (id, bytes) =>
    match AttachmentManifest.fromCbor decode bytes with
    | .error _ => none
    | .ok manifest =>
      (manifest.chunks.find? fun chunk => chunk.ciphertextHash = hash).map fun chunk =>
        (id, manifest, chunk.index)

/-- The file is there. -/
def finalizeOffline (env : OfflineEnv) (id : AttachmentId) (manifest : AttachmentManifest)
    (world : Intake) : Intake :=
  let contact := if env.peerFault then none else AttachmentRepo.peerFor world.tables id
  world.claim env.claimFault id (.received (contact.getD (.fill 32 0))
    (sanitizeFilename manifest.filename) manifest.mime manifest.totalSize)

/-- The attachment and the index that a ciphertext from a mailbox belongs to. -/
def offlineMatch (env : OfflineEnv) (ciphertext : Bytes) (world : Intake) :
    Option (AttachmentId × AttachmentManifest × UInt32) :=
  if env.storeMissing ∨ env.listFault then none
  else matchChunk deps.daemon.manifest (deps.crypto.sha256 ciphertext)
    (AttachmentRepo.listPendingIn world.tables)

/-- Handle a ciphertext from a mailbox; the result tells whether it was taken and may be deleted. -/
def dispatchAttachmentChunk (env : OfflineEnv) (ciphertext : Bytes) (world : Intake) :
    Bool × Intake :=
  match offlineMatch deps env ciphertext world with
  | none => (false, world)
  | some (id, manifest, index) =>
    if (world.readIndices env.readFault id).contains index then (true, world)
    else if env.putFault then (false, world)
    else if env.markFault then (false, world.putChunk id index ciphertext)
    else
      let world := (world.putChunk id index ciphertext).markReceived false id index
      let now := (world.readIndices env.countFault id).length
      if manifest.chunks.length ≤ now then (true, finalizeOffline env id manifest world)
      else (true, world.report (now % 8 = 0) id now manifest.chunks.length)

/-! ### Stalled transfers and retries -/

/-- Fail the pending transfers whose chunks have not been touched for too long. -/
def autoFail (stalled claimFault : AttachmentId → Bool) (listFault : Bool) (world : Intake) :
    Intake :=
  let pending := if listFault then [] else AttachmentRepo.listPendingIn world.tables
  ((pending.map Prod.fst).filter stalled).foldl
    (fun world id => world.claim (claimFault id) id (.failed "transfer stalled")) world

def retryAttachment (fault : Bool) (id : AttachmentId) (world : Intake) : Intake :=
  if fault then world
  else
    match (world.row id).filter fun row => row.direction = .inbound ∧ row.status = .failed with
    | none => world
    | some row =>
      match row.peer, AttachmentManifest.fromCbor deps.daemon.manifest row.manifest with
      | some peer, .ok manifest =>
        let tables := (AttachmentRepo.rearmFailedIn world.tables id).2
        { world with
          files := ⟨{ world.files.daemon with
            tables := tables
            begins := world.begins ++ [(peer, manifest)] }, world.files.chunks⟩
          outcomes := Function.update world.outcomes id [] }
      | _, _ => world

/-! ### Runs -/

/-- What happens to the incoming attachments. -/
inductive Intake.Action where
  | dispatch (lane : Daemon.Lane) (env : Daemon.Env) (ciphertext : Bytes)
  | collect (env : StartEnv) (peer : PublicKey)
  | chunk (env : RxEnv) (peer : PublicKey) (id : AttachmentId) (index : UInt32) (ciphertext : Bytes)
  | chunkNack (env : RxEnv) (peer : PublicKey) (id : AttachmentId) (reason : UInt8)
  | tick (env : RxEnv) (peer : PublicKey)
  | reconnect (env : RxEnv) (peer : PublicKey)
  | offline (env : OfflineEnv) (ciphertext : Bytes)
  | autoFail (stalled claimFault : AttachmentId → Bool) (listFault : Bool)
  | retry (fault : Bool) (id : AttachmentId)

def Intake.step (world : Intake) : Intake.Action → Intake
  | .dispatch lane env ciphertext =>
    let daemon := (lane.dispatch deps.daemon env ciphertext world.files.daemon).2
    { world with files := { world.files with daemon := daemon } }
  | .collect env peer => Delivery.collect env peer world
  | .chunk env peer id index ciphertext => onChunk deps env peer id index ciphertext world
  | .chunkNack env peer id reason => onChunkNack env peer id reason world
  | .tick env peer => Delivery.tick env peer world
  | .reconnect env peer => Delivery.reconnect env peer world
  | .offline env ciphertext => (dispatchAttachmentChunk deps env ciphertext world).2
  | .autoFail stalled claimFault listFault => Delivery.autoFail stalled claimFault listFault world
  | .retry fault id => retryAttachment deps fault id world

/-! ### Claims -/

def Distinct (manifest : AttachmentManifest) : Prop := (manifest.chunks.map ChunkRef.index).Nodup

namespace Intake

variable {decode : Bytes → Except String AttachmentManifest} {world before after : Intake}

variable {attachments : Table AttachmentId AttachmentRow}
  {rest : Table (AttachmentId × UInt32) Unit × Table (AttachmentId × UInt32) ChunkDepositRow}
  {begins : List (PublicKey × AttachmentManifest)} {id other : AttachmentId} {row : AttachmentRow}
  {outcome : Outcome} {index : UInt32} {fault : Bool} {rx : ChunkRx} {actor : RxActor}
  {peer : PublicKey} {env : RxEnv} {ciphertext : Bytes} {manifest : AttachmentManifest}
  {queue : List AttachmentManifest}

theorem row_eq (h : world.files.daemon.transfers = ((attachments, rest), begins))
    (id : AttachmentId) : world.row id = attachments.get id := by
  have hattachments : world.tables.attachments = attachments := congrArg (fun t => t.1.1) h
  rw [← hattachments]
  rfl

theorem received_eq (h : world.files.daemon.transfers = ((attachments, rest), begins))
    (id : AttachmentId) (index : UInt32) :
    world.received id index = (rest.1.get (id, index)).isSome := by
  have hchunks : world.tables.attachmentChunks = rest.1 := congrArg (fun t => t.1.2.1) h
  rw [received, hchunks]

def known (world : Intake) (id : AttachmentId) : Option (TransferDirection × Bytes) :=
  (world.row id).map fun row => (row.direction, row.manifest)

/-- A pending attachment got a terminal status and its report, and nothing else happened. -/
structure Claimed (id : AttachmentId) (outcome : Outcome) (before after : Intake) : Prop where
  row : ∃ row, before.row id = some row ∧ row.status = .pending ∧
    after.row id = some { row with status := outcome.status }
  others : ∀ other, other ≠ id → after.row other = before.row other
  received : ∀ other index, after.received other index = before.received other index
  outcomes : after.outcomes = Function.update before.outcomes id (before.outcomes id ++ [outcome])
  begins : after.begins = before.begins
  actors : after.actors = before.actors

theorem claim_of_pending (hrow : world.row id = some row) (hpending : row.status = .pending)
    (outcome : Outcome) : Claimed id outcome world (world.claim false id outcome) := by
  have hget : world.tables.attachments.get id = some row := hrow
  have hclaim : AttachmentRepo.claimTerminal world.tables id outcome.status =
      (true, AttachmentRepo.setStatus world.tables id outcome.status) := by
    rw [AttachmentRepo.claimTerminal, hget, if_pos]
    exact decide_eq_true hpending
  have hafter (other : AttachmentId) : (world.claim false id outcome).row other =
      if other = id then (world.row other).map fun row => { row with status := outcome.status }
      else world.row other := by
    rw [claim, hclaim]
    exact AttachmentRepo.get_setStatus _ _ _ _
  have hrest : (world.claim false id outcome).tables.attachmentChunks =
        world.tables.attachmentChunks ∧
      (world.claim false id outcome).outcomes =
        Function.update world.outcomes id (world.outcomes id ++ [outcome]) ∧
      (world.claim false id outcome).begins = world.begins ∧
      (world.claim false id outcome).actors = world.actors := by
    rw [claim, hclaim]
    exact ⟨rfl, rfl, rfl, rfl⟩
  obtain ⟨hchunks, houtcomes, hbegins, hactors⟩ := hrest
  refine ⟨⟨row, hrow, hpending, ?_⟩, fun other hother => ?_, fun other index => ?_, houtcomes,
    hbegins, hactors⟩
  · rw [hafter, if_pos rfl, hrow]
    rfl
  · rw [hafter, if_neg hother]
  · rw [Intake.received, hchunks]
    rfl

theorem claim_cases (fault : Bool) (id : AttachmentId) (outcome : Outcome) (world : Intake) :
    world.claim fault id outcome = world ∨
      Claimed id outcome world (world.claim fault id outcome) := by
  cases fault with
  | true => exact .inl rfl
  | false =>
    by_cases hpending : ∃ row, world.row id = some row ∧ row.status = .pending
    · obtain ⟨row, hrow, hpending⟩ := hpending
      exact .inr (claim_of_pending hrow hpending outcome)
    · refine .inl ?_
      have hlost : AttachmentRepo.claimTerminal world.tables id outcome.status =
          (false, world.tables) := by
        rw [AttachmentRepo.claimTerminal, if_neg]
        intro hany
        cases hrow : world.tables.attachments.get id with
        | none =>
          rw [hrow] at hany
          cases hany
        | some row =>
          rw [hrow] at hany
          exact hpending ⟨row, hrow, of_decide_eq_true hany⟩
      rw [claim, hlost]
      rfl

theorem Claimed.known (h : Claimed id outcome before after) (other : AttachmentId) :
    after.known other = before.known other := by
  by_cases hother : other = id
  · subst hother
    obtain ⟨row, hrow, -, hafter⟩ := h.row
    rw [Intake.known, Intake.known, hrow, hafter]
    rfl
  · rw [Intake.known, h.others other hother]
    rfl

/-! ### Settled attachments -/

def Full (world : Intake) (id : AttachmentId) (manifest : AttachmentManifest) : Prop :=
  ∀ chunk ∈ manifest.chunks, world.received id chunk.index

/-- An incoming attachment whose chunks are all in the bitmap is complete, and the reports since the
last arming are one for a terminal status and none before. -/
structure Settled (decode : Bytes → Except String AttachmentManifest) (world : Intake) : Prop where
  complete : ∀ {id row manifest}, world.row id = some row → row.direction = .inbound →
    AttachmentManifest.fromCbor decode row.manifest = .ok manifest → Distinct manifest →
    world.Full id manifest → row.status = .complete
  reported : ∀ {id row}, world.row id = some row → (world.outcomes id).map Outcome.status =
    if row.status = .pending then [] else [row.status]

theorem Claimed.reported (h : Claimed id outcome before after)
    (hreported : ∀ {id row}, before.row id = some row → (before.outcomes id).map Outcome.status = if
      row.status = .pending then [] else [row.status])
    (hrow : after.row other = some row) :
    (after.outcomes other).map Outcome.status =
      if row.status = .pending then [] else [row.status] := by
  rw [h.outcomes]
  by_cases hother : other = id
  · subst hother
    obtain ⟨old, hold, hpending, hafter⟩ := h.row
    cases hafter.symm.trans hrow
    have hnone := hreported hold
    rw [if_pos hpending] at hnone
    rw [Function.update_self, List.map_append, hnone]
    cases outcome <;> rfl
  · rw [Function.update_of_ne hother]
    rw [h.others other hother] at hrow
    exact hreported hrow

theorem Settled.claim (h : world.Settled decode) (fault : Bool) (id : AttachmentId)
    (outcome : Outcome) : (world.claim fault id outcome).Settled decode := by
  rcases claim_cases fault id outcome world with hsame | hclaimed
  · rw [hsame]
    exact h
  refine ⟨?_, hclaimed.reported h.reported⟩
  intro other row manifest hrow hinbound hdecode hdistinct hfull
  have hbefore : world.Full other manifest := by
    intro chunk hchunk
    rw [← hclaimed.received]
    exact hfull chunk hchunk
  by_cases hother : other = id
  · subst hother
    obtain ⟨old, hold, hpending, hafter⟩ := hclaimed.row
    cases hafter.symm.trans hrow
    cases hpending.symm.trans (h.complete hold hinbound hdecode hdistinct hbefore)
  · rw [hclaimed.others other hother] at hrow
    exact h.complete hrow hinbound hdecode hdistinct hbefore

theorem Settled.maybeStartNextRx (env : StartEnv) (peer : PublicKey)
    (queue : List AttachmentManifest) (h : world.Settled decode) :
    (Delivery.maybeStartNextRx env peer queue world).Settled decode := by
  induction queue generalizing world with
  | nil => exact ⟨h.complete, h.reported⟩
  | cons manifest queue ih =>
    rw [Delivery.maybeStartNextRx]
    dsimp only
    split
    · exact ih (h.claim _ _ _)
    · exact ⟨h.complete, h.reported⟩

/-! ### Chunks in the bitmap -/

theorem received_markReceived {i : UInt32} :
    (world.markReceived false id index).received other i = true ↔
      (other, i) = (id, index) ∨ world.received other i = true := by
  show ((world.tables.attachmentChunks.put (id, index) ()).get (other, i)).isSome = true ↔ _
  by_cases hkey : (other, i) = (id, index)
  · rw [hkey, Table.get_put_self]
    simp
  · rw [Table.get_put_ne _ _ hkey]
    simp only [hkey, false_or]
    rfl

theorem Full.of_markReceived (hother : other ≠ id)
    (h : (world.markReceived false id index).Full other manifest) : world.Full other manifest := by
  intro chunk hchunk
  rcases received_markReceived.mp (h chunk hchunk) with heq | hreceived
  · exact absurd (congrArg Prod.fst heq) hother
  · exact hreceived

/-- The chunk would fill the bitmap of an attachment that is not complete. -/
def Fills (decode : Bytes → Except String AttachmentManifest) (world : Intake) (id : AttachmentId)
    (index : UInt32) (row : AttachmentRow) : Prop :=
  world.row id = some row ∧ row.direction = .inbound ∧ row.status ≠ .complete ∧
    ∃ manifest, AttachmentManifest.fromCbor decode row.manifest = .ok manifest ∧
      Distinct manifest ∧ (world.markReceived false id index).Full id manifest

theorem Settled.markReceived (h : world.Settled decode)
    (hfills : ∀ row, ¬world.Fills decode id index row) :
    (world.markReceived false id index).Settled decode := by
  refine ⟨?_, h.reported⟩
  intro other row manifest hrow hinbound hdecode hdistinct hfull
  by_cases hother : other = id
  · subst hother
    by_contra hstatus
    exact hfills row ⟨hrow, hinbound, hstatus, manifest, hdecode, hdistinct, hfull⟩
  · exact h.complete hrow hinbound hdecode hdistinct (hfull.of_markReceived hother)

theorem Settled.markReceived_claim (h : world.Settled decode)
    (houtcome : outcome.status = .complete)
    (hfills : ∀ row, world.Fills decode id index row → row.status = .pending ∧ fault = false) :
    ((world.markReceived false id index).claim fault id outcome).Settled decode := by
  by_cases hfull : ∃ row, world.Fills decode id index row
  · obtain ⟨row, hrow⟩ := hfull
    obtain ⟨hpending, rfl⟩ := hfills row hrow
    have hmarked : (world.markReceived false id index).row id = some row := hrow.1
    have hclaimed := claim_of_pending hmarked hpending outcome
    refine ⟨?_, hclaimed.reported h.reported⟩
    intro other found manifest hfound hinbound hdecode hdistinct hfull
    by_cases hother : other = id
    · subst hother
      obtain ⟨old, -, -, hafter⟩ := hclaimed.row
      cases hafter.symm.trans hfound
      exact houtcome
    · rw [hclaimed.others other hother] at hfound
      have hmarkedFull : (world.markReceived false id index).Full other manifest := by
        intro chunk hchunk
        rw [← hclaimed.received]
        exact hfull chunk hchunk
      exact h.complete hfound hinbound hdecode hdistinct (hmarkedFull.of_markReceived hother)
  · exact (h.markReceived fun row hrow => hfull ⟨row, hrow⟩).claim _ _ _

/-! ### Fetches belong to attachments -/

def Fetches (decode : Bytes → Except String AttachmentManifest) (world : Intake)
    (manifest : AttachmentManifest) : Prop :=
  ∃ bytes, world.known manifest.attachmentId = some (.inbound, bytes) ∧
    AttachmentManifest.fromCbor decode bytes = .ok manifest

def Fetching (decode : Bytes → Except String AttachmentManifest) (world : Intake) (rx : ChunkRx) :
    Prop :=
  world.Fetches decode rx.manifest ∧ (Distinct rx.manifest → rx.Counted)

def Carries (decode : Bytes → Except String AttachmentManifest) (world : Intake) (actor : RxActor) :
    Prop :=
  (∀ manifest ∈ actor.queue, world.Fetches decode manifest) ∧
    ∀ rx, actor.active = some rx → world.Fetching decode rx

/-- What every state of a run keeps: the manifests of incoming attachments decode, only they have
chunks in the bitmap and reports, and all fetches are of them. -/
structure Tracked (decode : Bytes → Except String AttachmentManifest) (world : Intake) : Prop where
  decodes : ∀ {id bytes}, world.known id = some (.inbound, bytes) →
    ∃ manifest, AttachmentManifest.fromCbor decode bytes = .ok manifest ∧ manifest.attachmentId = id
  bitmap : ∀ {id index}, world.received id index = true → world.known id ≠ none
  unreported : ∀ {id}, world.known id = none → world.outcomes id = []
  begins : ∀ pair ∈ world.begins, world.Fetches decode pair.2
  actors : ∀ peer, world.Carries decode (world.actors peer)

theorem Fetching.continues {other : ChunkRx} (h : world.Fetching decode rx)
    (hother : rx.Continues other) : world.Fetching decode other := by
  unfold Fetching
  rw [hother.manifest]
  exact ⟨h.1, fun hdistinct => hother.counted (h.2 hdistinct)⟩

theorem Fetches.mono
    (hknown : ∀ id known, before.known id = some known → after.known id = some known)
    (h : before.Fetches decode manifest) : after.Fetches decode manifest := by
  obtain ⟨bytes, hbytes, hdecode⟩ := h
  exact ⟨bytes, hknown _ _ hbytes, hdecode⟩

theorem Fetching.mono
    (hknown : ∀ id known, before.known id = some known → after.known id = some known)
    (h : before.Fetching decode rx) : after.Fetching decode rx :=
  ⟨h.1.mono hknown, h.2⟩

theorem Carries.mono
    (hknown : ∀ id known, before.known id = some known → after.known id = some known)
    (h : before.Carries decode actor) : after.Carries decode actor :=
  ⟨fun manifest hmem => (h.1 manifest hmem).mono hknown, fun rx hrx => (h.2 rx hrx).mono hknown⟩

theorem Tracked.of_known (h : before.Tracked decode)
    (hknown : ∀ id, after.known id = before.known id)
    (hbitmap : ∀ id index, after.received id index = true →
      before.received id index = true ∨ before.known id ≠ none)
    (houtcomes : ∀ id, before.known id = none → after.outcomes id = before.outcomes id)
    (hbegins : ∀ pair ∈ after.begins, before.Fetches decode pair.2)
    (hactors : ∀ peer, before.Carries decode (after.actors peer)) : after.Tracked decode := by
  have hmono (id : AttachmentId) (known : TransferDirection × Bytes)
      (hid : before.known id = some known) : after.known id = some known := by
    rw [hknown, hid]
  refine ⟨?_, ?_, ?_, fun pair hpair => (hbegins pair hpair).mono hmono,
    fun peer => (hactors peer).mono hmono⟩
  · intro id bytes hid
    rw [hknown] at hid
    exact h.decodes hid
  · intro id index hreceived
    rw [hknown]
    rcases hbitmap id index hreceived with hold | hnew
    · exact h.bitmap hold
    · exact hnew
  · intro id hid
    rw [hknown] at hid
    rw [houtcomes id hid]
    exact h.unreported hid

theorem Tracked.setActor (h : world.Tracked decode) (hactor : world.Carries decode actor) :
    (world.setActor peer actor).Tracked decode := by
  refine h.of_known (fun _ => rfl) (fun _ _ hreceived => .inl hreceived) (fun _ _ => rfl) h.begins
    fun other => ?_
  show world.Carries decode (Function.update world.actors peer actor other)
  by_cases hother : other = peer
  · rw [hother, Function.update_self]
    exact hactor
  · rw [Function.update_of_ne hother]
    exact h.actors other

theorem Tracked.claim (h : world.Tracked decode) (fault : Bool) (id : AttachmentId)
    (outcome : Outcome) : (world.claim fault id outcome).Tracked decode := by
  rcases claim_cases fault id outcome world with hsame | hclaimed
  · rw [hsame]
    exact h
  refine h.of_known hclaimed.known ?_ ?_ ?_ ?_
  · intro other index hreceived
    rw [hclaimed.received] at hreceived
    exact .inl hreceived
  · intro other hother
    rw [hclaimed.outcomes, Function.update_of_ne]
    rintro rfl
    obtain ⟨row, hrow, -⟩ := hclaimed.row
    rw [known, hrow] at hother
    cases hother
  · rw [hclaimed.begins]
    exact h.begins
  · rw [hclaimed.actors]
    exact h.actors

theorem known_claim (fault : Bool) (id : AttachmentId) (outcome : Outcome) (other : AttachmentId) :
    (world.claim fault id outcome).known other = world.known other := by
  rcases claim_cases fault id outcome world with hsame | hclaimed
  · rw [hsame]
  · exact hclaimed.known other

theorem markReceived_frame (fault : Bool) (id : AttachmentId) (index : UInt32) (world : Intake) :
    (world.markReceived fault id index).known = world.known ∧
      (world.markReceived fault id index).actors = world.actors := by
  cases fault <;> exact ⟨rfl, rfl⟩

theorem Tracked.markReceived (h : world.Tracked decode) (hid : world.known id ≠ none) :
    (world.markReceived fault id index).Tracked decode := by
  cases fault with
  | true => exact h
  | false =>
    refine h.of_known (fun _ => rfl) ?_ (fun _ _ => rfl) h.begins h.actors
    intro other i hreceived
    rcases received_markReceived.mp hreceived with heq | hold
    · obtain ⟨rfl, -⟩ := Prod.mk.inj heq
      exact .inr hid
    · exact .inl hold

theorem Tracked.maybeStartNextRx (h : world.Tracked decode) (env : StartEnv) (peer : PublicKey)
    (hqueue : ∀ manifest ∈ queue, world.Fetches decode manifest) :
    (Delivery.maybeStartNextRx env peer queue world).Tracked decode := by
  induction queue generalizing world with
  | nil => exact h.setActor ⟨fun _ hmem => (nomatch hmem), fun _ hnone => (nomatch hnone)⟩
  | cons manifest queue ih =>
    have hrest : ∀ manifest ∈ queue, world.Fetches decode manifest :=
      fun manifest hmem => hqueue manifest (List.mem_cons_of_mem _ hmem)
    rw [Delivery.maybeStartNextRx]
    dsimp only
    split
    · refine ih (h.claim _ _ _) fun manifest hmem => ?_
      unfold Fetches finalizeRx
      rw [known_claim]
      exact hrest manifest hmem
    · have hstart : world.Fetching decode (ChunkRx.new manifest
          (world.readIndices (env.readFault queue.length) manifest.attachmentId)) :=
        ⟨hqueue manifest List.mem_cons_self, fun hdistinct => ChunkRx.Counted.new _ hdistinct⟩
      have hnext := hstart.continues (ChunkRx.nextRequests_continues env.instant _)
      refine h.setActor ⟨hrest, ?_⟩
      rintro rx hrx
      cases hrx
      split
      · exact hnext
      · exact hnext.continues (ChunkRx.unsent_continues _ _)

/-! ### Steps -/

variable {deps : FileDeps G}

/-- The direct lane brings a chunk that fills the bitmap of a pending attachment only when it waits
for no other chunk; the offline lane can then count the bitmap; the completion can be claimed. -/
def Timely (deps : FileDeps G) (world : Intake) : Action → Prop
  | .chunk env peer id index ciphertext =>
    ∀ rx row, (world.actors peer).active = some rx → rx.attachmentId = id →
      rx.verify deps.crypto index ciphertext = true → env.putFault = false →
      env.markFault = false → world.Fills deps.daemon.manifest id index row →
      row.status = .pending ∧ rx.needed = [] ∧ rx.inflight.keys = [index] ∧ env.claimFault = false
  | .offline env ciphertext =>
    ∀ id manifest index row, offlineMatch deps env ciphertext world = some (id, manifest, index) →
      env.putFault = false → env.markFault = false →
      world.Fills deps.daemon.manifest id index row →
      env.countFault = false ∧ env.claimFault = false
  | _ => True

/-- A new attachment has a pending row and an empty bitmap, and its fetch is queued. -/
structure Staged (decode : Bytes → Except String AttachmentManifest) (manifest : AttachmentManifest)
    (found : AttachmentRow) (before after : Intake) : Prop where
  fresh : found.direction = .inbound ∧ found.status = .pending
  decodes : AttachmentManifest.fromCbor decode found.manifest = .ok manifest
  chunks : manifest.chunks ≠ []
  unknown : before.row manifest.attachmentId = none
  row : ∀ id, after.row id = if id = manifest.attachmentId then some found else before.row id
  received : ∀ id index, after.received id index = before.received id index
  begins : ∃ sender, after.begins = before.begins ++ [(sender, manifest)]

theorem staged_of_stages {env : Daemon.Env}
    (h : Daemon.Stages deps.daemon env before.files.daemon after.files.daemon) :
    ∃ manifest found, Staged deps.daemon.manifest manifest found before after := by
  obtain ⟨sender, bytes, manifest, attachments, hdecode, hchunks, hinsert, hafter⟩ := h
  refine ⟨manifest, Daemon.stagedRow env sender bytes manifest.chunks, ⟨rfl, rfl⟩, hdecode, hchunks,
    (Table.insert_eq_some hinsert).1, fun id => ?_, received_eq hafter, sender,
    congrArg Prod.snd hafter⟩
  rw [row_eq hafter]
  exact Table.get_insert hinsert id

section Staged

variable {manifest : AttachmentManifest} {found : AttachmentRow}

theorem Staged.known (hstaged : Staged decode manifest found before after) (id : AttachmentId) :
    after.known id = if id = manifest.attachmentId then some (.inbound, found.manifest)
      else before.known id := by
  rw [Intake.known, hstaged.row]
  split
  · rw [Option.map_some, hstaged.fresh.1]
  · rfl

theorem Staged.known_mono (hstaged : Staged decode manifest found before after) (id : AttachmentId)
    (info : TransferDirection × Bytes) (hid : before.known id = some info) :
    after.known id = some info := by
  rw [hstaged.known, if_neg, hid]
  rintro rfl
  rw [Intake.known, hstaged.unknown] at hid
  cases hid

theorem Tracked.staged (h : before.Tracked decode)
    (hstaged : Staged decode manifest found before after)
    (hactors : after.actors = before.actors) (houtcomes : after.outcomes = before.outcomes) :
    after.Tracked decode := by
  have hmono := hstaged.known_mono
  refine ⟨?_, ?_, ?_, ?_, fun peer => by rw [hactors]; exact (h.actors peer).mono hmono⟩
  · intro id bytes hid
    rw [hstaged.known] at hid
    split at hid
    · next heq =>
      cases hid
      exact ⟨manifest, hstaged.decodes, heq.symm⟩
    · exact h.decodes hid
  · intro id index hreceived
    rw [hstaged.received] at hreceived
    obtain ⟨info, hinfo⟩ := Option.ne_none_iff_exists'.mp (h.bitmap hreceived)
    rw [hmono id info hinfo]
    exact Option.some_ne_none info
  · intro id hid
    rw [hstaged.known] at hid
    split at hid
    · cases hid
    · rw [houtcomes]
      exact h.unreported hid
  · intro pair hpair
    obtain ⟨sender, hbegins⟩ := hstaged.begins
    rw [hbegins, List.mem_append, List.mem_singleton] at hpair
    rcases hpair with hpair | rfl
    · exact (h.begins pair hpair).mono hmono
    · exact ⟨found.manifest, by rw [hstaged.known, if_pos rfl], hstaged.decodes⟩

theorem Settled.staged (h : before.Settled decode) (htracked : before.Tracked decode)
    (hstaged : Staged decode manifest found before after)
    (houtcomes : after.outcomes = before.outcomes) : after.Settled decode := by
  have hunknown : before.known manifest.attachmentId = none := by
    rw [Intake.known, hstaged.unknown]
    rfl
  refine ⟨?_, ?_⟩
  · intro id row decoded hget hinbound hdecoded hdistinct hfull
    rw [hstaged.row] at hget
    split at hget
    · next heq =>
      -- the bitmap of a new attachment is empty, and its manifest is not
      cases hget
      cases hstaged.decodes.symm.trans hdecoded
      obtain ⟨chunk, hchunk⟩ := List.exists_mem_of_ne_nil _ hstaged.chunks
      have hmarked := hfull chunk hchunk
      rw [hstaged.received, heq] at hmarked
      exact absurd hunknown (htracked.bitmap hmarked)
    · refine h.complete hget hinbound hdecoded hdistinct fun chunk hchunk => ?_
      rw [← hstaged.received]
      exact hfull chunk hchunk
  · intro id row hget
    rw [hstaged.row] at hget
    rw [houtcomes]
    split at hget
    · next heq =>
      cases hget
      rw [heq, htracked.unreported hunknown, hstaged.fresh.2]
      rfl
    · exact h.reported hget

end Staged

structure Sound (decode : Bytes → Except String AttachmentManifest) (world : Intake) : Prop where
  tracked : world.Tracked decode
  settled : world.Settled decode

theorem Sound.claim (h : world.Sound decode) (fault : Bool) (id : AttachmentId)
    (outcome : Outcome) : (world.claim fault id outcome).Sound decode :=
  ⟨h.tracked.claim fault id outcome, h.settled.claim fault id outcome⟩

theorem Sound.setActor (h : world.Sound decode) (hactor : world.Carries decode actor) :
    (world.setActor peer actor).Sound decode :=
  ⟨h.tracked.setActor hactor, h.settled.complete, h.settled.reported⟩

theorem Sound.setActive (h : world.Sound decode) (hrx : world.Fetching decode rx) :
    (world.setActor peer { world.actors peer with active := some rx }).Sound decode :=
  h.setActor ⟨(h.tracked.actors peer).1, fun other hother => by cases hother; exact hrx⟩

theorem Sound.maybeStartNextRx (h : world.Sound decode) (env : StartEnv) (peer : PublicKey)
    (hqueue : ∀ manifest ∈ queue, world.Fetches decode manifest) :
    (Delivery.maybeStartNextRx env peer queue world).Sound decode :=
  ⟨h.tracked.maybeStartNextRx env peer hqueue, h.settled.maybeStartNextRx env peer queue⟩

theorem Sound.endRx (h : world.Sound decode) (env : StartEnv) (peer : PublicKey) (fault : Bool)
    (id : AttachmentId) (outcome : Outcome) :
    (Delivery.maybeStartNextRx env peer (world.actors peer).queue
      (world.claim fault id outcome)).Sound decode := by
  refine (h.claim fault id outcome).maybeStartNextRx env peer fun manifest hmem => ?_
  unfold Fetches
  rw [known_claim]
  exact (h.tracked.actors peer).1 manifest hmem

theorem Sound.fetching (h : world.Sound decode)
    (hrx : ((world.actors peer).active.filter fun rx => rx.attachmentId = id) = some rx) :
    (world.actors peer).active = some rx ∧ rx.attachmentId = id ∧ world.Fetching decode rx := by
  obtain ⟨hactive, hid⟩ := Option.filter_eq_some_iff.mp hrx
  exact ⟨hactive, of_decide_eq_true hid, (h.tracked.actors peer).2 rx hactive⟩

theorem Fetching.sentOr (h : world.Fetching decode rx) (sent : Bool) (indices : List UInt32) :
    world.Fetching decode (if sent then rx else rx.unsent indices) := by
  split
  · exact h
  · exact h.continues (rx.unsent_continues indices)

theorem Sound.onChunkNack (h : world.Sound decode) (env : RxEnv) (peer : PublicKey)
    (id : AttachmentId) (reason : UInt8) :
    (Delivery.onChunkNack env peer id reason world).Sound decode := by
  unfold Delivery.onChunkNack
  dsimp only
  split
  · exact h
  · exact h.endRx _ _ _ _ _

theorem Sound.collect (h : world.Sound decode) (env : StartEnv) (peer : PublicKey) :
    (Delivery.collect env peer world).Sound decode := by
  set drained : Intake := { world with files := { world.files with daemon :=
    { world.files.daemon with begins := world.begins.filter (·.1 ≠ peer) } } } with hdrained
  have hsound : drained.Sound decode := by
    refine ⟨?_, h.settled.complete, h.settled.reported⟩
    refine h.tracked.of_known (fun _ => rfl) (fun _ _ hreceived => .inl hreceived) (fun _ _ => rfl)
      (fun pair hpair => ?_) h.tracked.actors
    exact h.tracked.begins pair (List.mem_filter.mp hpair).1
  have hqueue : ∀ manifest ∈ (world.actors peer).queue ++
      (world.begins.filter (·.1 = peer)).map Prod.snd, drained.Fetches decode manifest := by
    intro manifest hmem
    rcases List.mem_append.mp hmem with hmem | hmem
    · exact (h.tracked.actors peer).1 manifest hmem
    · obtain ⟨pair, hpair, rfl⟩ := List.mem_map.mp hmem
      exact h.tracked.begins pair (List.mem_filter.mp hpair).1
  unfold Delivery.collect
  dsimp only
  split
  · next rx hactive =>
    refine hsound.setActor ⟨hqueue, fun other hother => ?_⟩
    cases hother
    exact (h.tracked.actors peer).2 rx hactive
  · exact hsound.maybeStartNextRx env peer hqueue

theorem Fetching.requestNeeded (h : world.Fetching decode rx) (env : RxEnv) :
    world.Fetching decode (Delivery.requestNeeded env rx) := by
  unfold Delivery.requestNeeded
  split
  · exact (h.continues (rx.nextRequests_continues env.instant)).sentOr _ _
  · exact h

theorem Sound.tick (h : world.Sound decode) (env : RxEnv) (peer : PublicKey) :
    (Delivery.tick env peer world).Sound decode := by
  have hcollect {after : Intake} (hafter : after.Sound decode) :
      (if env.connected then Delivery.collect env.drained peer after else after).Sound decode := by
    split
    · exact hafter.collect env.drained peer
    · exact hafter
  unfold Delivery.tick
  dsimp only
  refine hcollect ?_
  split
  · exact h
  · next rx hactive =>
    have hrx : world.Fetching decode rx := (h.tracked.actors peer).2 rx hactive
    have hlate := (hrx.requestNeeded env).continues (ChunkRx.timedOut_continues env.instant _)
    split
    · next indices other htimeout =>
      rw [htimeout] at hlate
      exact h.setActive (hlate.sentOr _ _)
    · exact h.endRx _ _ _ _ _

theorem Sound.reconnect (h : world.Sound decode) (env : RxEnv) (peer : PublicKey) :
    (Delivery.reconnect env peer world).Sound decode := by
  unfold Delivery.reconnect
  dsimp only
  split
  · exact h
  · next rx hactive => exact h.setActive (((h.tracked.actors peer).2 rx hactive).sentOr _ _)

theorem Sound.autoFail (h : world.Sound decode) (stalled claimFault : AttachmentId → Bool)
    (listFault : Bool) : (Delivery.autoFail stalled claimFault listFault world).Sound decode :=
  foldl_invariant (fun _ id hsound => hsound.claim (claimFault id) id _) _ h

theorem Sound.congr (h : before.Sound decode)
    (htransfers : after.files.daemon.transfers = before.files.daemon.transfers)
    (hactors : after.actors = before.actors) (houtcomes : after.outcomes = before.outcomes) :
    after.Sound decode := by
  have hrow (id : AttachmentId) : after.row id = before.row id := row_eq htransfers id
  have hreceived (id : AttachmentId) (index : UInt32) :
      after.received id index = before.received id index := received_eq htransfers id index
  have hbegins : after.begins = before.begins := congrArg Prod.snd htransfers
  refine ⟨h.tracked.of_known ?_ ?_ ?_ ?_ ?_, ?_, ?_⟩
  · intro id
    rw [known, hrow]
    rfl
  · intro id index hget
    rw [hreceived] at hget
    exact .inl hget
  · intro id _
    rw [houtcomes]
  · rw [hbegins]
    exact h.tracked.begins
  · rw [hactors]
    exact h.tracked.actors
  · intro id found manifest hget hinbound hdecode hdistinct hfull
    rw [hrow] at hget
    refine h.settled.complete hget hinbound hdecode hdistinct fun chunk hchunk => ?_
    rw [← hreceived]
    exact hfull chunk hchunk
  · intro id found hget
    rw [hrow] at hget
    rw [houtcomes]
    exact h.settled.reported hget

theorem Sound.markReceived (h : world.Sound decode) (hid : world.known id ≠ none)
    (hfills : fault = false → ∀ row, ¬world.Fills decode id index row) :
    (world.markReceived fault id index).Sound decode := by
  refine ⟨h.tracked.markReceived hid, ?_⟩
  cases fault with
  | true => exact h.settled
  | false => exact h.settled.markReceived (hfills rfl)

theorem Sound.markReceived_claim (h : world.Sound decode) (hid : world.known id ≠ none)
    (houtcome : outcome.status = .complete)
    (hfills : ∀ row, world.Fills decode id index row → row.status = .pending ∧ fault = false) :
    ((world.markReceived false id index).claim fault id outcome).Sound decode :=
  ⟨(h.tracked.markReceived hid).claim _ _ _, h.settled.markReceived_claim houtcome hfills⟩

theorem Fetching.fills (h : world.Fetching decode rx)
    (hfills : world.Fills decode rx.attachmentId index row) : Distinct rx.manifest := by
  obtain ⟨⟨bytes, hbytes, hdecode⟩, -⟩ := h
  obtain ⟨hrow, -, -, manifest, hmanifest, hdistinct, -⟩ := hfills
  have hknown : world.known rx.attachmentId = some (row.direction, row.manifest) := by
    rw [known, hrow]
    rfl
  have hsame : bytes = row.manifest :=
    congrArg Prod.snd (Option.some.inj (hbytes.symm.trans hknown))
  rw [hsame] at hdecode
  cases hdecode.symm.trans hmanifest
  exact hdistinct

theorem Fetching.known (h : world.Fetching decode rx) : world.known rx.attachmentId ≠ none := by
  obtain ⟨bytes, hbytes, -⟩ := h.1
  rw [ChunkRx.attachmentId, hbytes]
  exact Option.some_ne_none _

theorem Sound.takeChunk (h : world.Sound decode) (hrx : world.Fetching decode rx)
    (hfills : env.putFault = false → env.markFault = false → ∀ row, ¬world.Fills decode
      rx.attachmentId index row)
    (ciphertext : Bytes) :
    (Delivery.takeChunk env peer rx index ciphertext world).Sound decode := by
  unfold Delivery.takeChunk
  split
  · exact h
  next hput =>
  have hstored : (world.putChunk rx.attachmentId index ciphertext).Sound decode :=
    h.congr rfl rfl rfl
  have hcounted : (countChunk env.markFault rx index ciphertext world).Sound decode :=
    (hstored.markReceived hrx.known (hfills (Bool.eq_false_iff.mpr hput))).congr rfl rfl rfl
  obtain ⟨hknown, hactors⟩ :
      (countChunk env.markFault rx index ciphertext world).known = world.known ∧
        (countChunk env.markFault rx index ciphertext world).actors = world.actors :=
    markReceived_frame env.markFault rx.attachmentId index
      (world.putChunk rx.attachmentId index ciphertext)
  dsimp only
  rw [← hactors]
  split
  · exact hcounted.endRx _ _ _ _ _
  · have hnext := (hrx.continues (rx.onReceived_continues index)).continues
      (ChunkRx.nextRequests_continues env.instant _)
    refine hcounted.setActive ((hnext.sentOr _ _).mono fun id info hid => ?_)
    rw [hknown, hid]

theorem Sound.takeLastChunk (h : world.Sound decode) (hrx : world.Fetching decode rx)
    (hfills : world.Fills decode rx.attachmentId index row) (hpending : row.status = .pending)
    (hneeded : rx.needed = []) (hinflight : rx.inflight.keys = [index])
    (hput : env.putFault = false) (hmark : env.markFault = false) (hclaim : env.claimFault = false)
    (ciphertext : Bytes) :
    (Delivery.takeChunk env peer rx index ciphertext world).Sound decode := by
  have hcomplete : (rx.onReceived index).isComplete = true :=
    (hrx.2 (hrx.fills hfills)).isComplete hneeded hinflight
  have hid : (rx.onReceived index).attachmentId = rx.attachmentId :=
    congrArg AttachmentManifest.attachmentId (rx.onReceived_continues index).manifest
  have hstored : (countChunk true rx index ciphertext world).Sound decode := h.congr rfl rfl rfl
  have hcounted : countChunk false rx index ciphertext world =
      (countChunk true rx index ciphertext world).markReceived false rx.attachmentId index := rfl
  rw [Delivery.takeChunk, if_neg (by rw [hput]; exact Bool.false_ne_true), hmark]
  dsimp only
  rw [if_pos hcomplete, finalizeRx, hid, hcounted]
  refine (hstored.markReceived_claim hrx.known rfl ?_).maybeStartNextRx env.next peer ?_
  · intro found hfound
    cases hfills.1.symm.trans hfound.1
    exact ⟨hpending, hclaim⟩
  · intro manifest hmem
    unfold Fetches
    rw [known_claim]
    exact (h.tracked.actors peer).1 manifest hmem

theorem Sound.onChunk (h : world.Sound deps.daemon.manifest)
    (htimely : Timely deps world (.chunk env peer id index ciphertext)) :
    (Delivery.onChunk deps env peer id index ciphertext world).Sound deps.daemon.manifest := by
  unfold Delivery.onChunk
  dsimp only
  split
  · exact h
  next rx hrx =>
  obtain ⟨hactive, rfl, hfetching⟩ := h.fetching hrx
  split
  · next hverify =>
    by_cases hfills : env.putFault = false ∧ env.markFault = false ∧
        ∃ row, world.Fills deps.daemon.manifest rx.attachmentId index row
    · obtain ⟨hput, hmark, row, hfills⟩ := hfills
      obtain ⟨hpending, hneeded, hinflight, hclaim⟩ :=
        htimely rx row hactive rfl hverify hput hmark hfills
      exact h.takeLastChunk hfetching hfills hpending hneeded hinflight hput hmark hclaim
        ciphertext
    · exact h.takeChunk hfetching (fun hput hmark row hrow => hfills ⟨hput, hmark, row, hrow⟩)
        ciphertext
  · have hbad := hfetching.continues (rx.onBad_continues env.instant index)
    split
    · next indices other hother =>
      rw [hother] at hbad
      exact h.setActive (hbad.sentOr _ _)
    · exact h.endRx _ _ _ _ _

theorem offlineMatch_row {env : OfflineEnv}
    (h : offlineMatch deps env ciphertext world = some (id, manifest, index)) :
    ∃ row, world.row id = some row ∧ row.direction = .inbound ∧ row.status = .pending ∧
      AttachmentManifest.fromCbor deps.daemon.manifest row.manifest = .ok manifest := by
  unfold offlineMatch at h
  split at h
  · cases h
  · obtain ⟨⟨other, bytes⟩, hmem, hfound⟩ := List.exists_of_findSome?_eq_some h
    dsimp only at hfound
    split at hfound
    · cases hfound
    · next found hdecode =>
      obtain ⟨chunk, -, heq⟩ := Option.map_eq_some_iff.mp hfound
      cases heq
      obtain ⟨row, hrow, hinbound, hpending, rfl⟩ := AttachmentRepo.of_mem_listPendingIn hmem
      exact ⟨row, hrow, hinbound, hpending, hdecode⟩

theorem Full.le_length (h : world.Full id manifest) (hdistinct : Distinct manifest) :
    manifest.chunks.length ≤ (world.readIndices false id).length := by
  have hsubset : manifest.chunks.map ChunkRef.index ⊆ world.readIndices false id := by
    intro index hindex
    obtain ⟨chunk, hchunk, rfl⟩ := List.mem_map.mp hindex
    exact AttachmentRepo.mem_receivedIndices.mpr (h chunk hchunk)
  have hlength := (List.Nodup.subperm hdistinct hsubset).length_le
  rwa [List.length_map] at hlength

theorem Sound.offline (h : world.Sound deps.daemon.manifest) {env : OfflineEnv}
    (htimely : Timely deps world (.offline env ciphertext)) :
    (dispatchAttachmentChunk deps env ciphertext world).2.Sound deps.daemon.manifest := by
  unfold dispatchAttachmentChunk
  split
  · exact h
  next id manifest index hmatch =>
  obtain ⟨row, hrow, hinbound, hpending, hdecode⟩ := offlineMatch_row hmatch
  have hknown : world.known id ≠ none := by
    rw [known, hrow]
    exact Option.some_ne_none _
  have hstored : (world.putChunk id index ciphertext).Sound deps.daemon.manifest :=
    h.congr rfl rfl rfl
  dsimp only
  split
  · exact h
  split
  · exact h
  next hput =>
  split
  · exact hstored
  next hmark =>
  by_cases hfills : world.Fills deps.daemon.manifest id index row
  · -- the lane sees the full bitmap and claims the row
    obtain ⟨hcount, hclaim⟩ := htimely id manifest index row hmatch (Bool.eq_false_iff.mpr hput)
      (Bool.eq_false_iff.mpr hmark) hfills
    obtain ⟨-, -, -, found, hfound, hdistinct, hfull⟩ := hfills
    cases hdecode.symm.trans hfound
    have hlength : manifest.chunks.length ≤ (((world.putChunk id index ciphertext).markReceived
        false id index).readIndices env.countFault id).length := by
      rw [hcount]
      exact hfull.le_length hdistinct
    rw [if_pos hlength]
    refine hstored.markReceived_claim hknown rfl fun other hother => ?_
    cases hrow.symm.trans hother.1
    exact ⟨hpending, hclaim⟩
  · have hmarked : ((world.putChunk id index ciphertext).markReceived false id index).Sound
        deps.daemon.manifest := by
      refine hstored.markReceived hknown fun _ other hother => ?_
      cases hrow.symm.trans hother.1
      exact hfills hother
    split
    · exact hmarked.claim _ _ _
    · exact hmarked.congr rfl rfl rfl

theorem Sound.rearm (h : world.Sound decode) (hrow : world.row id = some row)
    (hinbound : row.direction = .inbound) (hfailed : row.status = .failed)
    (hdecode : AttachmentManifest.fromCbor decode row.manifest = .ok manifest) (peer : PublicKey) :
    Sound decode { world with
      files := ⟨{ world.files.daemon with
        tables := AttachmentRepo.setStatus world.tables id .pending
        begins := world.begins ++ [(peer, manifest)] }, world.files.chunks⟩
      outcomes := Function.update world.outcomes id [] } := by
  set after : Intake := { world with
    files := ⟨{ world.files.daemon with
      tables := AttachmentRepo.setStatus world.tables id .pending
      begins := world.begins ++ [(peer, manifest)] }, world.files.chunks⟩
    outcomes := Function.update world.outcomes id [] } with hafter
  have hrows (other : AttachmentId) : after.row other = if other = id then
      (world.row other).map fun row => { row with status := .pending } else world.row other :=
    AttachmentRepo.get_setStatus _ _ _ _
  have hknown (other : AttachmentId) : after.known other = world.known other := by
    rw [known, hrows]
    split
    · rw [Option.map_map]
      rfl
    · rfl
  have hknownId : world.known id = some (.inbound, row.manifest) := by
    rw [known, hrow, ← hinbound]
    rfl
  refine ⟨h.tracked.of_known hknown (fun _ _ hreceived => .inl hreceived) ?_ ?_ h.tracked.actors,
    ?_, ?_⟩
  · intro other hother
    refine Function.update_of_ne ?_ _ _
    rintro rfl
    rw [hknownId] at hother
    cases hother
  · intro pair hpair
    rcases List.mem_append.mp hpair with hpair | hpair
    · exact h.tracked.begins pair hpair
    · cases List.mem_singleton.mp hpair
      obtain ⟨found, hfound, hid⟩ := h.tracked.decodes hknownId
      cases hdecode.symm.trans hfound
      exact ⟨row.manifest, by rw [hid, hknownId], hdecode⟩
  · intro other found content hfound hdirection hcontent hdistinct hfull
    rw [hrows] at hfound
    split at hfound
    · next heq =>
      obtain ⟨old, hold, rfl⟩ := Option.map_eq_some_iff.mp hfound
      have hcomplete := h.settled.complete hold hdirection hcontent hdistinct hfull
      rw [heq, hrow] at hold
      cases hold
      cases hfailed.symm.trans hcomplete
    · exact h.settled.complete hfound hdirection hcontent hdistinct hfull
  · intro other found hfound
    show (Function.update world.outcomes id [] other).map Outcome.status = _
    rw [hrows] at hfound
    split at hfound
    · next heq =>
      obtain ⟨old, -, rfl⟩ := Option.map_eq_some_iff.mp hfound
      rw [heq, Function.update_self]
      rfl
    · next hother =>
      rw [Function.update_of_ne hother]
      exact h.settled.reported hfound

theorem Sound.retry (h : world.Sound deps.daemon.manifest) (fault : Bool) (id : AttachmentId) :
    (retryAttachment deps fault id world).Sound deps.daemon.manifest := by
  unfold retryAttachment
  split
  · exact h
  split
  · exact h
  next row hfilter =>
  obtain ⟨hrow, hstate⟩ := Option.filter_eq_some_iff.mp hfilter
  obtain ⟨hinbound, hfailed⟩ := of_decide_eq_true hstate
  split
  · next peer manifest hpeer hdecode =>
    have hget : world.tables.attachments.get id = some row := hrow
    have hrearmed : (AttachmentRepo.rearmFailedIn world.tables id).2 =
        AttachmentRepo.setStatus world.tables id .pending := by
      rw [AttachmentRepo.rearmFailedIn, hget, if_pos]
      exact hstate
    rw [hrearmed]
    exact h.rearm hrow hinbound hfailed hdecode peer
  · exact h

theorem Sound.dispatch (h : world.Sound deps.daemon.manifest) (lane : Daemon.Lane)
    (env : Daemon.Env) (ciphertext : Bytes) :
    (step deps world (.dispatch lane env ciphertext)).Sound deps.daemon.manifest := by
  rcases Daemon.Lane.dispatch_transfers deps.daemon env ciphertext world.files.daemon lane with
    hsame | hstages
  · exact h.congr hsame rfl rfl
  · obtain ⟨manifest, found, hstaged⟩ : ∃ manifest found, Staged deps.daemon.manifest manifest
        found world (step deps world (.dispatch lane env ciphertext)) := staged_of_stages hstages
    exact ⟨h.tracked.staged hstaged rfl rfl, h.settled.staged h.tracked hstaged rfl⟩

theorem Sound.step {action : Action} (h : world.Sound deps.daemon.manifest)
    (htimely : Timely deps world action) :
    (Intake.step deps world action).Sound deps.daemon.manifest := by
  cases action with
  | dispatch lane env ciphertext => exact h.dispatch lane env ciphertext
  | collect env peer => exact h.collect env peer
  | chunk env peer id index ciphertext => exact h.onChunk htimely
  | chunkNack env peer id reason => exact h.onChunkNack env peer id reason
  | tick env peer => exact h.tick env peer
  | reconnect env peer => exact h.reconnect env peer
  | offline env ciphertext => exact h.offline htimely
  | autoFail stalled claimFault listFault => exact h.autoFail stalled claimFault listFault
  | retry fault id => exact h.retry fault id

theorem Sound.fresh {daemon : Daemon.State} (chunks : ChunkStore)
    (h : daemon.tables.transfers.1 = .empty ∧ daemon.tables.transfers.2.1 = .empty ∧
      daemon.begins = []) :
    Sound decode ⟨⟨daemon, chunks⟩, fun _ => ⟨none, []⟩, fun _ => [], []⟩ := by
  set start : Intake := ⟨⟨daemon, chunks⟩, fun _ => ⟨none, []⟩, fun _ => [], []⟩ with hstart
  have hrow (id : AttachmentId) : start.row id = none := by
    show daemon.tables.transfers.1.get id = none
    rw [h.1]
    rfl
  have hreceived (id : AttachmentId) (index : UInt32) : start.received id index = false := by
    show (daemon.tables.transfers.2.1.get (id, index)).isSome = false
    rw [h.2.1]
    rfl
  refine ⟨⟨?_, ?_, fun _ => rfl, ?_, ?_⟩, ?_, ?_⟩
  · intro id bytes hknown
    rw [known, hrow] at hknown
    cases hknown
  · intro id index hget
    rw [hreceived] at hget
    cases hget
  · intro pair hpair
    have hnone : start.begins = [] := h.2.2
    rw [hnone] at hpair
    cases hpair
  · exact fun peer => ⟨fun _ hmem => (nomatch hmem), fun _ hnone => (nomatch hnone)⟩
  · intro id row manifest hget
    rw [hrow] at hget
    cases hget
  · intro id row hget
    rw [hrow] at hget
    cases hget

end Intake

/-- In every run in which the chunk that fills a bitmap is noticed by its lane, an attachment whose
chunks are all in the bitmap is complete, and its completion was reported once. -/
theorem attachments_settled (deps : FileDeps G) {world : Intake}
    (hworld : world.Sound deps.daemon.manifest) (actions : List Intake.Action)
    (htimely : Meets (Intake.step deps) (Intake.Timely deps) world actions) :
    Along (Intake.step deps) (Intake.Settled deps.daemon.manifest) world actions := by
  have hsound : Along (Intake.step deps) (Intake.Sound deps.daemon.manifest) world actions :=
    along_of_meets (fun _ _ h htimely => h.step htimely) hworld htimely
  exact hsound.imp fun _ h => h.settled

/-! ### The last chunk on either lane -/

def twoChunkManifest : AttachmentManifest :=
  ⟨1, .fill 16 3, "note.txt", "text/plain", 2, CHUNK_SIZE, .fill 32 4,
    [⟨0, taggedCrypto.sha256 [1], 1⟩, ⟨1, taggedCrypto.sha256 [2], 1⟩]⟩

def twoChunkDeps : FileDeps Mls.Counter := { Daemon.plainDeps with
  daemon := { Daemon.fileDeps with manifest := fun _ => .ok twoChunkManifest } }

def freshIntake : Intake :=
  ⟨⟨⟨Daemon.linkedTables, [], [], []⟩, .empty⟩, fun _ => ⟨none, []⟩, fun _ => [], []⟩

def StartEnv.calm (instant : Nat) : StartEnv := ⟨instant, true, fun _ => false, fun _ => false⟩

def RxEnv.calm (instant : Nat) : RxEnv :=
  ⟨instant, true, true, true, false, false, false, .calm instant, .calm instant⟩

def OfflineEnv.calm : OfflineEnv := ⟨false, false, false, false, false, false, false, false⟩

def announcedRun : List Intake.Action :=
  [.dispatch (.direct (.fill 32 1)) ⟨0, .fill 16 0, none, none⟩ Daemon.firstMessage,
    .collect (.calm 0) (.fill 32 1)]

def silentRun : List Intake.Action :=
  [.tick (.calm 30000) (.fill 32 1), .tick (.calm 60000) (.fill 32 1),
    .tick (.calm 90000) (.fill 32 1)]

/-- The second chunk comes from a mailbox, then the first one from the peer. -/
def unnoticedRun : List Intake.Action :=
  announcedRun ++ [.offline .calm [2], .chunk (.calm 0) (.fill 32 1) (.fill 16 3) 0 [1]] ++
    silentRun

/-- All chunks are in the bitmap when the direct lane fails the transfer. -/
theorem full_bitmap_failed :
    Distinct twoChunkManifest ∧
      (unnoticedRun.foldl (Intake.step twoChunkDeps) freshIntake).Full (.fill 16 3)
        twoChunkManifest ∧
      ((unnoticedRun.foldl (Intake.step twoChunkDeps) freshIntake).row (.fill 16 3)).map
        (·.status) = some .failed ∧
      (unnoticedRun.foldl (Intake.step twoChunkDeps) freshIntake).outcomes (.fill 16 3) =
        [.failed "request timeout"] := by
  refine ⟨?_, ?_, by decide +kernel, by decide +kernel⟩
  · unfold Distinct
    decide
  · unfold Intake.Full
    decide +kernel

/-- The first chunk comes from the peer, then the second one from a mailbox. -/
def noticedRun : List Intake.Action :=
  announcedRun ++ [.chunk (.calm 0) (.fill 32 1) (.fill 16 3) 0 [1], .offline .calm [2]] ++
    silentRun

/-- The offline lane completes the transfer, and the timeout of the direct lane changes nothing. -/
theorem noticed_run_settled :
    Along (Intake.step twoChunkDeps) (Intake.Settled twoChunkDeps.daemon.manifest) freshIntake
        noticedRun ∧
      (noticedRun.foldl (Intake.step twoChunkDeps) freshIntake).outcomes (.fill 16 3) =
        [.received (.fill 32 1) "note.txt" "text/plain" 2] := by
  refine ⟨attachments_settled twoChunkDeps (Intake.Sound.fresh _ ⟨rfl, rfl, rfl⟩) noticedRun
    ⟨trivial, trivial, ?_, fun _ _ _ _ _ _ _ _ => ⟨rfl, rfl⟩, trivial, trivial, trivial, trivial⟩,
    by decide +kernel⟩
  -- the second chunk is still missing
  rintro rx row - - - - - ⟨-, -, -, manifest, hdecode, -, hfull⟩
  cases hdecode
  have hsecond := hfull ⟨1, taggedCrypto.sha256 [2], 1⟩
    (List.mem_cons_of_mem _ List.mem_cons_self)
  exact absurd hsecond (by decide +kernel)

end Skattr.Core.Delivery
