import Skattr.Core.Daemon.Receipt
import Skattr.Core.Daemon.SendFile
import Skattr.Core.Transport.Frame

/-!
# Serving chunks to peers

The sender's side of an attachment: a peer asks for chunks with `ChunkRequest` and confirms the
transfer with `AttachmentComplete`. Neither handler looks at who asks. A world also remembers, for
the statements only, which attachment was announced to whom. `frames_scoped_iff` says exactly in
which runs the frames of every peer are confined to the attachments that were announced to it, and
`foreign_frames_served` is a run in which they are not.
-/

namespace Skattr.Core.Delivery

open Lib Lib.Fallible
open Daemon (FileDeps FileEnv FileState plainDeps fileEnv linkedTables)

variable {G : Type}

def NACK_UNKNOWN_ATTACHMENT : UInt8 := 0

def NACK_INDEX_OUT_OF_RANGE : UInt8 := 1

def NACK_STORE_READ : UInt8 := 2

inductive PullFrame where
  | chunkRequest (attachmentId : AttachmentId) (index : UInt32)
  | attachmentComplete (attachmentId : AttachmentId)
  deriving DecidableEq

def PullFrame.attachmentId : PullFrame → AttachmentId
  | .chunkRequest id _ => id
  | .attachmentComplete id => id

/-- The daemon with the progress events of attachments, the chunks that each actor has served, and
the attachments that were announced to each contact. -/
structure Serving where
  files : FileState
  served : Table (PublicKey × AttachmentId) (List UInt32)
  progress : List (AttachmentId × Nat × Nat)
  announced : List (PublicKey × AttachmentId)

/-- What the handler of a frame meets: which reads and writes fail, and whether the answer is
transmitted. -/
structure FrameEnv where
  rowFault : Bool
  chunkFault : Bool
  sent : Bool
  statusFault : Bool
  removeFault : Bool
  pruneFault : Bool
  rereadFault : Bool
  deriving DecidableEq

def FrameEnv.calm : FrameEnv := ⟨false, false, true, false, false, false, false⟩

namespace Serving

def row (world : Serving) (id : AttachmentId) : Option AttachmentRow :=
  AttachmentRepo.get world.files.daemon.tables id

def chunk (world : Serving) (id : AttachmentId) (index : UInt32) : Option Bytes :=
  world.files.chunks.getChunk id index

def deposit (world : Serving) (id : AttachmentId) (index : UInt32) : Option ChunkDepositRow :=
  world.files.daemon.tables.attachmentDeposits.get (id, index)

/-- Record that an index was served and report how many distinct ones were. -/
def recordServed (world : Serving) (peer : PublicKey) (id : AttachmentId) (index : UInt32)
    (total : Nat) : Serving :=
  let indices := List.insert index ((world.served.get (peer, id)).getD [])
  { world with
    served := world.served.put (peer, id) indices
    progress := world.progress ++ [(id, indices.length, total)] }

end Serving

/-! ### The two handlers -/

def serveChunkRequest (store : ChunkStore) (chunkFault : Bool) (id : AttachmentId) (index : UInt32)
    (totalChunks : UInt32) : Transport.Frame :=
  if index ≥ totalChunks then .chunkNack ⟨id, index, NACK_INDEX_OUT_OF_RANGE⟩
  else
    match if chunkFault then none else store.getChunk id index with
    | some ciphertext => .chunk ⟨id, index, ciphertext⟩
    | none => .chunkNack ⟨id, index, NACK_STORE_READ⟩

def isChunk : Transport.Frame → Bool
  | .chunk _ => true
  | _ => false

/-- The row that a request is served from: an outgoing attachment, whoever it is for. -/
def servedRow (env : FrameEnv) (world : Serving) (id : AttachmentId) : Option AttachmentRow :=
  (if env.rowFault then none else world.row id).filter fun row => row.direction = .outbound

def onChunkRequest (env : FrameEnv) (peer : PublicKey) (id : AttachmentId) (index : UInt32)
    (world : Serving) : Option Transport.Frame × Serving :=
  match servedRow env world id with
  | none =>
    (if env.sent then some (.chunkNack ⟨id, index, NACK_UNKNOWN_ATTACHMENT⟩) else none, world)
  | some row =>
    let total := UInt32.ofNat row.totalChunks
    let reply := serveChunkRequest world.files.chunks env.chunkFault id index total
    if env.sent then
      (some reply,
        if isChunk reply then world.recordServed peer id index total.toNat else world)
    else (none, world)

/-- Finish an attachment that the receiver has confirmed: set its status, delete its staged chunks
and its deposits, and report it. Each failure is only logged. -/
def onAttachmentComplete (env : FrameEnv) (peer : PublicKey) (id : AttachmentId)
    (world : Serving) : Serving :=
  let tables := world.files.daemon.tables
  let tables := if env.statusFault then tables else AttachmentRepo.setStatus tables id .complete
  let chunks := if env.removeFault then world.files.chunks else world.files.chunks.remove id
  let tables :=
    if env.pruneFault then tables else AttachmentDepositRepo.deleteForAttachment tables id
  let total (row : AttachmentRow) := (UInt32.ofNat row.totalChunks).toNat
  let finished := if env.rereadFault then none else AttachmentRepo.get tables id
  { world with
    files := ⟨{ world.files.daemon with tables := tables }, chunks⟩
    served := world.served.delete (peer, id)
    progress := world.progress ++ finished.toList.map fun row => (id, total row, total row) }

/-- Handle a frame that a peer sent on its connection; the first component is the answer. -/
def handleFrame (env : FrameEnv) (peer : PublicKey) (frame : PullFrame) (world : Serving) :
    Option Transport.Frame × Serving :=
  match frame with
  | .chunkRequest id index => onChunkRequest env peer id index world
  | .attachmentComplete id => (none, onAttachmentComplete env peer id world)

/-! ### Runs -/

/-- What the daemon does between the frames, and the frames. -/
inductive Serving.Action where
  | sendFile (env : FileEnv) (contact : PublicKey) (path : String)
  | dispatch (lane : Daemon.Lane) (env : Daemon.Env) (ciphertext : Bytes)
  | frame (peer : PublicKey) (frame : PullFrame) (env : FrameEnv)

def Serving.step (deps : FileDeps G) (self : PublicKey) (world : Serving) :
    Serving.Action → Serving
  | .sendFile env contact path =>
    match exec (Daemon.sendFile deps env self contact path) world.files with
    | (.ok (id, _), files) =>
      { world with files := files, announced := world.announced ++ [(contact, id)] }
    | (.error _, files) => { world with files := files }
  | .dispatch lane env ciphertext =>
    let daemon := (lane.dispatch deps.daemon env ciphertext world.files.daemon).2
    { world with files := { world.files with daemon := daemon } }
  | .frame peer frame env => (handleFrame env peer frame world).2

/-! ### Whose attachment it is -/

/-- Every announced attachment is an outgoing one, and no id was announced twice. -/
structure Serving.Owned (world : Serving) : Prop where
  rows : ∀ pair ∈ world.announced, ∃ row, world.row pair.2 = some row ∧ row.direction = .outbound
  once : (world.announced.map Prod.snd).Nodup

def Serving.AnnouncedTo (world : Serving) (peer : PublicKey) (id : AttachmentId) : Prop :=
  (peer, id) ∈ world.announced ∧ ∃ row, world.row id = some row ∧ row.direction = .outbound

def Serving.KeepsRows (before after : Serving) : Prop :=
  ∀ id row, before.row id = some row →
    ∃ kept, after.row id = some kept ∧ kept.direction = row.direction

variable {after : Serving}

theorem Serving.Owned.of_keepsRows {before : Serving} (h : before.Owned)
    (hrows : before.KeepsRows after) (hannounced : after.announced = before.announced) :
    after.Owned := by
  refine ⟨?_, by rw [hannounced]; exact h.once⟩
  intro pair hpair
  rw [hannounced] at hpair
  obtain ⟨row, hrow, houtbound⟩ := h.rows pair hpair
  obtain ⟨kept, hkept, hdirection⟩ := hrows pair.2 row hrow
  exact ⟨kept, hkept, hdirection.trans houtbound⟩

theorem onAttachmentComplete_row (env : FrameEnv) (peer : PublicKey) (id : AttachmentId)
    (world : Serving) (other : AttachmentId) :
    (onAttachmentComplete env peer id world).row other =
      if other = id ∧ env.statusFault = false then
        (world.row other).map fun row => { row with status := .complete }
      else world.row other := by
  have hpruned : (onAttachmentComplete env peer id world).row other =
      (if env.statusFault then world.files.daemon.tables
        else AttachmentRepo.setStatus world.files.daemon.tables id .complete).attachments.get
          other := by
    unfold onAttachmentComplete Serving.row AttachmentRepo.get
    dsimp only
    split <;> rfl
  rw [hpruned]
  cases env.statusFault with
  | true => simp [Serving.row, AttachmentRepo.get]
  | false =>
    show (world.files.daemon.tables.attachments.modify id _).get other = _
    rw [Table.get_modify]
    by_cases hother : other = id
    · rw [if_pos hother, if_pos ⟨hother, rfl⟩]
      rfl
    · rw [if_neg hother, if_neg fun h => hother h.1]
      rfl

theorem onAttachmentComplete_chunk (env : FrameEnv) (peer : PublicKey) (id : AttachmentId)
    (world : Serving) (other : AttachmentId) (index : UInt32) :
    (onAttachmentComplete env peer id world).chunk other index =
      if other = id ∧ env.removeFault = false then none else world.chunk other index := by
  show (if env.removeFault then world.files.chunks else world.files.chunks.remove id).getChunk
    other index = _
  cases env.removeFault with
  | true => simp [Serving.chunk]
  | false =>
    show (world.files.chunks.remove id).getChunk other index = _
    rw [ChunkStore.getChunk_remove]
    simp only [and_true]
    rfl

theorem onAttachmentComplete_deposit (env : FrameEnv) (peer : PublicKey) (id : AttachmentId)
    (world : Serving) (other : AttachmentId) (index : UInt32) :
    (onAttachmentComplete env peer id world).deposit other index =
      if other = id ∧ env.pruneFault = false then none else world.deposit other index := by
  have hstatus : (if env.statusFault then world.files.daemon.tables
      else AttachmentRepo.setStatus world.files.daemon.tables id .complete).attachmentDeposits =
        world.files.daemon.tables.attachmentDeposits := by
    split <;> rfl
  unfold onAttachmentComplete Serving.deposit
  dsimp only
  cases env.pruneFault with
  | true => simp [hstatus]
  | false =>
    rw [if_neg Bool.false_ne_true, AttachmentDepositRepo.get_deleteForAttachment, hstatus]
    simp only [and_true]

theorem onAttachmentComplete_progress (env : FrameEnv) (peer : PublicKey) (id : AttachmentId)
    (world : Serving) :
    (onAttachmentComplete env peer id world).progress = world.progress ++
      (if env.rereadFault then none
        else (onAttachmentComplete env peer id world).row id).toList.map fun row =>
          (id, (UInt32.ofNat row.totalChunks).toNat, (UInt32.ofNat row.totalChunks).toNat) := rfl

theorem handleFrame_keepsRows (env : FrameEnv) (peer : PublicKey) (frame : PullFrame)
    (world : Serving) : world.KeepsRows (handleFrame env peer frame world).2 := by
  intro id row hrow
  cases frame with
  | chunkRequest requested index =>
    refine ⟨row, ?_, rfl⟩
    unfold handleFrame onChunkRequest
    dsimp only
    split
    · exact hrow
    · split
      · split <;> exact hrow
      · exact hrow
  | attachmentComplete completed =>
    show ∃ kept, (onAttachmentComplete env peer completed world).row id = some kept ∧ _
    rw [onAttachmentComplete_row]
    split
    · next h =>
      rw [hrow]
      exact ⟨_, rfl, rfl⟩
    · exact ⟨row, hrow, rfl⟩

theorem handleFrame_announced (env : FrameEnv) (peer : PublicKey) (frame : PullFrame)
    (world : Serving) : (handleFrame env peer frame world).2.announced = world.announced := by
  cases frame with
  | chunkRequest requested index =>
    unfold handleFrame onChunkRequest
    dsimp only
    split
    · rfl
    · split
      · split <;> rfl
      · rfl
  | attachmentComplete completed => rfl

variable {world : Serving} {id other : AttachmentId} {peer : PublicKey} {env : FrameEnv}
  {index : UInt32}

theorem Serving.Owned.announce (h : world.Owned) {contact : PublicKey} {row : AttachmentRow}
    (houtbound : row.direction = .outbound)
    (hinsert : world.files.daemon.tables.attachments.insert id row = some
      after.files.daemon.tables.attachments)
    (hannounced : after.announced = world.announced ++ [(contact, id)]) : after.Owned := by
  have hnew : world.row id = none := (Table.insert_eq_some hinsert).1
  constructor
  · intro pair hpair
    rw [hannounced, List.mem_append, List.mem_singleton] at hpair
    rcases hpair with hpair | rfl
    · obtain ⟨row, hrow, houtbound⟩ := h.rows pair hpair
      exact ⟨row, Table.get_insert_of_some hinsert hrow, houtbound⟩
    · exact ⟨row, by rw [Serving.row, AttachmentRepo.get, Table.get_insert hinsert, if_pos rfl],
        houtbound⟩
  · rw [hannounced, List.map_append, List.map_singleton, List.nodup_append]
    refine ⟨h.once, List.nodup_singleton _, ?_⟩
    intro known hknown fresh hfresh
    rw [List.mem_singleton] at hfresh
    rintro rfl
    obtain ⟨pair, hpair, rfl⟩ := List.mem_map.mp hknown
    obtain ⟨row, hrow, -⟩ := h.rows pair hpair
    rw [hfresh, hnew] at hrow
    cases hrow

theorem Serving.Owned.step (deps : FileDeps G) (self : PublicKey) (action : Serving.Action)
    (h : world.Owned) : (Serving.step deps self world action).Owned := by
  cases action with
  | sendFile env contact path =>
    rcases hsend : exec (Daemon.sendFile deps env self contact path) world.files with
      ⟨result, files⟩
    rw [Serving.step, hsend]
    rcases Daemon.sendFile_attachments hsend with ⟨hsame, e, rfl⟩ | ⟨manifest, hinsert, hid⟩
    · refine h.of_keepsRows (fun id row hrow => ⟨row, ?_, rfl⟩) rfl
      show files.daemon.tables.attachments.get id = some row
      rw [hsame]
      exact hrow
    · have hkept : ∀ id row, world.row id = some row →
          files.daemon.tables.attachments.get id = some row :=
        fun id row hrow => Table.get_insert_of_some hinsert hrow
      cases result with
      | error e => exact h.of_keepsRows (fun id row hrow => ⟨row, hkept id row hrow, rfl⟩) rfl
      | ok answer =>
        obtain ⟨id, total⟩ := answer
        cases hid (id, total) rfl
        exact h.announce rfl hinsert rfl
  | dispatch lane env ciphertext =>
    refine h.of_keepsRows (fun id row hrow => ⟨row, ?_, rfl⟩) rfl
    exact Daemon.Lane.dispatch_attachments deps.daemon env ciphertext _ lane hrow
  | frame peer frame env =>
    exact h.of_keepsRows (handleFrame_keepsRows env peer frame world)
      (handleFrame_announced env peer frame world)

/-! ### Frames that stay within bounds -/

/-- What is stored and reported about an attachment is as it was. -/
structure Serving.Untouched (id : AttachmentId) (before after : Serving) : Prop where
  row : after.row id = before.row id
  chunks : ∀ index, after.chunk id index = before.chunk id index
  deposits : ∀ index, after.deposit id index = before.deposit id index
  progress : after.progress.filter (·.1 = id) = before.progress.filter (·.1 = id)

def Reveals (answer : Option Transport.Frame) (id : AttachmentId) : Prop :=
  match answer with
  | some (.chunk payload) => payload.attachmentId = id
  | some (.chunkNack payload) =>
    payload.attachmentId = id ∧ payload.reason ≠ NACK_UNKNOWN_ATTACHMENT
  | _ => False

/-- Whatever fails, the frame neither touches nor reveals an attachment that was not announced to
the peer. -/
def Scoped (peer : PublicKey) (frame : PullFrame) (world : Serving) : Prop :=
  ∀ env id, ¬world.AnnouncedTo peer id →
    Serving.Untouched id world (handleFrame env peer frame world).2 ∧
      ¬Reveals (handleFrame env peer frame world).1 id

def Harmless (world : Serving) : PullFrame → Prop
  | .chunkRequest id _ => ∀ row, world.row id = some row → row.direction ≠ .outbound
  | .attachmentComplete id => world.row id = none ∧ (∀ index, world.chunk id index = none) ∧
      ∀ index, world.deposit id index = none

/-- The frame is about an attachment that was announced to the peer, or harmless. -/
def Permitted (peer : PublicKey) (frame : PullFrame) (world : Serving) : Prop :=
  world.AnnouncedTo peer frame.attachmentId ∨ Harmless world frame

theorem servedRow_eq_none (h : ∀ row, world.row id = some row → row.direction ≠ .outbound) :
    servedRow env world id = none := by
  unfold servedRow
  rw [Option.filter_eq_none_iff]
  intro row hrow
  split at hrow
  · cases hrow
  · simpa using h row hrow

theorem reveals_serveChunkRequest {store : ChunkStore} {chunkFault : Bool} {total : UInt32} :
    Reveals (some (serveChunkRequest store chunkFault id index total)) other ↔ id = other := by
  unfold serveChunkRequest
  split
  · simp [Reveals, NACK_INDEX_OUT_OF_RANGE, NACK_UNKNOWN_ATTACHMENT]
  · split
    · rfl
    · simp [Reveals, NACK_STORE_READ, NACK_UNKNOWN_ATTACHMENT]

theorem onChunkRequest_spec (env : FrameEnv) (peer : PublicKey) (id : AttachmentId)
    (index : UInt32) (world : Serving) :
    (∀ other, other ≠ id → ¬Reveals (onChunkRequest env peer id index world).1 other) ∧
      (onChunkRequest env peer id index world).2.files = world.files ∧
      ∃ reports, (onChunkRequest env peer id index world).2.progress = world.progress ++ reports ∧
        ∀ report ∈ reports, report.1 = id := by
  have hnone : ∃ reports, world.progress = world.progress ++ reports ∧
      ∀ report ∈ reports, report.1 = id :=
    ⟨[], (List.append_nil _).symm, fun report hreport => nomatch hreport⟩
  unfold onChunkRequest
  split
  · refine ⟨fun other _ => ?_, rfl, hnone⟩
    dsimp only
    split
    · exact fun h => h.2 rfl
    · exact fun h => h
  · dsimp only
    split
    · refine ⟨fun other hother h => hother (reveals_serveChunkRequest.mp h).symm, ?_⟩
      split
      · exact ⟨rfl, [_], rfl, fun report hreport => by rw [List.mem_singleton.mp hreport]⟩
      · exact ⟨rfl, hnone⟩
    · exact ⟨fun other _ h => h, rfl, hnone⟩

theorem onChunkRequest_harmless (env : FrameEnv) (peer : PublicKey)
    (h : Harmless world (.chunkRequest id index)) :
    (onChunkRequest env peer id index world).2 = world ∧
      ¬Reveals (onChunkRequest env peer id index world).1 id := by
  rw [onChunkRequest, servedRow_eq_none h]
  refine ⟨rfl, ?_⟩
  dsimp only
  split
  · exact fun h => h.2 rfl
  · exact fun h => h

theorem filter_reports (h : other ≠ id) {progress reports : List (AttachmentId × Nat × Nat)}
    (hreports : ∀ report ∈ reports, report.1 = id) :
    (progress ++ reports).filter (·.1 = other) = progress.filter (·.1 = other) := by
  rw [List.filter_append, List.append_right_eq_self, List.filter_eq_nil_iff]
  intro report hreport
  rw [hreports report hreport]
  simpa using h.symm

theorem onAttachmentComplete_untouched (h : other ≠ id ∨ Harmless world (.attachmentComplete id)) :
    Serving.Untouched other world (onAttachmentComplete env peer id world) := by
  have hrow : (onAttachmentComplete env peer id world).row other = world.row other := by
    rw [onAttachmentComplete_row]
    split
    · next hsame =>
      rcases h with hother | hharmless
      · exact absurd hsame.1 hother
      · rw [hsame.1, hharmless.1]
        rfl
    · rfl
  refine ⟨hrow, fun index => ?_, fun index => ?_, ?_⟩
  · rw [onAttachmentComplete_chunk]
    split
    · next hsame =>
      rcases h with hother | hharmless
      · exact absurd hsame.1 hother
      · rw [hsame.1, hharmless.2.1]
    · rfl
  · rw [onAttachmentComplete_deposit]
    split
    · next hsame =>
      rcases h with hother | hharmless
      · exact absurd hsame.1 hother
      · rw [hsame.1, hharmless.2.2]
    · rfl
  · rw [onAttachmentComplete_progress]
    by_cases hother : other = id
    · subst hother
      rcases h with hother | hharmless
      · exact absurd rfl hother
      · rw [hrow, hharmless.1]
        simp
    · refine filter_reports hother fun report hreport => ?_
      obtain ⟨row, -, rfl⟩ := List.mem_map.mp hreport
      rfl

theorem scoped_iff {frame : PullFrame} : Scoped peer frame world ↔ Permitted peer frame world := by
  constructor
  · intro hscoped
    by_cases hannounced : world.AnnouncedTo peer frame.attachmentId
    · exact .inl hannounced
    refine .inr ?_
    obtain ⟨huntouched, hreveals⟩ := hscoped FrameEnv.calm frame.attachmentId hannounced
    cases frame with
    | chunkRequest id index =>
      intro row hrow houtbound
      refine hreveals ?_
      have hserved : servedRow FrameEnv.calm world id = some row := by
        simp [servedRow, FrameEnv.calm, hrow, houtbound]
      show Reveals (onChunkRequest FrameEnv.calm peer id index world).1 id
      rw [onChunkRequest, hserved]
      exact reveals_serveChunkRequest.mpr rfl
    | attachmentComplete id =>
      replace huntouched : Serving.Untouched id world
        (onAttachmentComplete FrameEnv.calm peer id world) := huntouched
      refine ⟨?_, fun index => ?_, fun index => ?_⟩
      · -- a row would be reported as finished
        have hprogress := huntouched.progress
        rw [onAttachmentComplete_progress, huntouched.row, List.filter_append,
          List.append_right_eq_self] at hprogress
        cases hrow : world.row id with
        | none => rfl
        | some row =>
          rw [hrow] at hprogress
          simp [FrameEnv.calm] at hprogress
      · rw [← huntouched.chunks, onAttachmentComplete_chunk, if_pos ⟨rfl, rfl⟩]
      · rw [← huntouched.deposits, onAttachmentComplete_deposit, if_pos ⟨rfl, rfl⟩]
  · intro hpermitted env id hunannounced
    have hcases : id ≠ frame.attachmentId ∨ Harmless world frame := by
      rcases hpermitted with hannounced | hharmless
      · exact .inl fun hsame => hunannounced (hsame ▸ hannounced)
      · exact .inr hharmless
    cases frame with
    | attachmentComplete completed => exact ⟨onAttachmentComplete_untouched hcases, fun h => h⟩
    | chunkRequest requested index =>
      show Serving.Untouched id world (onChunkRequest env peer requested index world).2 ∧
        ¬Reveals (onChunkRequest env peer requested index world).1 id
      by_cases hsame : id = requested
      · subst hsame
        rcases hcases with hother | hharmless
        · exact absurd rfl hother
        · obtain ⟨hworld, hreveals⟩ := onChunkRequest_harmless env peer hharmless
          rw [hworld]
          exact ⟨⟨rfl, fun _ => rfl, fun _ => rfl, rfl⟩, hreveals⟩
      · obtain ⟨hreveals, hfiles, reports, hprogress, hreports⟩ :=
          onChunkRequest_spec env peer requested index world
        refine ⟨⟨?_, fun chunk => ?_, fun chunk => ?_, ?_⟩, hreveals id hsame⟩
        · rw [Serving.row, hfiles]
          rfl
        · rw [Serving.chunk, hfiles]
          rfl
        · rw [Serving.deposit, hfiles]
          rfl
        · rw [hprogress]
          exact filter_reports hsame hreports

def Serving.Action.Permitted (world : Serving) : Serving.Action → Prop
  | .frame peer pull _ => Delivery.Permitted peer pull world
  | _ => True

def Serving.Action.Scoped (world : Serving) : Serving.Action → Prop
  | .frame peer pull _ => Delivery.Scoped peer pull world
  | _ => True

/-- Exactly the runs whose frames are all permitted keep the frames of every peer within bounds: the
attachments they touch or reveal are outgoing ones that were announced to that peer. In every state
of such a run these are no attachments that were announced to someone else, and none that we
receive. -/
theorem frames_scoped_iff (deps : FileDeps G) (self : PublicKey) (world : Serving)
    (hworld : world.Owned) (actions : List Serving.Action) :
    (Meets (Serving.step deps self) Serving.Action.Scoped world actions ↔
      Meets (Serving.step deps self) Serving.Action.Permitted world actions) ∧
    Along (Serving.step deps self) (fun world => ∀ peer id,
      ((∃ other, other ≠ peer ∧ (other, id) ∈ world.announced) ∨
        ∃ row, world.row id = some row ∧ row.direction = .inbound) →
      ¬world.AnnouncedTo peer id) world actions := by
  constructor
  · have hguards : Serving.Action.Scoped = Serving.Action.Permitted := by
      funext world action
      cases action with
      | frame peer frame env => exact propext scoped_iff
      | sendFile | dispatch => rfl
    rw [hguards]
  · have howned : Along (Serving.step deps self) Serving.Owned world actions :=
      along_of_step (fun world action h => h.step deps self action) hworld actions
    refine howned.imp fun world h => ?_
    rintro peer id (⟨other, hother, hannounced⟩ | ⟨row, hrow, hinbound⟩) ⟨hpeer, row', hrow', hout⟩
    · exact hother (congrArg Prod.fst (List.inj_on_of_nodup_map h.once hannounced hpeer rfl))
    · cases hrow.symm.trans hrow'
      rw [hinbound] at hout
      cases hout

/-! ### A foreign peer -/

/-- A daemon with one contact that is receiving an attachment from it; one chunk has arrived. -/
def receivingWorld : Serving :=
  ⟨⟨⟨{ linkedTables with
      attachments :=
        Table.empty.put (.fill 16 8) ⟨.inbound, [], 2, .pending, 0, some (.fill 32 1)⟩ },
    [], [], []⟩, Table.empty.put (.fill 16 8, 0) [5]⟩, .empty, [], []⟩

def sendPair : Serving.Action := .sendFile (fileEnv [1, 2]) (.fill 32 1) "video.bin"

def sentWorld : Serving := Serving.step plainDeps (.fill 32 0) receivingWorld sendPair

/-- The daemon after a peer that is not the contact has confirmed an attachment. -/
def foreignConfirmed (id : AttachmentId) : Serving :=
  (handleFrame .calm (.fill 32 2) (.attachmentComplete id) sentWorld).2

/-- A peer that is not the contact fetches a chunk of the file, and its confirmations complete the
file and the attachment that is being received, and delete the chunks and deposits of both. -/
theorem foreign_frames_served :
    sentWorld.announced = [(.fill 32 1, .fill 16 3)] ∧
      (handleFrame .calm (.fill 32 2) (.chunkRequest (.fill 16 3) 0) sentWorld).1 =
        some (.chunk ⟨.fill 16 3, 0, [1, 2] ++ List.replicate 16 0⟩) ∧
      ((sentWorld.row (.fill 16 3)).map AttachmentRow.status,
          (sentWorld.chunk (.fill 16 3) 0).isSome, (sentWorld.deposit (.fill 16 3) 0).isSome) =
        (some .pending, true, true) ∧
      ((sentWorld.row (.fill 16 8)).map AttachmentRow.status,
          (sentWorld.chunk (.fill 16 8) 0).isSome) = (some .pending, true) ∧
      (((foreignConfirmed (.fill 16 3)).row (.fill 16 3)).map AttachmentRow.status,
          (foreignConfirmed (.fill 16 3)).chunk (.fill 16 3) 0,
          (foreignConfirmed (.fill 16 3)).deposit (.fill 16 3) 0) = (some .complete, none, none) ∧
      (((foreignConfirmed (.fill 16 8)).row (.fill 16 8)).map AttachmentRow.status,
          (foreignConfirmed (.fill 16 8)).chunk (.fill 16 8) 0) = (some .complete, none) := by
  refine ⟨?_, ?_, ?_, ?_, ?_, ?_⟩ <;> rfl

/-- The frames of the contact itself stay within bounds. -/
theorem contact_frames_scoped :
    Meets (Serving.step plainDeps (.fill 32 0)) Serving.Action.Scoped receivingWorld
      [sendPair, .frame (.fill 32 1) (.chunkRequest (.fill 16 3) 0) .calm,
        .frame (.fill 32 1) (.attachmentComplete (.fill 16 3)) .calm] := by
  have howned : receivingWorld.Owned := ⟨fun pair hpair => (nomatch hpair), List.nodup_nil⟩
  refine (frames_scoped_iff plainDeps (.fill 32 0) receivingWorld howned _).1.mpr ?_
  exact ⟨trivial, .inl ⟨List.mem_singleton.mpr rfl, _, rfl, rfl⟩,
    .inl ⟨List.mem_singleton.mpr rfl, _, rfl, rfl⟩, trivial⟩

end Skattr.Core.Delivery
