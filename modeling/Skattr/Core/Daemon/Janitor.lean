import Skattr.Core.Daemon.SendFile

/-!
# The attachment janitor, and what a failed `sendFile` leaves to it

The janitor fails incoming transfers that have stalled, and removes the directories of chunks that
have no row in `attachments`. A directory whose attachment has a row is spared, whatever the row
says.

`sendFile` stages the chunks and inserts the row before it announces the file, and takes neither
back. So `failed_send_reclaimed_iff`: a failed call leaves no row, no deposit and nothing that a
janitor pass would not remove exactly when it fails before the announcement. The row of a file that
a contact may not be sent, `rejected_file_stays`, keeps its chunks for good.
-/

namespace Skattr.Core.Daemon

open Lib Lib.Fallible

/-! ### A pass of the janitor -/

/-- How long an incoming transfer may go without a new chunk, in milliseconds. -/
def STALL_GRACE : Int := 14 * 24 * 60 * 60 * 1000

/-- How old a directory without a row must be to be an orphan, in milliseconds. -/
def ORPHAN_GRACE : Int := 60 * 60 * 1000

/-- What a pass meets: the clock, and which of its reads, claims and removals fail. -/
structure JanitorEnv where
  now : Int
  listFault : Bool
  metadataFault : AttachmentId → Bool
  claimFault : AttachmentId → Bool
  idsFault : Bool
  readDirFault : Bool
  removeFault : AttachmentId → Bool

structure JanitorStats where
  stalled : Nat
  orphans : Nat
  deriving DecidableEq

/-- The database and the chunks, with the directories of attachments and the time of their last
change, and what the janitor did: the events that it sent, with their reasons, and its counts. -/
structure JanitorState where
  tables : Tables
  chunks : ChunkStore
  dirs : Table AttachmentId Int
  events : List (AttachmentId × String)
  stats : JanitorStats
  deriving DecidableEq

namespace JanitorState

/-- How long ago the directory of an attachment was changed; a change in the future counts as
none. -/
def age (s : JanitorState) (env : JanitorEnv) (id : AttachmentId) : Option Int :=
  if env.metadataFault id then none
  else ((s.dirs.get id).filter (· ≤ env.now)).map (env.now - ·)

variable (env : JanitorEnv)

def failStalled (s : JanitorState) (id : AttachmentId) : JanitorState :=
  if (s.age env id).any (STALL_GRACE < ·) ∧ env.claimFault id = false then
    match AttachmentRepo.claimTerminal s.tables id .failed with
    | (true, tables) => { s with
        tables := tables
        events := s.events ++ [(id, "transfer stalled")]
        stats := { s.stats with stalled := s.stats.stalled + 1 } }
    | (false, tables) => { s with tables := tables }
  else s

def removeOrphan (known : List AttachmentId) (s : JanitorState) (id : AttachmentId) :
    JanitorState :=
  if id ∉ known ∧ (s.age env id).any (ORPHAN_GRACE < ·) ∧ env.removeFault id = false then
    { s with
      chunks := s.chunks.remove id
      dirs := s.dirs.delete id
      stats := { s.stats with orphans := s.stats.orphans + 1 } }
  else s

def failAllStalled (s : JanitorState) : JanitorState :=
  if env.listFault then s
  else ((AttachmentRepo.listPendingIn s.tables).map Prod.fst).foldl (failStalled env) s

/-- The second half of a pass: the directories without a row. Without the ids none is touched. -/
def removeAllOrphans (s : JanitorState) : JanitorState :=
  if env.idsFault ∨ env.readDirFault then s
  else s.dirs.keys.foldl (removeOrphan env s.tables.attachments.keys) s

def runOnce (s : JanitorState) : JanitorState :=
  (s.failAllStalled env).removeAllOrphans env

end JanitorState

/-- A pass after the grace period of an attachment: it meets no fault, its directories are those
that have chunks, and that of the attachment is older than the grace period. -/
structure AfterGrace (env : JanitorEnv) (s : JanitorState) (id : AttachmentId) : Prop where
  metadata : env.metadataFault id = false
  ids : env.idsFault = false
  readDir : env.readDirFault = false
  remove : env.removeFault id = false
  listed : ∀ index, (s.chunks.getChunk id index).isSome → (s.dirs.get id).isSome
  old : ∀ mtime, s.dirs.get id = some mtime → ORPHAN_GRACE < env.now - mtime

/-! ### What a pass does -/

namespace JanitorState

variable {env : JanitorEnv} {s t : JanitorState} {id : AttachmentId}

structure SameFiles (s t : JanitorState) : Prop where
  chunks : t.chunks = s.chunks
  dirs : t.dirs = s.dirs
  keys : t.tables.attachments.keys = s.tables.attachments.keys

theorem SameFiles.failStalled (h : SameFiles s t) (other : AttachmentId) :
    SameFiles s (t.failStalled env other) := by
  unfold JanitorState.failStalled AttachmentRepo.claimTerminal
  split
  · split
    · next hclaim =>
      split at hclaim
      · cases hclaim
        exact ⟨h.chunks, h.dirs, (Table.keys_modify _ _ _).trans h.keys⟩
      · cases hclaim
    · next hclaim =>
      split at hclaim
      · cases hclaim
      · cases hclaim
        exact ⟨h.chunks, h.dirs, h.keys⟩
  · exact h

theorem failAllStalled_same : SameFiles s (s.failAllStalled env) := by
  unfold failAllStalled
  split
  · exact ⟨rfl, rfl, rfl⟩
  · exact foldl_invariant (fun t other (h : SameFiles s t) => h.failStalled other) _ ⟨rfl, rfl, rfl⟩

def Gone (id : AttachmentId) (s : JanitorState) : Prop :=
  ∀ index, s.chunks.getChunk id index = none

/-- The attachment has a row, and its chunks are those of an earlier state. -/
structure Spared (id : AttachmentId) (s t : JanitorState) : Prop where
  row : id ∈ t.tables.attachments.keys
  chunks : ∀ index, t.chunks.getChunk id index = s.chunks.getChunk id index

theorem removeOrphan_cases (env : JanitorEnv) (known : List AttachmentId) (s : JanitorState)
    (other : AttachmentId) :
    s.removeOrphan env known other = s ∨
      (other ∉ known ∧ s.removeOrphan env known other = { s with
        chunks := s.chunks.remove other
        dirs := s.dirs.delete other
        stats := { s.stats with orphans := s.stats.orphans + 1 } }) := by
  unfold removeOrphan
  split
  · next h => exact .inr ⟨h.1, rfl⟩
  · exact .inl rfl

variable {known : List AttachmentId}

theorem Gone.removeOrphan (h : Gone id s) (other : AttachmentId) :
    Gone id (s.removeOrphan env known other) := by
  intro index
  rcases removeOrphan_cases env known s other with hsame | ⟨-, hremoved⟩
  · rw [hsame]
    exact h index
  · rw [hremoved, ChunkStore.getChunk_remove]
    split
    · rfl
    · exact h index

theorem Spared.removeOrphan (hknown : id ∈ known) (h : Spared id s t) (other : AttachmentId) :
    Spared id s (t.removeOrphan env known other) := by
  rcases removeOrphan_cases env known t other with hsame | ⟨hother, hremoved⟩
  · rw [hsame]
    exact h
  · rw [hremoved]
    refine ⟨h.row, fun index => ?_⟩
    have hne : id ≠ other := by
      rintro rfl
      exact hother hknown
    rw [ChunkStore.getChunk_remove, if_neg hne]
    exact h.chunks index

theorem removeOrphan_age {other : AttachmentId} (hne : id ≠ other) :
    (s.removeOrphan env known other).age env id = s.age env id := by
  rcases removeOrphan_cases env known s other with hsame | ⟨-, hremoved⟩
  · rw [hsame]
  · rw [hremoved, age, age, Table.get_delete_ne _ hne]

theorem foldl_removeOrphan_gone {ids : List AttachmentId} (hmem : id ∈ ids) (hknown : id ∉ known)
    (hage : (s.age env id).any (ORPHAN_GRACE < ·)) (hremove : env.removeFault id = false) :
    Gone id (ids.foldl (JanitorState.removeOrphan env known) s) := by
  induction ids generalizing s with
  | nil => cases hmem
  | cons other ids ih =>
    by_cases hother : id = other
    · subst hother
      have hself : Gone id (s.removeOrphan env known id) := by
        intro index
        rw [JanitorState.removeOrphan, if_pos ⟨hknown, hage, hremove⟩,
          ChunkStore.getChunk_remove, if_pos rfl]
      exact foldl_invariant (fun t other (h : Gone id t) => h.removeOrphan other) ids hself
    · refine ih ((List.mem_cons.mp hmem).resolve_left hother) ?_
      rw [removeOrphan_age hother]
      exact hage

theorem runOnce_gone (h : AfterGrace env s id) (hrow : s.tables.attachments.get id = none) :
    Gone id (s.runOnce env) := by
  have hsame : SameFiles s (s.failAllStalled env) := failAllStalled_same
  have hknown : id ∉ (s.failAllStalled env).tables.attachments.keys := by
    rw [hsame.keys]
    exact Table.get_eq_none_iff.mp hrow
  unfold runOnce removeAllOrphans
  rw [if_neg (by simp [h.ids, h.readDir])]
  cases hdir : s.dirs.get id with
  | none =>
    -- without a directory there are no chunks
    have hnone : Gone id (s.failAllStalled env) := by
      intro index
      rw [hsame.chunks]
      by_contra hchunk
      have hlisted := h.listed index (Option.ne_none_iff_isSome.mp hchunk)
      rw [hdir] at hlisted
      cases hlisted
    exact foldl_invariant (fun t other (h : Gone id t) => h.removeOrphan other) _ hnone
  | some mtime =>
    have hmem : id ∈ (s.failAllStalled env).dirs.keys := by
      rw [hsame.dirs]
      by_contra hmem
      rw [Table.get_eq_none_iff.mpr hmem] at hdir
      cases hdir
    have hold := h.old mtime hdir
    have hnow : mtime ≤ env.now := by
      unfold ORPHAN_GRACE at hold
      omega
    refine foldl_removeOrphan_gone hmem hknown ?_ h.remove
    rw [age, h.metadata, hsame.dirs, hdir]
    simpa [Option.filter, hnow] using hold

theorem Spared.runOnce (h : Spared id s t) : Spared id s (t.runOnce env) := by
  have hsame : SameFiles t (t.failAllStalled env) := failAllStalled_same
  have hfailed : Spared id s (t.failAllStalled env) := by
    refine ⟨?_, fun index => ?_⟩
    · rw [hsame.keys]
      exact h.row
    · rw [hsame.chunks]
      exact h.chunks index
  unfold JanitorState.runOnce removeAllOrphans
  split
  · exact hfailed
  · exact foldl_invariant
      (fun t other (h : Spared id s t) => h.removeOrphan hfailed.row other) _ hfailed

theorem spared_by_passes (hrow : id ∈ s.tables.attachments.keys) (passes : List JanitorEnv) :
    Spared id s (passes.foldl (fun t env => t.runOnce env) s) :=
  foldl_invariant (fun t _ (h : Spared id s t) => h.runOnce) passes ⟨hrow, fun _ => rfl⟩

end JanitorState

/-! ### A failed call -/

section SendFile

variable {G : Type} {env : FileEnv}

/-- The id is of no attachment so far. -/
structure Unused (id : AttachmentId) (tables : Tables) : Prop where
  row : tables.attachments.get id = none
  deposits : ∀ index, tables.attachmentDeposits.get (id, index) = none

/-- Nothing of an attachment stays: it has no row and no deposit, and a janitor pass after the grace
period finds it without a row and removes its chunks. -/
structure Reclaimed (id : AttachmentId) (tables : Tables) : Prop where
  row : tables.attachments.get id = none
  deposits : ∀ index, tables.attachmentDeposits.get (id, index) = none
  chunks : ∀ (env : JanitorEnv) (later : JanitorState),
    later.tables.attachments.get id = tables.attachments.get id → AfterGrace env later id →
    ∀ index, (later.runOnce env).chunks.getChunk id index = none

/-- The call gets as far as announcing the file: it is read, stripped, cut and staged, and its row
is inserted. -/
def Announces (deps : FileDeps G) (env : FileEnv) (path : String) : Prop :=
  env.insertFault = false ∧ ∃ manifest cts, prepareFile deps env path = .ok (manifest, cts) ∧
    ∀ i < cts.length, env.putFault i = false

theorem stageChunks_ok_iff {putFault : Nat → Bool} {id : AttachmentId} {cts : List Bytes} {i : Nat}
    {store : ChunkStore} :
    (stageChunks putFault id i cts store).1 = .ok () ↔
      ∀ j < cts.length, putFault (i + j) = false := by
  induction cts generalizing i store with
  | nil => simp [stageChunks]
  | cons ct cts ih =>
    rw [stageChunks]
    cases hfault : putFault i with
    | true =>
      refine iff_of_false (by simp) fun h => ?_
      have hfirst := h 0 (by simp)
      rw [Nat.add_zero, hfault] at hfirst
      cases hfirst
    | false =>
      simp only [Bool.false_eq_true, if_false, ih, List.length_cons]
      constructor
      · intro h j hj
        cases j with
        | zero => exact hfault
        | succ j =>
          rw [← Nat.add_assoc, Nat.add_right_comm]
          exact h j (by omega)
      · intro h j hj
        rw [Nat.add_right_comm]
        exact h (j + 1) (by omega)

theorem insertOutbound_total {manifest : AttachmentManifest} {tables : Tables}
    (hfault : env.insertFault = false)
    (hrow : tables.attachments.get manifest.attachmentId = none) :
    ∃ inserted, insertOutbound env manifest tables = (.ok (), inserted) ∧
      manifest.attachmentId ∈ inserted.attachments.keys := by
  obtain ⟨attachments, hinsert⟩ : ∃ attachments, tables.attachments.insert manifest.attachmentId
      ⟨.outbound, manifest.toCbor, manifest.chunks.length, .pending, env.env.now, none⟩ =
        some attachments := ⟨_, dif_pos hrow⟩
  refine ⟨{ tables with attachments := attachments }, ?_, ?_⟩
  · simp [insertOutbound, hfault, AttachmentRepo.insert, hinsert]
  · by_contra hmem
    have hget := Table.get_insert hinsert manifest.attachmentId
    rw [Table.get_eq_none_iff.mpr hmem, if_pos rfl] at hget
    cases hget

theorem sendFile_failed {deps : FileDeps G} {self contact : PublicKey} {path : String}
    {s t : FileState} {e : CoreError}
    (h : exec (sendFile deps env self contact path) s = (.error e, t))
    (hunused : Unused env.attachmentId s.daemon.tables) :
    (¬Announces deps env path ∧ t.daemon.tables.transfers = s.daemon.tables.transfers) ∨
      (Announces deps env path ∧ env.attachmentId ∈ t.daemon.tables.attachments.keys) := by
  by_cases hannounces : Announces deps env path
  · refine .inr ⟨hannounces, ?_⟩
    obtain ⟨hfault, manifest, cts, hprepare, hput⟩ := hannounces
    have hid := prepareFile_id hprepare
    obtain ⟨inserted, hinsert, hmem⟩ := insertOutbound_total hfault (hid ▸ hunused.row)
    rcases hstage : stageChunks env.putFault manifest.attachmentId 0 cts s.chunks with
      ⟨staged, chunks⟩
    have hstaged : (stageChunks env.putFault manifest.attachmentId 0 cts s.chunks).1 = .ok () :=
      stageChunks_ok_iff.mpr (by simpa using hput)
    rw [hstage] at hstaged
    cases hstaged
    rcases hsend : exec (sendMessage deps.daemon env.env self contact (.file manifest.toCbor))
      { s.daemon with tables := inserted } with ⟨result, sent⟩
    simp only [sendFile, exec_bind, exec_attempt, hprepare, exec_onPart, hstage, onDaemon, onTables,
      hinsert, hsend] at h
    cases result with
    | error e' =>
      cases h
      have hkept : sent.tables.attachments = inserted.attachments :=
        congrArg Prod.fst (sendMessage_transfers hsend)
      rw [hkept, ← hid]
      exact hmem
    | ok u => cases h
  · rcases sendFile_cases h with
      ⟨-, hsame, -⟩ | ⟨manifest, cts, tables, hprepare, hstage, hinsert, -⟩
    · exact .inl ⟨hannounces, hsame⟩
    · refine absurd ⟨?_, manifest, cts, hprepare, ?_⟩ hannounces
      · unfold insertOutbound at hinsert
        split at hinsert
        · cases hinsert
        · next hfault => exact (Bool.not_eq_true _).mp hfault
      · have hstaged := stageChunks_ok_iff.mp (congrArg Prod.fst hstage)
        simpa using hstaged

/-- A failed call leaves nothing behind, or nothing that the janitor would not remove after the
grace period, exactly when it fails before the announcement. After that its row and the chunks
stay, however often the janitor runs. -/
theorem failed_send_reclaimed_iff (deps : FileDeps G) (env : FileEnv) (self contact : PublicKey)
    (path : String) {s t : FileState} {e : CoreError}
    (h : exec (sendFile deps env self contact path) s = (.error e, t))
    (hunused : Unused env.attachmentId s.daemon.tables) :
    (Reclaimed env.attachmentId t.daemon.tables ↔ ¬Announces deps env path) ∧
      (Announces deps env path → ∀ (later : JanitorState) (passes : List JanitorEnv),
        later.tables = t.daemon.tables → ∀ index,
        (passes.foldl (fun t env => t.runOnce env) later).chunks.getChunk env.attachmentId index =
          later.chunks.getChunk env.attachmentId index) := by
  rcases sendFile_failed h hunused with ⟨hearly, hsame⟩ | ⟨hannounces, hrow⟩
  · refine ⟨iff_of_true ?_ hearly, fun hannounces => absurd hannounces hearly⟩
    have hattachments : t.daemon.tables.attachments = s.daemon.tables.attachments :=
      congrArg Prod.fst hsame
    have hdeposits : t.daemon.tables.attachmentDeposits = s.daemon.tables.attachmentDeposits :=
      congrArg (fun transfers => transfers.2.2) hsame
    have hnone : t.daemon.tables.attachments.get env.attachmentId = none := by
      rw [hattachments]
      exact hunused.row
    refine ⟨hnone, fun index => ?_, fun pass later hsame hgrace => ?_⟩
    · rw [hdeposits]
      exact hunused.deposits index
    · exact JanitorState.runOnce_gone hgrace (hsame.trans hnone)
  · refine ⟨iff_of_false (fun hreclaimed => ?_) (not_not_intro hannounces), ?_⟩
    · exact Table.get_eq_none_iff.mp hreclaimed.row hrow
    · intro _ later passes htables
      rw [← htables] at hrow
      exact (JanitorState.spared_by_passes hrow passes).chunks

end SendFile

/-! ### Files that are rejected -/

def unlinkedState : FileState :=
  ⟨⟨{ Tables.empty with
    contacts := Table.empty.put (.fill 32 1) ⟨none, 0, [], false, []⟩ }, [], [], []⟩, .empty⟩

def pendingState : FileState :=
  ⟨⟨{ linkedTables with
    pendingWelcomes := Table.empty.put (.fill 32 1)
      ⟨List.replicate 32 7, [], 0, 0, 0, false⟩ }, [], [], []⟩, .empty⟩

def smallFile (s : FileState) (contact : PublicKey) :
    Except CoreError (AttachmentId × Nat) × FileState :=
  exec (sendFile plainDeps (fileEnv [1, 2, 3]) (.fill 32 0) contact "video.bin") s

def yearlyPass : JanitorEnv :=
  ⟨365 * 24 * 60 * 60 * 1000, false, fun _ => false, fun _ => false, false, false, fun _ => false⟩

def janitorAfter (s : FileState) : JanitorState :=
  ⟨s.daemon.tables, s.chunks, Table.empty.put (.fill 16 3) 0, [], ⟨0, 0⟩⟩

/-- A file for a contact that is unknown, has no group or has not joined yet is rejected with its
row and its chunk left in place, and a pass a year later removes neither. -/
theorem rejected_file_stays :
    (smallFile linkedState (.fill 32 2)).1 = .error .contactNotFound ∧
      (smallFile unlinkedState (.fill 32 1)).1 = .error .contactNotFound ∧
      (smallFile pendingState (.fill 32 1)).1 = .error (.invalidArgument
        "not connected yet — waiting for them to join") ∧
      ∀ t ∈ [(smallFile linkedState (.fill 32 2)).2, (smallFile unlinkedState (.fill 32 1)).2,
          (smallFile pendingState (.fill 32 1)).2],
        t.daemon.tables.attachments.keys = [.fill 16 3] ∧ t.chunks.keys = [(.fill 16 3, 0)] ∧
          ((janitorAfter t).runOnce yearlyPass).chunks = t.chunks ∧
          ¬Reclaimed (.fill 16 3) t.daemon.tables := by
  refine ⟨by decide +kernel, by decide +kernel, by decide +kernel, fun t ht => ?_⟩
  have hstays : t.daemon.tables.attachments.keys = [.fill 16 3] ∧
      t.chunks.keys = [(.fill 16 3, 0)] ∧
      ((janitorAfter t).runOnce yearlyPass).chunks = t.chunks := by
    revert t
    decide +kernel
  refine ⟨hstays.1, hstays.2.1, hstays.2.2, fun hreclaimed => ?_⟩
  refine Table.get_eq_none_iff.mp hreclaimed.row ?_
  rw [hstays.1]
  exact List.mem_singleton.mpr rfl

/-- A call whose row could not be inserted leaves nothing that the janitor would not remove. -/
theorem failed_insert_reclaimed :
    ∃ e t, exec (sendFile plainDeps { fileEnv [1, 2, 3] with insertFault := true } (.fill 32 0)
        (.fill 32 1) "video.bin") linkedState = (.error e, t) ∧
      t.chunks.keys = [(.fill 16 3, 0)] ∧ Reclaimed (.fill 16 3) t.daemon.tables := by
  refine ⟨_, _, rfl, by decide +kernel, ?_⟩
  refine (failed_send_reclaimed_iff plainDeps { fileEnv [1, 2, 3] with insertFault := true }
    (.fill 32 0) (.fill 32 1) "video.bin" rfl ⟨by decide, fun _ => rfl⟩).1.mpr ?_
  rintro ⟨hfault, -⟩
  cases hfault

end Skattr.Core.Daemon
