import Skattr.Core.Attachment.Chunker
import Skattr.Core.Daemon.Redelivery
import Skattr.Core.Envelope
import Skattr.Core.Storage.Attachments

/-!
# Sending files

`sendFile` reads a file, strips the metadata of images, cuts it into chunks, stages the chunks and
the row of the attachment, announces the manifest with `sendMessage` and queues deposits for a file
that may use the mailboxes. What was staged stays when a later step fails.
-/

namespace Skattr.Core.Daemon

open Lib Lib.Fallible

variable {G : Type}

/-- How long the direct lane has before the deposits become due, in seconds. -/
def OFFLINE_FALLBACK_STALL_SECS : Int := 90

/-- What sending files needs besides the messages: the primitives of the chunks, the parsers that
re-encode an image without its metadata, and the last component of a path. -/
structure FileDeps (G : Type) where
  daemon : Deps G
  crypto : ChunkCrypto
  stripJpeg : Bytes → Except String Bytes
  stripPng : Bytes → Except String Bytes
  fileName : String → Option String

/-- What a call meets: the content of the file or the error of reading it, the random id and key of
the attachment, and which of the writes fail. -/
structure FileEnv where
  env : Env
  file : Except String Bytes
  attachmentId : AttachmentId
  fileKey : ByteArr 32
  putFault : Nat → Bool
  insertFault : Bool
  enqueueFault : Bool

structure FileState where
  daemon : State
  chunks : ChunkStore

inductive ImageKind where
  | jpeg
  | png
  | other
  deriving DecidableEq

def detectKind (bytes : Bytes) (mime : String) : ImageKind :=
  if [0xFF, 0xD8, 0xFF].isPrefixOf bytes ∨ mime = "image/jpeg" then .jpeg
  else if [0x89, 0x50, 0x4E, 0x47, 0x0D, 0x0A, 0x1A, 0x0A].isPrefixOf bytes ∨
      mime = "image/png" then .png
  else .other

def stripMetadata (deps : FileDeps G) (bytes : Bytes) (mime : String) :
    Except CoreError (Bytes × String) :=
  match detectKind bytes mime with
  | .jpeg =>
    match deps.stripJpeg bytes with
    | .ok stripped => .ok (stripped, "image/jpeg")
    | .error e => .error (.attachment (.stripFailed ("jpeg parse: " ++ e)))
  | .png =>
    match deps.stripPng bytes with
    | .ok stripped => .ok (stripped, "image/png")
    | .error e => .error (.attachment (.stripFailed ("png parse: " ++ e)))
  | .other => .ok (bytes, mime)

def prepareFile (deps : FileDeps G) (env : FileEnv) (path : String) :
    Except CoreError (AttachmentManifest × List Bytes) := do
  let raw ← env.file.mapError fun e => .invalidArgument ("cannot read file: " ++ e)
  let (stripped, mime) ← stripMetadata deps raw "application/octet-stream"
  chunkPlaintext deps.crypto env.attachmentId env.fileKey stripped
    ((deps.fileName path).getD "file") mime

def stageChunks (putFault : Nat → Bool) (id : AttachmentId) :
    Nat → List Bytes → ChunkStore → Except CoreError Unit × ChunkStore
  | _, [], store => (.ok (), store)
  | i, ct :: cts, store =>
    if putFault i then (.error (.io "put"), store)
    else stageChunks putFault id (i + 1) cts (store.putChunk id (UInt32.ofNat i) ct)

def insertOutbound (env : FileEnv) (manifest : AttachmentManifest) (tables : Tables) :
    Except CoreError Unit × Tables :=
  if env.insertFault then (.error (.storage "attachments insert"), tables)
  else
    match AttachmentRepo.insert tables manifest.attachmentId .outbound manifest.toCbor
        manifest.chunks.length env.env.now with
    | some tables => (.ok (), tables)
    | none => (.error (.storage "attachments insert"), tables)

/-- Queue the deposits of a file that may use the mailboxes; a failure is only logged. -/
def enqueueDeposits (env : FileEnv) (contact : PublicKey) (manifest : AttachmentManifest)
    (tables : Tables) : Tables :=
  if manifest.totalSize ≤ MAX_OFFLINE_ATTACHMENT_BYTES ∧ ¬env.enqueueFault then
    AttachmentDepositRepo.enqueueAll tables manifest.attachmentId contact manifest.chunks.length
      (env.env.clockMs + OFFLINE_FALLBACK_STALL_SECS * 1000)
  else tables

def onDaemon {α : Type} (x : Fallible CoreError State α) : Fallible CoreError FileState α :=
  onPart FileState.daemon (fun daemon state => { state with daemon := daemon }) (exec x)

def onTables {α : Type} (f : Tables → Except CoreError α × Tables) :
    Fallible CoreError State α :=
  onPart State.tables (fun tables state => { state with tables := tables }) f

/-- Send a file to a contact; the result is the id of the attachment and the number of chunks. -/
def sendFile (deps : FileDeps G) (env : FileEnv) (self contact : PublicKey) (path : String) :
    Fallible CoreError FileState (AttachmentId × Nat) := do
  let (manifest, cts) ← attempt (prepareFile deps env path)
  onPart FileState.chunks (fun chunks state => { state with chunks := chunks })
    (stageChunks env.putFault manifest.attachmentId 0 cts)
  onDaemon (onTables (insertOutbound env manifest))
  onDaemon (sendMessage deps.daemon env.env self contact (.file manifest.toCbor))
  onDaemon (onTables fun tables => (.ok (), enqueueDeposits env contact manifest tables))
  pure (manifest.attachmentId, manifest.chunks.length)

/-! ### What an accepted file did -/

variable {env : FileEnv} {manifest : AttachmentManifest} {deps : FileDeps G}
  {self contact : PublicKey} {path : String} {s t : FileState} {putFault : Nat → Bool}
  {cts : List Bytes} {result : Except CoreError (AttachmentId × Nat)} {chunks store : ChunkStore}
  {id : AttachmentId}

theorem insertOutbound_ok {s t : Tables} (h : insertOutbound env manifest s = (.ok (), t)) :
    ∃ attachments, s.attachments.insert manifest.attachmentId
        ⟨.outbound, manifest.toCbor, manifest.chunks.length, .pending, env.env.now, none⟩ =
          some attachments ∧ t = { s with attachments := attachments } := by
  unfold insertOutbound at h
  split at h
  · cases h
  · split at h
    · next hinsert =>
      cases h
      obtain ⟨attachments, hattachments, rfl⟩ := Option.map_eq_some_iff.mp hinsert
      exact ⟨attachments, hattachments, rfl⟩
    · cases h

theorem insertOutbound_error {s t : Tables} {e : CoreError}
    (h : insertOutbound env manifest s = (.error e, t)) : t = s := by
  unfold insertOutbound at h
  split at h
  · cases h
    rfl
  · split at h
    · cases h
    · cases h
      rfl

theorem enqueueDeposits_attachments (env : FileEnv) (contact : PublicKey)
    (manifest : AttachmentManifest) (tables : Tables) :
    (enqueueDeposits env contact manifest tables).attachments = tables.attachments := by
  unfold enqueueDeposits
  split <;> rfl

/-- A successful call: the file was prepared, its chunks and its row were staged, the manifest was
announced and the deposits were queued. -/
theorem sendFile_ok {result : AttachmentId × Nat}
    (h : exec (sendFile deps env self contact path) s = (.ok result, t)) :
    ∃ manifest cts chunks tables sent, prepareFile deps env path = .ok (manifest, cts) ∧
      stageChunks env.putFault manifest.attachmentId 0 cts s.chunks = (.ok (), chunks) ∧
      insertOutbound env manifest s.daemon.tables = (.ok (), tables) ∧
      exec (sendMessage deps.daemon env.env self contact (.file manifest.toCbor))
        { s.daemon with tables := tables } = (.ok (), sent) ∧
      result = (manifest.attachmentId, manifest.chunks.length) ∧
      t = ⟨{ sent with tables := enqueueDeposits env contact manifest sent.tables }, chunks⟩ := by
  obtain ⟨⟨manifest, cts⟩, hprepare, h⟩ := attempt_bind_ok h
  obtain ⟨_, s₁, hstage, h⟩ := exec_bind_ok h
  obtain ⟨_, s₂, hinsert, h⟩ := exec_bind_ok h
  obtain ⟨_, s₃, hsend, h⟩ := exec_bind_ok h
  cases h
  obtain ⟨chunks, hstaged, rfl⟩ := onPart_cases hstage
  obtain ⟨inserted, hrow, rfl⟩ := onPart_cases hinsert
  obtain ⟨tables, hinserted, rfl⟩ := onPart_cases hrow
  obtain ⟨sent, hsent, rfl⟩ := onPart_cases hsend
  exact ⟨manifest, cts, chunks, tables, sent, hprepare, hstaged, hinserted, hsent, rfl, rfl⟩

theorem stageChunks_keeps {other : AttachmentId} {index : UInt32} {i : Nat}
    (h : (store.getChunk other index).isSome) :
    ((stageChunks putFault id i cts store).2.getChunk other index).isSome := by
  induction cts generalizing i store with
  | nil => exact h
  | cons ct cts ih =>
    rw [stageChunks]
    split
    · exact h
    · refine ih ?_
      by_cases hkey : (other, index) = (id, UInt32.ofNat i)
      · obtain ⟨rfl, rfl⟩ := Prod.mk.inj hkey
        rw [ChunkStore.getChunk_putChunk_self]
        rfl
      · rw [ChunkStore.getChunk, ChunkStore.putChunk, Table.get_put_ne _ _ hkey]
        exact h

theorem stageChunks_ok {i : Nat} (h : stageChunks putFault id i cts store = (.ok (), chunks))
    {j : Nat} (hfirst : i ≤ j) (hlast : j < i + cts.length) :
    (chunks.getChunk id (UInt32.ofNat j)).isSome := by
  induction cts generalizing i store with
  | nil =>
    rw [List.length_nil] at hlast
    omega
  | cons ct cts ih =>
    rw [List.length_cons] at hlast
    rw [stageChunks] at h
    split at h
    · cases h
    · by_cases hj : j = i
      · subst hj
        have hput : ((store.putChunk id (UInt32.ofNat j) ct).getChunk id
            (UInt32.ofNat j)).isSome := by
          rw [ChunkStore.getChunk_putChunk_self]
          rfl
        have hkept : ((stageChunks putFault id (j + 1) cts
            (store.putChunk id (UInt32.ofNat j) ct)).2.getChunk id (UInt32.ofNat j)).isSome :=
          stageChunks_keeps hput
        rw [h] at hkept
        exact hkept
      · exact ih h (by omega) (by omega)

/-- What a call did to the transfers. If it failed early, it staged some chunks at most. Otherwise
it staged all of them and inserted the row, and if it succeeded it also queued the deposits. -/
theorem sendFile_cases (h : exec (sendFile deps env self contact path) s = (result, t)) :
    ((∃ e, result = .error e) ∧ t.daemon.tables.transfers = s.daemon.tables.transfers ∧
        (t.chunks = s.chunks ∨
          ∃ id cts, t.chunks = (stageChunks env.putFault id 0 cts s.chunks).2)) ∨
      ∃ manifest cts tables, prepareFile deps env path = .ok (manifest, cts) ∧
        stageChunks env.putFault manifest.attachmentId 0 cts s.chunks = (.ok (), t.chunks) ∧
        insertOutbound env manifest s.daemon.tables = (.ok (), tables) ∧
        ((∃ e, result = .error e) ∧ t.daemon.tables.transfers = tables.transfers ∨
          ∃ sent : Tables, sent.transfers = tables.transfers ∧
            result = .ok (manifest.attachmentId, manifest.chunks.length) ∧
            t.daemon.tables = enqueueDeposits env contact manifest sent) := by
  rcases attempt_bind_cases h with ⟨e, -, rfl, rfl⟩ | ⟨⟨manifest, cts⟩, hprepare, h⟩
  · exact .inl ⟨⟨e, rfl⟩, rfl, .inl rfl⟩
  rcases exec_bind_cases h with ⟨e, hstage, rfl⟩ | ⟨_, s₁, hstage, h⟩
  · obtain ⟨chunks, hstaged, rfl⟩ := onPart_cases hstage
    exact .inl ⟨⟨e, rfl⟩, rfl, .inr ⟨manifest.attachmentId, cts, by rw [hstaged]⟩⟩
  obtain ⟨chunks, hstaged, rfl⟩ := onPart_cases hstage
  rcases exec_bind_cases h with ⟨e, hinsert, rfl⟩ | ⟨_, s₂, hinsert, h⟩
  · obtain ⟨inserted, hrow, rfl⟩ := onPart_cases hinsert
    obtain ⟨tables, hfailed, rfl⟩ := onPart_cases hrow
    refine .inl ⟨⟨e, rfl⟩, ?_, .inr ⟨manifest.attachmentId, cts, by rw [hstaged]⟩⟩
    rw [insertOutbound_error hfailed]
  obtain ⟨inserted, hrow, rfl⟩ := onPart_cases hinsert
  obtain ⟨tables, hinserted, rfl⟩ := onPart_cases hrow
  rcases exec_bind_cases h with ⟨e, hsend, rfl⟩ | ⟨_, s₃, hsend, h⟩
  · obtain ⟨sent, hsent, rfl⟩ := onPart_cases hsend
    exact .inr ⟨manifest, cts, tables, hprepare, hstaged, hinserted,
      .inl ⟨⟨e, rfl⟩, sendMessage_transfers hsent⟩⟩
  · obtain ⟨sent, hsent, rfl⟩ := onPart_cases hsend
    cases h
    exact .inr ⟨manifest, cts, tables, hprepare, hstaged, hinserted,
      .inr ⟨sent.tables, sendMessage_transfers hsent, rfl, rfl⟩⟩

theorem sendFile_attachments (h : exec (sendFile deps env self contact path) s = (result, t)) :
    (t.daemon.tables.attachments = s.daemon.tables.attachments ∧ ∃ e, result = .error e) ∨
      ∃ manifest : AttachmentManifest, s.daemon.tables.attachments.insert manifest.attachmentId
          ⟨.outbound, manifest.toCbor, manifest.chunks.length, .pending, env.env.now, none⟩ =
            some t.daemon.tables.attachments ∧
        ∀ answer, result = .ok answer → answer.1 = manifest.attachmentId := by
  rcases sendFile_cases h with ⟨herror, hsame, -⟩ | ⟨manifest, cts, tables, -, -, hinserted, hrest⟩
  · exact .inl ⟨congrArg Prod.fst hsame, herror⟩
  obtain ⟨attachments, hattachments, rfl⟩ := insertOutbound_ok hinserted
  refine .inr ⟨manifest, ?_⟩
  rcases hrest with ⟨⟨e, rfl⟩, hsame⟩ | ⟨sent, hsame, rfl, htables⟩
  · have hkept : t.daemon.tables.attachments = attachments := congrArg Prod.fst hsame
    exact ⟨by rw [hattachments, hkept], fun answer hanswer => nomatch hanswer⟩
  · have hkept : sent.attachments = attachments := congrArg Prod.fst hsame
    refine ⟨?_, fun answer hanswer => by cases hanswer; rfl⟩
    rw [htables, enqueueDeposits_attachments, hattachments, hkept]

theorem exec_sendFile {tables : Tables} {sent : State}
    (hprepare : prepareFile deps env path = .ok (manifest, cts))
    (hstage : stageChunks env.putFault manifest.attachmentId 0 cts s.chunks = (.ok (), chunks))
    (hinsert : insertOutbound env manifest s.daemon.tables = (.ok (), tables))
    (hsend : exec (sendMessage deps.daemon env.env self contact (.file manifest.toCbor)) { s.daemon
      with tables := tables } = (.ok (), sent)) :
    exec (sendFile deps env self contact path) s =
      (.ok (manifest.attachmentId, manifest.chunks.length),
        ⟨{ sent with tables := enqueueDeposits env contact manifest sent.tables }, chunks⟩) := by
  simp only [sendFile, exec_bind, exec_attempt, hprepare, exec_onPart, hstage, onDaemon, onTables,
    hinsert, hsend, exec_pure]

theorem stageChunks_total (hput : ∀ i, putFault i = false) (id : AttachmentId) (i : Nat)
    (cts : List Bytes) (store : ChunkStore) :
    ∃ chunks, stageChunks putFault id i cts store = (.ok (), chunks) := by
  induction cts generalizing i store with
  | nil => exact ⟨store, rfl⟩
  | cons ct cts ih =>
    obtain ⟨chunks, hchunks⟩ := ih (i + 1) (store.putChunk id (UInt32.ofNat i) ct)
    refine ⟨chunks, ?_⟩
    rw [stageChunks, hput i]
    exact hchunks

theorem prepareFile_ok (h : prepareFile deps env path = .ok (manifest, cts)) :
    ∃ plaintext filename mime, chunkPlaintext deps.crypto env.attachmentId env.fileKey plaintext
      filename mime = .ok (manifest, cts) := by
  obtain ⟨raw, -, h⟩ := bind_eq_ok.mp h
  obtain ⟨⟨stripped, mime⟩, -, h⟩ := bind_eq_ok.mp h
  exact ⟨stripped, _, mime, h⟩

theorem prepareFile_id (h : prepareFile deps env path = .ok (manifest, cts)) :
    manifest.attachmentId = env.attachmentId := by
  obtain ⟨plaintext, filename, mime, hchunk⟩ := prepareFile_ok h
  obtain ⟨chunks, -, hid, -⟩ := chunkPlaintext_ok hchunk
  exact hid

theorem prepareFile_length (h : prepareFile deps env path = .ok (manifest, cts)) :
    manifest.chunks.length = cts.length := by
  obtain ⟨plaintext, filename, mime, hchunk⟩ := prepareFile_ok h
  obtain ⟨chunks, -, -, -, hrefs, -, hcts, -⟩ := chunkPlaintext_ok hchunk
  rw [hrefs, hcts, List.length_map, List.length_map]

/-! ### A small instance -/

/-- A daemon over the counter groups that writes envelopes as CBOR and sends files as they are. -/
def plainDeps : FileDeps Mls.Counter where
  daemon := { counterDeps with
    codec := ⟨fun envelope => .ok envelope.toCbor, counterDeps.codec.decode⟩ }
  crypto := taggedCrypto
  stripJpeg := .ok
  stripPng := .ok
  fileName _ := some "video.bin"

def plainEnv : Env := ⟨0, .fill 16 9, none, none⟩

def fileEnv (file : Bytes) : FileEnv :=
  ⟨plainEnv, .ok file, .fill 16 3, .fill 32 4, fun _ => false, false, false⟩

def linkedState : FileState := ⟨⟨linkedTables, [], [], []⟩, .empty⟩

def firstCiphertext (kind : Kind) : Bytes :=
  List.replicate 32 7 ++ (newEnvelope plainEnv kind).toCbor

theorem announcement_accepted (attachments : Table AttachmentId AttachmentRow) (manifest : Bytes) :
    ∃ t, exec (sendMessage plainDeps.daemon plainEnv (.fill 32 0) (.fill 32 1) (.file manifest))
        ⟨{ linkedTables with attachments := attachments }, [], [], []⟩ = (.ok (), t) ∧
      t.handed = [(.fill 32 1, .fill 16 9, firstCiphertext (.file manifest))] :=
  ⟨_, rfl, rfl⟩

theorem file_accepted {file : Bytes}
    (hkind : detectKind file "application/octet-stream" = .other)
    (hsize : file.length ≤ MAX_ATTACHMENT_BYTES) :
    ∃ manifest cts t, prepareFile plainDeps (fileEnv file) "video.bin" = .ok (manifest, cts) ∧
      manifest.totalSize = file.length ∧
      exec (sendFile plainDeps (fileEnv file) (.fill 32 0) (.fill 32 1) "video.bin") linkedState =
        (.ok (manifest.attachmentId, manifest.chunks.length), t) ∧
      t.daemon.handed =
        [(.fill 32 1, .fill 16 9, firstCiphertext (.file manifest.toCbor))] := by
  obtain ⟨manifest, cts, hchunk⟩ := chunkPlaintext_total taggedCrypto_lawful (.fill 16 3)
    (.fill 32 4) "video.bin" "application/octet-stream" hsize
  have hprepare : prepareFile plainDeps (fileEnv file) "video.bin" = .ok (manifest, cts) := by
    refine bind_eq_ok.mpr ⟨file, rfl, bind_eq_ok.mpr ⟨(file, _), ?_, hchunk⟩⟩
    rw [stripMetadata, hkind]
  obtain ⟨chunks, hstage⟩ := stageChunks_total (fun _ => rfl) manifest.attachmentId 0 cts
    linkedState.chunks
  obtain ⟨attachments, hinsert⟩ : ∃ attachments, insertOutbound (fileEnv file) manifest
      linkedState.daemon.tables =
        (.ok (), { linkedTables with attachments := attachments }) := ⟨_, rfl⟩
  obtain ⟨sent, hsend, hhanded⟩ := announcement_accepted attachments manifest.toCbor
  obtain ⟨-, -, -, -, -, htotal, -⟩ := chunkPlaintext_ok hchunk
  exact ⟨manifest, cts, _, hprepare, htotal, exec_sendFile hprepare hstage hinsert hsend,
    hhanded⟩

end Skattr.Core.Daemon
