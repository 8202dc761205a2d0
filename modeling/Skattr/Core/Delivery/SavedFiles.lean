import Skattr.Core.Delivery.AttachmentLanes

/-!
# Received files

The commands that open and save a received attachment put it together from the chunks on disk, once
its row is complete. `Intake.Stored` is what they rely on: a chunk that is in the bitmap is in the
store, with the hash of the manifest. Both lanes keep it, whatever fails. `full_bitmap_restored`
puts it together with the chunker and with `Intake.Sound`: a file whose chunks have all arrived is
available, and is saved as the sender cut it up.
-/

namespace Skattr.Core.Delivery

open Lib
open Daemon (FileDeps)

variable {G : Type}

/-! ### The commands -/

/-- What a command meets: which of its reads fail, whether the directory of the output can be made,
and what the reassembler meets. -/
structure OpenEnv where
  rowFault : Bool
  readFault : UInt32 → Bool
  dirFault : Bool
  run : ReassembleEnv

def storeSource (store : ChunkStore) (readFault : UInt32 → Bool) (id : AttachmentId) :
    ChunkSource := fun index =>
  (if readFault index then none else store.getChunk id index).elim (.error (.io "read")) .ok

def manifestError (decoded : Except String AttachmentManifest) (message : String) : CoreError :=
  match decoded with
  | .error _ => .cborDecode message
  | .ok _ => .attachment (.manifestInvalid message)

def decryptAttachmentTo (deps : FileDeps G) (env : OpenEnv) (world : Intake) (id : AttachmentId)
    (outPath : String) (files : Files) : Except CoreError Unit × Files :=
  if env.rowFault then (.error (.storage "attachments.get"), files)
  else
    match world.row id with
    | none => (.error (.invalidArgument "attachment not found"), files)
    | some row =>
      if row.direction ≠ .inbound ∨ row.status ≠ .complete then
        (.error (.invalidArgument "attachment not available"), files)
      else
        match AttachmentManifest.fromCbor deps.daemon.manifest row.manifest with
        | .error e => (.error (manifestError (deps.daemon.manifest row.manifest) e), files)
        | .ok manifest =>
          if env.dirFault then (.error (.io "create dir"), files)
          else reassemble deps.crypto env.run manifest
            (storeSource world.files.chunks env.readFault id) outPath files

def attachmentAvailable (world : Intake) (id : AttachmentId) : Bool :=
  (world.row id).any fun row => row.direction = .inbound ∧ row.status = .complete

/-! ### Chunks in the store -/

namespace Intake

variable {deps : FileDeps G} {world before after : Intake} {id : AttachmentId}
  {index : UInt32} {ciphertext : Bytes} {chunk : ChunkRef} {manifest : AttachmentManifest}
  {rx : ChunkRx} {peer : PublicKey} {row : AttachmentRow}

def Expects (deps : FileDeps G) (world : Intake) (id : AttachmentId)
    (manifest : AttachmentManifest) : Prop :=
  ∃ bytes, world.known id = some (.inbound, bytes) ∧
    AttachmentManifest.fromCbor deps.daemon.manifest bytes = .ok manifest ∧ Distinct manifest

def Holds (deps : FileDeps G) (world : Intake) (id : AttachmentId) (chunk : ChunkRef) : Prop :=
  ∃ ciphertext, world.files.chunks.getChunk id chunk.index = some ciphertext ∧
    deps.crypto.sha256 ciphertext = chunk.ciphertextHash

def Stored (deps : FileDeps G) (world : Intake) : Prop :=
  ∀ id manifest index, world.Expects deps id manifest → world.received id index = true →
    ∃ chunk ∈ manifest.chunks, chunk.index = index ∧ world.Holds deps id chunk

/-- The ciphertext is the chunk with this index of the manifest that the attachment has. -/
def Suits (deps : FileDeps G) (world : Intake) (id : AttachmentId) (index : UInt32)
    (ciphertext : Bytes) : Prop :=
  ∀ manifest, world.Expects deps id manifest → ∃ chunk ∈ manifest.chunks,
    chunk.index = index ∧ deps.crypto.sha256 ciphertext = chunk.ciphertextHash

theorem Expects.chunk_eq (h : world.Expects deps id manifest) {found : ChunkRef}
    (hchunk : chunk ∈ manifest.chunks) (hfound : found ∈ manifest.chunks)
    (hindex : found.index = chunk.index) : found = chunk := by
  obtain ⟨-, -, -, hdistinct⟩ := h
  exact List.inj_on_of_nodup_map hdistinct hfound hchunk hindex

/-- The chunks, the bitmap and the attachments are the same. -/
structure Same (before after : Intake) : Prop where
  chunks : after.files.chunks = before.files.chunks
  received : after.received = before.received
  known : after.known = before.known

theorem Stored.same (h : before.Stored deps) (hsame : Same before after) : after.Stored deps := by
  unfold Stored Expects Holds at h ⊢
  rw [hsame.chunks, hsame.received, hsame.known]
  exact h

theorem Same.claim (h : Same before after) (fault : Bool) (id : AttachmentId) (outcome : Outcome) :
    Same before (after.claim fault id outcome) := by
  have hchunks : (after.claim fault id outcome).files.chunks = after.files.chunks := by
    unfold Intake.claim
    split
    · rfl
    · split <;> rfl
  refine ⟨hchunks.trans h.chunks, ?_, (funext fun other => known_claim _ _ _ other).trans h.known⟩
  rcases claim_cases fault id outcome after with hsame | hclaimed
  · rw [hsame]
    exact h.received
  · exact (funext fun other => funext (hclaimed.received other)).trans h.received

theorem Same.maybeStartNextRx (h : Same before after) (env : StartEnv) (peer : PublicKey)
    (queue : List AttachmentManifest) :
    Same before (Delivery.maybeStartNextRx env peer queue after) := by
  induction queue generalizing after with
  | nil => exact ⟨h.chunks, h.received, h.known⟩
  | cons manifest queue ih =>
    rw [Delivery.maybeStartNextRx]
    dsimp only
    split
    · exact ih (h.claim _ _ _)
    · exact ⟨h.chunks, h.received, h.known⟩

theorem same_endRx (world : Intake) (env : StartEnv) (peer : PublicKey)
    (queue : List AttachmentManifest) (fault : Bool) (id : AttachmentId) (outcome : Outcome) :
    Same world (maybeStartNextRx env peer queue (world.claim fault id outcome)) :=
  (Same.claim ⟨rfl, rfl, rfl⟩ fault id outcome).maybeStartNextRx env peer queue

theorem Same.collect (h : Same before after) (env : StartEnv) (peer : PublicKey) :
    Same before (Delivery.collect env peer after) := by
  unfold Delivery.collect
  dsimp only
  split
  · exact ⟨h.chunks, h.received, h.known⟩
  · refine Same.maybeStartNextRx ?_ env peer _
    exact ⟨h.chunks, h.received, h.known⟩

theorem same_tick (env : RxEnv) (peer : PublicKey) (world : Intake) :
    Same world (tick env peer world) := by
  have hcollect {after : Intake} (hafter : Same world after) :
      Same world (if env.connected then collect env.drained peer after else after) := by
    split
    · exact hafter.collect env.drained peer
    · exact hafter
  unfold tick
  dsimp only
  refine hcollect ?_
  split
  · exact ⟨rfl, rfl, rfl⟩
  · split
    · exact ⟨rfl, rfl, rfl⟩
    · exact same_endRx _ _ _ _ _ _ _

theorem same_retry (fault : Bool) (id : AttachmentId) (world : Intake) :
    Same world (retryAttachment deps fault id world) := by
  unfold retryAttachment
  split
  · exact ⟨rfl, rfl, rfl⟩
  split
  · exact ⟨rfl, rfl, rfl⟩
  next row hfilter =>
  obtain ⟨hrow, hstate⟩ := Option.filter_eq_some_iff.mp hfilter
  have hget : world.tables.attachments.get id = some row := hrow
  have hrearmed : (AttachmentRepo.rearmFailedIn world.tables id).2 =
      AttachmentRepo.setStatus world.tables id .pending := by
    rw [AttachmentRepo.rearmFailedIn, hget, if_pos]
    exact hstate
  split
  · rw [hrearmed]
    refine ⟨rfl, rfl, funext fun other => ?_⟩
    show (AttachmentRepo.get (AttachmentRepo.setStatus world.tables id .pending) other).map _ =
      (AttachmentRepo.get world.tables other).map _
    rw [AttachmentRepo.get_setStatus]
    split
    · rw [Option.map_map]
      rfl
    · rfl
  · exact ⟨rfl, rfl, rfl⟩

theorem same_of_transfers
    (htransfers : after.files.daemon.transfers = before.files.daemon.transfers)
    (hchunks : after.files.chunks = before.files.chunks) : Same before after := by
  refine ⟨hchunks, funext fun id => funext (received_eq htransfers id), funext fun id => ?_⟩
  exact congrArg (Option.map _) (row_eq htransfers id)

/-! ### Chunks that arrive -/

theorem Stored.store (h : world.Stored deps) (hsuits : world.Suits deps id index ciphertext)
    (fault : Bool) :
    ((world.putChunk id index ciphertext).markReceived fault id index).Stored deps := by
  have hnew {manifest : AttachmentManifest} {chunk : ChunkRef}
      (hid : world.Expects deps id manifest) (hchunk : chunk ∈ manifest.chunks)
      (hindex : chunk.index = index) :
      (world.putChunk id index ciphertext).Holds deps id chunk := by
    obtain ⟨found, hfound, hsame, hhash⟩ := hsuits manifest hid
    rw [hid.chunk_eq hchunk hfound (hsame.trans hindex.symm)] at hhash
    refine ⟨ciphertext, ?_, hhash⟩
    rw [hindex]
    exact ChunkStore.getChunk_putChunk_self _ _ _ _
  have hput : (world.putChunk id index ciphertext).Stored deps := by
    intro other manifest i hother hreceived
    obtain ⟨chunk, hchunk, hindex, old, hget, hhash⟩ := h other manifest i hother hreceived
    refine ⟨chunk, hchunk, hindex, ?_⟩
    by_cases hkey : (other, chunk.index) = (id, index)
    · obtain ⟨rfl, hindex⟩ := Prod.mk.inj hkey
      exact hnew hother hchunk hindex
    · exact ⟨old, (Table.get_put_ne _ _ hkey).trans hget, hhash⟩
  cases fault with
  | true => exact hput
  | false =>
    intro other manifest i hother hreceived
    rcases received_markReceived.mp hreceived with heq | hold
    · obtain ⟨rfl, rfl⟩ := Prod.mk.inj heq
      obtain ⟨chunk, hchunk, hindex, -⟩ := hsuits manifest hother
      exact ⟨chunk, hchunk, hindex, hnew hother hchunk hindex⟩
    · exact hput other manifest i hother hold

theorem Fetches.suits (h : world.Fetches deps.daemon.manifest rx.manifest)
    (hverify : rx.verify deps.crypto index ciphertext = true) :
    world.Suits deps rx.attachmentId index ciphertext := by
  rintro manifest ⟨bytes, hbytes, hdecode, -⟩
  obtain ⟨others, hothers, hfound⟩ := h
  cases hbytes.symm.trans hothers
  cases hdecode.symm.trans hfound
  rw [ChunkRx.verify] at hverify
  split at hverify
  · cases hverify
  · next chunk hchunk =>
    have hindex := List.find?_some hchunk
    exact ⟨chunk, List.mem_of_find?_eq_some hchunk, of_decide_eq_true hindex,
      of_decide_eq_true hverify⟩

theorem Stored.onChunk (h : world.Stored deps) (htracked : world.Tracked deps.daemon.manifest)
    (env : RxEnv) (peer : PublicKey) (id : AttachmentId) (index : UInt32) (ciphertext : Bytes) :
    (Delivery.onChunk deps env peer id index ciphertext world).Stored deps := by
  unfold Delivery.onChunk
  dsimp only
  split
  · exact h
  next rx hfilter =>
  obtain ⟨hactive, -⟩ := Option.filter_eq_some_iff.mp hfilter
  split
  · next hverify =>
    have hsuits := ((htracked.actors peer).2 rx hactive).1.suits hverify
    have hstored : (countChunk env.markFault rx index ciphertext world).Stored deps :=
      (h.store hsuits env.markFault).same ⟨rfl, rfl, rfl⟩
    unfold takeChunk
    split
    · exact h
    dsimp only
    split
    · exact hstored.same (same_endRx _ _ _ _ _ _ _)
    · exact hstored.same ⟨rfl, rfl, rfl⟩
  · split
    · exact h.same ⟨rfl, rfl, rfl⟩
    · exact h.same (same_endRx _ _ _ _ _ _ _)

theorem offlineMatch_chunk {env : OfflineEnv}
    (h : offlineMatch deps env ciphertext world = some (id, manifest, index)) :
    ∃ chunk ∈ manifest.chunks,
      chunk.index = index ∧ deps.crypto.sha256 ciphertext = chunk.ciphertextHash := by
  unfold offlineMatch at h
  split at h
  · cases h
  · obtain ⟨⟨other, bytes⟩, -, hfound⟩ := List.exists_of_findSome?_eq_some h
    dsimp only at hfound
    split at hfound
    · cases hfound
    · obtain ⟨chunk, hchunk, heq⟩ := Option.map_eq_some_iff.mp hfound
      cases heq
      have hhash := List.find?_some hchunk
      exact ⟨chunk, List.mem_of_find?_eq_some hchunk, rfl, (of_decide_eq_true hhash).symm⟩

theorem Stored.offline (h : world.Stored deps) (env : OfflineEnv) (ciphertext : Bytes) :
    (dispatchAttachmentChunk deps env ciphertext world).2.Stored deps := by
  unfold dispatchAttachmentChunk
  split
  · exact h
  next id manifest index hmatch =>
  obtain ⟨row, hrow, -, -, hdecode⟩ := offlineMatch_row hmatch
  have hsuits : world.Suits deps id index ciphertext := by
    rintro found ⟨bytes, hbytes, hfound, -⟩
    obtain ⟨other, hother, hinfo⟩ := Option.map_eq_some_iff.mp hbytes
    cases hrow.symm.trans hother
    cases (Prod.mk.inj hinfo).2
    cases hdecode.symm.trans hfound
    exact offlineMatch_chunk hmatch
  have hstored := h.store hsuits false
  dsimp only
  split
  · exact h
  split
  · exact h
  split
  · exact h.store hsuits true
  split
  · exact hstored.same (Same.claim ⟨rfl, rfl, rfl⟩ _ _ _)
  · exact hstored.same ⟨rfl, rfl, rfl⟩

theorem Stored.staged (h : before.Stored deps) (htracked : before.Tracked deps.daemon.manifest)
    (hstaged : Staged deps.daemon.manifest manifest row before after)
    (hchunks : after.files.chunks = before.files.chunks) : after.Stored deps := by
  rintro id found index ⟨bytes, hbytes, hfound⟩ hreceived
  rw [hstaged.received] at hreceived
  rw [hstaged.known] at hbytes
  unfold Holds
  rw [hchunks]
  split at hbytes
  · next hnew =>
    refine absurd ?_ (htracked.bitmap hreceived)
    rw [hnew, known, hstaged.unknown]
    rfl
  · exact h id found index ⟨bytes, hbytes, hfound⟩ hreceived

theorem Stored.step (h : world.Stored deps) (htracked : world.Tracked deps.daemon.manifest)
    (action : Action) : (world.step deps action).Stored deps := by
  cases action with
  | dispatch lane env ciphertext =>
    rcases Daemon.Lane.dispatch_transfers deps.daemon env ciphertext world.files.daemon lane with
      hsame | hstages
    · exact h.same (same_of_transfers hsame rfl)
    · obtain ⟨manifest, row, hstaged⟩ : ∃ manifest row, Staged deps.daemon.manifest manifest row
          world (Intake.step deps world (.dispatch lane env ciphertext)) :=
        staged_of_stages hstages
      exact h.staged htracked hstaged rfl
  | collect env peer => exact h.same (Same.collect ⟨rfl, rfl, rfl⟩ env peer)
  | chunk env peer id index ciphertext => exact h.onChunk htracked env peer id index ciphertext
  | chunkNack env peer id reason =>
    show (Delivery.onChunkNack env peer id reason world).Stored deps
    unfold Delivery.onChunkNack
    dsimp only
    split
    · exact h
    · exact h.same (same_endRx _ _ _ _ _ _ _)
  | tick env peer => exact h.same (same_tick env peer world)
  | reconnect env peer =>
    show (Delivery.reconnect env peer world).Stored deps
    unfold Delivery.reconnect
    dsimp only
    split
    · exact h
    · exact h.same ⟨rfl, rfl, rfl⟩
  | offline env ciphertext => exact h.offline env ciphertext
  | autoFail stalled claimFault listFault =>
    exact foldl_invariant (fun world id (hstored : world.Stored deps) =>
      hstored.same (Same.claim ⟨rfl, rfl, rfl⟩ (claimFault id) id _)) _ h
  | retry fault id => exact h.same (same_retry fault id world)

end Intake

/-! ### The sender's file -/

section Chunked

variable {crypto : ChunkCrypto} {id : AttachmentId} {fileKey : ByteArr 32} {plaintext : Bytes}
  {filename mime : String} {manifest : AttachmentManifest} {cts : List Bytes}

theorem chunkPlaintext_distinct
    (h : chunkPlaintext crypto id fileKey plaintext filename mime = .ok (manifest, cts)) :
    Distinct manifest := by
  obtain ⟨chunks, hchunks, -, -, hrefs, -⟩ := chunkPlaintext_ok h
  have hrange : (manifest.chunks.map ChunkRef.index).map UInt32.toNat =
      List.range chunks.length := by
    refine List.ext_getElem? fun j => ?_
    rw [hrefs, List.map_map, List.map_map, List.getElem?_map]
    cases hj : chunks[j]? with
    | none => exact (List.getElem?_eq_none (by simpa using hj)).symm
    | some chunk =>
      obtain ⟨hlt, -⟩ := List.getElem?_eq_some_iff.mp hj
      rw [List.getElem?_range hlt]
      exact congrArg some ((encryptChunks_index hchunks hj).trans (Nat.zero_add j))
  exact .of_map _ (hrange ▸ List.nodup_range)

end Chunked

/-- No operation of a command fails. -/
structure OpenEnv.Faultless (env : OpenEnv) : Prop where
  row : env.rowFault = false
  read : ∀ index, env.readFault index = false
  dir : env.dirFault = false
  run : env.run.Faultless

/-- A file whose chunks are all in the bitmap is available and is saved as it was cut up, unless two
ciphertexts have one hash. -/
def Intake.Restores (deps : FileDeps G) (world : Intake) : Prop :=
  ∀ id row fileKey plaintext filename mime manifest cts,
    world.row id = some row → row.direction = .inbound →
    AttachmentManifest.fromCbor deps.daemon.manifest row.manifest = .ok manifest →
    chunkPlaintext deps.crypto id fileKey plaintext filename mime = .ok (manifest, cts) →
    world.Full id manifest →
    Set.InjOn deps.crypto.sha256
      {ct | ct ∈ cts ∨ ∃ index, world.files.chunks.getChunk id index = some ct} →
    attachmentAvailable world id = true ∧
      ∀ env : OpenEnv, env.Faultless → ∀ outPath files,
        (decryptAttachmentTo deps env world id outPath files).1 = .ok () ∧
          (decryptAttachmentTo deps env world id outPath files).2 outPath = some plaintext

theorem Intake.Sound.restores {deps : FileDeps G} {world : Intake} (hcrypto : deps.crypto.Lawful)
    (hsound : world.Sound deps.daemon.manifest) (hstored : world.Stored deps) :
    world.Restores deps := by
  intro id row fileKey plaintext filename mime manifest cts hrow hinbound hdecode hchunk hfull hhash
  have hdistinct := chunkPlaintext_distinct hchunk
  have hcomplete := hsound.settled.complete hrow hinbound hdecode hdistinct hfull
  have hexpects : world.Expects deps id manifest :=
    ⟨row.manifest, by rw [Intake.known, hrow, ← hinbound]; rfl, hdecode, hdistinct⟩
  have havailable : attachmentAvailable world id = true := by
    rw [attachmentAvailable, hrow]
    exact decide_eq_true ⟨hinbound, hcomplete⟩
  refine ⟨havailable, fun env henv outPath files => ?_⟩
  have hsource (index : UInt32) (ct : Bytes) :
      storeSource world.files.chunks env.readFault id index = .ok ct ↔
        world.files.chunks.getChunk id index = some ct := by
    unfold storeSource
    rw [henv.read index]
    cases world.files.chunks.getChunk id index <;> simp
  have hready : ¬(row.direction ≠ .inbound ∨ row.status ≠ .complete) := by
    rw [hinbound, hcomplete]
    simp
  rw [decryptAttachmentTo, henv.row, hrow, henv.dir]
  simp only [Bool.false_eq_true, if_false, if_neg hready, hdecode]
  refine reassemble_of_source hcrypto hchunk
    (source_of_held hchunk ?_ fun chunk hmem => ?_) henv.run outPath files
  · simpa only [hsource] using hhash
  · obtain ⟨found, hfound, hindex, ct, hct, hsame⟩ :=
      hstored id manifest _ hexpects (hfull chunk hmem)
    rw [hexpects.chunk_eq hmem hfound hindex] at hct hsame
    exact ⟨ct, (hsource _ _).mpr hct, hsame⟩

def Intake.started (daemon : Daemon.State) (chunks : ChunkStore) : Intake :=
  ⟨⟨daemon, chunks⟩, fun _ => ⟨none, []⟩, fun _ => [], []⟩

/-- From a daemon without attachments on, in every run in which the chunk that fills a bitmap is
noticed by its lane: whatever lanes the chunks of a file came on, in whatever order and however
often, and whatever failed, stalled or was retried on the way, a file whose chunks have all arrived
is available and is saved as the sender cut it up. -/
theorem full_bitmap_restored (deps : FileDeps G) (hcrypto : deps.crypto.Lawful)
    (daemon : Daemon.State) (chunks : ChunkStore)
    (hfresh : daemon.tables.transfers.1 = .empty ∧ daemon.tables.transfers.2.1 = .empty ∧
      daemon.begins = [])
    (actions : List Intake.Action)
    (htimely : Meets (Intake.step deps) (Intake.Timely deps) (.started daemon chunks) actions) :
    Along (Intake.step deps) (Intake.Restores deps) (.started daemon chunks) actions := by
  have hsound : (Intake.started daemon chunks).Sound deps.daemon.manifest := .fresh chunks hfresh
  have hstored : (Intake.started daemon chunks).Stored deps := by
    intro id manifest index _ hreceived
    change (daemon.tables.transfers.2.1.get (id, index)).isSome = true at hreceived
    rw [hfresh.2.1] at hreceived
    cases hreceived
  have hkept : Along (Intake.step deps)
      (fun world => world.Sound deps.daemon.manifest ∧ world.Stored deps)
      (.started daemon chunks) actions :=
    along_of_meets (fun _ action h htimely => ⟨h.1.step htimely, h.2.step h.1.tracked action⟩)
      ⟨hsound, hstored⟩ htimely
  exact hkept.imp fun _ h => h.1.restores hcrypto h.2

def noteChunk : Bytes := [1, 2] ++ List.replicate 16 0

def noteManifest : AttachmentManifest :=
  ⟨1, .fill 16 3, "note.txt", "text/plain", 2, CHUNK_SIZE, .fill 32 4,
    [⟨0, taggedCrypto.sha256 noteChunk, 18⟩]⟩

def noteDeps : FileDeps Mls.Counter := { Daemon.plainDeps with
  daemon := { Daemon.fileDeps with manifest := fun _ => .ok noteManifest } }

/-- The chunk comes from a mailbox, but the bitmap cannot be written. The transfer stalls and is
failed, the user retries it, and the chunk comes again. Then the direct lane gives up. -/
def noteRun : List Intake.Action :=
  announcedRun ++ [.offline { OfflineEnv.calm with markFault := true } noteChunk,
    .autoFail (fun _ => true) (fun _ => false) false, .retry false (.fill 16 3),
    .offline .calm noteChunk, .offline .calm noteChunk] ++ silentRun

/-- The file is saved. -/
theorem note_restored :
    (decryptAttachmentTo noteDeps ⟨false, fun _ => false, false, calmEnv⟩
      (noteRun.foldl (Intake.step noteDeps) freshIntake) (.fill 16 3) "out" fun _ => none).2 "out" =
        some [1, 2] := by
  have hchunk : chunkPlaintext taggedCrypto (.fill 16 3) (.fill 32 4) [1, 2] "note.txt"
      "text/plain" = .ok (noteManifest, [noteChunk]) := rfl
  have hrows : (noteRun.foldl (Intake.step noteDeps) freshIntake).files.chunks.rows =
      [((.fill 16 3, 0), noteChunk)] := by decide +kernel
  have hlast := (full_bitmap_restored noteDeps taggedCrypto_lawful ⟨Daemon.linkedTables, [], [], []⟩
    .empty ⟨rfl, rfl, rfl⟩ noteRun ⟨trivial, trivial, fun _ _ _ _ _ _ hmark _ => (by cases hmark),
      trivial, trivial, fun _ _ _ _ _ _ _ _ => ⟨rfl, rfl⟩, fun _ _ _ _ _ _ _ _ => ⟨rfl, rfl⟩,
      trivial, trivial, trivial, trivial⟩).last
  refine ((hlast (.fill 16 3) ⟨.inbound, [], 1, .complete, 0, some (.fill 32 1)⟩ _ _ _ _
    noteManifest _ (by decide +kernel) rfl rfl hchunk ?_ ?_).2 _
      ⟨rfl, fun _ => rfl, rfl, calmEnv_faultless⟩ "out" fun _ => none).2
  · unfold Intake.Full
    decide +kernel
  · -- the store has one ciphertext
    have hsame (ct : Bytes) (hct : ct ∈ [noteChunk] ∨ ∃ index, (noteRun.foldl
        (Intake.step noteDeps) freshIntake).files.chunks.getChunk (.fill 16 3) index = some ct) :
        ct = noteChunk := by
      rcases hct with hct | ⟨index, hct⟩
      · exact List.mem_singleton.mp hct
      · have hmem := Table.get_eq_some_iff.mp hct
        rw [hrows] at hmem
        exact congrArg Prod.snd (List.mem_singleton.mp hmem)
    exact fun ct hct other hother _ => (hsame ct hct).trans (hsame other hother).symm

end Skattr.Core.Delivery
