import Skattr.Core.Attachment.Manifest
import Skattr.Lib.Chunks
import Mathlib.Data.Set.Function

/-!
# Chunking and reassembling attachments

`chunkPlaintext` cuts a file into chunks, encrypts each under a key of its own and describes them in
a manifest; `reassemble` checks and decrypts the chunks in the order of the manifest, writes them to
a temporary file and renames it. There is no hash of the whole file: what ties a chunk to its place
is the key of its index and the hash of its ciphertext. Read `reassemble_sound` first.
-/

namespace Skattr.Core

open Lib Lib.Fallible

/-! ### Chunking -/

def INFO_ATTACH_V1 : Bytes := "skattr-attach-v1".toUTF8.data.toList

/-- The third-party primitives: HKDF-SHA256 with a 56-byte output, XChaCha20-Poly1305 with its key
and nonce, and SHA-256. -/
structure ChunkCrypto where
  hkdf : ByteArr 32 → Bytes → Except String (ByteArr 56)
  encrypt : Bytes → Bytes → Bytes → Option Bytes
  decrypt : Bytes → Bytes → Bytes → Option Bytes
  sha256 : Bytes → ByteArr 32

variable (crypto : ChunkCrypto)

/-- What is assumed of them: the derivation does not fail, encryption of a chunk does not fail and
adds a tag of 16 bytes, and decryption undoes encryption. -/
structure ChunkCrypto.Lawful : Prop where
  hkdf_ok : ∀ key info, ∃ material, crypto.hkdf key info = .ok material
  encrypt_ok : ∀ key nonce plain, plain.length ≤ CHUNK_SIZE →
    ∃ ct, crypto.encrypt key nonce plain = some ct
  length_encrypt : ∀ {key nonce plain ct}, crypto.encrypt key nonce plain = some ct →
    ct.length = plain.length + 16
  decrypt_encrypt : ∀ {key nonce plain ct}, crypto.encrypt key nonce plain = some ct →
    crypto.decrypt key nonce ct = some plain

/-- The key and the nonce of a chunk, from the key of the file and the index. -/
def chunkKeyMaterial (fileKey : ByteArr 32) (index : UInt32) : Except CoreError (Bytes × Bytes) :=
  match crypto.hkdf fileKey (INFO_ATTACH_V1 ++ beBytes 4 index.toNat) with
  | .ok material => .ok (material.bytes.take 32, material.bytes.drop 32)
  | .error e => .error (.identity ("hkdf expand: " ++ e))

def encryptChunk (fileKey : ByteArr 32) (i : Nat) (plain : Bytes) :
    Except CoreError (ChunkRef × Bytes) := do
  check (i < 2 ^ 32) (.attachment .tooLarge)
  let (key, nonce) ← chunkKeyMaterial crypto fileKey (UInt32.ofNat i)
  let ct ← (crypto.encrypt key nonce plain).elim (.error (.attachment .aeadFailed)) .ok
  check (ct.length < 2 ^ 32) (.attachment .sizeMismatch)
  pure (⟨UInt32.ofNat i, crypto.sha256 ct, UInt32.ofNat ct.length⟩, ct)

def encryptChunks (crypto : ChunkCrypto) (fileKey : ByteArr 32) :
    Nat → List Bytes → Except CoreError (List (ChunkRef × Bytes))
  | _, [] => .ok []
  | i, plain :: plains => do
      let chunk ← encryptChunk crypto fileKey i plain
      let chunks ← encryptChunks crypto fileKey (i + 1) plains
      pure (chunk :: chunks)

/-- Chunk and encrypt a plaintext, under a random id and a random key. The second component is the
ciphertexts in the order of their indices. -/
def chunkPlaintextWithCap (attachmentId : AttachmentId) (fileKey : ByteArr 32) (plaintext : Bytes)
    (filename mime : String) (maxBytes : Nat) :
    Except CoreError (AttachmentManifest × List Bytes) := do
  check (plaintext.length ≤ maxBytes) (.attachment .tooLarge)
  let chunks ← encryptChunks crypto fileKey 0 (chunksOf CHUNK_SIZE plaintext)
  pure (⟨MANIFEST_VERSION, attachmentId, sanitizeFilename filename, mime, plaintext.length,
    CHUNK_SIZE, fileKey, chunks.map Prod.fst⟩, chunks.map Prod.snd)

def chunkPlaintext (attachmentId : AttachmentId) (fileKey : ByteArr 32) (plaintext : Bytes)
    (filename mime : String) : Except CoreError (AttachmentManifest × List Bytes) :=
  chunkPlaintextWithCap crypto attachmentId fileKey plaintext filename mime MAX_ATTACHMENT_BYTES

/-! ### Reassembling -/

/-- Where the ciphertexts come from, by index. -/
abbrev ChunkSource := UInt32 → Except CoreError Bytes

/-- The files by their path. -/
abbrev Files := String → Option Bytes

/-- What a run meets: the process id and the sequence number that name its temporary file, and
which file operations fail. `writeFault` is asked with the position of the chunk. -/
structure ReassembleEnv where
  pid : Nat
  seq : Nat
  createFault : Bool
  writeFault : Nat → Bool
  syncFault : Bool
  renameFault : Bool
  removeFault : Bool

def openChunk (fileKey : ByteArr 32) (source : ChunkSource) (chunkRef : ChunkRef) :
    Except CoreError Bytes := do
  let ct ← source chunkRef.index
  check (crypto.sha256 ct = chunkRef.ciphertextHash) (.attachment .chunkHashMismatch)
  let (key, nonce) ← chunkKeyMaterial crypto fileKey chunkRef.index
  (crypto.decrypt key nonce ct).elim (.error (.attachment .aeadFailed)) .ok

/-- Append the chunks to what the temporary file holds. A file has fewer than 2^63 bytes, so a
longer one fails to be written and the count of written bytes does not saturate. -/
def writeChunks (crypto : ChunkCrypto) (env : ReassembleEnv) (fileKey : ByteArr 32)
    (source : ChunkSource) : Nat → List ChunkRef → Bytes → Except CoreError Unit × Bytes
  | _, [], written => (.ok (), written)
  | i, chunkRef :: chunkRefs, written =>
    match openChunk crypto fileKey source chunkRef with
    | .error e => (.error e, written)
    | .ok plain =>
      if env.writeFault i ∨ 2 ^ 63 ≤ written.length + plain.length then
        (.error (.io "write"), written)
      else writeChunks crypto env fileKey source (i + 1) chunkRefs (written ++ plain)

def tempPath (env : ReassembleEnv) (outputPath : String) : String :=
  let pid := env.pid
  let seq := env.seq
  outputPath ++ s!".part-{pid}-{seq}"

/-- The guard that removes the temporary file; a failure to remove it is only logged. -/
def cleanup (env : ReassembleEnv) (tmp : String) (files : Files) : Files :=
  if env.removeFault then files else Function.update files tmp none

def reassemble (env : ReassembleEnv) (manifest : AttachmentManifest) (source : ChunkSource)
    (outputPath : String) (files : Files) : Except CoreError Unit × Files :=
  let tmp := tempPath env outputPath
  if env.createFault then (.error (.io "create"), cleanup env tmp files)
  else
    match writeChunks crypto env manifest.fileKey source 0 manifest.chunks [] with
    | (.error e, written) => (.error e, cleanup env tmp (Function.update files tmp (some written)))
    | (.ok (), written) =>
      let staged := Function.update files tmp (some written)
      if env.syncFault then (.error (.io "sync"), cleanup env tmp staged)
      else if written.length ≠ manifest.totalSize then
        (.error (.attachment .sizeMismatch), cleanup env tmp staged)
      else if env.renameFault then (.error (.io "rename"), cleanup env tmp staged)
      else (.ok (), Function.update (Function.update files tmp none) outputPath (some written))

/-! ### What chunking produces -/

section Chunking

variable {crypto : ChunkCrypto} {fileKey : ByteArr 32}

theorem chunkKeyMaterial_ok (hcrypto : crypto.Lawful) (fileKey : ByteArr 32) (index : UInt32) :
    ∃ material, chunkKeyMaterial crypto fileKey index = .ok material := by
  obtain ⟨material, hmaterial⟩ := hcrypto.hkdf_ok fileKey (INFO_ATTACH_V1 ++ beBytes 4 index.toNat)
  exact ⟨_, by rw [chunkKeyMaterial, hmaterial]⟩

variable {i : Nat} {chunk : ChunkRef × Bytes} {plains cts : List Bytes}
  {chunks : List (ChunkRef × Bytes)} {plaintext plain : Bytes} {manifest : AttachmentManifest}
  {attachmentId : AttachmentId} {filename mime : String}

theorem encryptChunk_ok (h : encryptChunk crypto fileKey i plain = .ok chunk) :
    i < 2 ^ 32 ∧ chunk.1.index = UInt32.ofNat i ∧
      chunk.1.ciphertextHash = crypto.sha256 chunk.2 ∧
      ∃ key nonce, chunkKeyMaterial crypto fileKey chunk.1.index = .ok (key, nonce) ∧
        crypto.encrypt key nonce plain = some chunk.2 := by
  obtain ⟨_, hindex, h⟩ := bind_eq_ok.mp h
  obtain ⟨⟨key, nonce⟩, hmaterial, h⟩ := bind_eq_ok.mp h
  obtain ⟨ct, hct, h⟩ := bind_eq_ok.mp h
  obtain ⟨_, -, h⟩ := bind_eq_ok.mp h
  cases h
  refine ⟨check_eq_ok.mp hindex, rfl, rfl, key, nonce, hmaterial, ?_⟩
  cases hencrypt : crypto.encrypt key nonce plain with
  | none =>
    rw [hencrypt] at hct
    cases hct
  | some other =>
    rw [hencrypt] at hct
    cases hct
    rfl

theorem encryptChunk_total (fileKey : ByteArr 32) (hcrypto : crypto.Lawful) (hi : i < 2 ^ 32)
    (hplain : plain.length ≤ CHUNK_SIZE) :
    ∃ chunk, encryptChunk crypto fileKey i plain = .ok chunk := by
  obtain ⟨⟨key, nonce⟩, hmaterial⟩ := chunkKeyMaterial_ok hcrypto fileKey (UInt32.ofNat i)
  obtain ⟨ct, hct⟩ := hcrypto.encrypt_ok key nonce plain hplain
  have hlength : ct.length < 2 ^ 32 := by
    rw [hcrypto.length_encrypt hct]
    rw [CHUNK_SIZE] at hplain
    omega
  refine ⟨_, bind_eq_ok.mpr ⟨(), check_eq_ok.mpr hi, bind_eq_ok.mpr ⟨_, hmaterial,
    bind_eq_ok.mpr ⟨ct, by rw [hct]; rfl, bind_eq_ok.mpr ⟨(), check_eq_ok.mpr hlength, rfl⟩⟩⟩⟩⟩

theorem encryptChunks_total (fileKey : ByteArr 32) (hcrypto : crypto.Lawful)
    (hi : i + plains.length ≤ 2 ^ 32) (hplains : ∀ plain ∈ plains, plain.length ≤ CHUNK_SIZE) :
    ∃ chunks, encryptChunks crypto fileKey i plains = .ok chunks := by
  induction plains generalizing i with
  | nil => exact ⟨[], rfl⟩
  | cons plain plains ih =>
    rw [List.length_cons] at hi
    obtain ⟨hplain, hplains⟩ := List.forall_mem_cons.mp hplains
    obtain ⟨chunk, hchunk⟩ := encryptChunk_total fileKey hcrypto (i := i) (by omega) hplain
    obtain ⟨chunks, hchunks⟩ := ih (i := i + 1) (by omega) hplains
    exact ⟨chunk :: chunks, bind_eq_ok.mpr ⟨chunk, hchunk, bind_eq_ok.mpr ⟨chunks, hchunks, rfl⟩⟩⟩

theorem encryptChunks_index (h : encryptChunks crypto fileKey i plains = .ok chunks) {j : Nat}
    (hj : chunks[j]? = some chunk) : chunk.1.index.toNat = i + j := by
  induction plains generalizing i j chunks with
  | nil =>
    cases h
    cases hj
  | cons plain plains ih =>
    obtain ⟨first, hfirst, h⟩ := bind_eq_ok.mp h
    obtain ⟨rest, hrest, h⟩ := bind_eq_ok.mp h
    cases h
    cases j with
    | zero =>
      cases hj
      obtain ⟨hi, hindex, -⟩ := encryptChunk_ok hfirst
      rw [hindex, UInt32.toNat_ofNat_of_lt' hi]
      rfl
    | succ j =>
      rw [ih hrest hj]
      omega

theorem encryptChunks_hash (h : encryptChunks crypto fileKey i plains = .ok chunks)
    (hchunk : chunk ∈ chunks) : chunk.1.ciphertextHash = crypto.sha256 chunk.2 := by
  induction plains generalizing i chunks with
  | nil =>
    cases h
    cases hchunk
  | cons plain plains ih =>
    obtain ⟨first, hfirst, h⟩ := bind_eq_ok.mp h
    obtain ⟨rest, hrest, h⟩ := bind_eq_ok.mp h
    cases h
    rcases List.mem_cons.mp hchunk with rfl | hchunk
    · exact (encryptChunk_ok hfirst).2.2.1
    · exact ih hrest hchunk

theorem chunkPlaintext_ok
    (h : chunkPlaintext crypto attachmentId fileKey plaintext filename mime = .ok (manifest, cts)) :
    ∃ chunks, encryptChunks crypto fileKey 0 (chunksOf CHUNK_SIZE plaintext) = .ok chunks ∧
      manifest.attachmentId = attachmentId ∧ manifest.fileKey = fileKey ∧
      manifest.chunks = chunks.map Prod.fst ∧ manifest.totalSize = plaintext.length ∧
      cts = chunks.map Prod.snd ∧ plaintext.length ≤ MAX_ATTACHMENT_BYTES := by
  obtain ⟨_, hsize, h⟩ := bind_eq_ok.mp h
  obtain ⟨chunks, hchunks, h⟩ := bind_eq_ok.mp h
  cases h
  exact ⟨chunks, hchunks, rfl, rfl, rfl, rfl, rfl, check_eq_ok.mp hsize⟩

theorem encryptChunks_length (h : encryptChunks crypto fileKey i plains = .ok chunks) :
    chunks.length = plains.length := by
  induction plains generalizing i chunks with
  | nil =>
    cases h
    rfl
  | cons plain plains ih =>
    obtain ⟨first, -, h⟩ := bind_eq_ok.mp h
    obtain ⟨rest, hrest, h⟩ := bind_eq_ok.mp h
    cases h
    rw [List.length_cons, List.length_cons, ih hrest]

theorem chunkPlaintext_length
    (h : chunkPlaintext crypto attachmentId fileKey plaintext filename mime = .ok (manifest, cts)) :
    manifest.chunks.length = (plaintext.length + CHUNK_SIZE - 1) / CHUNK_SIZE := by
  obtain ⟨chunks, hchunks, -, -, hrefs, -⟩ := chunkPlaintext_ok h
  rw [hrefs, List.length_map, encryptChunks_length hchunks, length_chunksOf (by decide)]

theorem chunkPlaintext_total (hcrypto : crypto.Lawful) (attachmentId : AttachmentId)
    (fileKey : ByteArr 32) (filename mime : String)
    (hsize : plaintext.length ≤ MAX_ATTACHMENT_BYTES) :
    ∃ manifest cts,
      chunkPlaintext crypto attachmentId fileKey plaintext filename mime = .ok (manifest, cts) := by
  have hcount : (chunksOf CHUNK_SIZE plaintext).length ≤ 2 ^ 32 := by
    rw [length_chunksOf (by decide)]
    rw [MAX_ATTACHMENT_BYTES] at hsize
    exact (Nat.div_le_self _ _).trans (by rw [CHUNK_SIZE]; omega)
  obtain ⟨chunks, hchunks⟩ := encryptChunks_total fileKey hcrypto (i := 0)
    (by rw [Nat.zero_add]; exact hcount) fun plain hplain => length_le_of_mem_chunksOf hplain
  exact ⟨_, _, bind_eq_ok.mpr ⟨(), check_eq_ok.mpr hsize, bind_eq_ok.mpr ⟨chunks, hchunks, rfl⟩⟩⟩

end Chunking

/-! ### What reassembling does -/

section Reassembling

variable {crypto : ChunkCrypto} {env : ReassembleEnv} {fileKey : ByteArr 32} {source : ChunkSource}
  {plain : Bytes}

theorem openChunk_ok {chunkRef : ChunkRef}
    (h : openChunk crypto fileKey source chunkRef = .ok plain) :
    ∃ ct, source chunkRef.index = .ok ct ∧ crypto.sha256 ct = chunkRef.ciphertextHash := by
  obtain ⟨ct, hct, h⟩ := bind_eq_ok.mp h
  obtain ⟨_, hhash, -⟩ := bind_eq_ok.mp h
  exact ⟨ct, hct, check_eq_ok.mp hhash⟩

theorem openChunk_encryptChunk (hcrypto : crypto.Lawful) {i : Nat} {chunk : ChunkRef × Bytes}
    (h : encryptChunk crypto fileKey i plain = .ok chunk)
    (hsource : source chunk.1.index = .ok chunk.2) :
    openChunk crypto fileKey source chunk.1 = .ok plain := by
  obtain ⟨-, -, hhash, key, nonce, hmaterial, hencrypt⟩ := encryptChunk_ok h
  refine bind_eq_ok.mpr ⟨chunk.2, hsource, bind_eq_ok.mpr ⟨(), check_eq_ok.mpr hhash.symm,
    bind_eq_ok.mpr ⟨(key, nonce), hmaterial, ?_⟩⟩⟩
  dsimp only
  rw [hcrypto.decrypt_encrypt hencrypt]
  rfl

variable {written : Bytes} {manifest : AttachmentManifest} {outputPath : String} {files : Files}

theorem writeChunks_ok {n : Nat} {chunkRefs : List ChunkRef} {out : Bytes}
    (h : writeChunks crypto env fileKey source n chunkRefs written = (.ok (), out)) :
    ∃ plains, List.Forall₂ (fun chunkRef plain =>
        openChunk crypto fileKey source chunkRef = .ok plain) chunkRefs plains ∧
      out = written ++ plains.flatten := by
  induction chunkRefs generalizing n written with
  | nil =>
    cases h
    exact ⟨[], .nil, by rw [List.flatten_nil, List.append_nil]⟩
  | cons chunkRef chunkRefs ih =>
    rw [writeChunks] at h
    split at h
    · cases h
    · next plain hplain =>
      split at h
      · cases h
      · obtain ⟨plains, hplains, rfl⟩ := ih h
        refine ⟨plain :: plains, .cons hplain hplains, ?_⟩
        rw [List.flatten_cons, List.append_assoc]

theorem writeChunks_encryptChunks (hcrypto : crypto.Lawful) (hfault : ∀ n, env.writeFault n = false)
    {i n : Nat} {plains : List Bytes} {chunks : List (ChunkRef × Bytes)}
    (h : encryptChunks crypto fileKey i plains = .ok chunks)
    (hsource : ∀ chunk ∈ chunks, source chunk.1.index = .ok chunk.2)
    (hsize : written.length + plains.flatten.length < 2 ^ 63) :
    writeChunks crypto env fileKey source n (chunks.map Prod.fst) written =
      (.ok (), written ++ plains.flatten) := by
  induction plains generalizing i n chunks written with
  | nil =>
    cases h
    rw [List.flatten_nil, List.append_nil]
    rfl
  | cons plain plains ih =>
    obtain ⟨chunk, hchunk, h⟩ := bind_eq_ok.mp h
    obtain ⟨rest, hrest, h⟩ := bind_eq_ok.mp h
    cases h
    obtain ⟨hfirst, hsource⟩ := List.forall_mem_cons.mp hsource
    rw [List.flatten_cons, List.length_append] at hsize
    have hroom : ¬(env.writeFault n = true ∨ 2 ^ 63 ≤ written.length + plain.length) := by
      rw [hfault n]
      simp only [Bool.false_eq_true, false_or]
      omega
    rw [List.map_cons, writeChunks, openChunk_encryptChunk hcrypto hchunk hfirst]
    dsimp only
    rw [if_neg hroom, ih hrest hsource (by rw [List.length_append]; omega), List.flatten_cons,
      List.append_assoc]

theorem tempPath_ne (env : ReassembleEnv) (outputPath : String) :
    outputPath ≠ tempPath env outputPath := by
  intro hsame
  have hlength := congrArg String.length hsame
  simp only [tempPath, String.length_append] at hlength
  have hdot : (toString ".part-" : String).length = 6 := rfl
  omega

theorem cleanup_output (env : ReassembleEnv) (outputPath : String) (files : Files) :
    cleanup env (tempPath env outputPath) files outputPath = files outputPath := by
  unfold cleanup
  split
  · rfl
  · rw [Function.update_of_ne (tempPath_ne env outputPath)]

theorem reassemble_not_ok
    (h : (reassemble crypto env manifest source outputPath files).1 ≠ .ok ()) :
    (reassemble crypto env manifest source outputPath files).2 outputPath = files outputPath := by
  have hstaged (written : Bytes) : cleanup env (tempPath env outputPath)
      (Function.update files (tempPath env outputPath) (some written)) outputPath =
        files outputPath := by
    rw [cleanup_output, Function.update_of_ne (tempPath_ne env outputPath)]
  unfold reassemble at h ⊢
  dsimp only at h ⊢
  split
  · exact cleanup_output env outputPath files
  · next hcreate =>
    rw [if_neg hcreate] at h
    split
    · exact hstaged _
    · next hwritten =>
      rw [hwritten] at h
      dsimp only at h
      split
      · exact hstaged _
      · next hsync =>
        rw [if_neg hsync] at h
        split
        · exact hstaged _
        · next hsize =>
          rw [if_neg hsize] at h
          split
          · exact hstaged _
          · next hrename =>
            rw [if_neg hrename] at h
            exact absurd rfl h

theorem reassemble_ok (h : (reassemble crypto env manifest source outputPath files).1 = .ok ()) :
    ∃ written, writeChunks crypto env manifest.fileKey source 0 manifest.chunks [] =
        (.ok (), written) ∧ written.length = manifest.totalSize ∧
      (reassemble crypto env manifest source outputPath files).2 outputPath = some written := by
  unfold reassemble at h ⊢
  dsimp only at h ⊢
  split at h
  · cases h
  · next hcreate =>
    rw [if_neg hcreate]
    split at h
    · cases h
    · next written hwritten =>
      split at h
      · cases h
      · next hsync =>
        split at h
        · cases h
        · next hsize =>
          split at h
          · cases h
          · next hrename =>
            refine ⟨written, hwritten, not_not.mp hsize, ?_⟩
            rw [if_neg hsync, if_neg hsize, if_neg hrename]
            exact Function.update_self _ _ _

/-- No file operation fails. -/
structure ReassembleEnv.Faultless (env : ReassembleEnv) : Prop where
  create : env.createFault = false
  write : ∀ i, env.writeFault i = false
  sync : env.syncFault = false
  rename : env.renameFault = false

theorem reassemble_of_written (henv : env.Faultless) (outputPath : String) (files : Files)
    (hwritten : writeChunks crypto env manifest.fileKey source 0 manifest.chunks [] = (.ok (),
      written)) (hsize : written.length = manifest.totalSize) :
    (reassemble crypto env manifest source outputPath files).1 = .ok () ∧
      (reassemble crypto env manifest source outputPath files).2 outputPath = some written := by
  unfold reassemble
  dsimp only
  rw [hwritten, henv.create, henv.sync, henv.rename]
  simp only [Bool.false_eq_true, if_false, hsize, ne_eq, not_true_eq_false]
  exact ⟨trivial, Function.update_self _ _ _⟩

end Reassembling

/-! ### Round trip and integrity -/

def ChunkSource.ofChunks (cts : List Bytes) : ChunkSource := fun index =>
  cts[index.toNat]?.elim (.error (.attachment .sizeMismatch)) .ok

section Chunked

variable {crypto : ChunkCrypto} {attachmentId : AttachmentId} {fileKey : ByteArr 32}
  {plaintext : Bytes} {filename mime : String} {manifest : AttachmentManifest} {cts : List Bytes}

theorem chunkPlaintext_getElem?
    (h : chunkPlaintext crypto attachmentId fileKey plaintext filename mime = .ok (manifest, cts))
    {i : Nat} {ct : Bytes} (hi : cts[i]? = some ct) :
    ∃ chunkRef ∈ manifest.chunks, chunkRef.index.toNat = i ∧
      chunkRef.ciphertextHash = crypto.sha256 ct := by
  obtain ⟨chunks, hchunks, -, -, hrefs, -, hcts, -⟩ := chunkPlaintext_ok h
  rw [hcts, List.getElem?_map, Option.map_eq_some_iff] at hi
  obtain ⟨chunk, hi, rfl⟩ := hi
  have hmem : chunk ∈ chunks := List.mem_of_getElem? hi
  rw [hrefs]
  exact ⟨chunk.1, List.mem_map_of_mem hmem, (encryptChunks_index hchunks hi).trans (Nat.zero_add i),
    encryptChunks_hash hchunks hmem⟩

theorem reassemble_of_source (hcrypto : crypto.Lawful)
    (h : chunkPlaintext crypto attachmentId fileKey plaintext filename mime = .ok (manifest, cts))
    {source : ChunkSource}
    (hsource : ∀ i ct, cts[i]? = some ct → source (UInt32.ofNat i) = .ok ct)
    {env : ReassembleEnv} (henv : env.Faultless) (outputPath : String) (files : Files) :
    (reassemble crypto env manifest source outputPath files).1 = .ok () ∧
      (reassemble crypto env manifest source outputPath files).2 outputPath = some plaintext := by
  obtain ⟨chunks, hchunks, -, hkey, hrefs, htotal, hcts, hsize⟩ := chunkPlaintext_ok h
  have hflat : (chunksOf CHUNK_SIZE plaintext).flatten = plaintext :=
    flatten_chunksOf (by decide) plaintext
  have hgiven : ∀ chunk ∈ chunks, source chunk.1.index = .ok chunk.2 := by
    intro chunk hchunk
    obtain ⟨j, hj⟩ := List.mem_iff_getElem?.mp hchunk
    have hct : cts[j]? = some chunk.2 := by
      rw [hcts, List.getElem?_map, hj]
      rfl
    rw [← hsource j _ hct, ← Nat.zero_add j, ← encryptChunks_index hchunks hj, UInt32.ofNat_toNat]
  have hroom : ([] : Bytes).length + (chunksOf CHUNK_SIZE plaintext).flatten.length < 2 ^ 63 := by
    rw [hflat, List.length_nil]
    rw [MAX_ATTACHMENT_BYTES] at hsize
    omega
  have hwritten := writeChunks_encryptChunks hcrypto henv.write (n := 0) hchunks hgiven hroom
  rw [hflat, List.nil_append, ← hrefs, ← hkey] at hwritten
  exact reassemble_of_written henv outputPath files hwritten htotal.symm

theorem ofChunks_getElem?
    (h : chunkPlaintext crypto attachmentId fileKey plaintext filename mime = .ok (manifest, cts))
    (i : Nat) (ct : Bytes) (hi : cts[i]? = some ct) :
    ChunkSource.ofChunks cts (UInt32.ofNat i) = .ok ct := by
  obtain ⟨chunkRef, -, rfl, -⟩ := chunkPlaintext_getElem? h hi
  rw [UInt32.ofNat_toNat, ChunkSource.ofChunks, hi]
  rfl

theorem source_of_held {source : ChunkSource}
    (h : chunkPlaintext crypto attachmentId fileKey plaintext filename mime = .ok (manifest, cts))
    (hhash : Set.InjOn crypto.sha256 {ct | ct ∈ cts ∨ ∃ index, source index = .ok ct})
    (hheld : ∀ chunkRef ∈ manifest.chunks,
      ∃ ct, source chunkRef.index = .ok ct ∧ crypto.sha256 ct = chunkRef.ciphertextHash)
    (i : Nat) (ct : Bytes) (hi : cts[i]? = some ct) : source (UInt32.ofNat i) = .ok ct := by
  obtain ⟨chunkRef, hmem, rfl, hct⟩ := chunkPlaintext_getElem? h hi
  obtain ⟨other, hother, hsame⟩ := hheld chunkRef hmem
  have heq : other = ct :=
    hhash (.inr ⟨_, hother⟩) (.inl (List.mem_of_getElem? hi)) (hsame.trans hct)
  rw [UInt32.ofNat_toNat, hother, heq]

end Chunked

/-- Chunking and reassembling. A file up to the limit comes back as it was. Whatever the manifest
and the source, a run that succeeds writes what the listed chunks decrypt to, in the order of the
manifest and as many bytes as it says, and a run that fails leaves the output as it was. For the
manifest of a chunked file, a source that returns anything else than its chunk for some index,
whether that is changed, missing or the chunk of another index, makes the run fail. -/
theorem reassemble_sound (crypto : ChunkCrypto) (hcrypto : crypto.Lawful) :
    (∀ attachmentId fileKey plaintext filename mime, plaintext.length ≤ MAX_ATTACHMENT_BYTES →
      ∃ manifest cts, chunkPlaintext crypto attachmentId fileKey plaintext filename mime =
          .ok (manifest, cts) ∧
        ∀ env : ReassembleEnv, env.Faultless → ∀ outputPath files,
          (reassemble crypto env manifest (.ofChunks cts) outputPath files).1 = .ok () ∧
            (reassemble crypto env manifest (.ofChunks cts) outputPath files).2 outputPath =
              some plaintext) ∧
    (∀ manifest source env outputPath files,
      ((reassemble crypto env manifest source outputPath files).1 = .ok () →
        ∃ plains, List.Forall₂ (fun chunkRef plain =>
            openChunk crypto manifest.fileKey source chunkRef = .ok plain) manifest.chunks plains ∧
          plains.flatten.length = manifest.totalSize ∧
          (reassemble crypto env manifest source outputPath files).2 outputPath =
            some plains.flatten) ∧
      ((reassemble crypto env manifest source outputPath files).1 ≠ .ok () →
        (reassemble crypto env manifest source outputPath files).2 outputPath =
          files outputPath)) ∧
    (∀ attachmentId fileKey plaintext filename mime manifest cts,
      chunkPlaintext crypto attachmentId fileKey plaintext filename mime = .ok (manifest, cts) →
      ∀ source : ChunkSource,
      Set.InjOn crypto.sha256 {ct | ct ∈ cts ∨ ∃ index, source index = .ok ct} →
      (∃ i ct, cts[i]? = some ct ∧ source (UInt32.ofNat i) ≠ .ok ct) →
      ∀ env outputPath files,
        (reassemble crypto env manifest source outputPath files).1 ≠ .ok () ∧
          (reassemble crypto env manifest source outputPath files).2 outputPath =
            files outputPath) := by
  refine ⟨?_, ?_, ?_⟩
  · intro attachmentId fileKey plaintext filename mime hsize
    obtain ⟨manifest, cts, h⟩ := chunkPlaintext_total hcrypto attachmentId fileKey filename mime
      hsize
    exact ⟨manifest, cts, h, fun env henv =>
      reassemble_of_source hcrypto h (ofChunks_getElem? h) henv⟩
  · intro manifest source env outputPath files
    refine ⟨fun hok => ?_, reassemble_not_ok⟩
    obtain ⟨written, hwritten, hsize, houtput⟩ := reassemble_ok hok
    obtain ⟨plains, hplains, rfl⟩ := writeChunks_ok hwritten
    exact ⟨plains, hplains, hsize, houtput⟩
  · intro attachmentId fileKey plaintext filename mime manifest cts h source hhash
    rintro ⟨i, ct, hi, hother⟩ env outputPath files
    have hfails : (reassemble crypto env manifest source outputPath files).1 ≠ .ok () := by
      intro hok
      obtain ⟨written, hwritten, -⟩ := reassemble_ok hok
      obtain ⟨plains, hplains, -⟩ := writeChunks_ok hwritten
      refine hother (source_of_held h hhash (fun chunkRef hmem => ?_) i ct hi)
      obtain ⟨k, rfl⟩ := List.get_of_mem hmem
      exact openChunk_ok (hplains.get k.isLt (by rw [← hplains.length_eq]; exact k.isLt))
    exact ⟨hfails, reassemble_not_ok hfails⟩

/-- Primitives for the runs below: the key of a chunk starts with the bytes of its index, and the
tag of a ciphertext is the start of the key it was made with. -/
def taggedCrypto : ChunkCrypto where
  hkdf _ info := .ok ⟨((info.drop 16) ++ List.replicate 56 0).take 56, by simp⟩
  encrypt key _ plain := some (plain ++ (key ++ List.replicate 16 0).take 16)
  decrypt key _ ct :=
    if ct.drop (ct.length - 16) = (key ++ List.replicate 16 0).take 16 then
      some (ct.take (ct.length - 16))
    else none
  sha256 ct := ⟨(ct ++ List.replicate 32 0).take 32, by simp⟩

theorem taggedCrypto_lawful : taggedCrypto.Lawful where
  hkdf_ok _ _ := ⟨_, rfl⟩
  encrypt_ok _ _ _ _ := ⟨_, rfl⟩
  length_encrypt := by
    intro key nonce plain ct h
    cases h
    simp
  decrypt_encrypt := by
    intro key nonce plain ct h
    cases h
    simp [taggedCrypto]

def calmEnv : ReassembleEnv := ⟨1, 0, false, fun _ => false, false, false, false⟩

theorem calmEnv_faultless : calmEnv.Faultless := ⟨rfl, fun _ => rfl, rfl, rfl⟩

def twoByteManifest (chunks : List ChunkRef) : AttachmentManifest :=
  ⟨MANIFEST_VERSION, .fill 16 0, "f", "m", 2, CHUNK_SIZE, .fill 32 0, chunks⟩

/-- The two one-byte chunks of a file under the key of the manifest above. -/
def firstChunk : Bytes := [1, 0, 0, 0, 0] ++ List.replicate 12 0

def secondChunk : Bytes := [2, 0, 0, 0, 1] ++ List.replicate 12 0

def firstRef : ChunkRef := ⟨0, taggedCrypto.sha256 firstChunk, 17⟩

def secondRef : ChunkRef := ⟨1, taggedCrypto.sha256 secondChunk, 17⟩

/-- The same two chunks under three manifests of the same key and total size: in order, swapped,
and with one of them twice. All three are reassembled, to different files. -/
theorem swapped_manifest_reassembled :
    encryptChunks taggedCrypto (.fill 32 0) 0 [[1], [2]] =
        .ok [(firstRef, firstChunk), (secondRef, secondChunk)] ∧
      ∀ order ∈ [([firstRef, secondRef], [1, 2]), ([secondRef, firstRef], [2, 1]),
          ([firstRef, firstRef], [1, 1])],
        (reassemble taggedCrypto calmEnv (twoByteManifest order.1)
            (.ofChunks [firstChunk, secondChunk]) "out" fun _ => none).1 = .ok () ∧
          (reassemble taggedCrypto calmEnv (twoByteManifest order.1)
            (.ofChunks [firstChunk, secondChunk]) "out" fun _ => none).2 "out" =
              some order.2 := by
  refine ⟨by rfl, ?_⟩
  simp only [List.forall_mem_cons, List.not_mem_nil, false_imp_iff, implies_true, and_true]
  exact ⟨reassemble_of_written calmEnv_faultless _ _ (by rfl) rfl,
    reassemble_of_written calmEnv_faultless _ _ (by rfl) rfl,
    reassemble_of_written calmEnv_faultless _ _ (by rfl) rfl⟩

/-- The file of the bytes 1 and 2 comes back, and is not written when its chunk is replaced. -/
theorem two_bytes_restored :
    ∃ manifest cts, chunkPlaintext taggedCrypto (.fill 16 0) (.fill 32 0) [1, 2] "f" "m" =
        .ok (manifest, cts) ∧
      (reassemble taggedCrypto calmEnv manifest (.ofChunks cts) "out" fun _ => none).2 "out" =
        some [1, 2] ∧
      (reassemble taggedCrypto calmEnv manifest (fun _ => .ok []) "out" fun _ => none).1 ≠ .ok () ∧
      (reassemble taggedCrypto calmEnv manifest (fun _ => .ok []) "out" fun _ => none).2 "out" =
        none := by
  obtain ⟨hround, -, hchanged⟩ := reassemble_sound taggedCrypto taggedCrypto_lawful
  obtain ⟨manifest, cts, hchunk, hback⟩ :=
    hround (.fill 16 0) (.fill 32 0) [1, 2] "f" "m" (by decide)
  have hcts : cts = [[1, 2, 0, 0, 0, 0] ++ List.replicate 12 0] := by
    obtain ⟨chunks, hchunks, -, -, -, -, rfl, -⟩ := chunkPlaintext_ok hchunk
    cases hchunks
    rfl
  refine ⟨manifest, cts, hchunk, (hback calmEnv calmEnv_faultless "out" fun _ => none).2,
    hchanged _ _ _ _ _ manifest cts hchunk _ ?_ ⟨0, _, by rw [hcts]; rfl, ?_⟩ calmEnv "out"
      fun _ => none⟩
  · -- the only ciphertexts that occur are the chunk and the empty one
    subst hcts
    have hother : taggedCrypto.sha256 ([1, 2, 0, 0, 0, 0] ++ List.replicate 12 0) ≠
        taggedCrypto.sha256 [] := by decide
    intro ct hct other hmem hsame
    simp only [List.mem_singleton, Except.ok.injEq, exists_const, Set.mem_ofPred_eq] at hct hmem
    rcases hct with rfl | rfl <;> rcases hmem with rfl | rfl
    · rfl
    · exact absurd hsame hother
    · exact absurd hsame.symm hother
    · rfl
  · intro h
    cases h

end Skattr.Core
