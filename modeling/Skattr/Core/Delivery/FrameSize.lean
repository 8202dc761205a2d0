import Skattr.Core.Daemon.SendFile
import Skattr.Core.Delivery.Peer
import Skattr.Core.Ipc
import Skattr.Core.Transport.Frame

/-!
# Do accepted messages fit the transport?

A connection sends a frame as one Noise message and refuses a longer one. Nothing between the
commands and the connection looks at that limit: `accepted_fits_iff` computes the frame of every
accepted text and file and says exactly which of them fit. Texts beyond about 64 KiB and files
beyond about 48 MiB are accepted and never transmitted (`oversized_accepted`).
-/

namespace Skattr.Core.Delivery

open Lib Lib.Fallible Cbor
open Daemon (FileDeps FileEnv FileState sendMessage sendFile prepareFile linkedGroup newEnvelope
  plainDeps plainEnv fileEnv linkedState firstCiphertext file_accepted)

variable {G : Type}

/-! ### Frames -/

def FrameFits (ciphertext : Bytes) : Prop :=
  ∃ bytes, Transport.encode (.mlsApp ciphertext) = .ok bytes ∧ bytes.length ≤ NOISE_MAX_OUTER

variable {ciphertext : Bytes}

theorem frameFits_iff_fits : FrameFits ciphertext ↔ Fits ciphertext := by
  unfold FrameFits Fits Transport.encode encodeMlsApp
  show (∃ bytes, ite (1 + ciphertext.length > 16 * 1024 * 1024) _ _ = _ ∧ _) ↔
    ∃ bytes, ite (1 + ciphertext.length > 16 * 1024 * 1024) _ _ = _ ∧ _
  split
  · simp
  · simp [Transport.Frame.parts]

/-- The frame of a message whose payload takes `kindSize` bytes: the header, the envelope and what
MLS adds to it. -/
def frameSize (overhead : Nat → Nat) (env : Daemon.Env) (kindSize : Nat) : Nat :=
  let envelopeSize := 15 + byteSeqSize env.freshId.bytes + intSize env.clockMs + kindSize
  5 + (envelopeSize + overhead envelopeSize)

theorem length_newEnvelope (env : Daemon.Env) (kind : Kind) :
    (newEnvelope env kind).toCbor.length =
      15 + byteSeqSize env.freshId.bytes + intSize env.clockMs + kind.toCbor.length :=
  Envelope.length_toCbor rfl

theorem frameFits_iff {deps : Daemon.Deps G} {overhead : G → Nat → Nat}
    (hcodec : ∀ envelope : Envelope, deps.codec.encode envelope = .ok envelope.toCbor)
    (hmls : ∀ {g plaintext ciphertext g'}, deps.mls.createMessage g plaintext = .ok (ciphertext, g')
      → ciphertext.length = plaintext.length + overhead g plaintext.length)
    {env : Daemon.Env} {kind : Kind} {group next : Mls.Group G}
    (h : group.encrypt deps.mls deps.codec (newEnvelope env kind) = .ok (ciphertext, next)) :
    FrameFits ciphertext ↔
      frameSize (overhead group.inner) env kind.toCbor.length ≤ NOISE_MAX_OUTER := by
  obtain ⟨plaintext, hencode, hcreate, -⟩ := Mls.Group.encrypt_ok h
  cases (hcodec _).symm.trans hencode
  have hlength := hmls hcreate
  rw [length_newEnvelope] at hlength
  rw [frameFits_iff_fits, fits_iff, hlength, frameSize, NOISE_MAX_OUTER]
  omega

/-! ### Accepted messages -/

/-- Exactly which accepted messages fit a single Noise message: a text by the number of its bytes,
a file by the size of its manifest. The envelopes are written as CBOR, and MLS adds to a plaintext
a number of bytes that depends on the group and the length. -/
theorem accepted_fits_iff (deps : FileDeps G) (overhead : G → Nat → Nat)
    (hcodec : ∀ envelope : Envelope, deps.daemon.codec.encode envelope = .ok envelope.toCbor)
    (hmls : ∀ {g plaintext ciphertext g'},
      deps.daemon.mls.createMessage g plaintext = .ok (ciphertext, g') →
        ciphertext.length = plaintext.length + overhead g plaintext.length) :
    (∀ env self contact body (s t : Daemon.State) groupId group ciphertext,
      linkedGroup s.tables contact = .ok groupId →
      Mls.Group.load deps.daemon.mls groupId (MlsGroupRepo.get s.tables groupId) =
        .ok (some group) →
      exec (sendMessage deps.daemon env self contact (.text body)) s = (.ok (), t) →
      t.handed = s.handed ++ [(contact, env.freshId, ciphertext)] →
      (FrameFits ciphertext ↔ frameSize (overhead group.inner) env
        (16 + headSize body.utf8ByteSize + body.utf8ByteSize) ≤ NOISE_MAX_OUTER)) ∧
    (∀ env self contact path (s t : FileState) result groupId group ciphertext manifest cts,
      linkedGroup s.daemon.tables contact = .ok groupId →
      Mls.Group.load deps.daemon.mls groupId (MlsGroupRepo.get s.daemon.tables groupId) =
        .ok (some group) →
      prepareFile deps env path = .ok (manifest, cts) →
      exec (sendFile deps env self contact path) s = (.ok result, t) →
      t.daemon.handed = s.daemon.handed ++ [(contact, env.env.freshId, ciphertext)] →
      (FrameFits ciphertext ↔ frameSize (overhead group.inner) env.env
        (20 + headSize manifest.toCbor.length + manifest.toCbor.length) ≤ NOISE_MAX_OUTER)) := by
  constructor
  · intro env self contact body s t groupId group ciphertext hlinked hload h hhanded
    obtain ⟨groupId', group', next, hlinked', hload', hencrypt⟩ :=
      Daemon.sendMessage_encrypted h hhanded
    cases hlinked.symm.trans hlinked'
    cases hload.symm.trans hload'
    rw [frameFits_iff hcodec hmls hencrypt, Kind.length_toCbor_text]
  · intro env self contact path s t result groupId group ciphertext manifest cts hlinked hload
      hprepare h hhanded
    obtain ⟨manifest', cts', chunks, tables, sent, hprepare', -, hinsert, hsend, -, rfl⟩ :=
      Daemon.sendFile_ok h
    cases hprepare.symm.trans hprepare'
    obtain ⟨attachments, -, rfl⟩ := Daemon.insertOutbound_ok hinsert
    obtain ⟨groupId', group', next, hlinked', hload', hencrypt⟩ :=
      Daemon.sendMessage_encrypted hsend hhanded
    cases hlinked.symm.trans hlinked'
    cases hload.symm.trans hload'
    rw [frameFits_iff hcodec hmls hencrypt, Kind.length_toCbor_file]

theorem large_file_exceeds {deps : FileDeps G} {env : FileEnv} {path : String}
    {manifest : AttachmentManifest} {cts : List Bytes} (overhead : Nat → Nat)
    (h : prepareFile deps env path = .ok (manifest, cts))
    (hlarge : 1040 * CHUNK_SIZE < manifest.totalSize) :
    NOISE_MAX_OUTER < frameSize overhead env.env
      (20 + headSize manifest.toCbor.length + manifest.toCbor.length) := by
  obtain ⟨plaintext, filename, mime, hchunk⟩ := Daemon.prepareFile_ok h
  obtain ⟨-, -, -, -, -, htotal, -⟩ := chunkPlaintext_ok hchunk
  have hcount : 1041 ≤ manifest.chunks.length := by
    rw [chunkPlaintext_length hchunk, Nat.le_div_iff_mul_le (by decide)]
    rw [htotal] at hlarge
    rw [CHUNK_SIZE] at hlarge ⊢
    omega
  have hsize := manifest.le_length_toCbor
  rw [frameSize, NOISE_MAX_OUTER]
  omega

/-! ### An oversized text and an oversized file -/

def sendMessageRequest (contact : PublicKey) (kind : Kind) : Bytes :=
  Cbor.map [("req", text "execute"), ("data", Cbor.map [("cmd", text "send_message"),
    ("contact", byteSeq contact.bytes), ("kind", kind.toCbor)])]

theorem length_sendMessageRequest (contact : PublicKey) (kind : Kind) :
    (sendMessageRequest contact kind).length =
      49 + byteSeqSize contact.bytes + kind.toCbor.length := by
  simp only [sendMessageRequest, length_map, List.map_cons, List.map_nil, List.sum_cons,
    List.sum_nil, length_text, length_byteSeq]
  show 1 + (1 + 3 + (1 + 7) + (1 + 4 + (1 + (1 + 3 + (1 + 12) + (1 + 7 + byteSeqSize _ +
    (1 + 4 + _ + 0)))) + 0)) = _
  omega

def letters : Nat → String
  | 0 => ""
  | n + 1 => letters n ++ "a"

theorem utf8ByteSize_letters (n : Nat) : (letters n).utf8ByteSize = n := by
  induction n with
  | zero => rfl
  | succ n ih => rw [letters, String.utf8ByteSize_append, ih]; rfl

theorem plainDeps_overhead {g g' : Mls.Counter} {plaintext : Bytes}
    (h : plainDeps.daemon.mls.createMessage g plaintext = .ok (ciphertext, g')) :
    ciphertext.length = plaintext.length + g.id.length := by
  cases h
  rw [List.length_append, Nat.add_comm]

theorem text_accepted (body : String) :
    ∃ t, exec (sendMessage plainDeps.daemon plainEnv (.fill 32 0) (.fill 32 1) (.text body))
        linkedState.daemon = (.ok (), t) ∧
      t.handed = [(.fill 32 1, .fill 16 9, firstCiphertext (.text body))] :=
  ⟨_, rfl, rfl⟩

theorem frameFits_first_iff (kind : Kind) : FrameFits (firstCiphertext kind) ↔
    frameSize (fun _ => 32) plainEnv kind.toCbor.length ≤ NOISE_MAX_OUTER := by
  have hlength :
      (firstCiphertext kind).length = 32 + (newEnvelope plainEnv kind).toCbor.length := by
    rw [firstCiphertext, List.length_append, List.length_replicate]
  rw [frameFits_iff_fits, fits_iff, hlength, length_newEnvelope, frameSize, NOISE_MAX_OUTER]
  omega

theorem detectKind_zeros (n : Nat) :
    Daemon.detectKind (List.replicate n 0) "application/octet-stream" = .other := by
  cases n <;> rfl

/-- A text of 65520 letters, in a request far below the IPC limit, and a file of 100 MiB are
accepted and handed to the hub, and neither frame fits a Noise message. -/
theorem oversized_accepted :
    (sendMessageRequest (.fill 32 1) (.text (letters 65520))).length ≤ Ipc.MAX_IPC_BODY ∧
      (∃ t, exec (sendMessage plainDeps.daemon plainEnv (.fill 32 0) (.fill 32 1)
          (.text (letters 65520))) linkedState.daemon = (.ok (), t) ∧
        t.handed = [(.fill 32 1, .fill 16 9, firstCiphertext (.text (letters 65520)))] ∧
        ¬FrameFits (firstCiphertext (.text (letters 65520)))) ∧
      ∃ (manifest : AttachmentManifest) (t : FileState),
        exec (sendFile plainDeps (fileEnv (List.replicate MAX_ATTACHMENT_BYTES 0))
          (.fill 32 0) (.fill 32 1) "video.bin") linkedState =
            (.ok (manifest.attachmentId, manifest.chunks.length), t) ∧
        t.daemon.handed =
          [(.fill 32 1, .fill 16 9, firstCiphertext (.file manifest.toCbor))] ∧
        ¬FrameFits (firstCiphertext (.file manifest.toCbor)) := by
  refine ⟨?_, ?_, ?_⟩
  · rw [length_sendMessageRequest, Kind.length_toCbor_text, utf8ByteSize_letters]
    decide
  · obtain ⟨t, ht, hhanded⟩ := text_accepted (letters 65520)
    refine ⟨t, ht, hhanded, ?_⟩
    rw [frameFits_first_iff, Kind.length_toCbor_text, utf8ByteSize_letters]
    decide
  · obtain ⟨manifest, cts, t, hprepare, htotal, ht, hhanded⟩ := file_accepted
      (detectKind_zeros MAX_ATTACHMENT_BYTES)
      (by rw [List.length_replicate])
    refine ⟨manifest, t, ht, hhanded, ?_⟩
    rw [List.length_replicate] at htotal
    have hlarge := large_file_exceeds (fun _ => 32) hprepare (by rw [htotal]; decide)
    rw [frameFits_first_iff, Kind.length_toCbor_file]
    exact Nat.not_le.mpr hlarge

def smallManifest : AttachmentManifest :=
  ⟨MANIFEST_VERSION, .fill 16 3, "video.bin", "application/octet-stream", 2, CHUNK_SIZE, .fill 32 4,
    [⟨0, taggedCrypto.sha256 ([1, 2] ++ List.replicate 16 0), 18⟩]⟩

/-- A short text and a file of two bytes are accepted, and their frames fit. -/
theorem small_accepted_fits :
    FrameFits (firstCiphertext (.text "hi")) ∧
      FrameFits (firstCiphertext (.file smallManifest.toCbor)) := by
  obtain ⟨htext, hfile⟩ := accepted_fits_iff plainDeps (fun g _ => g.id.length) (fun _ => rfl)
    plainDeps_overhead
  constructor
  · obtain ⟨t, ht, hhanded⟩ := text_accepted "hi"
    exact (htext plainEnv _ _ "hi" linkedState.daemon t (List.replicate 32 7) _ _ rfl rfl ht
      hhanded).mpr (by decide)
  · obtain ⟨manifest, cts, t, hprepare, -, ht, hhanded⟩ := file_accepted
      (show Daemon.detectKind [1, 2] "application/octet-stream" = .other from rfl) (by decide)
    have hsmall : prepareFile plainDeps (fileEnv [1, 2]) "video.bin" =
        .ok (smallManifest, [[1, 2] ++ List.replicate 16 0]) := rfl
    cases hsmall.symm.trans hprepare
    exact (hfile (fileEnv [1, 2]) _ _ _ linkedState t _ (List.replicate 32 7) _ _ _ _ rfl rfl
      hprepare ht hhanded).mpr (by decide +kernel)

end Skattr.Core.Delivery
