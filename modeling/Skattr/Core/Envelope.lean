import Skattr.Core.Attachment.Manifest
import Skattr.Lib.CborRead
import Mathlib.Algebra.Order.BigOperators.Group.List
import Mathlib.Algebra.Order.Group.Nat
import Mathlib.Algebra.Group.Action.Defs

/-!
# Envelopes and manifests on the wire

The CBOR encodings of the envelopes that travel inside MLS messages and of the manifests that a
file envelope carries, with their exact sizes. Identifiers, keys and hashes are arrays of integers,
so a hash takes between 34 and 66 bytes; a manifest is a byte string inside its envelope. The size
of a manifest grows with the number of its chunks (`AttachmentManifest.le_length_toCbor`).
-/

namespace Skattr.Core

open Lib Cbor

/-! ### Manifests -/

def ChunkRef.toCbor (chunkRef : ChunkRef) : Bytes :=
  Cbor.map [("index", uint chunkRef.index.toNat),
    ("ciphertext_hash", byteSeq chunkRef.ciphertextHash.bytes),
    ("len", uint chunkRef.len.toNat)]

def AttachmentManifest.toCbor (manifest : AttachmentManifest) : Bytes :=
  Cbor.map [("manifest_version", uint manifest.manifestVersion),
    ("attachment_id", byteSeq manifest.attachmentId.bytes),
    ("filename", text manifest.filename),
    ("mime", text manifest.mime),
    ("total_size", uint manifest.totalSize),
    ("chunk_size", uint manifest.chunkSize),
    ("file_key", byteSeq manifest.fileKey.bytes),
    ("chunks", array (manifest.chunks.map ChunkRef.toCbor))]

/-! ### Envelopes -/

def ContactCardBody.toCbor (body : ContactCardBody) : Bytes :=
  Cbor.map [("identity", byteSeq body.identity.bytes),
    ("onion", text body.onion),
    ("mailboxes", array (body.mailboxes.map text)),
    ("version", uint body.version),
    ("expires_at", int body.expiresAt)]

def ContactCard.toCbor (card : ContactCard) : Bytes :=
  Cbor.map [("body", card.body.toCbor), ("signature", byteSeq card.signature.bytes)]

def Kind.fields : Kind → List (String × Bytes)
  | .text body => [("kind", Cbor.text "text"), ("body", Cbor.text body)]
  | .file manifest => [("kind", Cbor.text "file"), ("manifest", byteString manifest)]
  | .reaction target emoji =>
    [("kind", Cbor.text "reaction"), ("target", byteSeq target.bytes), ("emoji", Cbor.text emoji)]
  | .edit target body =>
    [("kind", Cbor.text "edit"), ("target", byteSeq target.bytes), ("body", Cbor.text body)]
  | .delete target => [("kind", Cbor.text "delete"), ("target", byteSeq target.bytes)]
  | .typing => [("kind", Cbor.text "typing")]
  | .contactCardUpdate card => [("kind", Cbor.text "contact_card_update"), ("card", card.toCbor)]

def Kind.toCbor (kind : Kind) : Bytes := Cbor.map kind.fields

def Envelope.toCbor (envelope : Envelope) : Bytes :=
  Cbor.map ([("v", uint envelope.v), ("id", byteSeq envelope.id.bytes), ("ts", int envelope.ts)] ++
    (envelope.replyTo.toList.map fun target => ("reply_to", byteSeq target.bytes)) ++
    [("kind", envelope.kind.toCbor)])

/-! ### Sizes -/

theorem ChunkRef.length_toCbor (chunkRef : ChunkRef) :
    chunkRef.toCbor.length = 27 + headSize chunkRef.index.toNat +
      byteSeqSize chunkRef.ciphertextHash.bytes + headSize chunkRef.len.toNat := by
  simp only [ChunkRef.toCbor, length_map, List.map_cons, List.map_nil, List.sum_cons, List.sum_nil,
    length_text, length_uint, length_byteSeq]
  show 1 + (1 + 5 + headSize _ + (1 + 15 + byteSeqSize _ + (1 + 3 + headSize _ + 0))) = _
  omega

variable (manifest : AttachmentManifest)

theorem AttachmentManifest.length_toCbor :
    manifest.toCbor.length = 84 + headSize manifest.manifestVersion +
      byteSeqSize manifest.attachmentId.bytes +
      (headSize manifest.filename.utf8ByteSize + manifest.filename.utf8ByteSize) +
      (headSize manifest.mime.utf8ByteSize + manifest.mime.utf8ByteSize) +
      headSize manifest.totalSize + headSize manifest.chunkSize +
      byteSeqSize manifest.fileKey.bytes + headSize manifest.chunks.length +
      (manifest.chunks.map fun chunkRef => chunkRef.toCbor.length).sum := by
  simp only [AttachmentManifest.toCbor, length_map, List.map_cons, List.map_nil, List.sum_cons,
    List.sum_nil, length_text, length_uint, length_byteSeq, length_array, List.length_map,
    List.map_map, Function.comp_def]
  show 1 + (1 + 16 + headSize _ + (1 + 13 + byteSeqSize _ + (1 + 8 + (headSize _ + _) +
    (1 + 4 + (headSize _ + _) + (1 + 10 + headSize _ + (1 + 10 + headSize _ +
      (1 + 8 + byteSeqSize _ + (1 + 6 + (headSize _ + _) + 0)))))))) = _
  omega

theorem Kind.length_toCbor_text (body : String) :
    (Kind.text body).toCbor.length = 16 + headSize body.utf8ByteSize + body.utf8ByteSize := by
  simp only [Kind.toCbor, Kind.fields, length_map, List.map_cons, List.map_nil, List.sum_cons,
    List.sum_nil, length_text]
  show 1 + (1 + 4 + (1 + 4) + (1 + 4 + (headSize _ + _) + 0)) = _
  omega

theorem Kind.length_toCbor_file (manifest : Bytes) :
    (Kind.file manifest).toCbor.length = 20 + headSize manifest.length + manifest.length := by
  simp only [Kind.toCbor, Kind.fields, length_map, List.map_cons, List.map_nil, List.sum_cons,
    List.sum_nil, length_text, length_byteString]
  show 1 + (1 + 4 + (1 + 4) + (1 + 8 + (headSize _ + _) + 0)) = _
  omega

theorem Envelope.length_toCbor {envelope : Envelope} (hreply : envelope.replyTo = none) :
    envelope.toCbor.length = 14 + headSize envelope.v + byteSeqSize envelope.id.bytes +
      intSize envelope.ts + envelope.kind.toCbor.length := by
  simp only [Envelope.toCbor, hreply, Option.toList_none, List.map_nil, List.append_nil,
    List.cons_append, List.nil_append, length_map, List.map_cons, List.sum_cons, List.sum_nil,
    length_text, length_uint, length_byteSeq, length_int]
  show 1 + (1 + 1 + headSize _ + (1 + 2 + byteSeqSize _ + (1 + 2 + intSize _ +
    (1 + 4 + _ + 0)))) = _
  omega

theorem AttachmentManifest.le_length_toCbor :
    63 * manifest.chunks.length ≤ manifest.toCbor.length := by
  have hchunk : ∀ chunkRef : ChunkRef, 63 ≤ chunkRef.toCbor.length := by
    intro chunkRef
    have hhash : 2 + 32 ≤ byteSeqSize chunkRef.ciphertextHash.bytes := by
      have h := add_length_le_byteSeqSize chunkRef.ciphertextHash.bytes
      rw [chunkRef.ciphertextHash.length_eq] at h
      exact h
    have hindex := one_le_headSize chunkRef.index.toNat
    have hlen := one_le_headSize chunkRef.len.toNat
    rw [ChunkRef.length_toCbor]
    omega
  have hsum := List.card_nsmul_le_sum
    (manifest.chunks.map fun chunkRef => chunkRef.toCbor.length) 63
    (by
      intro n hn
      obtain ⟨chunkRef, -, rfl⟩ := List.mem_map.mp hn
      exact hchunk chunkRef)
  rw [List.length_map, smul_eq_mul] at hsum
  rw [AttachmentManifest.length_toCbor]
  omega

end Skattr.Core
