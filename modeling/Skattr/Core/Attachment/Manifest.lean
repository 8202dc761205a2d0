import Skattr.Core.Basic

/-!
# Attachment manifests

A file is sent as a manifest, which travels inside an MLS message, and as separately encrypted
chunks, which the manifest names by the hash of their ciphertexts. Decoding a manifest checks its
version and nothing else: neither the order nor the distinctness of the indices.
-/

namespace Skattr.Core

open Lib

def CHUNK_SIZE : Nat := 49152

def MAX_ATTACHMENT_BYTES : Nat := 100 * 1024 * 1024

def MAX_OFFLINE_ATTACHMENT_BYTES : Nat := 10 * 1024 * 1024

def MANIFEST_VERSION : Nat := 1

abbrev AttachmentId := ByteArr 16

/-- The position, the content address and the length of a chunk's ciphertext. -/
structure ChunkRef where
  index : UInt32
  ciphertextHash : ByteArr 32
  len : UInt32
  deriving DecidableEq

/-- The descriptor of an attachment, with the key that the chunk keys are derived from. -/
structure AttachmentManifest where
  manifestVersion : Nat
  attachmentId : AttachmentId
  filename : String
  mime : String
  totalSize : Nat
  chunkSize : Nat
  fileKey : ByteArr 32
  chunks : List ChunkRef
  deriving DecidableEq

/-! ### File names -/

def isControl (c : Char) : Bool := c.toNat < 0x20 || (0x7f ≤ c.toNat && c.toNat < 0xa0)

def isBidiOrFormatControl (c : Char) : Bool :=
  c.toNat = 0x200e || c.toNat = 0x200f || (0x202a ≤ c.toNat && c.toNat ≤ 0x202e) ||
    (0x2066 ≤ c.toNat && c.toNat ≤ 0x2069)

def isSeparator (c : Char) : Bool := c.toNat = 0x2f || c.toNat = 0x5c

def sanitizeFilename (raw : String) : String :=
  let base := ((raw.toList.rtakeWhile (!isSeparator ·)).dropWhile (· = '.')).rdropWhile (· = '.')
  let cleaned := String.ofList
    (base.filter fun c => !isControl c && !isBidiOrFormatControl c && !isSeparator c)
  if (trim cleaned).isEmpty then "attachment" else cleaned

/-! ### Decoding -/

def AttachmentManifest.fromCbor (decode : Bytes → Except String AttachmentManifest)
    (bytes : Bytes) : Except String AttachmentManifest := do
  let manifest ← decode bytes
  if manifest.manifestVersion = MANIFEST_VERSION then .ok manifest
  else .error s!"unknown manifest version {manifest.manifestVersion}"

end Skattr.Core
