import Skattr.Core.Attachment.Manifest
import Skattr.Lib.CborRead
import Skattr.Lib.Framing

/-!
# Frames on the wire

A frame is a 32-bit length, a type byte and a payload. `decode` takes at most one frame off a
buffer, and a framed stream appends every read to its buffer and decodes until nothing is complete.
The payloads of five frame types are CBOR structures: they are written here, and reading them back
is a parameter. Read `stream_integrity` first: however the bytes of a list of frames are cut into
reads, the stream yields that list.
-/

namespace Skattr.Core.Transport

open Lib Lib.Framing

def MAX_FRAME_SIZE : Nat := 16 * 1024 * 1024

structure ErrorPayload where
  code : UInt16
  message : String
  deriving DecidableEq

structure ChunkRequestPayload where
  attachmentId : AttachmentId
  index : UInt32
  deriving DecidableEq

structure ChunkPayload where
  attachmentId : AttachmentId
  index : UInt32
  ciphertext : Bytes
  deriving DecidableEq

structure ChunkNackPayload where
  attachmentId : AttachmentId
  index : UInt32
  reason : UInt8
  deriving DecidableEq

structure AttachmentCompletePayload where
  attachmentId : AttachmentId
  deriving DecidableEq

inductive Frame where
  | noiseInit (payload : Bytes)
  | noiseResp (payload : Bytes)
  | mlsWelcome (payload : Bytes)
  | mlsCommit (payload : Bytes)
  | mlsApp (payload : Bytes)
  | ack (id : MessageId)
  | ping
  | pong
  | bye
  | error (payload : ErrorPayload)
  | chunkRequest (payload : ChunkRequestPayload)
  | chunk (payload : ChunkPayload)
  | chunkNack (payload : ChunkNackPayload)
  | attachmentComplete (payload : AttachmentCompletePayload)
  deriving DecidableEq

/-! ### Payloads -/

def idField (id : AttachmentId) : String × Bytes := ("attachment_id", Cbor.byteSeq id.bytes)

def indexField (index : UInt32) : String × Bytes := ("index", Cbor.uint index.toNat)

def ErrorPayload.toCbor (p : ErrorPayload) : Bytes :=
  Cbor.map [("code", Cbor.uint p.code.toNat), ("message", Cbor.text p.message)]

def ChunkRequestPayload.toCbor (p : ChunkRequestPayload) : Bytes :=
  Cbor.map [idField p.attachmentId, indexField p.index]

def ChunkPayload.toCbor (p : ChunkPayload) : Bytes :=
  Cbor.map [idField p.attachmentId, indexField p.index,
    ("ciphertext", Cbor.byteString p.ciphertext)]

def ChunkNackPayload.toCbor (p : ChunkNackPayload) : Bytes :=
  Cbor.map [idField p.attachmentId, indexField p.index, ("reason", Cbor.uint p.reason.toNat)]

def AttachmentCompletePayload.toCbor (p : AttachmentCompletePayload) : Bytes :=
  Cbor.map [idField p.attachmentId]

/-- Reading the CBOR payloads. A reader may accept other encodings than the writer's, and bytes
after them. -/
structure PayloadReader where
  error : Bytes → Except String ErrorPayload
  chunkRequest : Bytes → Except String ChunkRequestPayload
  chunk : Bytes → Except String ChunkPayload
  chunkNack : Bytes → Except String ChunkNackPayload
  attachmentComplete : Bytes → Except String AttachmentCompletePayload

variable (reader : PayloadReader)

/-- The reader reads back what the writer writes, up to the size of a frame. -/
structure PayloadReader.Lawful : Prop where
  error : ∀ p, p.toCbor.length < MAX_FRAME_SIZE → reader.error p.toCbor = .ok p
  chunkRequest : ∀ p, reader.chunkRequest p.toCbor = .ok p
  chunk : ∀ p, p.toCbor.length < MAX_FRAME_SIZE → reader.chunk p.toCbor = .ok p
  chunkNack : ∀ p, reader.chunkNack p.toCbor = .ok p
  attachmentComplete : ∀ p, reader.attachmentComplete p.toCbor = .ok p

/-! ### The codec -/

def Frame.parts : Frame → UInt8 × Bytes
  | .ping => (0x07, [])
  | .pong => (0x08, [])
  | .bye => (0x09, [])
  | .ack id => (0x06, id.bytes)
  | .noiseInit payload => (0x01, payload)
  | .noiseResp payload => (0x02, payload)
  | .mlsWelcome payload => (0x03, payload)
  | .mlsCommit payload => (0x04, payload)
  | .mlsApp payload => (0x05, payload)
  | .error p => (0x0A, p.toCbor)
  | .chunkRequest p => (0x0B, p.toCbor)
  | .chunk p => (0x0C, p.toCbor)
  | .chunkNack p => (0x0D, p.toCbor)
  | .attachmentComplete p => (0x0E, p.toCbor)

/-- Encode a frame, or refuse one whose type byte and payload exceed the cap. -/
def encode (item : Frame) : Except CoreError Bytes :=
  let length := 1 + item.parts.2.length
  if length > MAX_FRAME_SIZE then .error (.frame s!"encoded frame too large: {length} bytes")
  else .ok (beBytes 4 length ++ item.parts.1 :: item.parts.2)

def emptyPayload (frame : Frame) (name : String) (payload : Bytes) : Except CoreError Frame :=
  if payload ≠ [] then .error (.frame (name ++ " must have empty payload")) else .ok frame

def cborPayload {α : Type} (read : Bytes → Except String α) (frame : α → Frame) (name : String)
    (payload : Bytes) : Except CoreError Frame :=
  match read payload with
  | .ok p => .ok (frame p)
  | .error e => .error (.frame (name ++ " CBOR: " ++ e))

def decodeAck (payload : Bytes) : Except CoreError Frame :=
  match ByteArr.ofBytes? 16 payload with
  | some id => .ok (.ack id)
  | none =>
    let size := payload.length
    .error (.frame s!"Ack payload must be 16 bytes, got {size}")

def hexByte (b : UInt8) : String :=
  .ofList [(Nat.digitChar (b.toNat / 16)).toUpper, (Nat.digitChar (b.toNat % 16)).toUpper]

def parse (typeByte : UInt8) (payload : Bytes) : Except CoreError Frame :=
  match typeByte with
  | 0x01 => .ok (.noiseInit payload)
  | 0x02 => .ok (.noiseResp payload)
  | 0x03 => .ok (.mlsWelcome payload)
  | 0x04 => .ok (.mlsCommit payload)
  | 0x05 => .ok (.mlsApp payload)
  | 0x06 => decodeAck payload
  | 0x07 => emptyPayload .ping "Ping" payload
  | 0x08 => emptyPayload .pong "Pong" payload
  | 0x09 => emptyPayload .bye "Bye" payload
  | 0x0A => cborPayload reader.error .error "Error payload" payload
  | 0x0B => cborPayload reader.chunkRequest .chunkRequest "ChunkRequest" payload
  | 0x0C => cborPayload reader.chunk .chunk "Chunk" payload
  | 0x0D => cborPayload reader.chunkNack .chunkNack "ChunkNack" payload
  | 0x0E => cborPayload reader.attachmentComplete .attachmentComplete "AttachmentComplete" payload
  | other =>
    .error (.frame ("unknown or not-yet-handled frame type 0x" ++ hexByte other))

/-- Take one frame off the buffer, if it is complete; the second component is what is left. -/
def decode (src : Bytes) : Except CoreError (Option Frame) × Bytes :=
  if src.length < 4 then (.ok none, src)
  else
    let length := announced src
    if length = 0 then (.error (.frame "zero-length frame"), src)
    else if length > MAX_FRAME_SIZE then
      (.error (.frame s!"frame too large: {length} bytes"), src)
    else if src.length < 4 + length then (.ok none, src)
    else
      match src.drop 4 with
      | [] => (.ok none, src)
      | typeByte :: tail =>
        ((parse reader typeByte (tail.take (length - 1))).map some, tail.drop (length - 1))

/-! ### What the codec does -/

section Codec

variable {reader : PayloadReader} {src rest more : Bytes}

def Frame.body (item : Frame) : Bytes := item.parts.1 :: item.parts.2

variable {item : Frame}

theorem encode_ok {encoded : Bytes} (h : encode item = .ok encoded) :
    encoded = frame item.body ∧ Sendable MAX_FRAME_SIZE item.body := by
  have hbody : item.body.length = 1 + item.parts.2.length := by
    rw [Frame.body, List.length_cons, Nat.add_comm]
  unfold encode at h
  dsimp only at h
  split at h
  · cases h
  · next hfits =>
    cases h
    refine ⟨by rw [frame, hbody]; rfl, ?_⟩
    rw [Sendable, hbody]
    omega

theorem encode_ok_iff (item : Frame) :
    (∃ encoded, encode item = .ok encoded) ↔ 1 + item.parts.2.length ≤ MAX_FRAME_SIZE := by
  unfold encode
  dsimp only
  split
  · next hlarge =>
    refine ⟨fun h => ?_, fun h => by omega⟩
    obtain ⟨encoded, herror⟩ := h
    cases herror
  · next hfits => exact ⟨fun _ => by omega, fun _ => ⟨_, rfl⟩⟩

theorem parse_parts (hreader : reader.Lawful) (hfits : Sendable MAX_FRAME_SIZE item.body) :
    parse reader item.parts.1 item.parts.2 = .ok item := by
  have hpayload : item.parts.2.length < MAX_FRAME_SIZE := by
    have hle := hfits.2
    rw [Frame.body, List.length_cons] at hle
    omega
  cases item with
  | noiseInit | noiseResp | mlsWelcome | mlsCommit | mlsApp | ping | pong | bye => rfl
  | ack id =>
    show decodeAck id.bytes = _
    rw [decodeAck, ofBytes?_bytes]
  | error p =>
    show cborPayload reader.error .error "Error payload" p.toCbor = _
    rw [cborPayload, hreader.error p hpayload]
  | chunkRequest p =>
    show cborPayload reader.chunkRequest .chunkRequest "ChunkRequest" p.toCbor = _
    rw [cborPayload, hreader.chunkRequest p]
  | chunk p =>
    show cborPayload reader.chunk .chunk "Chunk" p.toCbor = _
    rw [cborPayload, hreader.chunk p hpayload]
  | chunkNack p =>
    show cborPayload reader.chunkNack .chunkNack "ChunkNack" p.toCbor = _
    rw [cborPayload, hreader.chunkNack p]
  | attachmentComplete p =>
    show cborPayload reader.attachmentComplete .attachmentComplete "AttachmentComplete"
      p.toCbor = _
    rw [cborPayload, hreader.attachmentComplete p]

theorem decode_frame {typeByte : UInt8} {payload : Bytes}
    (hfits : Sendable MAX_FRAME_SIZE (typeByte :: payload)) :
    decode reader (frame (typeByte :: payload) ++ rest) =
      ((parse reader typeByte payload).map some, rest) := by
  have hannounced := announced_frame_append (by decide) hfits rest
  have hlength : (frame (typeByte :: payload) ++ rest).length =
      4 + (payload.length + 1) + rest.length := by
    simp
  have hmax := hfits.2
  rw [List.length_cons] at hannounced hmax
  unfold decode
  rw [hannounced, hlength, drop_frame_append, if_neg (by omega), if_neg (by omega),
    if_neg (by omega), if_neg (by omega)]
  simp

theorem decode_short {body : Bytes} (hfits : Sendable MAX_FRAME_SIZE body)
    (hstart : src ++ more = frame body ++ rest) (hshort : src.length < (frame body).length) :
    decode reader src = (.ok none, src) := by
  unfold decode
  by_cases hfour : src.length < 4
  · rw [if_pos hfour]
  · have hannounced : announced src = body.length := by
      rw [← announced_frame_append (by decide) hfits rest, ← hstart, announced, announced,
        List.take_append_of_le_length (by omega)]
    obtain ⟨hpos, hmax⟩ := hfits
    rw [length_frame] at hshort
    rw [if_neg hfour, hannounced, if_neg (by omega), if_neg (by omega), if_pos hshort]

theorem decode_oversized (hfour : 4 ≤ src.length) (hlarge : MAX_FRAME_SIZE < announced src) :
    ∃ e, decode reader src = (.error e, src) := by
  unfold decode
  refine ⟨.frame s!"frame too large: {announced src} bytes", ?_⟩
  rw [if_neg (by omega), if_neg (by omega), if_pos hlarge]

theorem decode_consumes (h : decode reader src = (.ok (some item), rest)) :
    rest.length < src.length := by
  unfold decode at h
  split at h
  · cases h
  · dsimp only at h
    split at h
    · cases h
    · split at h
      · cases h
      · split at h
        · cases h
        · next hfour _ _ _ =>
          split at h
          · cases h
          · next typeByte tail hdrop =>
            have hlength := congrArg List.length hdrop
            rw [List.length_drop, List.length_cons] at hlength
            rw [← (Prod.mk.inj h).2, List.length_drop]
            omega

end Codec

/-! ### Framed streams -/

/-- The reading half of a framed connection: its buffer, the frames it has yielded, and the error
that ended it. -/
structure Framed where
  buffer : Bytes
  yielded : List Frame
  failed : Option CoreError
  deriving DecidableEq

def Framed.init : Framed := ⟨[], [], none⟩

def drain (reader : PayloadReader) (src : Bytes) : List Frame × Option CoreError × Bytes :=
  match _h : decode reader src with
  | (.ok none, rest) => ([], none, rest)
  | (.error e, rest) => ([], some e, rest)
  | (.ok (some item), rest) =>
    let (items, failed, left) := drain reader rest
    (item :: items, failed, left)
termination_by src.length
decreasing_by exact decode_consumes ‹_›

/-- Append a read to the buffer and yield what is complete. A stream that failed is not read. -/
def feed (framed : Framed) (read : Bytes) : Framed :=
  match framed.failed with
  | some _ => framed
  | none =>
    let (items, failed, left) := drain reader (framed.buffer ++ read)
    ⟨left, framed.yielded ++ items, failed⟩

def encodeAll : List Frame → Except CoreError Bytes
  | [] => .ok []
  | item :: items => do
      let encoded ← encode item
      let rest ← encodeAll items
      pure (encoded ++ rest)

theorem encodeAll_ok {items : List Frame} {encoded : Bytes} (h : encodeAll items = .ok encoded) :
    encoded = frames (items.map Frame.body) ∧
      ∀ item ∈ items, Sendable MAX_FRAME_SIZE item.body := by
  induction items generalizing encoded with
  | nil =>
    cases h
    exact ⟨rfl, fun item hitem => nomatch hitem⟩
  | cons item items ih =>
    obtain ⟨first, hfirst, h⟩ := bind_eq_ok.mp h
    obtain ⟨rest, hrest, h⟩ := bind_eq_ok.mp h
    cases h
    obtain ⟨rfl, hfits⟩ := encode_ok hfirst
    obtain ⟨rfl, hall⟩ := ih hrest
    exact ⟨rfl, List.forall_mem_cons.mpr ⟨hfits, hall⟩⟩

section Streams

variable {reader : PayloadReader} {src : Bytes} {items : List Frame}

theorem drain_none (h : decode reader src = (.ok none, src)) :
    drain reader src = ([], none, src) := by
  rw [drain]
  split
  · next hdecode =>
    rw [h] at hdecode
    cases hdecode
    rfl
  · next hdecode =>
    rw [h] at hdecode
    cases hdecode
  · next hdecode =>
    rw [h] at hdecode
    cases hdecode

theorem drain_some {rest : Bytes} {item : Frame} (h : decode reader src = (.ok (some item), rest)) :
    drain reader src =
      (item :: (drain reader rest).1, (drain reader rest).2.1, (drain reader rest).2.2) := by
  rw [drain]
  split
  · next hdecode =>
    rw [h] at hdecode
    cases hdecode
  · next hdecode =>
    rw [h] at hdecode
    cases hdecode
  · next hdecode =>
    rw [h] at hdecode
    cases hdecode
    rfl

def Short (buffer : Bytes) : List Frame → Prop
  | [] => buffer = []
  | item :: _ => buffer.length < (frame item.body).length

/-- Draining a buffer that some bytes complete to a list of frames yields an initial part of the
list, and leaves a buffer that the same bytes complete to the rest of it. -/
theorem drain_frames (hreader : reader.Lawful) {more : Bytes}
    (hfits : ∀ item ∈ items, Sendable MAX_FRAME_SIZE item.body)
    (h : src ++ more = frames (items.map Frame.body)) :
    ∃ done later left, items = done ++ later ∧ drain reader src = (done, none, left) ∧
      left ++ more = frames (later.map Frame.body) ∧ Short left later := by
  induction items generalizing src with
  | nil =>
    obtain ⟨rfl, rfl⟩ := List.append_eq_nil_iff.mp h
    refine ⟨[], [], [], rfl, drain_none ?_, rfl, rfl⟩
    rw [decode]
    rfl
  | cons item items ih =>
    have hitem := hfits item List.mem_cons_self
    rw [List.map_cons, frames_cons] at h
    by_cases hshort : src.length < (frame item.body).length
    · exact ⟨[], item :: items, src, rfl, drain_none (decode_short hitem h hshort), h, hshort⟩
    · -- the whole first frame is in the buffer
      obtain ⟨tail, rfl⟩ : ∃ tail, src = frame item.body ++ tail := by
        have hstart : frame item.body <+: src :=
          List.prefix_of_prefix_length_le (List.prefix_append _ _) (h ▸ List.prefix_append _ _)
            (Nat.le_of_not_lt hshort)
        obtain ⟨tail, htail⟩ := hstart
        exact ⟨tail, htail.symm⟩
      rw [List.append_assoc] at h
      obtain ⟨done, later, left, rfl, hdrain, hleft, hshort⟩ :=
        ih (fun other hother => hfits other (List.mem_cons_of_mem _ hother))
          (List.append_cancel_left h)
      have hdecode : decode reader (frame item.body ++ tail) = (.ok (some item), tail) := by
        rw [Frame.body, decode_frame hitem, parse_parts hreader hitem]
        rfl
      refine ⟨item :: done, later, left, rfl, ?_, hleft, hshort⟩
      rw [drain_some hdecode, hdrain]

theorem foldl_feed (hreader : reader.Lawful) {reads : List Bytes} {framed : Framed}
    (hfits : ∀ item ∈ items, Sendable MAX_FRAME_SIZE item.body) (hopen : framed.failed = none)
    (hshort : Short framed.buffer items)
    (h : framed.buffer ++ reads.flatten = frames (items.map Frame.body)) :
    reads.foldl (feed reader) framed = ⟨[], framed.yielded ++ items, none⟩ := by
  induction reads generalizing framed items with
  | nil =>
    obtain ⟨buffer, yielded, failed⟩ := framed
    cases hopen
    rw [List.flatten_nil, List.append_nil] at h
    cases items with
    | nil =>
      cases h
      rw [List.append_nil]
      rfl
    | cons item items =>
      -- a buffer that is shorter than its first frame cannot hold it
      have hlength := congrArg List.length h
      rw [List.map_cons, frames_cons, List.length_append] at hlength
      have hlt : buffer.length < (frame item.body).length := hshort
      dsimp only at hlength
      omega
  | cons read reads ih =>
    rw [List.flatten_cons, ← List.append_assoc] at h
    obtain ⟨done, later, left, rfl, hdrain, hleft, hlater⟩ := drain_frames hreader hfits h
    have hfeed : feed reader framed read = ⟨left, framed.yielded ++ done, none⟩ := by
      unfold feed
      rw [hopen]
      dsimp only
      rw [hdrain]
    rw [List.foldl_cons, hfeed]
    rw [ih (fun item hitem => hfits item (List.mem_append_right _ hitem)) rfl hlater hleft,
      List.append_assoc]

end Streams

/-- The stream yields the frames that were encoded, in order and with nothing left over, however
their bytes are cut into reads; a proper initial part of an encoding yields nothing and stays in the
buffer; encoding succeeds exactly up to the cap, and a body above it is never accepted or waited
for. -/
theorem stream_integrity (reader : PayloadReader) (hreader : reader.Lawful) :
    (∀ items encoded (reads : List Bytes), encodeAll items = .ok encoded →
      reads.flatten = encoded → reads.foldl (feed reader) Framed.init = ⟨[], items, none⟩) ∧
    (∀ item encoded src, encode item = .ok encoded → src <+: encoded → src ≠ encoded →
      decode reader src = (.ok none, src)) ∧
    (∀ item, (∃ encoded, encode item = .ok encoded) ↔
      1 + item.parts.2.length ≤ MAX_FRAME_SIZE) ∧
    ∀ src, 4 ≤ src.length → MAX_FRAME_SIZE < announced src →
      ∃ e, decode reader src = (.error e, src) := by
  refine ⟨?_, ?_, encode_ok_iff, fun src => decode_oversized⟩
  · intro items encoded reads hencoded hreads
    obtain ⟨rfl, hfits⟩ := encodeAll_ok hencoded
    have hshort : Short Framed.init.buffer items := by
      cases items with
      | nil => rfl
      | cons item items =>
        show 0 < (frame item.body).length
        rw [length_frame]
        omega
    exact foldl_feed hreader hfits rfl hshort hreads
  · intro item encoded src hencoded hstart hne
    obtain ⟨rfl, hfits⟩ := encode_ok hencoded
    obtain ⟨more, hmore⟩ := hstart
    have hlength := congrArg List.length hmore
    rw [List.length_append] at hlength
    have hpos : more ≠ [] := by
      intro hnil
      rw [hnil, List.append_nil] at hmore
      exact hne hmore
    have hmorelength := List.length_pos_iff.mpr hpos
    rw [← List.append_nil (frame item.body)] at hmore
    exact decode_short hfits hmore (by omega)

/-! ### A reader of the payloads -/

section Reader

open Cbor

def fromReader {α : Type} (read : Reader α) (payload : Bytes) : Except String α :=
  match read payload with
  | some (p, _) => .ok p
  | none => .error "Syntax(0)"

def readId : Reader AttachmentId := readField "attachment_id" (readByteArr 16)

def readIndex : Reader UInt32 := readField "index" readUInt32

def readErrorPayload : Reader ErrorPayload := fun input => do
  let (_, rest) ← readMapHead 2 input
  let (code, rest) ← readField "code" readUInt16 rest
  let (message, rest) ← readField "message" readText rest
  pure (⟨code, message⟩, rest)

def readChunkRequestPayload : Reader ChunkRequestPayload := fun input => do
  let (_, rest) ← readMapHead 2 input
  let (attachmentId, rest) ← readId rest
  let (index, rest) ← readIndex rest
  pure (⟨attachmentId, index⟩, rest)

def readChunkPayload : Reader ChunkPayload := fun input => do
  let (_, rest) ← readMapHead 3 input
  let (attachmentId, rest) ← readId rest
  let (index, rest) ← readIndex rest
  let (ciphertext, rest) ← readField "ciphertext" readByteString rest
  pure (⟨attachmentId, index, ciphertext⟩, rest)

def readChunkNackPayload : Reader ChunkNackPayload := fun input => do
  let (_, rest) ← readMapHead 3 input
  let (attachmentId, rest) ← readId rest
  let (index, rest) ← readIndex rest
  let (reason, rest) ← readField "reason" readUInt8 rest
  pure (⟨attachmentId, index, reason⟩, rest)

def readAttachmentCompletePayload : Reader AttachmentCompletePayload := fun input => do
  let (_, rest) ← readMapHead 1 input
  let (attachmentId, rest) ← readId rest
  pure (⟨attachmentId⟩, rest)

/-- A reader for payloads with their fields in the order of the structures. -/
def orderedReader : PayloadReader where
  error := fromReader readErrorPayload
  chunkRequest := fromReader readChunkRequestPayload
  chunk := fromReader readChunkPayload
  chunkNack := fromReader readChunkNackPayload
  attachmentComplete := fromReader readAttachmentCompletePayload

theorem readId_append (id : AttachmentId) (rest : Bytes) :
    readId (text "attachment_id" ++ (byteSeq id.bytes ++ rest)) = some (id, rest) :=
  readField_append (by decide) (reads_byteArr (by decide) id rest)

theorem readIndex_append (index : UInt32) (rest : Bytes) :
    readIndex (text "index" ++ (uint index.toNat ++ rest)) = some (index, rest) :=
  readField_append (by decide) (reads_uint32 index rest)

theorem readErrorPayload_toCbor {p : ErrorPayload} (hlength : p.toCbor.length < MAX_FRAME_SIZE) :
    readErrorPayload p.toCbor = some (p, []) := by
  have hmessage : p.message.utf8ByteSize < 2 ^ 64 := by
    simp only [ErrorPayload.toCbor, length_map, List.map_cons, List.map_nil, List.sum_cons,
      length_text, MAX_FRAME_SIZE] at hlength
    omega
  have hfield : readField "message" readText (text "message" ++ (text p.message ++ [])) =
      some (p.message, []) :=
    readField_append (by decide) (readText_append hmessage [])
  have hcode (rest : Bytes) : readField "code" readUInt16
      (text "code" ++ (uint p.code.toNat ++ rest)) = some (p.code, rest) :=
    readField_append (by decide) (reads_uint16 p.code rest)
  rw [ErrorPayload.toCbor, map_eq, readErrorPayload]
  simp only [List.length_cons, List.length_nil, Nat.reduceAdd, List.foldr_cons, List.foldr_nil,
    readMapHead_append (by decide : 2 < 2 ^ 64), hcode, hfield, Option.bind_eq_bind,
    Option.bind_some]
  rfl

theorem readChunkRequestPayload_toCbor (p : ChunkRequestPayload) :
    readChunkRequestPayload p.toCbor = some (p, []) := by
  rw [ChunkRequestPayload.toCbor, map_eq, readChunkRequestPayload]
  simp only [List.length_cons, List.length_nil, Nat.reduceAdd, idField, indexField, List.foldr_cons,
    List.foldr_nil, readMapHead_append (by decide : 2 < 2 ^ 64), readId_append, readIndex_append,
    Option.bind_eq_bind, Option.bind_some]
  rfl

theorem readChunkPayload_toCbor {p : ChunkPayload} (hlength : p.toCbor.length < MAX_FRAME_SIZE) :
    readChunkPayload p.toCbor = some (p, []) := by
  have hciphertext : p.ciphertext.length < 2 ^ 64 := by
    simp only [ChunkPayload.toCbor, length_map, List.map_cons, List.map_nil, List.sum_cons,
      length_byteString, MAX_FRAME_SIZE] at hlength
    omega
  have hfield : readField "ciphertext" readByteString
      (text "ciphertext" ++ (byteString p.ciphertext ++ [])) = some (p.ciphertext, []) :=
    readField_append (by decide) (readByteString_append hciphertext [])
  rw [ChunkPayload.toCbor, map_eq, readChunkPayload]
  simp only [List.length_cons, List.length_nil, Nat.reduceAdd, idField, indexField, List.foldr_cons,
    List.foldr_nil, readMapHead_append (by decide : 3 < 2 ^ 64), readId_append, readIndex_append,
    hfield, Option.bind_eq_bind, Option.bind_some]
  rfl

theorem readChunkNackPayload_toCbor (p : ChunkNackPayload) :
    readChunkNackPayload p.toCbor = some (p, []) := by
  have hfield : readField "reason" readUInt8 (text "reason" ++ (uint p.reason.toNat ++ [])) =
      some (p.reason, []) :=
    readField_append (by decide) (reads_uint8 p.reason [])
  rw [ChunkNackPayload.toCbor, map_eq, readChunkNackPayload]
  simp only [List.length_cons, List.length_nil, Nat.reduceAdd, idField, indexField, List.foldr_cons,
    List.foldr_nil, readMapHead_append (by decide : 3 < 2 ^ 64), readId_append, readIndex_append,
    hfield, Option.bind_eq_bind, Option.bind_some]
  rfl

theorem readAttachmentCompletePayload_toCbor (p : AttachmentCompletePayload) :
    readAttachmentCompletePayload p.toCbor = some (p, []) := by
  rw [AttachmentCompletePayload.toCbor, map_eq, readAttachmentCompletePayload]
  simp only [List.length_cons, List.length_nil, Nat.reduceAdd, idField, List.foldr_cons,
    List.foldr_nil, readMapHead_append (by decide : 1 < 2 ^ 64), readId_append,
    Option.bind_eq_bind, Option.bind_some]
  rfl

theorem orderedReader_lawful : orderedReader.Lawful where
  error p hlength := by
    show fromReader readErrorPayload p.toCbor = _
    rw [fromReader, readErrorPayload_toCbor hlength]
  chunkRequest p := by
    show fromReader readChunkRequestPayload p.toCbor = _
    rw [fromReader, readChunkRequestPayload_toCbor]
  chunk p hlength := by
    show fromReader readChunkPayload p.toCbor = _
    rw [fromReader, readChunkPayload_toCbor hlength]
  chunkNack p := by
    show fromReader readChunkNackPayload p.toCbor = _
    rw [fromReader, readChunkNackPayload_toCbor]
  attachmentComplete p := by
    show fromReader readAttachmentCompletePayload p.toCbor = _
    rw [fromReader, readAttachmentCompletePayload_toCbor]

end Reader

/-- A ping and a request for a chunk, cut in the middle of the second length field. -/
theorem two_frames_yielded :
    [[0, 0, 0, 1, 7, 0, 0], [0, 40, 11] ++ (ChunkRequestPayload.mk (.fill 16 3) 5).toCbor].foldl
      (feed orderedReader) Framed.init =
        ⟨[], [.ping, .chunkRequest ⟨.fill 16 3, 5⟩], none⟩ :=
  (stream_integrity orderedReader orderedReader_lawful).1 _ _ _ rfl (by decide)

end Skattr.Core.Transport
