import Skattr.Core.Mailbox.Poll
import Skattr.Core.Transport.Frame
import Skattr.Lib.Decimal

/-!
# The two mailbox codecs

The client and the server each have a codec for mailbox frames, with a table from a frame to its
type byte and one from a type byte to the reader of its body. The rest is one codec applied to the
tables and errors of a side (`encodeWith`, `decodeWith`). A decoder takes one frame off its buffer:
it waits for a whole one, rejects a length of zero or above `MAX_FRAME_SIZE`, rejects an unknown
type byte, and reads the body as CBOR. It looks at nothing else: a version is a field like any
other, and bytes after the item of the body are dropped.

A body is read by `ciborium::from_reader` at its own type. These readers are a parameter
(`BodyReader`) with the one property that they read back what was written. `orderedBodyReader` has
such readers.
-/

namespace Skattr.Core.MailboxCodec

open Lib Lib.Cbor Lib.Framing Skattr.Mailbox Poll
open Lib.Decimal (I64)
open Transport (hexByte)

/-- The numbers of the frame are in the ranges of the source's types, and its vectors and strings
are not longer than the address space. -/
def Representable : MailboxFrame → Prop
  | .deposit b => b.ciphertext.length < 2 ^ 64
  | .depositOk b => I64 b.expiresAt
  | .challenge _ => True
  | .challengeNonce b => I64 b.issuedAt
  | .fetch _ => True
  | .fetchResponse b => b.deposits.length < 2 ^ 64 ∧
      ∀ d ∈ b.deposits, d.ciphertext.length < 2 ^ 64 ∧ I64 d.receivedAt
  | .delete b => b.depositIds.length < 2 ^ 64
  | .deleteOk b => b.deleted < 2 ^ 32 ∧ b.notFound < 2 ^ 32
  | .error b => b.message.utf8ByteSize < 2 ^ 64

/-- The reader of a CBOR item at the type of each body. -/
structure Readers where
  deposit : Bytes → Except String Deposit
  depositOk : Bytes → Except String DepositOk
  challenge : Bytes → Except String Challenge
  challengeNonce : Bytes → Except String ChallengeNonce
  fetch : Bytes → Except String Fetch
  fetchResponse : Bytes → Except String FetchResponse
  delete : Bytes → Except String Delete
  deleteOk : Bytes → Except String DeleteOk
  error : Bytes → Except String ErrorBody

def Readers.Reads (readers : Readers) (payload : Bytes) : MailboxFrame → Prop
  | .deposit b => readers.deposit payload = .ok b
  | .depositOk b => readers.depositOk payload = .ok b
  | .challenge b => readers.challenge payload = .ok b
  | .challengeNonce b => readers.challengeNonce payload = .ok b
  | .fetch b => readers.fetch payload = .ok b
  | .fetchResponse b => readers.fetchResponse payload = .ok b
  | .delete b => readers.delete payload = .ok b
  | .deleteOk b => readers.deleteOk payload = .ok b
  | .error b => readers.error payload = .ok b

/-- Readers that read back what an encoder wrote whatever follows. -/
structure BodyReader extends Readers where
  reads : ∀ {item}, Representable item → ∀ rest, toReaders.Reads (item.encodeCbor ++ rest) item

section Sides

variable {ε : Type}

def encodeWith (tooLarge : Nat → ε) (kind : MailboxFrame → UInt8) (item : MailboxFrame) :
    Except ε Bytes :=
  let payload := item.encodeCbor
  let length := 1 + payload.length
  if length > MAX_FRAME_SIZE then .error (tooLarge length)
  else .ok (beBytes 4 length ++ kind item :: payload)

/-- The errors of a decoder and its match on a type byte. -/
structure Side (ε : Type) where
  zeroLength : ε
  tooLarge : Nat → ε
  parse : UInt8 → Bytes → Except ε MailboxFrame

/-- Take one frame off the buffer, if it is complete; the second component is what is left. -/
def decodeWith (side : Side ε) (src : Bytes) : Except ε (Option MailboxFrame) × Bytes :=
  if src.length < 4 then (.ok none, src)
  else
    let length := announced src
    if length = 0 then (.error side.zeroLength, src)
    else if length > MAX_FRAME_SIZE then (.error (side.tooLarge length), src)
    else if src.length < 4 + length then (.ok none, src)
    else
      match src.drop 4 with
      | [] => (.ok none, src)
      | typeByte :: tail =>
        ((side.parse typeByte (tail.take (length - 1))).map some, tail.drop (length - 1))

end Sides

/-- The body that a reader returned, as a frame, or its error as an error of the side. -/
def decodeCbor {α ε : Type} (frame : α → MailboxFrame) (error : String → ε) :
    Except String α → Except ε MailboxFrame
  | .ok body => .ok (frame body)
  | .error e => .error (error e)

/-! The client's tables -/

def clientKind : MailboxFrame → UInt8
  | .deposit _ => 0x82
  | .depositOk _ => 0x83
  | .challenge _ => 0x84
  | .challengeNonce _ => 0x85
  | .fetch _ => 0x86
  | .fetchResponse _ => 0x87
  | .delete _ => 0x88
  | .deleteOk _ => 0x89
  | .error _ => 0x8F

def clientParse (readers : Readers) (typeByte : UInt8) (payload : Bytes) :
    Except MailboxClientErrorKind MailboxFrame :=
  let malformed := fun _ : String => MailboxClientErrorKind.malformed
  match typeByte with
  | 0x82 => decodeCbor .deposit malformed (readers.deposit payload)
  | 0x83 => decodeCbor .depositOk malformed (readers.depositOk payload)
  | 0x84 => decodeCbor .challenge malformed (readers.challenge payload)
  | 0x85 => decodeCbor .challengeNonce malformed (readers.challengeNonce payload)
  | 0x86 => decodeCbor .fetch malformed (readers.fetch payload)
  | 0x87 => decodeCbor .fetchResponse malformed (readers.fetchResponse payload)
  | 0x88 => decodeCbor .delete malformed (readers.delete payload)
  | 0x89 => decodeCbor .deleteOk malformed (readers.deleteOk payload)
  | 0x8F => decodeCbor .error malformed (readers.error payload)
  | _ => .error .malformed

def client (readers : Readers) : Side MailboxClientErrorKind where
  zeroLength := .malformed
  tooLarge _ := .malformed
  parse := clientParse readers

/-! The server's tables -/

def serverParse (readers : Readers) (typeByte : UInt8) (payload : Bytes) :
    Except MailboxError MailboxFrame :=
  let failed := fun e : String => MailboxError.transport (.decodeFailed s!"cbor decode: {e}")
  match typeByte with
  | 0x82 => decodeCbor .deposit failed (readers.deposit payload)
  | 0x83 => decodeCbor .depositOk failed (readers.depositOk payload)
  | 0x84 => decodeCbor .challenge failed (readers.challenge payload)
  | 0x85 => decodeCbor .challengeNonce failed (readers.challengeNonce payload)
  | 0x86 => decodeCbor .fetch failed (readers.fetch payload)
  | 0x87 => decodeCbor .fetchResponse failed (readers.fetchResponse payload)
  | 0x88 => decodeCbor .delete failed (readers.delete payload)
  | 0x89 => decodeCbor .deleteOk failed (readers.deleteOk payload)
  | 0x8F => decodeCbor .error failed (readers.error payload)
  | other => .error
    (.transport (.decodeFailed ("unknown mailbox frame type 0x" ++ hexByte other)))

def server (readers : Readers) : Side MailboxError where
  zeroLength := .transport (.decodeFailed "zero-length frame")
  tooLarge length := .transport (.decodeFailed s!"frame too large: {length} bytes")
  parse := serverParse readers

def encode : MailboxFrame → Except MailboxClientErrorKind Bytes :=
  encodeWith (fun length => .other s!"frame too large: {length} bytes") clientKind

def decode (readers : Readers) :
    Bytes → Except MailboxClientErrorKind (Option MailboxFrame) × Bytes :=
  decodeWith (client readers)

def serverDecode (readers : Readers) : Bytes → Except MailboxError (Option MailboxFrame) × Bytes :=
  decodeWith (server readers)

theorem serverEncode_eq : Skattr.Mailbox.encode =
    encodeWith (fun length => .transport (.encodeFailed s!"frame too large: {length} bytes"))
      MailboxFrame.kind := rfl

theorem clientKind_eq : clientKind = MailboxFrame.kind := by
  funext item
  cases item <;> rfl

/-- A payload behind a type byte is read as the body that the type byte stands for. -/
def Side.Lawful {ε : Type} (side : Side ε) (readers : Readers) : Prop :=
  ∀ typeByte payload item, side.parse typeByte payload = .ok item ↔
    typeByte = item.kind ∧ readers.Reads payload item

theorem decodeCbor_ok_iff {α ε : Type} {frame : α → MailboxFrame} {error : String → ε}
    {x : Except String α} {item : MailboxFrame} :
    decodeCbor frame error x = .ok item ↔ ∃ body, x = .ok body ∧ frame body = item := by
  cases x <;> simp [decodeCbor]

theorem client_lawful (readers : Readers) : (client readers).Lawful readers := by
  intro typeByte payload item
  constructor
  · intro h
    simp only [client, clientParse] at h
    split at h
    all_goals first
      | cases h
      | obtain ⟨body, hread, rfl⟩ := decodeCbor_ok_iff.mp h; exact ⟨rfl, hread⟩
  · rintro ⟨rfl, hread⟩
    cases item <;> exact decodeCbor_ok_iff.mpr ⟨_, hread, rfl⟩

theorem server_lawful (readers : Readers) : (server readers).Lawful readers := by
  intro typeByte payload item
  constructor
  · intro h
    simp only [server, serverParse] at h
    split at h
    all_goals first
      | cases h
      | obtain ⟨body, hread, rfl⟩ := decodeCbor_ok_iff.mp h; exact ⟨rfl, hread⟩
  · rintro ⟨rfl, hread⟩
    cases item <;> exact decodeCbor_ok_iff.mpr ⟨_, hread, rfl⟩

/-! ### One frame -/

section Frames

variable {ε δ : Type} {side : Side ε} {other : Side δ} {readers : Readers} {item : MailboxFrame}
  {src rest payload bytes : Bytes} {typeByte : UInt8}

theorem encodeWith_ok {tooLarge : Nat → ε}
    (h : encodeWith tooLarge MailboxFrame.kind item = .ok bytes) :
    bytes = frame (item.kind :: item.encodeCbor) ∧
      Sendable MAX_FRAME_SIZE (item.kind :: item.encodeCbor) := by
  unfold encodeWith at h
  dsimp only at h
  split at h
  · cases h
  · next hfits =>
    cases h
    rw [frame, List.length_cons, Nat.add_comm]
    exact ⟨rfl, Nat.succ_pos _, by rw [List.length_cons]; omega⟩

theorem decodeWith_frame (hfits : Sendable MAX_FRAME_SIZE (typeByte :: payload)) :
    decodeWith side (frame (typeByte :: payload) ++ rest) =
      ((side.parse typeByte payload).map some, rest) := by
  have hannounced := announced_frame_append (by decide) hfits rest
  have hlength : (frame (typeByte :: payload) ++ rest).length =
      4 + (payload.length + 1) + rest.length := by
    simp
  have hmax := hfits.2
  rw [List.length_cons] at hannounced hmax
  unfold decodeWith
  rw [hannounced, hlength, drop_frame_append, if_neg (by omega), if_neg (by omega),
    if_neg (by omega), if_neg (by omega)]
  simp

def Waiting (src : Bytes) : Prop :=
  src.length < 4 ∨ 0 < announced src ∧ announced src ≤ MAX_FRAME_SIZE ∧
    src.length < 4 + announced src

def BadLength (src : Bytes) : Prop :=
  4 ≤ src.length ∧ (announced src = 0 ∨ MAX_FRAME_SIZE < announced src)

theorem buffer_cases (src : Bytes) :
    Waiting src ∨ BadLength src ∨ ∃ typeByte payload rest,
      Sendable MAX_FRAME_SIZE (typeByte :: payload) ∧
        src = frame (typeByte :: payload) ++ rest := by
  unfold Waiting BadLength
  by_cases hfour : src.length < 4
  · exact .inl (.inl hfour)
  by_cases hgood : 0 < announced src ∧ announced src ≤ MAX_FRAME_SIZE
  · by_cases hshort : src.length < 4 + announced src
    · exact .inl (.inr ⟨hgood.1, hgood.2, hshort⟩)
    refine .inr (.inr ?_)
    -- the body is what the announced length takes after the length field
    have hbody : ((src.drop 4).take (announced src)).length = announced src := by
      rw [List.length_take, List.length_drop]
      omega
    have hhead : beBytes 4 (announced src) = src.take 4 := by
      have htake : (src.take 4).length = 4 := List.length_take_of_le (by omega)
      have hback := beBytes_ofBe (src.take 4)
      rwa [htake] at hback
    have hframe : src = frame ((src.drop 4).take (announced src)) ++
        (src.drop 4).drop (announced src) := by
      rw [frame, hbody, hhead, List.append_assoc, List.take_append_drop, List.take_append_drop]
    cases hcons : (src.drop 4).take (announced src) with
    | nil =>
      rw [hcons, List.length_nil] at hbody
      omega
    | cons typeByte payload =>
      rw [hcons] at hbody hframe
      exact ⟨typeByte, payload, _, ⟨Nat.succ_pos _, hbody ▸ hgood.2⟩, hframe⟩
  · exact .inr (.inl ⟨by omega, by omega⟩)

theorem decodeWith_waiting (h : Waiting src) : decodeWith side src = (.ok none, src) := by
  unfold decodeWith
  by_cases hfour : src.length < 4
  · rw [if_pos hfour]
  · obtain hlt | ⟨hpos, hmax, hshort⟩ := h
    · exact absurd hlt hfour
    · rw [if_neg hfour, if_neg (by omega), if_neg (by omega), if_pos hshort]

theorem decodeWith_badLength (side : Side ε) (h : BadLength src) :
    ∃ e, decodeWith side src = (.error e, src) := by
  unfold decodeWith
  rw [if_neg (Nat.not_lt.mpr h.1)]
  by_cases hzero : announced src = 0
  · exact ⟨side.zeroLength, if_pos hzero⟩
  · refine ⟨side.tooLarge (announced src), ?_⟩
    rw [if_neg hzero, if_pos (h.2.resolve_left hzero)]

/-! ### Any bytes -/

/-- The length is not one of a frame, or the type byte is unknown or the payload is not read as the
body that it stands for. -/
def Rejected (readers : Readers) (src : Bytes) : Prop :=
  BadLength src ∨ ∃ typeByte payload rest, Sendable MAX_FRAME_SIZE (typeByte :: payload) ∧
    src = frame (typeByte :: payload) ++ rest ∧
      ∀ item, typeByte = item.kind → ¬readers.Reads payload item

theorem decodeWith_ok_iff (hside : side.Lawful readers) :
    decodeWith side src = (.ok (some item), rest) ↔ ∃ payload,
      Sendable MAX_FRAME_SIZE (item.kind :: payload) ∧
        src = frame (item.kind :: payload) ++ rest ∧ readers.Reads payload item := by
  have hmap {x : Except ε MailboxFrame} : x.map some = .ok (some item) ↔ x = .ok item := by
    cases x <;> simp [Except.map]
  constructor
  · intro h
    obtain hwait | hbad | ⟨typeByte, payload, left, hfits, rfl⟩ := buffer_cases src
    · rw [decodeWith_waiting hwait] at h
      cases h
    · obtain ⟨e, he⟩ := decodeWith_badLength side hbad
      rw [he] at h
      cases h
    · rw [decodeWith_frame hfits, Prod.mk.injEq, hmap, hside] at h
      obtain ⟨⟨rfl, hread⟩, rfl⟩ := h
      exact ⟨payload, hfits, rfl, hread⟩
  · rintro ⟨payload, hfits, rfl, hread⟩
    rw [decodeWith_frame hfits, Prod.mk.injEq, hmap, hside]
    exact ⟨⟨rfl, hread⟩, rfl⟩

theorem decodeWith_error_iff (hside : side.Lawful readers) :
    (∃ e, (decodeWith side src).1 = .error e) ↔ Rejected readers src := by
  have hparse {typeByte : UInt8} {payload : Bytes} :
      (∃ e, (side.parse typeByte payload).map some = .error e) ↔
        ∀ item, typeByte = item.kind → ¬readers.Reads payload item := by
    simp only [← not_and, ← hside typeByte payload]
    cases side.parse typeByte payload <;> simp [Except.map]
  constructor
  · intro h
    obtain hwait | hbad | ⟨typeByte, payload, rest, hfits, rfl⟩ := buffer_cases src
    · rw [decodeWith_waiting hwait] at h
      exact nomatch h
    · exact .inl hbad
    · rw [decodeWith_frame hfits, hparse] at h
      exact .inr ⟨typeByte, payload, rest, hfits, rfl, h⟩
  · rintro (hbad | ⟨typeByte, payload, rest, hfits, rfl, h⟩)
    · obtain ⟨e, he⟩ := decodeWith_badLength side hbad
      exact ⟨e, by rw [he]⟩
    · rw [decodeWith_frame hfits, hparse]
      exact h

theorem decodeWith_agree (hside : side.Lawful readers) (hother : other.Lawful readers)
    (src : Bytes) : (decodeWith side src).2 = (decodeWith other src).2 ∧
      (decodeWith side src).1.toOption = (decodeWith other src).1.toOption := by
  obtain h | h | ⟨typeByte, payload, rest, hfits, rfl⟩ := buffer_cases src
  · rw [decodeWith_waiting h, decodeWith_waiting h]
    exact ⟨rfl, rfl⟩
  · obtain ⟨e, he⟩ := decodeWith_badLength side h
    obtain ⟨e', he'⟩ := decodeWith_badLength other h
    rw [he, he']
    exact ⟨rfl, rfl⟩
  · have hmap {γ : Type} (x : Except γ MailboxFrame) :
        (x.map some).toOption = x.toOption.map some := by
      cases x <;> rfl
    have hsome {γ : Type} (x : Except γ MailboxFrame) (item : MailboxFrame) :
        x.toOption = some item ↔ x = .ok item := by
      cases x <;> simp [Except.toOption]
    rw [decodeWith_frame hfits, decodeWith_frame hfits]
    refine ⟨rfl, ?_⟩
    rw [hmap, hmap]
    congr 1
    refine Option.ext fun item => ?_
    rw [hsome, hsome, hside, hother]

theorem decodeWith_encodeWith {reader : BodyReader} (hside : side.Lawful reader.toReaders)
    {tooLarge : Nat → δ} (hitem : Representable item)
    (h : encodeWith tooLarge MailboxFrame.kind item = .ok bytes) :
    decodeWith side (bytes ++ rest) = (.ok (some item), rest) := by
  obtain ⟨rfl, hfits⟩ := encodeWith_ok h
  have hread := reader.reads hitem []
  rw [List.append_nil] at hread
  exact (decodeWith_ok_iff hside).mpr ⟨item.encodeCbor, hfits, rfl, hread⟩

end Frames

/-- The two codecs agree on every frame and on all bytes: they write the same or refuse the same,
each decodes the other's frames and consumes exactly those, and on any buffer both accept the same
frame, both wait or both report an error. A frame is accepted for the value that its body is read
as, whatever else the body holds. -/
theorem codecs_agree (reader : BodyReader) :
    let readers := reader.toReaders
    (∀ item, (∃ bytes, encode item = .ok bytes ∧ Skattr.Mailbox.encode item = .ok bytes) ∨
      MAX_FRAME_SIZE < 1 + item.encodeCbor.length ∧
        (∃ e, encode item = .error e) ∧ ∃ e, Skattr.Mailbox.encode item = .error e) ∧
    (∀ item bytes rest, Representable item → Skattr.Mailbox.encode item = .ok bytes →
      decode readers (bytes ++ rest) = (.ok (some item), rest)) ∧
    (∀ item bytes rest, Representable item → encode item = .ok bytes →
      serverDecode readers (bytes ++ rest) = (.ok (some item), rest)) ∧
    (∀ src, (decode readers src).2 = (serverDecode readers src).2 ∧
      (decode readers src).1.toOption = (serverDecode readers src).1.toOption) ∧
    (∀ src, (∃ e, (decode readers src).1 = .error e) ↔ Rejected readers src) ∧
    ∀ src item rest, decode readers src = (.ok (some item), rest) ↔ ∃ payload,
      Sendable MAX_FRAME_SIZE (item.kind :: payload) ∧
        src = frame (item.kind :: payload) ++ rest ∧ readers.Reads payload item := by
  intro readers
  have hclient := client_lawful readers
  have hserver := server_lawful readers
  rw [serverEncode_eq]
  unfold encode
  rw [clientKind_eq]
  refine ⟨fun item => ?_, fun _ _ _ hitem h => decodeWith_encodeWith hclient hitem h,
    fun _ _ _ hitem h => decodeWith_encodeWith hserver hitem h,
    decodeWith_agree hclient hserver, fun src => decodeWith_error_iff hclient,
    fun src item rest => decodeWith_ok_iff hclient⟩
  unfold encodeWith
  by_cases hlarge : 1 + item.encodeCbor.length > MAX_FRAME_SIZE
  · exact .inr ⟨hlarge, ⟨_, if_pos hlarge⟩, ⟨_, if_pos hlarge⟩⟩
  · exact .inl ⟨_, if_neg hlarge, if_neg hlarge⟩

/-! ### A reader of the bodies -/

section Bodies

open Codec

def version : Codec UInt16 := ofReads reads_uint16

def byteVec : Codec Bytes := list (ofReads reads_uint8)

def byteArr (n : Nat) (hn : n < 2 ^ 64) : Codec (ByteArr n) := ofReads (reads_byteArr hn)

def depositCodec : Codec Deposit :=
  (fields 4 (by decide) <|
    field "version" (by decide) version <|
    field "recipient_hash" (by decide) (byteArr 32 (by decide)) <|
    field "ciphertext" (by decide) byteVec <|
    field "ttl_request" (by decide) (ofReads reads_uint32) done).via
  (fun b => (b.version, b.recipientHash, b.ciphertext, b.ttlRequest, ()))
  (fun (v, h, c, t, ()) => some ⟨v, h, c, t⟩) fun _ => rfl

def depositOkCodec : Codec DepositOk :=
  (fields 2 (by decide) <|
    field "deposit_id" (by decide) (byteArr 16 (by decide)) <|
    field "expires_at" (by decide) int64 done).via
  (fun b => (b.depositId, b.expiresAt, ())) (fun (d, e, ()) => some ⟨d, e⟩) fun _ => rfl

def challengeCodec : Codec Challenge :=
  (fields 2 (by decide) <|
    field "version" (by decide) version <|
    field "identity_hash" (by decide) (byteArr 32 (by decide)) done).via
  (fun b => (b.version, b.identityHash, ())) (fun (v, h, ()) => some ⟨v, h⟩) fun _ => rfl

def challengeNonceCodec : Codec ChallengeNonce :=
  (fields 2 (by decide) <|
    field "nonce" (by decide) (byteArr 32 (by decide)) <|
    field "issued_at" (by decide) int64 done).via
  (fun b => (b.nonce, b.issuedAt, ())) (fun (n, i, ()) => some ⟨n, i⟩) fun _ => rfl

def fetchCodec : Codec Fetch :=
  (fields 4 (by decide) <|
    field "version" (by decide) version <|
    field "identity_pubkey" (by decide) (byteArr 32 (by decide)) <|
    field "nonce" (by decide) (byteArr 32 (by decide)) <|
    field "signature" (by decide) (byteArr 64 (by decide)) done).via
  (fun b => (b.version, b.identityPubkey, b.nonce, b.signature, ()))
  (fun (v, p, n, s, ()) => some ⟨v, p, n, s⟩) fun _ => rfl

def pendingDepositCodec : Codec PendingDeposit :=
  (fields 3 (by decide) <|
    field "deposit_id" (by decide) (byteArr 16 (by decide)) <|
    field "ciphertext" (by decide) byteVec <|
    field "received_at" (by decide) int64 done).via
  (fun d => (d.depositId, d.ciphertext, d.receivedAt, ()))
  (fun (d, c, r, ()) => some ⟨d, c, r⟩) fun _ => rfl

def fetchResponseCodec : Codec FetchResponse :=
  (fields 1 (by decide) <| field "deposits" (by decide) (list pendingDepositCodec) done).via
  (fun b => (b.deposits, ())) (fun (ds, ()) => some ⟨ds⟩) fun _ => rfl

def deleteCodec : Codec Delete :=
  (fields 5 (by decide) <|
    field "version" (by decide) version <|
    field "identity_pubkey" (by decide) (byteArr 32 (by decide)) <|
    field "nonce" (by decide) (byteArr 32 (by decide)) <|
    field "signature" (by decide) (byteArr 64 (by decide)) <|
    field "deposit_ids" (by decide) (list (byteArr 16 (by decide))) done).via
  (fun b => (b.version, b.identityPubkey, b.nonce, b.signature, b.depositIds, ()))
  (fun (v, p, n, s, ds, ()) => some ⟨v, p, n, s, ds⟩) fun _ => rfl

def deleteOkCodec : Codec DeleteOk :=
  (fields 2 (by decide) <|
    field "deleted" (by decide) (below (2 ^ 32) (by decide)) <|
    field "not_found" (by decide) (below (2 ^ 32) (by decide)) done).via
  (fun b => (b.deleted, b.notFound, ())) (fun (d, n, ()) => some ⟨d, n⟩) fun _ => rfl

def ERROR_CODES : List ErrorCode :=
  [.unsupportedVersion, .malformedRequest, .tooLarge, .rateLimited, .recipientFull, .ttlTooLong,
    .ttlTooShort, .invalidSignature, .hashMismatch, .nonceExpired, .notFound, .internal]

def errorCode : Codec ErrorCode :=
  string.via ErrorCode.name (fun name => ERROR_CODES.find? (·.name = name)) fun code => by
    cases code <;> rfl

def errorCodec : Codec ErrorBody :=
  (fields 2 (by decide) <|
    field "code" (by decide) errorCode <|
    field "message" (by decide) string done).via
  (fun b => (b.code, b.message, ())) (fun (c, m, ()) => some ⟨c, m⟩) fun _ => rfl

def readItem {α : Type} (codec : Codec α) (payload : Bytes) : Except String α :=
  (codec.read payload).elim (.error "Syntax(0)") fun p => .ok p.1

theorem readItem_write {α : Type} (codec : Codec α) {a : α} (h : codec.Valid a) (rest : Bytes) :
    readItem codec (codec.write a ++ rest) = .ok a := by
  rw [readItem, codec.reads a h rest]
  rfl

def orderedReaders : Readers where
  deposit := readItem depositCodec
  depositOk := readItem depositOkCodec
  challenge := readItem challengeCodec
  challengeNonce := readItem challengeNonceCodec
  fetch := readItem fetchCodec
  fetchResponse := readItem fetchResponseCodec
  delete := readItem deleteCodec
  deleteOk := readItem deleteOkCodec
  error := readItem errorCodec

theorem orderedReaders_reads {item : MailboxFrame} (h : Representable item) (rest : Bytes) :
    orderedReaders.Reads (item.encodeCbor ++ rest) item := by
  cases item with
  | deposit b =>
    exact readItem_write depositCodec
      ⟨trivial, trivial, ⟨h, fun _ _ => trivial⟩, trivial, trivial⟩ rest
  | depositOk b => exact readItem_write depositOkCodec ⟨trivial, h, trivial⟩ rest
  | challenge b => exact readItem_write challengeCodec ⟨trivial, trivial, trivial⟩ rest
  | challengeNonce b =>
    exact readItem_write challengeNonceCodec ⟨trivial, h, trivial⟩ rest
  | fetch b =>
    exact readItem_write fetchCodec ⟨trivial, trivial, trivial, trivial, trivial⟩ rest
  | fetchResponse b =>
    have hdeposits (d : PendingDeposit) (hd : d ∈ b.deposits) : pendingDepositCodec.Valid d :=
      ⟨trivial, ⟨(h.2 d hd).1, fun _ _ => trivial⟩, (h.2 d hd).2, trivial⟩
    exact readItem_write fetchResponseCodec ⟨⟨h.1, hdeposits⟩, trivial⟩ rest
  | delete b =>
    exact readItem_write deleteCodec
      ⟨trivial, trivial, trivial, trivial, ⟨h, fun _ _ => trivial⟩, trivial⟩ rest
  | deleteOk b => exact readItem_write deleteOkCodec ⟨h.1, h.2, trivial⟩ rest
  | error b =>
    have hcode : b.code.name.utf8ByteSize < 2 ^ 64 := by cases b.code <;> decide
    exact readItem_write errorCodec ⟨hcode, h, trivial⟩ rest

def orderedBodyReader : BodyReader := ⟨orderedReaders, orderedReaders_reads⟩

end Bodies

/-- A request for a nonce with one byte after its body: both sides accept it as the request, and
neither would have written it. -/
theorem trailing_byte_accepted :
    let request := MailboxFrame.challenge ⟨PROTOCOL_VERSION, .fill 32 0⟩
    let src := frame (request.kind :: (request.encodeCbor ++ [0]))
    decode orderedReaders src = (.ok (some request), []) ∧
      serverDecode orderedReaders src = (.ok (some request), []) ∧
      encode request ≠ .ok src ∧ Skattr.Mailbox.encode request ≠ .ok src := by
  intro request src
  have hlength : request.encodeCbor.length = 58 := by decide +kernel
  have hfits : Sendable MAX_FRAME_SIZE (request.kind :: (request.encodeCbor ++ [0])) := by
    refine ⟨Nat.succ_pos _, ?_⟩
    rw [List.length_cons, List.length_append, hlength]
    decide
  have hread : orderedReaders.Reads (request.encodeCbor ++ [0]) request :=
    @orderedReaders_reads request trivial [0]
  have haccepted {ε : Type} {side : Side ε} (hside : side.Lawful orderedReaders) :
      decodeWith side src = (.ok (some request), []) :=
    (decodeWith_ok_iff hside).mpr ⟨_, hfits, (List.append_nil src).symm, hread⟩
  have hother {ε : Type} (tooLarge : Nat → ε) :
      encodeWith tooLarge MailboxFrame.kind request ≠ .ok src := by
    intro h
    have hframes := congrArg List.length (encodeWith_ok h).1
    simp [src] at hframes
  refine ⟨haccepted (client_lawful _), haccepted (server_lawful _), ?_, ?_⟩
  · rw [encode, clientKind_eq]
    exact hother _
  · rw [serverEncode_eq]
    exact hother _

end Skattr.Core.MailboxCodec
