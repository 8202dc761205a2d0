import Skattr.Core.Storage.Tables
import Skattr.Lib.Decimal

/-!
# Invite links

An invite is a URL whose fragment carries the inviter's card, a key package, a one-time secret, an
expiry and a signature over the four. `InviteLink.fromUrl` parses and verifies one, and the
functions on the `key_packages` table make it single use. `fromUrl_toUrl` says that a link that
is parsed back is the one that was made.
-/

namespace Skattr.Core

open Lib Lib.Decimal

/-- The codecs of the URL: base64url without padding, and the CBOR of cards. -/
structure UrlCodec where
  b64Encode : Bytes → List Char
  b64Decode : List Char → Option Bytes
  encodeCard : ContactCard → Except String Bytes
  decodeCard : Bytes → Except String ContactCard

/-- The codecs invert each other, and the texts are free of the URL's separators. -/
structure UrlCodec.Lawful (codec : UrlCodec) : Prop where
  b64Decode_encode : ∀ bytes, codec.b64Decode (codec.b64Encode bytes) = some bytes
  b64Encode_chars : ∀ bytes, ∀ c ∈ codec.b64Encode bytes, c ≠ '&' ∧ c ≠ '='
  decodeCard_encode : ∀ {card bytes}, codec.encodeCard card = .ok bytes →
    codec.decodeCard bytes = .ok card

structure InviteLinkBody where
  card : ContactCard
  keyPackage : Bytes
  psk : ByteArr 32
  expiresAt : Int
  deriving DecidableEq

/-- An invite link. A parsed one has the secret of its body zeroized and keeps it in `psk`. -/
structure InviteLink where
  body : InviteLinkBody
  signature : ByteArr 64
  psk : ByteArr 32
  deriving DecidableEq

namespace InviteLink

def inviter (link : InviteLink) : PublicKey := link.body.card.body.identity

def URL_PREFIX : List Char := "skattr://invite/v1#".toList

def decodeB64url (codec : UrlCodec) (text : List Char) : Option Bytes :=
  codec.b64Decode (text.rdropWhile (· = '='))

def generate (signCbor : InviteLinkBody → Except String (ByteArr 64)) (inviter : PublicKey)
    (card : ContactCard) (keyPackage : Bytes) (psk : ByteArr 32) (ttlSecs : Nat) (now : Int) :
    Except CoreError InviteLink := do
  check (card.body.identity = inviter) (.invite "card identity != inviter")
  check (ttlSecs < 2 ^ 63) (.invite "ttl overflows i64")
  check (I64 (now + ttlSecs)) (.invite "expires_at overflows i64")
  let body : InviteLinkBody := ⟨card, keyPackage, psk, now + ttlSecs⟩
  match signCbor body with
  | .error e => .error (.invite ("sign: " ++ e))
  | .ok signature => .ok ⟨body, signature, psk⟩

/-- The `key=value` pairs of a fragment; a pair without `=` has an empty value. -/
def pairs (fragment : List Char) : List (List Char × List Char) :=
  (fragment.splitOn '&').map fun pair =>
    (pair.takeWhile (· ≠ '='), (pair.dropWhile (· ≠ '=')).tail)

def param (name : String) (params : List (List Char × List Char)) : Option (List Char) :=
  (params.reverse.find? fun pair => pair.1 = name.toList).map Prod.snd

def required (name : String) (params : List (List Char × List Char)) :
    Except CoreError (List Char) :=
  match param name params with
  | none => .error (.invite ("missing field " ++ name))
  | some value => .ok value

def wellFormed {α : Type} (name : String) : Option α → Except CoreError α
  | none => .error (.invite ("malformed " ++ name))
  | some a => .ok a

def parseSigned (codec : UrlCodec) (verifyCbor : PublicKey → InviteLinkBody → ByteArr 64 → Bool)
    (url : List Char) : Except CoreError (InviteLinkBody × ByteArr 64) := do
  check (URL_PREFIX.isPrefixOf url) (.invite "unsupported scheme")
  let params := pairs (url.drop URL_PREFIX.length)
  let kpText ← required "kp" params
  let pskText ← required "psk" params
  let expText ← required "exp" params
  let sigText ← required "sig" params
  let keyPackage ← wellFormed "kp" (decodeB64url codec kpText)
  let psk ← wellFormed "psk" ((decodeB64url codec pskText).bind (ByteArr.ofBytes? 32))
  let expiresAt ← wellFormed "exp" (parseI64 expText)
  let signature ← wellFormed "sig" ((decodeB64url codec sigText).bind (ByteArr.ofBytes? 64))
  let cardText ← required "card" params
  let cardBlob ← wellFormed "card" (decodeB64url codec cardText)
  let card ← (codec.decodeCard cardBlob).mapError fun e => .invite ("card decode: " ++ e)
  check (verifyCbor card.body.identity ⟨card, keyPackage, psk, expiresAt⟩ signature)
    .inviteSignatureInvalid
  pure (⟨card, keyPackage, psk, expiresAt⟩, signature)

def fromUrl (codec : UrlCodec) (verifyCbor : PublicKey → InviteLinkBody → ByteArr 64 → Bool)
    (url : List Char) (now : Int) : Except CoreError InviteLink := do
  let (body, signature) ← parseSigned codec verifyCbor url
  check (¬now > body.expiresAt) .inviteExpired
  -- the secret moves out of the signed body, which keeps zeros in its place
  pure ⟨{ body with psk := .fill 32 0 }, signature, body.psk⟩

def field (name : String) (value : List Char) : List Char := name.toList ++ '=' :: value

def toUrl (codec : UrlCodec) (link : InviteLink) : Except CoreError (List Char) :=
  match codec.encodeCard link.body.card with
  | .error e => .error (.invite ("card cbor: " ++ e))
  | .ok cardBlob => .ok (URL_PREFIX ++ ['&'].intercalate
      [field "card" (codec.b64Encode cardBlob), field "kp" (codec.b64Encode link.body.keyPackage),
        field "psk" (codec.b64Encode link.psk.bytes),
        field "exp" (showI64 link.body.expiresAt),
        field "sig" (codec.b64Encode link.signature.bytes)])

/-! ### Single use -/

def kpHash (sha256 : Bytes → ByteArr 32) (link : InviteLink) : ByteArr 32 :=
  sha256 link.body.keyPackage

def isConsumed (tables : Tables) (hash : ByteArr 32) : Bool :=
  match tables.keyPackages.get hash with
  | some row => row.consumed
  | none => false

def isConsumedInTx (hash : ByteArr 32) : DbTx Bool :=
  Tx.select (.storage "kp: get_in_tx") fun tables => isConsumed tables hash

def markConsumedInTx (hash : ByteArr 32) : DbTx Unit := do
  let known ← Tx.select (.storage "kp: get_in_tx") fun tables => tables.keyPackages.get hash
  Fallible.ensure known.isSome (.invite "unknown: not recorded")
  KeyPackageRepo.markConsumedInTx hash

/-! ### What is made and parsed -/

variable {signCbor : InviteLinkBody → Except String (ByteArr 64)} {now : Int} {link : InviteLink}
  {codec : UrlCodec} {url : List Char} {verifyCbor : PublicKey → InviteLinkBody → ByteArr 64 → Bool}
  {inviter : PublicKey} {card : ContactCard} {keyPackage : Bytes} {psk : ByteArr 32} {ttlSecs : Nat}

theorem generate_eq (h : generate signCbor inviter card keyPackage psk ttlSecs now = .ok link) :
    card.body.identity = inviter ∧ I64 (now + ttlSecs) ∧ ∃ signature,
      signCbor ⟨card, keyPackage, psk, now + ttlSecs⟩ = .ok signature ∧
        link = ⟨⟨card, keyPackage, psk, now + ttlSecs⟩, signature, psk⟩ := by
  simp only [generate, bind_eq_ok, check_eq_ok] at h
  obtain ⟨-, hidentity, -, -, -, hexpires, h⟩ := h
  split at h
  · cases h
  · next signature hsign =>
    cases h
    exact ⟨hidentity, hexpires, signature, hsign, rfl⟩

theorem generate_ok (h : generate signCbor inviter card keyPackage psk ttlSecs now = .ok link) :
    link.body.card.body.identity = inviter ∧ link.body.keyPackage = keyPackage ∧
      link.psk = psk ∧ link.body.expiresAt = now + ttlSecs := by
  obtain ⟨hidentity, -, signature, -, rfl⟩ := generate_eq h
  exact ⟨hidentity, rfl, rfl, rfl⟩

theorem split_field (name : String) (value : List Char) (h : '=' ∉ name.toList) :
    ((field name value).takeWhile (· ≠ '='), ((field name value).dropWhile (· ≠ '=')).tail) =
      (name.toList, value) := by
  have hname : ∀ c ∈ name.toList, (decide (c ≠ '=')) = true := fun c hc =>
    decide_eq_true fun heq => h (heq ▸ hc)
  rw [field, List.takeWhile_append_of_pos hname, List.dropWhile_append_of_pos hname]
  simp

theorem pairs_intercalate (fields : List (String × List Char)) (hne : fields ≠ [])
    (hnames : ∀ entry ∈ fields, '=' ∉ entry.1.toList ∧ '&' ∉ entry.1.toList)
    (hvalues : ∀ entry ∈ fields, '&' ∉ entry.2) :
    pairs (['&'].intercalate (fields.map fun entry => field entry.1 entry.2)) =
      fields.map fun entry => (entry.1.toList, entry.2) := by
  have hsplit : (['&'].intercalate (fields.map fun entry => field entry.1 entry.2)).splitOn '&' =
      fields.map fun entry => field entry.1 entry.2 := by
    apply List.splitOn_intercalate
    · intro text htext
      obtain ⟨entry, hentry, rfl⟩ := List.mem_map.mp htext
      simp [field, (hnames entry hentry).2, hvalues entry hentry]
    · simpa using hne
  rw [pairs, hsplit, List.map_map]
  refine List.map_congr_left fun entry hentry => ?_
  exact split_field entry.1 entry.2 (hnames entry hentry).1

theorem decodeB64url_encode (hcodec : codec.Lawful) (bytes : Bytes) :
    decodeB64url codec (codec.b64Encode bytes) = some bytes := by
  -- the encoder writes no padding, so that stripping it changes nothing
  have hpadding : (codec.b64Encode bytes).rdropWhile (· = '=') = codec.b64Encode bytes := by
    rw [List.rdropWhile_eq_self_iff]
    intro hne
    have hlast := hcodec.b64Encode_chars bytes _ (List.getLast_mem hne)
    simpa using hlast.2
  rw [decodeB64url, hpadding, hcodec.b64Decode_encode]

theorem amp_notMem_showI64 (n : Int) : '&' ∉ showI64 n := by
  intro hmem
  rcases showI64_chars hmem with h | h <;> revert h <;> decide

theorem pairs_toUrl (hcodec : codec.Lawful) (h : toUrl codec link = .ok url) :
    ∃ cardBlob, codec.encodeCard link.body.card = .ok cardBlob ∧
      pairs (url.drop URL_PREFIX.length) =
        [("card".toList, codec.b64Encode cardBlob),
          ("kp".toList, codec.b64Encode link.body.keyPackage),
          ("psk".toList, codec.b64Encode link.psk.bytes),
          ("exp".toList, showI64 link.body.expiresAt),
          ("sig".toList, codec.b64Encode link.signature.bytes)] := by
  unfold toUrl at h
  split at h
  · cases h
  next cardBlob hcard =>
  cases h
  refine ⟨cardBlob, hcard, ?_⟩
  rw [List.drop_left]
  have hamp : ∀ bytes, '&' ∉ codec.b64Encode bytes := fun bytes hmem =>
    (hcodec.b64Encode_chars bytes _ hmem).1 rfl
  refine pairs_intercalate [("card", codec.b64Encode cardBlob),
    ("kp", codec.b64Encode link.body.keyPackage), ("psk", codec.b64Encode link.psk.bytes),
    ("exp", showI64 link.body.expiresAt), ("sig", codec.b64Encode link.signature.bytes)]
    (by simp) ?_ ?_
  · simp
  · simp [hamp, amp_notMem_showI64]

theorem parseSigned_toUrl (hcodec : codec.Lawful) {body : InviteLinkBody} {signature : ByteArr 64}
    (hurl : toUrl codec link = .ok url)
    (h : parseSigned codec verifyCbor url = .ok (body, signature)) :
    body = { link.body with psk := link.psk } ∧ signature = link.signature := by
  obtain ⟨cardBlob, hcard, hpairs⟩ := pairs_toUrl hcodec hurl
  unfold parseSigned at h
  simp only [hpairs, bind_eq_ok, check_eq_ok] at h
  obtain ⟨-, -, kpText, hkpText, pskText, hpskText, expText, hexpText, sigText, hsigText,
    keyPackage, hkp, psk, hpsk, expiresAt, hexp, sig, hsig, cardText, hcardText, blob, hblob,
    card, hdecode, -, -, hparsed⟩ := h
  simp only [required, param, List.reverse_cons, List.reverse_nil, List.nil_append,
    List.cons_append, List.find?_cons] at hkpText hpskText hexpText hsigText hcardText
  -- each field of the URL holds the encoding of its own part
  cases hkpText
  cases hpskText
  cases hexpText
  cases hsigText
  cases hcardText
  rw [decodeB64url_encode hcodec] at hkp hpsk hsig hblob
  rw [parseI64_showI64] at hexp
  simp only [Option.bind_some, ofBytes?_bytes] at hpsk hsig
  split at hexp
  swap
  · cases hexp
  cases hkp
  cases hpsk
  cases hexp
  cases hsig
  cases hblob
  cases (mapError_eq_ok.mp hdecode).symm.trans (hcodec.decodeCard_encode hcard)
  cases hparsed
  exact ⟨rfl, rfl⟩

/-- An invite that is parsed from its own URL is the one that was made, with the secret moved out
of the body, and it has not expired. -/
theorem fromUrl_toUrl (hcodec : codec.Lawful) {parsed : InviteLink}
    (hurl : toUrl codec link = .ok url) (h : fromUrl codec verifyCbor url now = .ok parsed) :
    parsed = ⟨{ link.body with psk := .fill 32 0 }, link.signature, link.psk⟩ ∧
      now ≤ link.body.expiresAt := by
  simp only [fromUrl, bind_eq_ok, check_eq_ok] at h
  obtain ⟨⟨body, signature⟩, hparse, -, hexpired, hparsed⟩ := h
  obtain ⟨rfl, rfl⟩ := parseSigned_toUrl hcodec hurl hparse
  cases hparsed
  exact ⟨rfl, by simpa using hexpired⟩

theorem fromUrl_unique {link' : InviteLink} {now' : Int}
    (h : fromUrl codec verifyCbor url now = .ok link)
    (h' : fromUrl codec verifyCbor url now' = .ok link') : link = link' := by
  simp only [fromUrl, bind_eq_ok] at h h'
  obtain ⟨signed, hparse, -, -, hlink⟩ := h
  obtain ⟨signed', hparse', -, -, hlink'⟩ := h'
  cases hparse.symm.trans hparse'
  exact Except.ok.inj (hlink.symm.trans hlink')

end InviteLink

/-! ### A small instance of the codecs -/

def byteChar (b : UInt8) : Char := Char.ofNat (b.toNat + 256)

def charByte (c : Char) : UInt8 := UInt8.ofNat (c.toNat - 256)

/-- Codecs that write every byte as one character, and a card as its version: `cards` lists the
cards that they know. -/
def plainCodec (cards : Nat → ContactCard) : UrlCodec where
  b64Encode bytes := bytes.map byteChar
  b64Decode text := some (text.map charByte)
  encodeCard card :=
    if card = cards card.body.version then .ok (List.replicate card.body.version 0)
    else .error "unknown card"
  decodeCard bytes := .ok (cards bytes.length)

theorem toNat_byteChar (b : UInt8) : (byteChar b).toNat = b.toNat + 256 := by
  have hb := b.toNat_lt
  have hvalid : (b.toNat + 256).isValidChar := .inl (by omega)
  rw [byteChar, Char.ofNat, dif_pos hvalid]
  rfl

@[simp] theorem charByte_byteChar (b : UInt8) : charByte (byteChar b) = b := by
  simp [charByte, toNat_byteChar]

theorem byteChar_ne {b : UInt8} {c : Char} (hc : c.toNat < 256) : byteChar b ≠ c := by
  intro heq
  have hchar := toNat_byteChar b
  rw [heq] at hchar
  omega

theorem plainCodec_lawful (cards : Nat → ContactCard) : (plainCodec cards).Lawful where
  b64Decode_encode bytes := by
    simp [plainCodec, Function.comp_def]
  b64Encode_chars bytes c hc := by
    obtain ⟨b, -, rfl⟩ := List.mem_map.mp hc
    exact ⟨byteChar_ne (by decide), byteChar_ne (by decide)⟩
  decodeCard_encode {card bytes} h := by
    simp only [plainCodec] at h ⊢
    split at h
    · next heq =>
      cases h
      rw [List.length_replicate, ← heq]
    · cases h

end Skattr.Core
