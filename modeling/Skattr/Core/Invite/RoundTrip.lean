import Skattr.Core.Invite.Link

/-!
# Invite links: round trip and integrity

Read `parse_print_parse` first. A generated invite is parsed back from its own parameters in any
order, with any unknown parameters between them; and whatever string is accepted, repeated
parameters included, returns exactly the content that a signature of the card's identity covers.
-/

namespace Skattr.Core.InviteLink

open Lib Lib.Decimal

variable (encodeBody : InviteLinkBody → Except String Bytes)

def signCbor (sign : Bytes → Except String (ByteArr 64)) (body : InviteLinkBody) :
    Except String (ByteArr 64) := do
  let bytes ← encodeBody body
  sign bytes

def verifyCbor (verify : PublicKey → Bytes → ByteArr 64 → Bool) (pubkey : PublicKey)
    (body : InviteLinkBody) (signature : ByteArr 64) : Bool :=
  match encodeBody body with
  | .ok bytes => verify pubkey bytes signature
  | .error _ => false

def knownNames : List String := ["card", "kp", "psk", "exp", "sig"]

def urlParams (codec : UrlCodec) (link : InviteLink) (cardBlob : Bytes) :
    List (String × List Char) :=
  [("card", codec.b64Encode cardBlob), ("kp", codec.b64Encode link.body.keyPackage),
    ("psk", codec.b64Encode link.psk.bytes), ("exp", showI64 link.body.expiresAt),
    ("sig", codec.b64Encode link.signature.bytes)]

def urlFields (codec : UrlCodec) (link : InviteLink) (cardBlob : Bytes) : List (List Char) :=
  (urlParams codec link cardBlob).map fun entry => field entry.1 entry.2

def urlOf (texts : List (List Char)) : List Char := URL_PREFIX ++ ['&'].intercalate texts

def IsUnknown (text : List Char) : Prop :=
  '&' ∉ text ∧ ∀ name ∈ knownNames, text.takeWhile (· ≠ '=') ≠ name.toList

variable {codec : UrlCodec} {link : InviteLink} {cardBlob : Bytes} {texts extras : List (List Char)}
  {entry : String × List Char}

theorem pairs_urlOf (hne : texts ≠ []) (hamp : ∀ text ∈ texts, '&' ∉ text) :
    pairs ((urlOf texts).drop URL_PREFIX.length) =
      texts.map fun text => (text.takeWhile (· ≠ '='), (text.dropWhile (· ≠ '=')).tail) := by
  rw [urlOf, List.drop_left, pairs, List.splitOn_intercalate _ hamp hne]

theorem param_eq {name : String} {value : List Char} {params : List (List Char × List Char)}
    (hmem : (name.toList, value) ∈ params)
    (honly : ∀ pair ∈ params, pair.1 = name.toList → pair.2 = value) :
    param name params = some value := by
  unfold param
  cases hfind : params.reverse.find? fun pair => pair.1 = name.toList with
  | none =>
    have hnone := List.find?_eq_none.mp hfind _ (List.mem_reverse.mpr hmem)
    simp at hnone
  | some pair =>
    have hname : pair.1 = name.toList := by simpa using List.find?_some hfind
    have hpair := honly pair (List.mem_reverse.mp (List.mem_of_find?_eq_some hfind)) hname
    rw [Option.map_some, hpair]

theorem toUrl_eq (hcard : codec.encodeCard link.body.card = .ok cardBlob) :
    toUrl codec link = .ok (urlOf (urlFields codec link cardBlob)) := by
  unfold toUrl
  rw [hcard]
  rfl

theorem urlParams_names (codec : UrlCodec) (link : InviteLink) (cardBlob : Bytes) :
    (urlParams codec link cardBlob).map Prod.fst = knownNames := rfl

theorem knownNames_nodup : knownNames.Nodup := by decide

theorem knownNames_chars : ∀ name ∈ knownNames, '=' ∉ name.toList ∧ '&' ∉ name.toList := by
  decide

theorem mem_knownNames (h : entry ∈ urlParams codec link cardBlob) : entry.1 ∈ knownNames := by
  rw [← urlParams_names codec link cardBlob]
  exact List.mem_map_of_mem h

theorem param_urlOf (hcodec : codec.Lawful)
    (hperm : texts.Perm (urlFields codec link cardBlob ++ extras))
    (hextras : ∀ text ∈ extras, IsUnknown text) (hentry : entry ∈ urlParams codec link cardBlob) :
    param entry.1 (pairs ((urlOf texts).drop URL_PREFIX.length)) = some entry.2 := by
  have hvalues : ∀ other ∈ urlParams codec link cardBlob, '&' ∉ other.2 := by
    have hamp : ∀ bytes, '&' ∉ codec.b64Encode bytes := fun bytes hmem =>
      (hcodec.b64Encode_chars bytes _ hmem).1 rfl
    simp [urlParams, hamp, amp_notMem_showI64]
  have hamp : ∀ text ∈ texts, '&' ∉ text := by
    intro text htext
    rcases List.mem_append.mp (hperm.mem_iff.mp htext) with hown | hextra
    · obtain ⟨other, hother, rfl⟩ := List.mem_map.mp hown
      have hname := (knownNames_chars _ (mem_knownNames hother)).2
      simp [field, hname, hvalues other hother]
    · exact (hextras text hextra).1
  have hown : field entry.1 entry.2 ∈ texts :=
    hperm.mem_iff.mpr (List.mem_append_left _ (List.mem_map.mpr ⟨entry, hentry, rfl⟩))
  rw [pairs_urlOf (List.ne_nil_of_mem hown) hamp]
  refine param_eq ?_ ?_
  · refine List.mem_map.mpr ⟨_, hown, ?_⟩
    exact split_field _ _ (knownNames_chars _ (mem_knownNames hentry)).1
  · intro pair hpair hname
    obtain ⟨text, htext, rfl⟩ := List.mem_map.mp hpair
    rcases List.mem_append.mp (hperm.mem_iff.mp htext) with hmine | hextra
    · obtain ⟨other, hother, rfl⟩ := List.mem_map.mp hmine
      rw [split_field _ _ (knownNames_chars _ (mem_knownNames hother)).1] at hname ⊢
      -- no two of the invite's own parameters have the same name
      have hsame : other = entry :=
        List.inj_on_of_nodup_map (urlParams_names codec link cardBlob ▸ knownNames_nodup) hother
          hentry (String.toList_injective hname)
      rw [hsame]
    · exact absurd hname ((hextras text hextra).2 _ (mem_knownNames hentry))

variable {verify : PublicKey → InviteLinkBody → ByteArr 64 → Bool} {parsed : InviteLink} {now : Int}

theorem wellFormed_eq_ok {α : Type} {name : String} {value : Option α} {a : α}
    (h : wellFormed name value = .ok a) : value = some a := by
  cases value with
  | none => cases h
  | some b => rw [Except.ok.inj h]

theorem parseSigned_urlOf (hcodec : codec.Lawful)
    (hcard : codec.encodeCard link.body.card = .ok cardBlob)
    (hperm : texts.Perm (urlFields codec link cardBlob ++ extras))
    (hextras : ∀ text ∈ extras, IsUnknown text) (hexpires : I64 link.body.expiresAt)
    (hsigned : verify link.inviter { link.body with psk := link.psk } link.signature = true) :
    parseSigned codec verify (urlOf texts) =
      .ok ({ link.body with psk := link.psk }, link.signature) := by
  have hrequired : ∀ entry ∈ urlParams codec link cardBlob,
      required entry.1 (pairs ((urlOf texts).drop URL_PREFIX.length)) = .ok entry.2 := by
    intro entry hentry
    rw [required, param_urlOf hcodec hperm hextras hentry]
  simp only [urlParams, List.forall_mem_cons] at hrequired
  obtain ⟨hcardText, hkp, hpsk, hexp, hsig, -⟩ := hrequired
  have hprefix : URL_PREFIX.isPrefixOf (urlOf texts) = true :=
    List.isPrefixOf_iff_prefix.mpr (List.prefix_append _ _)
  have hdecode := decodeB64url_encode hcodec
  unfold parseSigned
  simp only [bind_eq_ok, check_eq_ok]
  refine ⟨(), hprefix, _, hkp, _, hpsk, _, hexp, _, hsig, link.body.keyPackage, ?_, link.psk, ?_,
    link.body.expiresAt, ?_, link.signature, ?_, _, hcardText, cardBlob, ?_, link.body.card, ?_,
    (), hsigned, rfl⟩
  · rw [hdecode, wellFormed]
  · rw [hdecode, Option.bind_some, ofBytes?_bytes, wellFormed]
  · rw [parseI64_showI64, if_pos hexpires, wellFormed]
  · rw [hdecode, Option.bind_some, ofBytes?_bytes, wellFormed]
  · rw [hdecode, wellFormed]
  · exact mapError_eq_ok.mpr (hcodec.decodeCard_encode hcard)

theorem fromUrl_urlOf (hcodec : codec.Lawful)
    (hcard : codec.encodeCard link.body.card = .ok cardBlob)
    (hperm : texts.Perm (urlFields codec link cardBlob ++ extras))
    (hextras : ∀ text ∈ extras, IsUnknown text) (hexpires : I64 link.body.expiresAt)
    (hsigned : verify link.inviter { link.body with psk := link.psk } link.signature = true)
    (hnow : now ≤ link.body.expiresAt) :
    fromUrl codec verify (urlOf texts) now =
      .ok ⟨{ link.body with psk := .fill 32 0 }, link.signature, link.psk⟩ := by
  unfold fromUrl
  simp only [bind_eq_ok, check_eq_ok]
  exact ⟨_, parseSigned_urlOf hcodec hcard hperm hextras hexpires hsigned, (), by simpa using hnow,
    rfl⟩

/-- What an accepted string returns: the content that a signature of the card's identity covers,
with the secret moved out of the body, and not expired. -/
theorem fromUrl_ok {url : List Char} (h : fromUrl codec verify url now = .ok parsed) :
    now ≤ parsed.body.expiresAt ∧ I64 parsed.body.expiresAt ∧ parsed.body.psk = .fill 32 0 ∧
      verify parsed.inviter { parsed.body with psk := parsed.psk } parsed.signature = true ∧
      ∃ blob, codec.decodeCard blob = .ok parsed.body.card := by
  unfold fromUrl at h
  simp only [bind_eq_ok, check_eq_ok] at h
  obtain ⟨⟨body, signature⟩, hparse, -, hexpired, hparsed⟩ := h
  unfold parseSigned at hparse
  simp only [bind_eq_ok, check_eq_ok] at hparse
  obtain ⟨-, -, kpText, -, pskText, -, expText, -, sigText, -, keyPackage, -, psk, -, expiresAt,
    hexp, sig, -, cardText, -, blob, -, card, hcard, -, hverified, hbody⟩ := hparse
  cases hbody
  cases hparsed
  exact ⟨by simpa using hexpired, .of_parse (wellFormed_eq_ok hexp), rfl, hverified, blob,
    mapError_eq_ok.mp hcard⟩

def EncodesInjectively : Prop :=
  ∀ ⦃body body' bytes⦄, encodeBody body = .ok bytes → encodeBody body' = .ok bytes → body = body'

def contents (body body' : InviteLinkBody) : Set Bytes :=
  {bytes | encodeBody body = .ok bytes ∨ encodeBody body' = .ok bytes}

def ValidForOne (verify : PublicKey → Bytes → ByteArr 64 → Bool) (pubkey : PublicKey)
    (signature : ByteArr 64) (messages : Set Bytes) : Prop :=
  {message ∈ messages | verify pubkey message signature = true}.Subsingleton

theorem verifyCbor_unique {encodeBody : InviteLinkBody → Except String Bytes}
    {verify : PublicKey → Bytes → ByteArr 64 → Bool} (hencode : EncodesInjectively encodeBody)
    {pubkey : PublicKey} {body body' : InviteLinkBody} {signature : ByteArr 64}
    (hverify : ValidForOne verify pubkey signature (contents encodeBody body body'))
    (h : verifyCbor encodeBody verify pubkey body signature = true)
    (h' : verifyCbor encodeBody verify pubkey body' signature = true) : body = body' := by
  unfold verifyCbor at h h'
  split at h
  · next bytes hbytes =>
    split at h'
    · next bytes' hbytes' =>
      cases hverify ⟨.inl hbytes, h⟩ ⟨.inr hbytes', h'⟩
      exact hencode hbytes hbytes'
    · cases h'
  · cases h

theorem ext_moved {parsed' : InviteLink} (hzero : parsed.body.psk = .fill 32 0)
    (hzero' : parsed'.body.psk = .fill 32 0)
    (hbody : { parsed'.body with psk := parsed'.psk } = { parsed.body with psk := parsed.psk })
    (hsignature : parsed'.signature = parsed.signature) : parsed' = parsed := by
  obtain ⟨⟨card, keyPackage, zero, expiresAt⟩, signature, psk⟩ := parsed
  obtain ⟨⟨card', keyPackage', zero', expiresAt'⟩, signature', psk'⟩ := parsed'
  cases hzero
  cases hzero'
  cases hsignature
  cases hbody
  rfl

/-- A generated invite is parsed back, at any time up to its expiry, from its own parameters in any
order and among any unknown ones. Any string that is accepted gives an invite that has not expired
and whose card, key package, secret and expiry are covered by a signature of the card's identity;
two accepted strings with the same signature and identity give the same invite, unless the signature
covers both contents; and an accepted invite is printed to a string that gives it again. -/
theorem parse_print_parse (codec : UrlCodec) (hcodec : codec.Lawful)
    (hprints : ∀ blob card, codec.decodeCard blob = .ok card →
      ∃ bytes, codec.encodeCard card = .ok bytes)
    (encodeBody : InviteLinkBody → Except String Bytes)
    (verify : PublicKey → Bytes → ByteArr 64 → Bool) (hencode : EncodesInjectively encodeBody) :
    (∀ (sign : Bytes → Except String (ByteArr 64)) (inviter : PublicKey) (card : ContactCard)
      (keyPackage : Bytes) (psk : ByteArr 32) (ttlSecs : Nat) (made : Int) (link : InviteLink)
      (cardBlob : Bytes) (texts extras : List (List Char)) (now : Int),
      (∀ message signature, sign message = .ok signature →
        verify inviter message signature = true) →
      generate (signCbor encodeBody sign) inviter card keyPackage psk ttlSecs made = .ok link →
      codec.encodeCard card = .ok cardBlob →
      texts.Perm (urlFields codec link cardBlob ++ extras) →
      (∀ text ∈ extras, IsUnknown text) → now ≤ link.body.expiresAt →
      toUrl codec link = .ok (urlOf (urlFields codec link cardBlob)) ∧
        ∃ parsed, fromUrl codec (verifyCbor encodeBody verify) (urlOf texts) now = .ok parsed ∧
          parsed.body.card = card ∧ parsed.body.keyPackage = keyPackage ∧
          parsed.body.expiresAt = link.body.expiresAt ∧ parsed.psk = psk ∧
          parsed.signature = link.signature) ∧
    ∀ url now parsed, fromUrl codec (verifyCbor encodeBody verify) url now = .ok parsed →
      now ≤ parsed.body.expiresAt ∧
        verifyCbor encodeBody verify parsed.inviter { parsed.body with psk := parsed.psk }
          parsed.signature = true ∧
        (∀ url' now' parsed', fromUrl codec (verifyCbor encodeBody verify) url' now' = .ok parsed' →
          parsed'.signature = parsed.signature → parsed'.inviter = parsed.inviter →
          ValidForOne verify parsed.inviter parsed.signature (contents encodeBody
            { parsed'.body with psk := parsed'.psk } { parsed.body with psk := parsed.psk }) →
          parsed' = parsed) ∧
        ∃ url', toUrl codec parsed = .ok url' ∧
          fromUrl codec (verifyCbor encodeBody verify) url' now = .ok parsed := by
  constructor
  · intro sign inviter card keyPackage psk ttlSecs made link cardBlob texts extras now hsigns
      hgenerate hcard hperm hextras hnow
    obtain ⟨hidentity, hexpires, signature, hsignature, rfl⟩ := generate_eq hgenerate
    have hsigned : verifyCbor encodeBody verify card.body.identity
        ⟨card, keyPackage, psk, made + ttlSecs⟩ signature = true := by
      obtain ⟨bytes, hbytes, hsign⟩ := bind_eq_ok.mp hsignature
      rw [verifyCbor, hbytes, hidentity]
      exact hsigns bytes signature hsign
    exact ⟨toUrl_eq hcard, _, fromUrl_urlOf hcodec hcard hperm hextras hexpires hsigned hnow, rfl,
      rfl, rfl, rfl, rfl⟩
  · intro url now parsed hparsed
    obtain ⟨hnow, hexpires, hzero, hsigned, blob, hblob⟩ := fromUrl_ok hparsed
    refine ⟨hnow, hsigned, ?_, ?_⟩
    · intro url' now' parsed' hparsed' hsignature hinviter hone
      obtain ⟨-, -, hzero', hsigned', -⟩ := fromUrl_ok hparsed'
      rw [hinviter, hsignature] at hsigned'
      exact ext_moved hzero hzero' (verifyCbor_unique hencode hone hsigned' hsigned) hsignature
    · obtain ⟨cardBlob, hcard⟩ := hprints blob parsed.body.card hblob
      have hown : (urlFields codec parsed cardBlob).Perm
          (urlFields codec parsed cardBlob ++ []) := by
        rw [List.append_nil]
      have hnone : ∀ text ∈ ([] : List (List Char)), IsUnknown text :=
        fun text htext => absurd htext List.not_mem_nil
      refine ⟨_, toUrl_eq hcard, ?_⟩
      rw [fromUrl_urlOf hcodec hcard hown hnone hexpires hsigned hnow, ← hzero]

/-! ### An instance of the assumptions -/

def numberedCard (n : Nat) : ContactCard := ⟨⟨.fill 32 1, "onion", [], n, 100⟩, .fill 64 0⟩

def sampleBody : InviteLinkBody := ⟨numberedCard 3, [5, 6], .fill 32 9, 50⟩

def encodeSample (body : InviteLinkBody) : Except String Bytes :=
  if body = sampleBody then .ok [1] else .error "unknown body"

def verifySample (pubkey : PublicKey) (message : Bytes) (signature : ByteArr 64) : Bool :=
  pubkey = .fill 32 1 ∧ message = [1] ∧ signature = .fill 64 7

def signSample (message : Bytes) : Except String (ByteArr 64) :=
  if message = [1] then .ok (.fill 64 7) else .error "no"

theorem encodeSample_injective : EncodesInjectively encodeSample := by
  intro body body' bytes h h'
  unfold encodeSample at h h'
  split at h
  · next hbody =>
    split at h'
    · next hbody' => exact hbody.trans hbody'.symm
    · cases h'
  · cases h

theorem verifySample_one (pubkey : PublicKey) (signature : ByteArr 64) (messages : Set Bytes) :
    ValidForOne verifySample pubkey signature messages := by
  rintro message ⟨-, h⟩ message' ⟨-, h'⟩
  exact (of_decide_eq_true h).2.1.trans (of_decide_eq_true h').2.1.symm

def sampleLink : InviteLink := ⟨sampleBody, .fill 64 7, .fill 32 9⟩

/-- The sample invite is read from its parameters in reverse order behind an unknown one, and no
other invite is read with its signature. -/
theorem parse_print_parse_sample : ∃ parsed,
    fromUrl (plainCodec numberedCard) (verifyCbor encodeSample verifySample)
        (urlOf ("v=2".toList ::
          (urlFields (plainCodec numberedCard) sampleLink [0, 0, 0]).reverse)) 50 = .ok parsed ∧
      parsed.psk = .fill 32 9 ∧
      ∀ url now parsed', fromUrl (plainCodec numberedCard) (verifyCbor encodeSample verifySample)
        url now = .ok parsed' → parsed'.signature = parsed.signature →
        parsed'.inviter = parsed.inviter → parsed' = parsed := by
  have hprints : ∀ blob card, (plainCodec numberedCard).decodeCard blob = .ok card →
      ∃ bytes, (plainCodec numberedCard).encodeCard card = .ok bytes := by
    intro blob card hcard
    cases hcard
    exact ⟨_, if_pos rfl⟩
  have hsigns : ∀ message signature, signSample message = .ok signature →
      verifySample (.fill 32 1) message signature = true := by
    intro message signature h
    unfold signSample at h
    split at h
    · next hmessage =>
      cases h
      rw [hmessage]
      decide
    · cases h
  have h := parse_print_parse (plainCodec numberedCard) (plainCodec_lawful numberedCard) hprints
    encodeSample verifySample encodeSample_injective
  obtain ⟨-, parsed, hparsed, -, -, -, hpsk, -⟩ := h.1 signSample (.fill 32 1) (numberedCard 3)
    [5, 6] (.fill 32 9) 40 10 sampleLink [0, 0, 0] _ ["v=2".toList] 50 hsigns (by decide)
    (by decide) ((List.perm_append_singleton _ _).symm.trans
      ((List.reverse_perm _).append_right _)) (by unfold IsUnknown; decide) (by decide)
  refine ⟨parsed, hparsed, hpsk, fun url now parsed' hparsed' hsignature hinviter => ?_⟩
  exact (h.2 _ _ _ hparsed).2.2.1 _ _ _ hparsed' hsignature hinviter (verifySample_one _ _ _)

end Skattr.Core.InviteLink
