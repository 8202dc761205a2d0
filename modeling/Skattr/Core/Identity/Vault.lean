import Skattr.Core.Basic

/-!
# Rewriting the vault

The vault is written to a sidecar, which is synced and renamed over the vault; then the directory is
synced. `vault_rewrite_atomic_iff` says that exactly one of the two passphrases opens the vault
after a change of the passphrase that fails or crashes at any step, and that the old one does so
after an error exactly when the error is not one of the steps after the rename; the same holds for a
new vault. `error_with_new_passphrase` is a change that reports an error although it has happened.
-/

namespace Skattr.Core.Identity

open Lib

structure KdfParams where
  mKib : Nat
  t : Nat
  p : Nat
  deriving DecidableEq

def KdfParams.canonical : KdfParams := ⟨64 * 1024, 3, 4⟩

def VAULT_VERSION : Nat := 1

structure VaultFile where
  v : Nat
  kdf : KdfParams
  salt : ByteArr 16
  nonce : ByteArr 24
  ciphertext : Bytes
  deriving DecidableEq

/-- The key derivation and the AEAD. -/
structure VaultCrypto where
  deriveAeadKey : String → ByteArr 16 → KdfParams → ByteArr 32
  encrypt : ByteArr 32 → ByteArr 24 → Bytes → Bytes
  decrypt : ByteArr 32 → ByteArr 24 → Bytes → Option Bytes

/-- What is encrypted is decrypted with the same key, and a tag is added to it. -/
structure VaultCrypto.Lawful (crypto : VaultCrypto) : Prop where
  correct : ∀ key nonce secret, crypto.decrypt key nonce (crypto.encrypt key nonce secret) =
    some secret
  length : ∀ key nonce secret, (crypto.encrypt key nonce secret).length = secret.length + 16

/-- The AEAD is authentic for the secret that is stored under one of two passphrases: the key of the
other one does not decrypt it. -/
def VaultCrypto.Authentic (crypto : VaultCrypto) (identity : ByteArr 32) (passphrase other : String)
    (salt : ByteArr 16) (nonce : ByteArr 24) : Prop :=
  crypto.decrypt (crypto.deriveAeadKey other salt .canonical) nonce
    (crypto.encrypt (crypto.deriveAeadKey passphrase salt .canonical) nonce identity.bytes) = none

variable (crypto : VaultCrypto)

def encryptIdentity (identity : ByteArr 32) (passphrase : String) (salt : ByteArr 16)
    (nonce : ByteArr 24) : VaultFile where
  v := VAULT_VERSION
  kdf := .canonical
  salt := salt
  nonce := nonce
  ciphertext :=
    crypto.encrypt (crypto.deriveAeadKey passphrase salt .canonical) nonce identity.bytes

/-- The vault and its sidecar, which may have been written in part. -/
structure Disk where
  vault : Option VaultFile
  sidecar : Option (Option VaultFile)
  deriving DecidableEq

def Disk.open (disk : Disk) (passphrase : String) : Option (ByteArr 32) :=
  disk.vault.bind fun file =>
    if file.v ≠ VAULT_VERSION then none
    else if file.ciphertext.length ≠ 32 + 16 then none
    else
      (crypto.decrypt (crypto.deriveAeadKey passphrase file.salt file.kdf) file.nonce
        file.ciphertext).bind (ByteArr.ofBytes? 32)

inductive WriteStep where
  | encode
  | create
  | write
  | sync
  | rename
  | openDir
  | syncDir
  deriving DecidableEq

def WriteStep.effect (file : VaultFile) (disk : Disk) : WriteStep → Disk
  | create => { disk with sidecar := some none }
  | write => { disk with sidecar := some (some file) }
  | rename => ⟨disk.sidecar.join, none⟩
  | encode | sync | openDir | syncDir => disk

/-- How a step ends the call: with an error, after which the sidecar may be removed, or with a
crash, after which a rename that was not synced may be undone. -/
inductive Stop where
  | error (cleaned : Bool)
  | crash (undone : Bool)

inductive Outcome where
  | ok
  | error
  | crashed
  deriving DecidableEq

def atomicWriteVault (file : VaultFile) (stop : Option (WriteStep × Stop)) (disk : Disk) :
    Disk × Outcome :=
  let after := ([.encode, .create, .write, .sync, .rename, .openDir, .syncDir].takeWhile
    fun step => stop.all fun stop => stop.1 ≠ step).foldl (WriteStep.effect file) disk
  match stop with
  | none => (after, .ok)
  | some (_, .error cleaned) => (if cleaned then { after with sidecar := none } else after, .error)
  | some (_, .crash undone) =>
    (if undone then { after with vault := disk.vault } else after, .crashed)

/-- Write the vault; `prepared` is false when the reads or the encryption before it fail. -/
def rewrite (file : VaultFile) (prepared : Bool) (stop : Option (WriteStep × Stop)) (disk : Disk) :
    Disk × Outcome :=
  if prepared then atomicWriteVault file stop disk else (disk, .error)

def create (identity : ByteArr 32) (passphrase : String) (salt : ByteArr 16) (nonce : ByteArr 24)
    (prepared : Bool) (stop : Option (WriteStep × Stop)) (disk : Disk) : Disk × Outcome :=
  if disk.vault.isSome then (disk, .error)
  else rewrite (encryptIdentity crypto identity passphrase salt nonce) prepared stop disk

def changePassphrase (old new : String) (salt : ByteArr 16) (nonce : ByteArr 24) (prepared : Bool)
    (stop : Option (WriteStep × Stop)) (disk : Disk) : Disk × Outcome :=
  match disk.open crypto old with
  | none => (disk, .error)
  | some identity => rewrite (encryptIdentity crypto identity new salt nonce) prepared stop disk

def AfterRename (prepared : Bool) : Option (WriteStep × Stop) → Bool
  | some (.openDir, .error _) | some (.syncDir, .error _) => prepared
  | _ => false

variable {crypto} {disk : Disk}

theorem rewrite_cases {file : VaultFile} {prepared : Bool} {stop : Option (WriteStep × Stop)}
    {after : Disk} {outcome : Outcome} (h : rewrite file prepared stop disk = (after, outcome)) :
    after.vault = some file ∧ (outcome = .error → AfterRename prepared stop = true) ∨
      after.vault = disk.vault ∧ outcome ≠ .ok ∧ AfterRename prepared stop = false := by
  cases prepared with
  | false =>
    cases h
    refine .inr ⟨rfl, nofun, ?_⟩
    unfold AfterRename
    split <;> rfl
  | true =>
    obtain _ | ⟨step, cleaned | undone⟩ := stop
    · cases h
      exact .inl ⟨rfl, nofun⟩
    · cases step <;> cases cleaned <;> cases h <;> first
        | exact .inl ⟨rfl, fun _ => rfl⟩
        | exact .inr ⟨rfl, nofun, rfl⟩
    · cases step <;> cases undone <;> cases h <;> first
        | exact .inr ⟨rfl, nofun, rfl⟩
        | exact .inl ⟨rfl, nofun⟩

/-- One of two passphrases opens the vault, gives the identity, and the other one does not. -/
structure OpensWith (crypto : VaultCrypto) (disk : Disk) (identity : ByteArr 32)
    (passphrase other : String) : Prop where
  opens : disk.open crypto passphrase = some identity
  refuses : disk.open crypto other = none

theorem opensWith_of_vault (hlawful : crypto.Lawful) {identity : ByteArr 32}
    {passphrase other : String} {salt : ByteArr 16} {nonce : ByteArr 24}
    (hother : crypto.Authentic identity passphrase other salt nonce)
    (hvault : disk.vault = some (encryptIdentity crypto identity passphrase salt nonce)) :
    OpensWith crypto disk identity passphrase other := by
  have hopen (tried : String) : disk.open crypto tried = (crypto.decrypt (crypto.deriveAeadKey tried
      salt .canonical) nonce (crypto.encrypt (crypto.deriveAeadKey passphrase salt .canonical) nonce
        identity.bytes)).bind (ByteArr.ofBytes? 32) := by
    simp only [Disk.open, hvault, encryptIdentity, Option.bind_some, hlawful.length,
      identity.length_eq, ne_eq, not_true, if_false]
  refine ⟨?_, ?_⟩
  · rw [hopen, hlawful.correct]
    exact ofBytes?_bytes identity
  · rw [hopen, hother]
    rfl

/-- After a change of the passphrase that ends at any step, exactly one of the two passphrases opens
the vault, the new one if it succeeded. After an error it is the old one exactly when the rename had
not happened. A vault that is created is there or not in the same way. -/
theorem vault_rewrite_atomic_iff (crypto : VaultCrypto) (hlawful : crypto.Lawful)
    (identity : ByteArr 32) (old new : String) (salt salt' : ByteArr 16) (nonce nonce' : ByteArr 24)
    (hstored : crypto.Authentic identity old new salt nonce)
    (hwritten : crypto.Authentic identity new old salt' nonce') (prepared : Bool)
    (stop : Option (WriteStep × Stop)) (sidecar : Option (Option VaultFile)) :
    (∀ disk outcome, changePassphrase crypto old new salt' nonce' prepared stop
        ⟨some (encryptIdentity crypto identity old salt nonce), sidecar⟩ = (disk, outcome) →
      (OpensWith crypto disk identity new old ∨
        OpensWith crypto disk identity old new ∧ outcome ≠ .ok) ∧
      (outcome = .error → (OpensWith crypto disk identity old new ↔
        AfterRename prepared stop = false))) ∧
    ∀ disk outcome, create crypto identity new salt' nonce' prepared stop ⟨none, sidecar⟩ =
        (disk, outcome) →
      (disk.open crypto new = some identity ∨ disk.vault = none ∧ outcome ≠ .ok) ∧
      (outcome = .error → (disk.vault = none ↔ AfterRename prepared stop = false)) := by
  have hnew {disk : Disk}
      (hvault : disk.vault = some (encryptIdentity crypto identity new salt' nonce')) :
      OpensWith crypto disk identity new old := opensWith_of_vault hlawful hwritten hvault
  have hold {disk : Disk}
      (hvault : disk.vault = some (encryptIdentity crypto identity old salt nonce)) :
      OpensWith crypto disk identity old new := opensWith_of_vault hlawful hstored hvault
  constructor
  · intro disk outcome hcall
    unfold changePassphrase at hcall
    rw [(hold rfl).opens] at hcall
    rcases rewrite_cases hcall with ⟨hvault, hrename⟩ | ⟨hvault, hfailed, hrename⟩
    · refine ⟨.inl (hnew hvault), fun herror => iff_of_false (fun hopens => ?_) ?_⟩
      · exact absurd (hopens.opens.symm.trans (hnew hvault).refuses) (Option.some_ne_none _)
      · exact (Bool.not_eq_false _).mpr (hrename herror)
    · exact ⟨.inr ⟨hold hvault, hfailed⟩, fun _ => iff_of_true (hold hvault) hrename⟩
  · intro disk outcome hcall
    rcases rewrite_cases hcall with ⟨hvault, hrename⟩ | ⟨hvault, hfailed, hrename⟩
    · refine ⟨.inl (hnew hvault).opens, fun herror => iff_of_false (fun hnone => ?_) ?_⟩
      · exact absurd (hvault.symm.trans hnone) (Option.some_ne_none _)
      · exact (Bool.not_eq_false _).mpr (hrename herror)
    · exact ⟨.inr ⟨hvault, hfailed⟩, fun _ => iff_of_true hvault hrename⟩

def taggingCrypto : VaultCrypto where
  deriveAeadKey passphrase _ _ := .fill 32 (if passphrase = "old" then 0 else 1)
  encrypt key _ secret := secret ++ key.bytes.take 16
  decrypt key _ ciphertext :=
    if ciphertext.drop (ciphertext.length - 16) = key.bytes.take 16 then
      some (ciphertext.take (ciphertext.length - 16))
    else none

theorem taggingCrypto_lawful : taggingCrypto.Lawful := by
  have hlength (key : ByteArr 32) : (key.bytes.take 16).length = 16 :=
    List.length_take_of_le (by rw [key.length_eq]; decide)
  refine ⟨fun key nonce secret => ?_, fun key nonce secret => ?_⟩
  · simp only [taggingCrypto, List.length_append, hlength, Nat.add_sub_cancel, List.drop_left,
      if_true, List.take_left]
  · simp only [taggingCrypto, List.length_append, hlength]

/-- A write that fails leaves the old passphrase. -/
theorem failed_write_keeps_old :
    let file := encryptIdentity taggingCrypto (.fill 32 7) "old" (.fill 16 0) (.fill 24 0)
    OpensWith taggingCrypto (changePassphrase taggingCrypto "old" "new" (.fill 16 1) (.fill 24 1)
      true (some (.write, .error true)) ⟨some file, none⟩).1 (.fill 32 7) "old" "new" := by
  refine (((vault_rewrite_atomic_iff taggingCrypto taggingCrypto_lawful (.fill 32 7) "old" "new"
    (.fill 16 0) (.fill 16 1) (.fill 24 0) (.fill 24 1) (by unfold VaultCrypto.Authentic; decide)
    (by unfold VaultCrypto.Authentic; decide) true (some (.write, .error true)) none).1 _ _
    rfl).2 ?_).mpr rfl
  decide

/-- The directory cannot be synced after the rename: the call reports an error, and the new
passphrase opens the vault. -/
theorem error_with_new_passphrase :
    let file := encryptIdentity taggingCrypto (.fill 32 7) "old" (.fill 16 0) (.fill 24 0)
    let (disk, outcome) := changePassphrase taggingCrypto "old" "new" (.fill 16 1) (.fill 24 1) true
      (some (.syncDir, .error true)) ⟨some file, none⟩
    outcome = .error ∧ disk.open taggingCrypto "new" = some (.fill 32 7) ∧
      disk.open taggingCrypto "old" = none := by
  decide

end Skattr.Core.Identity
