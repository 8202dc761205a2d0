import Skattr.Core.Daemon.Join
import Skattr.Core.Invite.Link

/-!
# Creating an invite

`createInvite` generates a key package, signs a fresh card and an invite link, and stores the
secret of the invite with a snapshot of the provider that has the private key. `buildInvite_ok` says
what a new invite is, and `createInvite_cases` what a call stored. A call that fails after the key
package was stored leaves it behind: `failed_invite_persists_nothing_iff` says when it does not.
-/

namespace Skattr.Core.Daemon

open Lib Lib.Fallible Core.Mls

variable {P G : Type}

/-- The third-party parts of inviting and of accepting an invite, and the daemon's identity. -/
structure InviteDeps (P G : Type) extends JoinDeps P G where
  codec : UrlCodec
  self : PublicKey
  signCard : ContactCardBody → Except CoreError (ByteArr 64)
  signLink : InviteLinkBody → Except String (ByteArr 64)
  verifyCard : PublicKey → ContactCardBody → ByteArr 64 → Bool
  verifyLink : PublicKey → InviteLinkBody → ByteArr 64 → Bool

/-- What a call of `createInvite` meets: the clock in seconds, the daemon's onion once it is
published, what `list_mine` returns of its reachable mailboxes, fresh random bytes, the failures of
`key_package_ref`, `to_bytes` and `snapshot`, and the statements before a storage fault in each of
its three writes. -/
structure CreateEnv where
  now : Int
  onion : Option String
  mailboxes : Except CoreError (List String)
  random : ByteArr 32
  psk : ByteArr 32
  kpRefError : Option CoreError
  toBytesError : Option CoreError
  snapshotError : Option CoreError
  kpBudget : Option Nat
  cardBudget : Option Nat
  inviteBudget : Option Nat
  deriving DecidableEq

structure InviteCreated where
  url : List Char
  keyPackageId : KpRef
  expiresAt : Nat
  deriving DecidableEq

def DEFAULT_TTL_SECS : Nat := 7 * 24 * 3600

def normalizeNickname : Option String → Except CoreError (Option String)
  | none => .ok none
  | some nickname =>
    if (trim nickname).isEmpty then .ok none
    else if (trim nickname).length > 64 then
      .error (.invalidArgument "nickname must be 64 characters or fewer")
    else .ok (some (trim nickname))

def bumpSelfCardVersion : DbTx Nat := do
  Tx.update (.storage "self_card: bump version") fun tables =>
    { tables with selfCardVersion := tables.selfCardVersion + 1 }
  Tx.select (.storage "self_card: read version") Tables.selfCardVersion

def buildNextSelfCard (deps : InviteDeps P G) (env : CreateEnv) (onion : String)
    (mailboxes : List String) (ttlSecs : Nat) : Fallible CoreError State ContactCard := do
  let version ← transactWithin env.cardBudget bumpSelfCardVersion
  attempt (ContactCard.sign deps.signCard deps.self onion mailboxes version ttlSecs env.now)

/-- A signed invite, with the row that is to be stored for it. -/
structure NewInvite where
  link : InviteLink
  url : List Char
  kpRef : KpRef
  row : OutstandingInviteRow

def signInvite (deps : InviteDeps P G) (env : CreateEnv) (nickname : Option String)
    (onion : String) (ttl : Nat) (keyPackage : Bytes) (provider : P) :
    Fallible CoreError State NewInvite := do
  attempt (env.kpRefError.elim (.ok ()) .error)
  attempt (env.toBytesError.elim (.ok ()) .error)
  let mailboxes ← attempt env.mailboxes
  let card ← buildNextSelfCard deps env onion mailboxes DEFAULT_TTL_SECS
  let link ← attempt
    (InviteLink.generate deps.signLink deps.self card keyPackage env.psk ttl env.now)
  let url ← attempt (link.toUrl deps.codec)
  attempt (env.snapshotError.elim (.ok ()) .error)
  pure ⟨link, url, deps.mls.keyPackageRef keyPackage,
    ⟨env.psk, keyPackage, some (deps.mls.snapshotProvider provider), env.now + ttl, nickname⟩⟩

def buildInvite (deps : InviteDeps P G) (env : CreateEnv) (nickname : Option String)
    (ttlSecs : Option Nat) : Fallible CoreError State NewInvite := do
  let nickname ← attempt (normalizeNickname nickname)
  let onion ← attempt (env.onion.elim (.error .torNotReady) .ok)
  let (keyPackage, provider) ← attempt
    ((deps.mls.generateKeyPackage deps.self env.random deps.mls.newProvider).mapError CoreError.mls)
  transactWithin env.kpBudget
    (KeyPackageRepo.insert (deps.mls.sha256 keyPackage) keyPackage .ours)
  signInvite deps env nickname onion (ttlSecs.getD (24 * 3600)) keyPackage provider

def createInvite (deps : InviteDeps P G) (env : CreateEnv) (nickname : Option String)
    (ttlSecs : Option Nat) : Fallible CoreError State InviteCreated := do
  let invite ← buildInvite deps env nickname ttlSecs
  transactWithin env.inviteBudget (OutstandingInviteRepo.putWithProvider invite.kpRef invite.row)
  pure ⟨invite.url, invite.kpRef, invite.row.expiresAt.toNat⟩

/-! ### What a call did -/

def SameInvites (s t : State) : Prop := t.tables.outstandingInvites = s.tables.outstandingInvites

instance : Std.Refl SameInvites := ⟨fun _ => rfl⟩

instance : IsTrans State SameInvites := ⟨fun _ _ _ h₁ h₂ => h₂.trans h₁⟩

theorem insertKeyPackage_sameInvites (budget : Option Nat) (hash : ByteArr 32) (bytes : Bytes)
    (direction : Direction) :
    Keeps SameInvites (transactWithin budget (KeyPackageRepo.insert hash bytes direction)) := by
  refine transactWithin_keeps fun {s a t} hdoes => ?_
  have hinsert := Tx.does_statement hdoes
  split at hinsert
  · cases hinsert
  · cases hinsert
    rfl

theorem buildNextSelfCard_keeps {R : State → State → Prop} [Std.Refl R] [IsTrans State R]
    (hR : ∀ s version, R s { s with tables := { s.tables with selfCardVersion := version } })
    (deps : InviteDeps P G) (env : CreateEnv) (onion : String) (mailboxes : List String)
    (ttlSecs : Nat) : Keeps R (buildNextSelfCard deps env onion mailboxes ttlSecs) := by
  refine (transactWithin_keeps fun {s a t} hdoes => ?_).bind fun _ => Keeps.attempt _
  obtain ⟨_, bumped, hupdate, hselect⟩ := Tx.does_bind hdoes
  cases Tx.does_update hupdate
  obtain ⟨-, rfl⟩ := Tx.does_select hselect
  exact hR _ _

theorem signInvite_keeps {R : State → State → Prop} [Std.Refl R] [IsTrans State R]
    (hR : ∀ s version, R s { s with tables := { s.tables with selfCardVersion := version } })
    (deps : InviteDeps P G) (env : CreateEnv) (nickname : Option String) (onion : String)
    (ttl : Nat) (keyPackage : Bytes) (provider : P) :
    Keeps R (signInvite deps env nickname onion ttl keyPackage provider) :=
  (Keeps.attempt _).bind fun _ => (Keeps.attempt _).bind fun _ => (Keeps.attempt _).bind fun _ =>
    (buildNextSelfCard_keeps hR _ _ _ _ _).bind fun _ => (Keeps.attempt _).bind fun _ =>
      (Keeps.attempt _).bind fun _ => (Keeps.attempt _).bind fun _ => Keeps.pure _

theorem buildInvite_sameInvites (deps : InviteDeps P G) (env : CreateEnv)
    (nickname : Option String) (ttlSecs : Option Nat) :
    Keeps SameInvites (buildInvite deps env nickname ttlSecs) :=
  (Keeps.attempt _).bind fun _ => (Keeps.attempt _).bind fun _ => (Keeps.attempt _).bind fun _ =>
    (insertKeyPackage_sameInvites _ _ _ _).bind fun _ =>
      signInvite_keeps (fun _ _ => rfl) _ _ _ _ _ _ _

variable {deps : InviteDeps P G} {env : CreateEnv} {nickname : Option String} {ttlSecs : Option Nat}
  {s t : State} {invite : NewInvite}

/-- What a new invite is: its link carries the key package, the secret and the expiry of its row,
and its row has the provider that the key package was generated with. -/
theorem buildInvite_ok (h : exec (buildInvite deps env nickname ttlSecs) s = (.ok invite, t)) :
    ∃ provider, deps.mls.generateKeyPackage deps.self env.random deps.mls.newProvider =
        .ok (invite.row.inviterKp, provider) ∧
      invite.row.providerSnapshot = some (deps.mls.snapshotProvider provider) ∧
      invite.kpRef = deps.mls.keyPackageRef invite.row.inviterKp ∧
      invite.link.toUrl deps.codec = .ok invite.url ∧
      invite.link.body.card.body.identity = deps.self ∧
      invite.link.body.keyPackage = invite.row.inviterKp ∧
      invite.link.psk = invite.row.psk ∧ invite.link.body.expiresAt = invite.row.expiresAt ∧
      invite.row.expiresAt = env.now + ttlSecs.getD (24 * 3600) := by
  obtain ⟨name, -, h⟩ := attempt_bind_ok h
  obtain ⟨onion, -, h⟩ := attempt_bind_ok h
  obtain ⟨⟨keyPackage, provider⟩, hgenerate, h⟩ := attempt_bind_ok h
  obtain ⟨_, _, -, h⟩ := exec_bind_ok h
  obtain ⟨_, -, h⟩ := attempt_bind_ok h
  obtain ⟨_, -, h⟩ := attempt_bind_ok h
  obtain ⟨_, -, h⟩ := attempt_bind_ok h
  obtain ⟨card, _, -, h⟩ := exec_bind_ok h
  obtain ⟨link, hlink, h⟩ := attempt_bind_ok h
  obtain ⟨url, hurl, h⟩ := attempt_bind_ok h
  obtain ⟨_, -, h⟩ := attempt_bind_ok h
  cases h
  obtain ⟨hidentity, hkp, hpsk, hexpires⟩ := InviteLink.generate_ok hlink
  exact ⟨provider, mapError_eq_ok.mp hgenerate, rfl, rfl, hurl, hidentity, hkp, hpsk, hexpires,
    rfl⟩

theorem buildInvite_provider {obs : Observation P G} (hmls : deps.mls.Lawful obs)
    (h : exec (buildInvite deps env nickname ttlSecs) s = (.ok invite, t)) :
    ∃ provider, restoreProvider deps.mls invite.row.providerSnapshot = .ok provider ∧
      obs.holdsKey provider invite.kpRef deps.self ∧ (∀ id, obs.psk provider id = none) ∧
      obs.identity invite.row.inviterKp = deps.self ∧
      deps.mls.keyPackage invite.row.inviterKp = .ok invite.row.inviterKp := by
  obtain ⟨provider, hgenerate, hsnapshot, href, -⟩ := buildInvite_ok h
  obtain ⟨hkey, hidentity, hpackage, hpsk⟩ := hmls.generated hgenerate
  refine ⟨provider, ?_, href ▸ hkey, fun id => ?_, hidentity, hpackage⟩
  · rw [hsnapshot, restoreProvider, hmls.load_snapshot]
    rfl
  · rw [hpsk, hmls.psk_newProvider]

/-- What creating an invite did to the outstanding invites: a failed call left them alone, and a
successful one stored the row of the invite whose URL it returned. -/
theorem createInvite_cases {result : Except CoreError InviteCreated}
    (h : exec (createInvite deps env nickname ttlSecs) s = (result, t)) :
    ((∃ e, result = .error e) ∧ SameInvites s t) ∨
      ∃ invite middle, exec (buildInvite deps env nickname ttlSecs) s = (.ok invite, middle) ∧
        result = .ok ⟨invite.url, invite.kpRef, invite.row.expiresAt.toNat⟩ ∧
        t.tables.outstandingInvites =
          (s.tables.outstandingInvites.delete invite.kpRef).put invite.kpRef invite.row := by
  rcases (buildInvite_sameInvites _ _ _ _).bind_cases h with
    ⟨e, rfl, hsame⟩ | ⟨invite, middle, hbuild, hsame, h⟩
  · exact .inl ⟨⟨e, rfl⟩, hsame⟩
  rcases transactWithin_bind_cases h with ⟨e, rfl, rfl⟩ | ⟨_, tables, hdoes, hpure⟩
  · exact .inl ⟨⟨e, rfl⟩, hsame⟩
  cases hpure
  refine .inr ⟨invite, middle, hbuild, rfl, ?_⟩
  cases Tx.does_update hdoes
  rw [← hsame]

/-! ### A small instance -/

def alice : PublicKey := .fill 32 1

def bob : PublicKey := .fill 32 2

def mallory : PublicKey := .fill 32 3

def cardsOf (self : PublicKey) (version : Nat) : ContactCard :=
  ⟨⟨self, "self.onion", [], version, DEFAULT_TTL_SECS⟩, .fill 64 0⟩

def rosterDeps (self inviter : PublicKey) : InviteDeps Keyring Roster where
  mls := rosterMls
  identity := some self
  toX25519 := some
  blake2s _ := .fill 32 0
  codec := plainCodec (cardsOf inviter)
  self := self
  signCard _ := .ok (.fill 64 0)
  signLink _ := .ok (.fill 64 0)
  verifyCard _ _ _ := true
  verifyLink _ _ _ := true

def quietCreate : CreateEnv :=
  ⟨0, some "self.onion", .ok [], .fill 32 7, .fill 32 8, none, none, none, none, none, none⟩

/-- The URLs of invites that alice creates one after another, each valid for a week. -/
def invitesFrom (state : State) : List CreateEnv → List (List Char)
  | [] => []
  | env :: rest =>
    match exec (createInvite (rosterDeps alice alice) env none (some DEFAULT_TTL_SECS)) state with
    | (.ok created, next) => created.url :: invitesFrom next rest
    | (.error _, next) => invitesFrom next rest

/-! ### Failed calls -/

/-- The call stores its key package: the nickname is accepted, the onion is known, and a key package
is generated and can be written. -/
def StoresKeyPackage (deps : InviteDeps P G) (env : CreateEnv) (nickname : Option String)
    (s : State) : Prop :=
  ∃ name onion keyPackage provider, normalizeNickname nickname = .ok name ∧
    env.onion = some onion ∧
    deps.mls.generateKeyPackage deps.self env.random deps.mls.newProvider =
      .ok (keyPackage, provider) ∧
    (exec (transactWithin env.kpBudget
      (KeyPackageRepo.insert (deps.mls.sha256 keyPackage) keyPackage .ours)) s).1 = .ok ()

def SameKeyPackages (s t : State) : Prop := t.tables.keyPackages = s.tables.keyPackages

instance : Std.Refl SameKeyPackages := ⟨fun _ => rfl⟩

instance : IsTrans State SameKeyPackages := ⟨fun _ _ _ h₁ h₂ => h₂.trans h₁⟩

theorem insertKeyPackage_new {budget : Option Nat} {hash : ByteArr 32} {bytes : Bytes}
    (h : exec (transactWithin budget (KeyPackageRepo.insert hash bytes .ours)) s = (.ok (), t)) :
    ¬SameKeyPackages s t := by
  rcases transactWithin_cases h with ⟨_, herror, -⟩ | ⟨_, tables, -, hdoes, rfl⟩
  · cases herror
  have hinsert := Tx.does_statement hdoes
  split at hinsert
  · cases hinsert
  · next keyPackages hnew =>
    cases hinsert
    intro hsame
    have hget := Table.get_insert hnew hash
    rw [show keyPackages = s.tables.keyPackages from hsame, (Table.insert_eq_some hnew).1,
      if_pos rfl] at hget
    cases hget

theorem buildInvite_store {result : Except CoreError NewInvite}
    (h : exec (buildInvite deps env nickname ttlSecs) s = (result, t)) :
    (¬SameKeyPackages s t ∧ StoresKeyPackage deps env nickname s) ∨
      ((∃ e, result = .error e) ∧ t = s ∧ ¬StoresKeyPackage deps env nickname s) := by
  rcases attempt_bind_cases h with ⟨e, hname, rfl, rfl⟩ | ⟨name, hname, h⟩
  · refine .inr ⟨⟨e, rfl⟩, rfl, ?_⟩
    rintro ⟨_, _, _, _, hok, -⟩
    cases hname.symm.trans hok
  rcases attempt_bind_cases h with ⟨e, honion, rfl, rfl⟩ | ⟨onion, honion, h⟩
  · refine .inr ⟨⟨e, rfl⟩, rfl, ?_⟩
    rintro ⟨_, _, _, _, -, hsome, -⟩
    rw [hsome] at honion
    cases honion
  have honion : env.onion = some onion := by
    cases hsome : env.onion <;> rw [hsome] at honion <;> cases honion
    rfl
  rcases attempt_bind_cases h with ⟨e, hgenerate, rfl, rfl⟩ | ⟨⟨keyPackage, provider⟩, hgenerate, h⟩
  · refine .inr ⟨⟨e, rfl⟩, rfl, ?_⟩
    rintro ⟨_, _, _, _, -, -, hok, -⟩
    rw [hok] at hgenerate
    cases hgenerate
  have hgenerate := mapError_eq_ok.mp hgenerate
  rcases exec_bind_cases h with ⟨e, hinsert, rfl⟩ | ⟨_, middle, hinsert, h⟩
  · refine .inr ⟨⟨e, rfl⟩, ?_, ?_⟩
    · rcases transactWithin_cases hinsert with ⟨_, -, hsame⟩ | ⟨_, _, herror, -⟩
      · exact hsame
      · cases herror
    · rintro ⟨_, _, _, _, -, -, hok, hwritten⟩
      cases hgenerate.symm.trans hok
      rw [hinsert] at hwritten
      cases hwritten
  have hlater : SameKeyPackages middle t := by
    have hkept := signInvite_keeps (R := SameKeyPackages) (fun _ _ => rfl) deps env name onion
      (ttlSecs.getD (24 * 3600)) keyPackage provider middle
    rw [h] at hkept
    exact hkept
  refine .inl ⟨fun hsame => insertKeyPackage_new hinsert (hlater.symm.trans hsame), ?_⟩
  exact ⟨name, onion, keyPackage, provider, hname, honion, hgenerate, by rw [hinsert]⟩

/-- A failed call persists nothing exactly when it fails before it has written its key package: all
that is checked later is checked too late. The expiry of a successful call is the same in the link,
in the reply and in the store. -/
theorem failed_invite_persists_nothing_iff (deps : InviteDeps P G) (env : CreateEnv)
    (nickname : Option String) (ttlSecs : Option Nat) (s : State) :
    (∀ e t, exec (createInvite deps env nickname ttlSecs) s = (.error e, t) →
      ((t.tables.keyPackages = s.tables.keyPackages ∧
          t.tables.selfCardVersion = s.tables.selfCardVersion ∧
          t.tables.outstandingInvites = s.tables.outstandingInvites) ↔
        ¬StoresKeyPackage deps env nickname s)) ∧
    ∀ created t, exec (createInvite deps env nickname ttlSecs) s = (.ok created, t) → 0 ≤ env.now →
      ∃ (link : InviteLink) (row : OutstandingInviteRow),
        link.toUrl deps.codec = .ok created.url ∧
        t.tables.outstandingInvites.get created.keyPackageId = some row ∧
        link.body.expiresAt = row.expiresAt ∧ (created.expiresAt : Int) = row.expiresAt := by
  constructor
  · intro e t h
    rcases exec_bind_cases h with ⟨_, hbuild, -⟩ | ⟨invite, middle, hbuild, hput⟩
    · rcases buildInvite_store hbuild with ⟨hnew, hstores⟩ | ⟨-, rfl, hnot⟩
      · exact ⟨fun hsame => absurd hsame.1 hnew, fun hnot => absurd hstores hnot⟩
      · exact ⟨fun _ => hnot, fun _ => ⟨rfl, rfl, rfl⟩⟩
    · rcases transactWithin_bind_cases hput with ⟨_, -, rfl⟩ | ⟨_, _, -, hok⟩
      · rcases buildInvite_store hbuild with ⟨hnew, hstores⟩ | ⟨⟨_, herror⟩, -⟩
        · exact ⟨fun hsame => absurd hsame.1 hnew, fun hnot => absurd hstores hnot⟩
        · cases herror
      · cases hok
  · intro created t h hnow
    rcases createInvite_cases h with ⟨⟨_, herror⟩, -⟩ | ⟨invite, _, hbuild, hcreated, hinvites⟩
    · cases herror
    cases hcreated
    obtain ⟨_, -, -, -, hurl, -, -, -, hexpires, hrow⟩ := buildInvite_ok hbuild
    refine ⟨invite.link, invite.row, hurl, by rw [hinvites, Table.get_put_self], hexpires, ?_⟩
    refine Int.toNat_of_nonneg ?_
    rw [hrow]
    exact Int.add_nonneg hnow (Int.natCast_nonneg _)

/-- A time to live that does not fit is found out when the key package is stored and the version of
the card is counted up. -/
theorem refused_ttl_leaves_key_package :
    (exec (createInvite (rosterDeps alice alice) quietCreate none (some (2 ^ 63))) State.init).1 =
        .error (.invite "ttl overflows i64") ∧
      (exec (createInvite (rosterDeps alice alice) quietCreate none (some (2 ^ 63)))
        State.init).2.tables.keyPackages ≠ State.init.tables.keyPackages ∧
      (exec (createInvite (rosterDeps alice alice) quietCreate none (some (2 ^ 63)))
        State.init).2.tables.selfCardVersion = 1 := by
  decide +kernel

/-- A nickname that is too long is found out in time. -/
theorem long_nickname_persists_nothing :
    let long := some (String.ofList (List.replicate 65 'a'))
    let call := exec (createInvite (rosterDeps alice alice) quietCreate long none) State.init
    call.1 = .error (.invalidArgument "nickname must be 64 characters or fewer") ∧
      call.2.tables.keyPackages = State.init.tables.keyPackages := by
  intro long call
  have hresult : call.1 =
      .error (.invalidArgument "nickname must be 64 characters or fewer") := by decide +kernel
  refine ⟨hresult, (((failed_invite_persists_nothing_iff (rosterDeps alice alice) quietCreate long
    none State.init).1 _ call.2 (Prod.ext hresult rfl)).mpr ?_).1⟩
  rintro ⟨_, _, _, _, hname, -⟩
  have hrefused : (normalizeNickname long).isOk = false := by decide +kernel
  rw [hname] at hrefused
  cases hrefused

end Skattr.Core.Daemon
