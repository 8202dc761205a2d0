import Skattr.Core.Mls.Welcome
import Skattr.Core.Daemon.Inbound

/-!
# Joining from a Welcome

`prepareJoin` routes a Welcome to the outstanding invite it is for, joins the group and derives the
identity of the other member; `persistJoin` is the transaction that saves the group, links the
contact and consumes the invite. A Welcome arrives on the bootstrap path, from a peer that is not a
contact yet, or on the established connection of a contact. The specifications are `prepareJoin_ok`
and `does_persistJoin`.
-/

namespace Skattr.Core.Daemon

open Lib Lib.Fallible Core.Mls

variable {P G : Type}

/-- The third-party parts of first contact, and the daemon's own identity once it is wired:
OpenMLS, the conversion of an identity to its Noise static key (undefined for bytes that are not a
curve point), and the Blake2s hash. -/
structure JoinDeps (P G : Type) where
  mls : Onboarding P G
  identity : Option PublicKey
  toX25519 : PublicKey → Option (ByteArr 32)
  blake2s : Bytes → ByteArr 32

/-- What a Welcome meets, with the faults of the two lookups before its transaction. -/
structure JoinEnv extends Env where
  ackFault : Bool
  inviteFault : Bool
  deriving DecidableEq

/-- The message id that acknowledges a Welcome: the first half of its hash. -/
def welcomeMsgId (blake2s : Bytes → ByteArr 32) (welcome : Bytes) : MessageId :=
  ⟨(blake2s welcome).bytes.take 16, by simp [(blake2s welcome).length_eq]⟩

/-- A joined group that is not persisted yet, with the invite it consumes. -/
structure Prepared (G : Type) where
  kpRef : KpRef
  kpSha256 : ByteArr 32
  nickname : Option String
  addedAt : Int
  group : Mls.Group G
  derived : PublicKey

/-! ### Joining -/

def findInvite (env : JoinEnv) (tables : Tables) (kpRef : KpRef) :
    Except CoreError OutstandingInviteRow :=
  if env.inviteFault then .error (.storage "oi: get_psk_and_kp_bytes")
  else
    match tables.outstandingInvites.get kpRef with
    | none => .error (.mls "inbound welcome: unknown kp_ref")
    | some invite => .ok invite

/-- The provider that the key package of an invite was generated with; an invite without a snapshot
falls back to a fresh one. -/
def restoreProvider (mls : Onboarding P G) : Option Bytes → Except CoreError P
  | none => .ok mls.newProvider
  | some blob => (mls.loadProvider blob).mapError CoreError.mls

/-- Require that an identity converts to the static key of the connection, if there is one. -/
def bindIdentity (deps : JoinDeps P G) (derived : PublicKey) :
    Option (ByteArr 32) → Except CoreError Unit
  | none => .ok ()
  | some expected =>
    match deps.toX25519 derived with
    | none => .error (.mls "inbound welcome: derived identity not a valid key")
    | some x => check (x = expected)
        (.mls "inbound welcome: transport identity does not bind to MLS identity")

def joinInvite (deps : JoinDeps P G) (self : PublicKey) (now : Int) (kpRef : KpRef)
    (invite : OutstandingInviteRow) (welcome : Bytes)
    (bindX25519 hTransport : Option (ByteArr 32)) : Except CoreError (Prepared G) := do
  check (¬invite.expiresAt < now) (.mls "inbound welcome: invite expired")
  let inviterKp ← (deps.mls.keyPackage invite.inviterKp).mapError CoreError.mls
  let provider ← restoreProvider deps.mls invite.providerSnapshot
  let group ← joinFromWelcome deps.mls self welcome (some (kpRef, invite.psk))
    (hTransport.map (kpRef, ·)) provider
  let derived ← peerIdentity deps.mls group
  bindIdentity deps derived bindX25519
  check (group.id.length = 32) (.mls "inbound welcome: bad group_id length")
  pure ⟨kpRef, deps.mls.sha256 inviterKp, invite.nickname, now, group, derived⟩

/-- Everything before the transaction: the invite is looked up outside of it. -/
def prepareJoin (deps : JoinDeps P G) (env : JoinEnv) (tables : Tables) (welcome : Bytes)
    (bindX25519 hTransport : Option (ByteArr 32)) : Except CoreError (Prepared G) :=
  match deps.identity with
  | none => .error (.mls "inbound welcome: identity not wired")
  | some self => do
      let kpRef ← parseWelcomeKpHash deps.mls welcome
      let invite ← findInvite env tables kpRef
      joinInvite deps self env.now kpRef invite welcome bindX25519 hTransport

/-- Insert the joined contact, or un-hide it; a name is overwritten only by a nickname. -/
def upsertJoined (identity : PublicKey) (nickname : Option String) (now : Int) : DbTx Unit :=
  Tx.update (.storage "welcome: upsert contact") fun tables =>
    { tables with
      contacts := tables.contacts.put identity
        (match tables.contacts.get identity with
        | none => ⟨nickname, now, [], false, []⟩
        | some row => { row with
            displayName := nickname.or row.displayName, hidden := false }) }

def linkJoined (identity : PublicKey) (groupId : GroupId) : DbTx Unit :=
  Tx.update (.storage "welcome: set group_id") fun tables =>
    { tables with
      contacts := tables.contacts.modify identity fun row => { row with groupId := groupId } }

/-- Save the group, link the contact and consume the invite. Only the bootstrap path has a static
key to remember the peer by. -/
def persistJoin (deps : JoinDeps P G) (bindX25519 : Option (ByteArr 32)) (join : Prepared G) :
    DbTx Unit := do
  saveInTx deps.mls.toOpenMls join.group
  upsertJoined join.derived join.nickname join.addedAt
  linkJoined join.derived join.group.id
  KeyPackageRepo.markConsumedInTx join.kpSha256
  OutstandingInviteRepo.markConsumedInTx join.kpRef
  match bindX25519 with
  | none => pure ()
  | some x => FirstContactAckRepo.insertInTx join.kpRef x join.derived

def welcomeJoinPersist (deps : JoinDeps P G) (env : JoinEnv) (welcome : Bytes)
    (bindX25519 hTransport : Option (ByteArr 32)) : Fallible CoreError State PublicKey := do
  let state ← get
  let join ← attempt (prepareJoin deps env state.tables welcome bindX25519 hTransport)
  transact env.toEnv (persistJoin deps bindX25519 join)
  emit (.contactUpdated join.derived)
  pure join.derived

/-! ### The two paths -/

/-- What became of a Welcome: it is one that was joined before, it was joined now, or it is not
acknowledged. -/
inductive WelcomeOutcome where
  | known (identity : PublicKey)
  | joined (identity : PublicKey)
  | refused
  deriving DecidableEq

/-- The record of an earlier join with the invite of this Welcome. A lookup that fails does not
block the Welcome. -/
def ackLookup (deps : JoinDeps P G) (env : JoinEnv) (tables : Tables) (welcome : Bytes) :
    Option FirstContactAck :=
  match parseWelcomeKpHash deps.mls welcome with
  | .error _ => none
  | .ok kpRef => if env.ackFault then none else tables.firstContactAcks.get kpRef

/-- Handle a Welcome: one that was joined before is acknowledged again to the peer that it was
joined with, and any other is joined. -/
def receiveWelcome (deps : JoinDeps P G) (env : JoinEnv) (samePeer : FirstContactAck → Bool)
    (bindX25519 hTransport : Option (ByteArr 32)) (welcome : Bytes) (state : State) :
    WelcomeOutcome × State :=
  match ackLookup deps env state.tables welcome with
  | some ack => (if samePeer ack then .known ack.peerIdentity else .refused, state)
  | none =>
    match exec (welcomeJoinPersist deps env welcome bindX25519 hTransport) state with
    | (.ok derived, state) => (.joined derived, state)
    | (.error _, state) => (.refused, state)

/-- A Welcome on the established connection of a contact: there is no static key to bind to and no
transcript value, and the derived identity is not compared with `peer` before the join is
persisted. -/
def dispatchWelcome (deps : JoinDeps P G) (env : JoinEnv) (peer : PublicKey) (welcome : Bytes)
    (state : State) : Option MessageId × State :=
  match receiveWelcome deps env (·.peerIdentity = peer) none none welcome state with
  | (.refused, state) => (none, state)
  | (_, state) => (some (welcomeMsgId deps.blake2s welcome), state)

/-- A Welcome from a peer that is not a contact yet; the result is the identity of the peer. -/
def dispatchWelcomeBootstrap (deps : JoinDeps P G) (env : JoinEnv) (welcome : Bytes)
    (expectedX25519 : ByteArr 32) (hTransport : Option (ByteArr 32)) (state : State) :
    Option PublicKey × State :=
  match receiveWelcome deps env (·.peerX25519 = expectedX25519) (some expectedX25519) hTransport
    welcome state with
  | (.refused, state) => (none, state)
  | (.known identity, state) => (some identity, state)
  | (.joined identity, state) => (some identity, state)

/-! ### Specifications -/

variable {deps : JoinDeps P G} {bindX25519 hTransport : Option (ByteArr 32)} {join : Prepared G}
  {welcome : Bytes} {env : JoinEnv}

theorem prepareJoin_ok {tables : Tables}
    (h : prepareJoin deps env tables welcome bindX25519 hTransport = .ok join) :
    ∃ self invite provider, deps.identity = some self ∧
      parseWelcomeKpHash deps.mls welcome = .ok join.kpRef ∧
      tables.outstandingInvites.get join.kpRef = some invite ∧
      restoreProvider deps.mls invite.providerSnapshot = .ok provider ∧
      joinFromWelcome deps.mls self welcome (some (join.kpRef, invite.psk))
        (hTransport.map (join.kpRef, ·)) provider = .ok join.group ∧
      peerIdentity deps.mls join.group = .ok join.derived ∧
      bindIdentity deps join.derived bindX25519 = .ok () := by
  unfold prepareJoin at h
  split at h
  · cases h
  next self hself =>
  -- every check and every fallible step of the two functions, in their order
  simp only [joinInvite, bind_eq_ok, check_eq_ok] at h
  obtain ⟨kpRef, hparse, invite, hfind, -, -, kp, -, provider, hprovider, group, hgroup, derived,
    hderived, _, hbind, -, -, hjoin⟩ := h
  cases hjoin
  refine ⟨self, invite, provider, hself, hparse, ?_, hprovider, hgroup, hderived, hbind⟩
  unfold findInvite at hfind
  split at hfind
  · cases hfind
  split at hfind
  · cases hfind
  next found hget =>
  cases hfind
  exact hget

theorem bindIdentity_ok {derived : PublicKey} {x : ByteArr 32}
    (h : bindIdentity deps derived (some x) = .ok ()) : deps.toX25519 derived = some x := by
  unfold bindIdentity at h
  dsimp only at h
  split at h
  · cases h
  next y hy =>
  rw [hy, check_eq_ok.mp h]

/-- The contacts after a join: the peer is there, not hidden, and linked to the group. -/
def joinContacts (contacts : Table PublicKey ContactRow) (join : Prepared G) :
    Table PublicKey ContactRow :=
  (contacts.put join.derived
    (match contacts.get join.derived with
    | none => ⟨join.nickname, join.addedAt, [], false, []⟩
    | some row => { row with
        displayName := join.nickname.or row.displayName, hidden := false })).modify join.derived
    fun row => { row with groupId := join.group.id }

def joinTables (deps : JoinDeps P G) (bindX25519 : Option (ByteArr 32)) (join : Prepared G)
    (tables : Tables) : Tables :=
  { tables with
    groups := tables.groups.put join.group.id (groupRow deps.mls.toOpenMls join.group)
    contacts := joinContacts tables.contacts join
    keyPackages := tables.keyPackages.modify join.kpSha256 fun row => { row with consumed := true }
    outstandingInvites := (tables.outstandingInvites.modify join.kpRef fun row =>
      { row with psk := .fill 32 0 }).delete join.kpRef
    firstContactAcks :=
      match bindX25519 with
      | none => tables.firstContactAcks
      | some x => tables.firstContactAcks.insertOrIgnore join.kpRef ⟨x, join.derived⟩ }

theorem does_persistJoin {s t : Tables} {u : Unit}
    (h : Tx.Does (persistJoin deps bindX25519 join) s u t) :
    t = joinTables deps bindX25519 join s := by
  obtain ⟨_, saved, hsave, h⟩ := Tx.does_bind h
  obtain ⟨_, inserted, hupsert, h⟩ := Tx.does_bind h
  obtain ⟨_, linked, hlink, h⟩ := Tx.does_bind h
  obtain ⟨_, spent, hkp, h⟩ := Tx.does_bind h
  obtain ⟨_, consumed, hinvite, h⟩ := Tx.does_bind h
  obtain ⟨_, zeroized, hzero, hdelete⟩ := Tx.does_bind hinvite
  cases does_saveInTx hsave
  cases Tx.does_update hupsert
  cases Tx.does_update hlink
  cases Tx.does_update hkp
  cases Tx.does_update hzero
  cases Tx.does_update hdelete
  cases bindX25519 with
  | none =>
    obtain ⟨-, rfl⟩ := Tx.does_pure h
    rfl
  | some x =>
    cases Tx.does_update h
    rfl

theorem transaction_persistJoin (deps : JoinDeps P G) (bindX25519 : Option (ByteArr 32))
    (join : Prepared G) (tables : Tables) (hepoch : deps.mls.epoch join.group.inner < 2 ^ 63) :
    Pool.transaction none (persistJoin deps bindX25519 join) tables =
      (.ok (), joinTables deps bindX25519 join tables) := by
  have hsave : saveInTx deps.mls.toOpenMls join.group =
      Tx.update (.storage "put mls group") fun tables => { tables with
        groups := tables.groups.put join.group.id (groupRow deps.mls.toOpenMls join.group) } := by
    rw [saveInTx, MlsGroupRepo.putInTx, ensure, if_pos hepoch]
    rfl
  unfold persistJoin
  rw [hsave]
  cases bindX25519 <;> rfl

theorem exec_welcomeJoinPersist (deps : JoinDeps P G) (env : JoinEnv) (welcome : Bytes)
    (bindX25519 hTransport : Option (ByteArr 32)) (state : State) :
    exec (welcomeJoinPersist deps env welcome bindX25519 hTransport) state =
      match prepareJoin deps env state.tables welcome bindX25519 hTransport with
      | .error e => (.error e, state)
      | .ok join =>
        match Pool.transaction env.budget (persistJoin deps bindX25519 join) state.tables with
        | (.error e, _) => (.error e, state)
        | (.ok _, tables) => (.ok join.derived, { state with
            tables := tables, events := state.events ++ [.contactUpdated join.derived] }) := by
  rw [welcomeJoinPersist, exec_bind, exec_get]
  dsimp only
  rw [exec_bind, exec_attempt]
  cases prepareJoin deps env state.tables welcome bindX25519 hTransport with
  | error e => rfl
  | ok join =>
    dsimp only
    rw [exec_bind]
    rw [transact, exec_transactWithin]
    rcases Pool.transaction env.budget (persistJoin deps bindX25519 join) state.tables with
      ⟨result, tables⟩
    cases result <;> rfl

theorem receiveWelcome_cases {samePeer : FirstContactAck → Bool} {state state' : State}
    {outcome : WelcomeOutcome}
    (h : receiveWelcome deps env samePeer bindX25519 hTransport welcome state = (outcome, state')) :
    (∃ join, prepareJoin deps env state.tables welcome bindX25519 hTransport = .ok join ∧
      outcome = .joined join.derived ∧
      state'.tables = joinTables deps bindX25519 join state.tables) ∨
    (∀ derived, outcome ≠ .joined derived) ∧ state' = state := by
  unfold receiveWelcome at h
  split at h
  · split at h <;> cases h <;> exact .inr ⟨by simp, rfl⟩
  rw [exec_welcomeJoinPersist] at h
  cases hprepare : prepareJoin deps env state.tables welcome bindX25519 hTransport with
  | error e =>
    rw [hprepare] at h
    cases h
    exact .inr ⟨by simp, rfl⟩
  | ok join =>
    rcases hpersist : Pool.transaction env.budget (persistJoin deps bindX25519 join)
      state.tables with ⟨result, tables⟩
    rw [hprepare] at h
    simp only [hpersist] at h
    cases result with
    | error e =>
      cases h
      exact .inr ⟨by simp, rfl⟩
    | ok u =>
      cases h
      exact .inl ⟨join, rfl, rfl, does_persistJoin (Tx.run_ok hpersist)⟩

theorem get_joinTables_invites (deps : JoinDeps P G) (bindX25519 : Option (ByteArr 32))
    (join : Prepared G) (tables : Tables) (kpRef : KpRef) :
    (joinTables deps bindX25519 join tables).outstandingInvites.get kpRef =
      if kpRef = join.kpRef then none else tables.outstandingInvites.get kpRef := by
  by_cases hkp : kpRef = join.kpRef
  · rw [if_pos hkp, hkp]
    exact Table.get_delete_self _ _
  · rw [if_neg hkp]
    exact (Table.get_delete_ne _ hkp).trans (Table.get_modify_ne _ _ hkp)

end Skattr.Core.Daemon
