import Skattr.Core.Daemon.CreateInvite
import Skattr.Lib.Run

/-!
# The transport binding of a Welcome

A Welcome is accepted on the bootstrap path or on the established connection of a contact. The
secrets that its genesis commit must reference are registered before the join, but which ones it
references is left to the sender, and the established path registers no transcript value and
compares the identity only after the join. `accepted_welcome` says what an accepted Welcome
guarantees on either path, and exactly when it is bound to the connection that it came on.
-/

namespace Skattr.Core.Daemon

open Lib Lib.Fallible Core.Mls

variable {P G : Type} {obs : Observation P G} {deps : InviteDeps P G} {state : State}

/-- An authenticated connection: the Noise static key of the peer, the transcript value of the
handshake, and the contact that the connection is attributed to, unless the peer is unknown. -/
structure Connection where
  peerX25519 : ByteArr 32
  hTransport : ByteArr 32
  peer : Option PublicKey
  deriving DecidableEq

/-- Handle a Welcome on a connection: the path depends on whether the peer is known. -/
def welcomeOn (deps : JoinDeps P G) (env : JoinEnv) (conn : Connection) (welcome : Bytes)
    (state : State) : WelcomeOutcome × State :=
  match conn.peer with
  | some peer => receiveWelcome deps env (·.peerIdentity = peer) none none welcome state
  | none => receiveWelcome deps env (·.peerX25519 = conn.peerX25519) (some conn.peerX25519)
      (some conn.hTransport) welcome state

variable (toX25519 : PublicKey → Option (ByteArr 32))

def Connection.Authenticates (conn : Connection) (member : PublicKey) : Prop :=
  match conn.peer with
  | some peer => member = peer
  | none => toX25519 member = some conn.peerX25519

/-- A Welcome is bound to a connection: its genesis commit references the stored secret of its
invite and the transcript value of the connection, and it is from the authenticated identity. -/
structure Bound (tables : Tables) (conn : Connection) (genesis : Genesis) (member : PublicKey) :
    Prop where
  invitePsk : ∃ invite, tables.outstandingInvites.get genesis.kpRef = some invite ∧
    (pskId .invite genesis.kpRef, invite.psk) ∈ genesis.psks
  transport : (pskId .htransport genesis.kpRef, conn.hTransport) ∈ genesis.psks
  isMember : member.bytes ∈ genesis.members
  identity : conn.Authenticates toX25519 member

/-- What acceptance guarantees: the genesis commit references no PSK but the stored secret of its
invite and, on the bootstrap path, the transcript value of the connection; and on that path the
Welcome is from the authenticated identity. -/
structure Resolved (tables : Tables) (conn : Connection) (genesis : Genesis) (member : PublicKey) :
    Prop where
  psks : ∃ invite, tables.outstandingInvites.get genesis.kpRef = some invite ∧
    ∀ entry ∈ genesis.psks, entry = (pskId .invite genesis.kpRef, invite.psk) ∨
      conn.peer = none ∧ entry = (pskId .htransport genesis.kpRef, conn.hTransport)
  isMember : member.bytes ∈ genesis.members
  identity : conn.peer = none → conn.Authenticates toX25519 member

/-- The genesis commit names both PSKs of its invite, whatever their values. -/
def NamesBoth (genesis : Genesis) : Prop :=
  pskId .invite genesis.kpRef ∈ genesis.psks.map Prod.fst ∧
    pskId .htransport genesis.kpRef ∈ genesis.psks.map Prod.fst

/-! ### The invites of a daemon -/

/-- What happens to a daemon: it creates an invite, a Welcome arrives, expired invites are purged,
or some other part of it changes the other tables. -/
inductive InviteAction where
  | createInvite (env : CreateEnv) (nickname : Option String) (ttlSecs : Option Nat)
  | welcome (env : JoinEnv) (conn : Connection) (bytes : Bytes)
  | purgeExpired (now : Int)
  | elsewhere (tables : Tables)

def inviteStep (deps : InviteDeps P G) (state : State) : InviteAction → State
  | .createInvite env nickname ttlSecs => (exec (createInvite deps env nickname ttlSecs) state).2
  | .welcome env conn bytes => (welcomeOn deps.toJoinDeps env conn bytes state).2
  | .purgeExpired now => { state with tables := { state.tables with
      outstandingInvites := state.tables.outstandingInvites.deleteWhere fun _ invite =>
        invite.expiresAt < now } }
  | .elsewhere tables => { state with tables := { tables with
      outstandingInvites := state.tables.outstandingInvites } }

def InvitesFresh (mls : Onboarding P G) (obs : Observation P G) (tables : Tables) : Prop :=
  ∀ {kpRef invite provider}, tables.outstandingInvites.get kpRef = some invite →
    restoreProvider mls invite.providerSnapshot = .ok provider → ∀ id, obs.psk provider id = none

theorem InvitesFresh.of_subset {mls : Onboarding P G} {s t : Tables} (hs : InvitesFresh mls obs s)
    (hsub : ∀ {kpRef invite}, t.outstandingInvites.get kpRef = some invite →
      s.outstandingInvites.get kpRef = some invite) : InvitesFresh mls obs t :=
  fun hget hrestore => hs (hsub hget) hrestore

theorem createInvite_invitesFresh (hmls : deps.mls.Lawful obs) (env : CreateEnv)
    (nickname : Option String) (ttlSecs : Option Nat)
    (hs : InvitesFresh deps.mls obs state.tables) :
    InvitesFresh deps.mls obs (exec (createInvite deps env nickname ttlSecs) state).2.tables := by
  rcases h : exec (createInvite deps env nickname ttlSecs) state with ⟨result, after⟩
  rcases createInvite_cases h with ⟨-, hsame⟩ | ⟨invite, middle, hbuild, -, hstored⟩
  · exact hs.of_subset fun hget => hsame ▸ hget
  intro kpRef row provider hget hrestore id
  dsimp only at hget
  rw [hstored] at hget
  by_cases hkp : kpRef = invite.kpRef
  · rw [hkp, Table.get_put_self] at hget
    cases hget
    -- the snapshot is of the provider that the key package was generated with
    obtain ⟨generated, hgenerated, -, hpsk, -⟩ := buildInvite_provider hmls hbuild
    cases hgenerated.symm.trans hrestore
    exact hpsk id
  · rw [Table.get_put_ne _ _ hkp, Table.get_delete_ne _ hkp] at hget
    exact hs hget hrestore id

theorem receiveWelcome_invitesFresh {deps : JoinDeps P G} (env : JoinEnv)
    (samePeer : FirstContactAck → Bool) (bindX25519 hTransport : Option (ByteArr 32))
    (welcome : Bytes) (hs : InvitesFresh deps.mls obs state.tables) :
    InvitesFresh deps.mls obs
      (receiveWelcome deps env samePeer bindX25519 hTransport welcome state).2.tables := by
  rcases h : receiveWelcome deps env samePeer bindX25519 hTransport welcome state with
    ⟨outcome, after⟩
  rcases receiveWelcome_cases h with ⟨join, -, -, htables⟩ | ⟨-, rfl⟩
  · refine hs.of_subset fun {kpRef invite} hget => ?_
    dsimp only at hget
    rw [htables, get_joinTables_invites] at hget
    split at hget
    · cases hget
    · exact hget
  · exact hs

theorem step_invitesFresh (hmls : deps.mls.Lawful obs) (state : State) (action : InviteAction)
    (hs : InvitesFresh deps.mls obs state.tables) :
    InvitesFresh deps.mls obs (inviteStep deps state action).tables := by
  cases action with
  | createInvite env nickname ttlSecs =>
    exact createInvite_invitesFresh hmls env nickname ttlSecs hs
  | welcome env conn bytes =>
    simp only [inviteStep, welcomeOn]
    split <;> exact receiveWelcome_invitesFresh env _ _ _ bytes hs
  | purgeExpired now =>
    refine hs.of_subset fun {kpRef invite} hget => ?_
    rw [inviteStep, Table.get_deleteWhere] at hget
    exact (Option.filter_eq_some_iff.mp hget).1
  | elsewhere tables => exact hs

/-! ### When an accepted Welcome is bound -/

section Accepted

variable {deps : JoinDeps P G} {obs : Observation P G} {env : JoinEnv} {tables : Tables}
  {welcome : Bytes} {join : Prepared G} {conn : Connection}

/-- What a prepared join says about its Welcome: it describes a group with the derived member, and
each PSK that it references has the value of the secret that was registered under its id. -/
theorem prepareJoin_genesis (hmls : deps.mls.Lawful obs)
    (hfresh : InvitesFresh deps.mls obs tables) {bindX25519 hTransport : Option (ByteArr 32)}
    (h : prepareJoin deps env tables welcome bindX25519 hTransport = .ok join) :
    ∃ genesis invite, obs.genesis welcome = some genesis ∧
      tables.outstandingInvites.get genesis.kpRef = some invite ∧
      join.derived.bytes ∈ genesis.members ∧ bindIdentity deps join.derived bindX25519 = .ok () ∧
      ∀ entry ∈ genesis.psks,
        (entry.1 = pskId .htransport genesis.kpRef ∧ hTransport = some entry.2) ∨
        (entry.1 = pskId .invite genesis.kpRef ∧ entry.2 = invite.psk) := by
  obtain ⟨self, invite, provider, -, hparse, hinvite, hprovider, hjoin, hpeer, hbind⟩ :=
    prepareJoin_ok h
  obtain ⟨genesis, owner, hgenesis, hkey, hresolves⟩ :=
    (joinFromWelcome_ok_iff hmls _ _ _ _ _ _).mp ⟨_, hjoin⟩
  have hkp : join.kpRef = genesis.kpRef :=
    Except.ok.inj (hparse.symm.trans (parseWelcomeKpHash_genesis hmls hgenesis))
  obtain ⟨-, hmembers, -, -⟩ := joinFromWelcome_group hmls hjoin hgenesis hkey
  rw [hkp] at hinvite hresolves
  refine ⟨genesis, invite, hgenesis, hinvite, hmembers ▸ peerIdentity_mem hpeer, hbind, ?_⟩
  intro entry hentry
  have hvalue := hresolves entry hentry
  rw [psk_registered hmls, hfresh hinvite hprovider] at hvalue
  split at hvalue
  · next hid => exact .inl ⟨hid.1, hvalue⟩
  split at hvalue
  · next hid => exact .inr ⟨hid, (Option.some.inj hvalue).symm⟩
  · cases hvalue

theorem established_resolved (hmls : deps.mls.Lawful obs)
    (hfresh : InvitesFresh deps.mls obs tables) {peer : PublicKey} (hpeer : conn.peer = some peer)
    (h : prepareJoin deps env tables welcome none none = .ok join) :
    ∃ genesis, obs.genesis welcome = some genesis ∧
      Resolved deps.toX25519 tables conn genesis join.derived := by
  obtain ⟨genesis, invite, hgenesis, hinvite, hmember, -, hpsks⟩ :=
    prepareJoin_genesis hmls hfresh h
  refine ⟨genesis, hgenesis, ⟨invite, hinvite, fun entry hentry => ?_⟩, hmember, ?_⟩
  · rcases hpsks entry hentry with ⟨-, hnone⟩ | ⟨hid, hvalue⟩
    · cases hnone
    · exact .inl (Prod.ext hid hvalue)
  · rw [hpeer]
    simp

theorem bootstrap_resolved (hmls : deps.mls.Lawful obs) (hfresh : InvitesFresh deps.mls obs tables)
    (hpeer : conn.peer = none)
    (h : prepareJoin deps env tables welcome (some conn.peerX25519) (some conn.hTransport) = .ok
      join) :
    ∃ genesis, obs.genesis welcome = some genesis ∧
      Resolved deps.toX25519 tables conn genesis join.derived := by
  obtain ⟨genesis, invite, hgenesis, hinvite, hmember, hbind, hpsks⟩ :=
    prepareJoin_genesis hmls hfresh h
  refine ⟨genesis, hgenesis, ⟨invite, hinvite, fun entry hentry => ?_⟩, hmember, fun _ => ?_⟩
  · rcases hpsks entry hentry with ⟨hid, hvalue⟩ | ⟨hid, hvalue⟩
    · exact .inr ⟨hpeer, Prod.ext hid (Option.some.inj hvalue).symm⟩
    · exact .inl (Prod.ext hid hvalue)
  · rw [Connection.Authenticates, hpeer]
    exact bindIdentity_ok hbind

end Accepted

theorem Resolved.bound_iff {toX25519 : PublicKey → Option (ByteArr 32)} {tables : Tables}
    {conn : Connection} {genesis : Genesis} {member : PublicKey}
    (h : Resolved toX25519 tables conn genesis member) :
    Bound toX25519 tables conn genesis member ↔ conn.peer = none ∧ NamesBoth genesis := by
  obtain ⟨invite, hinvite, hpsks⟩ := h.psks
  constructor
  · intro hbound
    obtain ⟨_, -, hpsk⟩ := hbound.invitePsk
    refine ⟨?_, List.mem_map_of_mem hpsk, List.mem_map_of_mem hbound.transport⟩
    -- the transcript value is referenced, and that is possible on one path only
    rcases hpsks _ hbound.transport with hentry | ⟨hpeer, -⟩
    · exact absurd (congrArg Prod.fst hentry).symm (pskId_invite_ne_htransport _ _)
    · exact hpeer
  · rintro ⟨hpeer, hinviteId, htransportId⟩
    obtain ⟨entry, hentry, hid⟩ := List.mem_map.mp hinviteId
    obtain ⟨entry', hentry', hid'⟩ := List.mem_map.mp htransportId
    refine ⟨⟨invite, hinvite, ?_⟩, ?_, h.isMember, h.identity hpeer⟩
    · rcases hpsks entry hentry with rfl | ⟨-, rfl⟩
      · exact hentry
      · exact absurd hid.symm (pskId_invite_ne_htransport _ _)
    · rcases hpsks entry' hentry' with rfl | ⟨-, rfl⟩
      · exact absurd hid' (pskId_invite_ne_htransport _ _)
      · exact hentry'

/-- In every run of a daemon, the genesis commit of an accepted Welcome references no PSK but the
stored secret of its invite and, on the bootstrap path, the transcript value of its connection; on
that path it is from the authenticated identity. It is bound to its connection exactly when it came
on the bootstrap path and names both PSKs. -/
theorem accepted_welcome (deps : InviteDeps P G) {obs : Observation P G}
    (hmls : deps.mls.Lawful obs) (actions : List InviteAction) (env : JoinEnv) (conn : Connection)
    (welcome : Bytes) (member : PublicKey)
    (h : (welcomeOn deps.toJoinDeps env conn welcome
      (actions.foldl (inviteStep deps) State.init)).1 = .joined member) :
    ∃ genesis, obs.genesis welcome = some genesis ∧
      Resolved deps.toX25519 (actions.foldl (inviteStep deps) State.init).tables conn genesis
        member ∧
      (Bound deps.toX25519 (actions.foldl (inviteStep deps) State.init).tables conn genesis member ↔
        conn.peer = none ∧ NamesBoth genesis) := by
  have hfresh : InvitesFresh deps.mls obs (actions.foldl (inviteStep deps) State.init).tables :=
    foldl_invariant (step_invitesFresh hmls) actions fun hget => by cases hget
  revert h hfresh
  generalize actions.foldl (inviteStep deps) State.init = state
  intro h hfresh
  suffices hresolved : ∃ genesis, obs.genesis welcome = some genesis ∧
      Resolved deps.toX25519 state.tables conn genesis member by
    obtain ⟨genesis, hgenesis, hresolved⟩ := hresolved
    exact ⟨genesis, hgenesis, hresolved, hresolved.bound_iff⟩
  unfold welcomeOn at h
  cases hpeer : conn.peer with
  | some peer =>
    rw [hpeer] at h
    rcases receiveWelcome_cases rfl with ⟨join, hjoin, houtcome, -⟩ | ⟨hnot, -⟩
    · cases houtcome.symm.trans h
      exact established_resolved hmls hfresh hpeer hjoin
    · exact absurd h (hnot member)
  | none =>
    rw [hpeer] at h
    rcases receiveWelcome_cases rfl with ⟨join, hjoin, houtcome, -⟩ | ⟨hnot, -⟩
    · cases houtcome.symm.trans h
      exact bootstrap_resolved hmls hfresh hpeer hjoin
    · exact absurd h (hnot member)

/-! ### A Welcome that is not bound -/

def quietJoin : JoinEnv := ⟨⟨0, .fill 16 0, none, none⟩, false, false⟩

def oneInvite : List InviteAction := [.createInvite quietCreate none (some 10)]

/-- The Welcome of `sender` into a group with alice for the invite above, with these PSKs. -/
def welcomeOf (sender : PublicKey) (psks : List (Bytes × ByteArr 32)) : Genesis :=
  ⟨.fill 32 7, List.replicate 32 9, [sender.bytes, alice.bytes], 1, psks⟩

/-- The PSKs of an honest genesis commit over a connection with this transcript value. -/
def honestPsks (hTransport : ByteArr 32) : List (Bytes × ByteArr 32) :=
  [(pskId .invite (.fill 32 7), .fill 32 8), (pskId .htransport (.fill 32 7), hTransport)]

/-- An honest Welcome of bob is accepted on the bootstrap path. -/
theorem honest_welcome_accepted :
    (welcomeOn (rosterDeps alice alice).toJoinDeps quietJoin ⟨bob, .fill 32 5, none⟩
      (welcomeOf bob (honestPsks (.fill 32 5))).encode
      (oneInvite.foldl (inviteStep (rosterDeps alice alice)) State.init)).1 = .joined bob ∧
    ∃ genesis, rosterObservation.genesis (welcomeOf bob (honestPsks (.fill 32 5))).encode =
        some genesis ∧
      Resolved some (oneInvite.foldl (inviteStep (rosterDeps alice alice)) State.init).tables
        ⟨bob, .fill 32 5, none⟩ genesis bob ∧
      (Bound some (oneInvite.foldl (inviteStep (rosterDeps alice alice)) State.init).tables
          ⟨bob, .fill 32 5, none⟩ genesis bob ↔
        (none : Option PublicKey) = none ∧ NamesBoth genesis) :=
  ⟨by decide +kernel, accepted_welcome (rosterDeps alice alice) rosterMls_lawful oneInvite
    quietJoin ⟨bob, .fill 32 5, none⟩ _ bob (by decide +kernel)⟩

/-- A Welcome whose genesis commit references no PSK is accepted on the bootstrap path, and one of
mallory on the established connection of bob. Neither is bound to its connection. -/
theorem unbound_welcome_accepted :
    ((welcomeOn (rosterDeps alice alice).toJoinDeps quietJoin ⟨mallory, .fill 32 5, none⟩
        (welcomeOf mallory []).encode
        (oneInvite.foldl (inviteStep (rosterDeps alice alice)) State.init)).1 = .joined mallory ∧
      (welcomeOn (rosterDeps alice alice).toJoinDeps quietJoin ⟨bob, .fill 32 5, some bob⟩
        (welcomeOf mallory []).encode
        (oneInvite.foldl (inviteStep (rosterDeps alice alice)) State.init)).1 = .joined mallory) ∧
    rosterObservation.genesis (welcomeOf mallory []).encode = some (welcomeOf mallory []) ∧
    ∀ conn, ¬Bound some (oneInvite.foldl (inviteStep (rosterDeps alice alice)) State.init).tables
      conn (welcomeOf mallory []) mallory := by
  refine ⟨⟨by decide +kernel, by decide +kernel⟩, Genesis.decode_encode (welcomeOf mallory []), ?_⟩
  intro conn hbound
  exact List.not_mem_nil hbound.transport

end Skattr.Core.Daemon
