import Skattr.Core.Daemon.AddContact

/-!
# First contact between two daemons

The whole run of a first contact: the inviter creates an invite, the invitee accepts it over a
connection, and the inviter's accept loop handles the Welcome that arrives on that connection.
`connected_iff_unknown` says that the run ends with both sides in the same linked group exactly when
the inviter's contact list does not resolve the invitee's static key: a known peer is handled on the
established path, which never registers the transcript value that the Welcome references.
-/

namespace Skattr.Core.Daemon

open Lib Lib.Fallible Core.Mls

variable {P G : Type}

/-- What a handshake tells the responder. -/
structure HandshakeOutcome where
  peerX25519 : ByteArr 32
  hTransport : ByteArr 32
  deriving DecidableEq

/-- What the accept loop does with a connection whose first frame is a Welcome; the result is the
acknowledgement that is sent. The connection of a contact goes to the actor of that contact, which
hands the Welcome to `dispatchWelcome`. -/
def handleInboundStream (deps : JoinDeps P G) (env : JoinEnv) (resolveFault : Bool)
    (outcome : HandshakeOutcome) (welcome : Bytes) (state : State) : Option MessageId × State :=
  if resolveFault then (none, state)
  else
    match ContactRepo.findByNoiseX25519 deps.toX25519 state.tables outcome.peerX25519 with
    | some peer => dispatchWelcome deps env peer welcome state
    | none =>
      match dispatchWelcomeBootstrap deps env welcome outcome.peerX25519
        (some outcome.hTransport) state with
      | (some _, state) => (some (welcomeMsgId deps.blake2s welcome), state)
      | (none, state) => (none, state)

def firstWelcome (deps : InviteDeps P G) (env : AddEnv) (url : List Char) : Option Bytes :=
  match InviteLink.fromUrl deps.codec deps.verifyLink url env.now with
  | .error _ => none
  | .ok link => (buildFirstContact deps env link).toOption.map FirstContact.welcome

/-- The inputs of a run: the inviter creates an invite in `origin`, the invitee adds it in `start`,
and the Welcome arrives on a connection when the inviter is in `state`. -/
structure ContactRun where
  createEnv : CreateEnv
  nickname : Option String
  ttlSecs : Option Nat
  origin : State
  created : InviteCreated
  addEnv : AddEnv
  start : State
  added : ContactAdded
  welcome : Bytes
  outcome : HandshakeOutcome
  joinEnv : JoinEnv
  state : State

namespace ContactRun

def inviteeState (invitee : InviteDeps P G) (run : ContactRun) : State :=
  (exec (addContact invitee run.addEnv run.created.url) run.start).2

def handled (inviter : InviteDeps P G) (run : ContactRun) : Option MessageId × State :=
  handleInboundStream inviter.toJoinDeps run.joinEnv false run.outcome run.welcome run.state

/-- An honest run between two daemons: the invite that the invitee accepts is the one that was
created, its row is still stored and has not expired, nobody has joined with it yet, and its Welcome
arrives on the connection that it was bound to. Of the inviter's state nothing else is required, and
the storage does not fail while the Welcome is handled. -/
structure Honest (inviter invitee : InviteDeps P G) (run : ContactRun) : Prop where
  created : (exec (createInvite inviter run.createEnv run.nickname run.ttlSecs) run.origin).1 =
    .ok run.created
  added : (exec (addContact invitee run.addEnv run.created.url) run.start).1 = .ok run.added
  welcome : firstWelcome invitee run.addEnv run.created.url = some run.welcome
  hTransport : dialInviter run.addEnv.dial = .ok run.outcome.hTransport
  peerX25519 : inviter.toX25519 invitee.self = some run.outcome.peerX25519
  stored : run.state.tables.outstandingInvites.get run.created.keyPackageId =
    (exec (createInvite inviter run.createEnv run.nickname
      run.ttlSecs) run.origin).2.tables.outstandingInvites.get run.created.keyPackageId
  unexpired : ∀ invite ∈ run.state.tables.outstandingInvites.get run.created.keyPackageId,
    run.joinEnv.now ≤ invite.expiresAt
  unused : run.state.tables.firstContactAcks.get run.created.keyPackageId = none
  inviteFault : run.joinEnv.inviteFault = false
  budget : run.joinEnv.budget = none

/-- The run succeeds: the Welcome is acknowledged, and both sides have stored the same group and
linked the other one to it. -/
structure Connected (inviter invitee : InviteDeps P G) (run : ContactRun) : Prop where
  acked : (run.handled inviter).1 = some (welcomeMsgId inviter.blake2s run.welcome)
  linked : ∃ groupId,
    ContactRepo.getGroupId (run.handled inviter).2.tables invitee.self = some groupId ∧
    ContactRepo.getGroupId (run.inviteeState invitee).tables inviter.self = some groupId ∧
    ((run.handled inviter).2.tables.groups.get groupId).isSome ∧
    ((run.inviteeState invitee).tables.groups.get groupId).isSome

end ContactRun

/-- Two daemons that run the same libraries with identities of their own; the inviter's is wired. -/
structure Peers (inviter invitee : InviteDeps P G) (obs : Observation P G) : Prop where
  lawful : inviter.mls.Lawful obs
  codec : inviter.codec.Lawful
  sameMls : invitee.mls = inviter.mls
  sameCodec : invitee.codec = inviter.codec
  identity : inviter.identity = some inviter.self
  distinct : invitee.self ≠ inviter.self

section Run

variable {inviter invitee : InviteDeps P G} {obs : Observation P G} {run : ContactRun}

theorem ContactRun.Honest.invite (h : run.Honest inviter invitee) :
    ∃ invite middle, exec (buildInvite inviter run.createEnv run.nickname run.ttlSecs) run.origin =
        (.ok invite, middle) ∧
      run.created.url = invite.url ∧ run.created.keyPackageId = invite.kpRef ∧
      run.state.tables.outstandingInvites.get invite.kpRef = some invite.row := by
  rcases createInvite_cases (Prod.ext h.created rfl) with ⟨⟨e, herror⟩, -⟩ |
    ⟨invite, middle, hbuild, hcreated, hstored⟩
  · cases herror
  have hcreated := Except.ok.inj hcreated
  refine ⟨invite, middle, hbuild, by rw [hcreated], by rw [hcreated], ?_⟩
  have hrow := h.stored
  rw [hstored, show run.created.keyPackageId = invite.kpRef by rw [hcreated],
    Table.get_put_self] at hrow
  exact hrow

/-- The Welcome of an honest run is for the key package of the invite, leads to the group that the
invitee has stored and linked, and references the secret of the invite and the transcript value of
the connection. -/
theorem ContactRun.Honest.genesis (hpeers : Peers inviter invitee obs)
    (h : run.Honest inviter invitee) {invite : NewInvite} {middle : State}
    (hbuild : exec (buildInvite inviter run.createEnv run.nickname run.ttlSecs) run.origin =
      (.ok invite, middle)) (hurl : run.created.url = invite.url) :
    obs.genesis run.welcome = some ⟨invite.kpRef, run.addEnv.random.bytes,
        [invitee.self.bytes, inviter.self.bytes], 1,
        [(pskId .invite invite.kpRef, invite.row.psk),
          (pskId .htransport invite.kpRef, run.outcome.hTransport)]⟩ ∧
      ContactRepo.getGroupId (run.inviteeState invitee).tables inviter.self =
        some run.addEnv.random.bytes ∧
      ((run.inviteeState invitee).tables.groups.get run.addEnv.random.bytes).isSome := by
  obtain ⟨link, contact, hparse, hcontact, -, hcontacts, hgroups, -⟩ :=
    addContact_ok (Prod.ext h.added rfl)
  obtain ⟨provider, -, -, href, htoUrl, hidentity, hpackage, hpsk, -⟩ := buildInvite_ok hbuild
  obtain ⟨-, -, -, -, hkeyIdentity, hkeyPackage⟩ := buildInvite_provider hpeers.lawful hbuild
  -- the parsed link is the one that was made
  have hparsed := hparse
  rw [hurl, hpeers.sameCodec] at hparsed
  obtain ⟨hlink, -⟩ := InviteLink.fromUrl_toUrl hpeers.codec htoUrl hparsed
  obtain ⟨keyPackage, hTransport, hkp, hdial, hid, hgenesis⟩ :=
    buildFirstContact_ok (hpeers.sameMls ▸ hpeers.lawful) hcontact
  have hinviter : link.inviter = inviter.self := by
    rw [hlink]
    exact hidentity
  have hwelcome : contact.welcome = run.welcome := by
    have hfirst := h.welcome
    rw [firstWelcome, hparse] at hfirst
    dsimp only at hfirst
    rw [hcontact] at hfirst
    exact Option.some.inj hfirst
  have hkept : keyPackage = invite.row.inviterKp := by
    rw [hpeers.sameMls, hlink] at hkp
    dsimp only at hkp
    rw [hpackage, hkeyPackage] at hkp
    exact (Except.ok.inj hkp).symm
  cases hdial.symm.trans h.hTransport
  rw [hwelcome, hkept, hpeers.sameMls, ← href, hkeyIdentity, show link.psk = invite.row.psk by
    rw [hlink]; exact hpsk] at hgenesis
  refine ⟨hgenesis, ?_, ?_⟩
  · rw [inviteeState, getGroupId_added hcontacts, if_pos hinviter.symm, hid]
  · rw [inviteeState, hgroups, hid, Table.get_put_self]
    rfl

theorem ContactRun.Honest.bootstrap (hpeers : Peers inviter invitee obs)
    (h : run.Honest inviter invitee) :
    ∃ join, prepareJoin inviter.toJoinDeps run.joinEnv run.state.tables run.welcome
        (some run.outcome.peerX25519) (some run.outcome.hTransport) = .ok join ∧
      join.derived = invitee.self ∧ join.group.id = run.addEnv.random.bytes ∧
      inviter.mls.epoch join.group.inner = 1 := by
  obtain ⟨invite, middle, hbuild, hurl, hid, hrow⟩ := h.invite
  obtain ⟨hgenesis, -, -⟩ := h.genesis hpeers hbuild hurl
  obtain ⟨provider, hrestore, hkey, hpsk, -, hkeyPackage⟩ :=
    buildInvite_provider hpeers.lawful hbuild
  -- both secrets are registered with the values that the Welcome references
  obtain ⟨group, hjoin⟩ := (joinFromWelcome_ok_iff hpeers.lawful inviter.self run.welcome
    invite.kpRef invite.row.psk (some run.outcome.hTransport) provider).mpr
      ⟨_, inviter.self, hgenesis, hkey, fun entry hentry => by
        rw [psk_registered hpeers.lawful]
        rcases List.mem_pair.mp hentry with rfl | rfl
        · rw [if_neg (fun hboth => pskId_invite_ne_htransport _ _ hboth.1), if_pos rfl]
        · rw [if_pos ⟨rfl, rfl⟩]⟩
  obtain ⟨hgroupId, hmembers, hepoch, hown⟩ :=
    joinFromWelcome_group hpeers.lawful hjoin hgenesis hkey
  have hpeer := peerIdentity_eq hpeers.distinct hmembers hown
  have hunexpired : ¬invite.row.expiresAt < run.joinEnv.now :=
    not_lt.mpr (h.unexpired _ (hid ▸ hrow))
  refine ⟨⟨invite.kpRef, inviter.mls.sha256 invite.row.inviterKp, invite.row.nickname,
    run.joinEnv.now, group, invitee.self⟩, ?_, rfl, hgroupId, hepoch⟩
  simp only [prepareJoin, hpeers.identity, bind_eq_ok]
  refine ⟨_, parseWelcomeKpHash_genesis hpeers.lawful hgenesis, invite.row, ?_, ?_⟩
  · rw [findInvite, h.inviteFault, if_neg (by simp), hrow]
  · simp only [joinInvite, bind_eq_ok, check_eq_ok, mapError_eq_ok]
    refine ⟨(), hunexpired, _, hkeyPackage, provider, hrestore, group, hjoin, _, hpeer, (), ?_, (),
      ?_, rfl⟩
    · rw [bindIdentity, h.peerX25519]
      exact check_eq_ok.mpr rfl
    · rw [hgroupId]
      exact run.addEnv.random.length_eq

theorem ContactRun.Honest.established (hpeers : Peers inviter invitee obs)
    (h : run.Honest inviter invitee) (join : Prepared G) :
    prepareJoin inviter.toJoinDeps run.joinEnv run.state.tables run.welcome none none ≠
      .ok join := by
  intro hprepare
  obtain ⟨invite, middle, hbuild, hurl, -, hrow⟩ := h.invite
  obtain ⟨hgenesis, -, -⟩ := h.genesis hpeers hbuild hurl
  obtain ⟨provider, hrestore, -, hpsk, -⟩ := buildInvite_provider hpeers.lawful hbuild
  obtain ⟨self, found, restored, -, hparse, hfound, hprovider, hjoin, -⟩ := prepareJoin_ok hprepare
  have hkp : join.kpRef = invite.kpRef :=
    Except.ok.inj (hparse.symm.trans (parseWelcomeKpHash_genesis hpeers.lawful hgenesis))
  rw [hkp] at hfound hjoin
  cases hfound.symm.trans hrow
  cases hprovider.symm.trans hrestore
  obtain ⟨genesis, _, hsame, -, hresolves⟩ :=
    (joinFromWelcome_ok_iff hpeers.lawful _ _ _ _ none _).mp ⟨_, hjoin⟩
  cases hsame.symm.trans hgenesis
  -- the transcript value is referenced, but no PSK is registered under its id
  have htransport := hresolves (pskId .htransport invite.kpRef, run.outcome.hTransport) (by simp)
  rw [psk_registered hpeers.lawful, if_neg (by simp),
    if_neg (pskId_invite_ne_htransport _ _).symm, hpsk] at htransport
  cases htransport

theorem ContactRun.Honest.ackLookup_eq (hpeers : Peers inviter invitee obs)
    (h : run.Honest inviter invitee) :
    ackLookup inviter.toJoinDeps run.joinEnv run.state.tables run.welcome = none := by
  obtain ⟨invite, middle, hbuild, hurl, hid, -⟩ := h.invite
  obtain ⟨hgenesis, -, -⟩ := h.genesis hpeers hbuild hurl
  rw [ackLookup, parseWelcomeKpHash_genesis hpeers.lawful hgenesis]
  dsimp only
  rw [← hid, h.unused, ite_self]

end Run

/-- An honest first contact connects the two daemons exactly when no contact in the inviter's list
has the static key of the connection: when the invitee is unknown, or a contact that is hidden. -/
theorem connected_iff_unknown {inviter invitee : InviteDeps P G} {obs : Observation P G}
    (hpeers : Peers inviter invitee obs) {run : ContactRun} (h : run.Honest inviter invitee) :
    run.Connected inviter invitee ↔
      ContactRepo.findByNoiseX25519 inviter.toX25519 run.state.tables run.outcome.peerX25519 =
        none := by
  have hack := h.ackLookup_eq hpeers
  cases hfind : ContactRepo.findByNoiseX25519 inviter.toX25519 run.state.tables
    run.outcome.peerX25519 with
  | some peer =>
    refine ⟨fun hconnected => ?_, fun hnone => (by cases hnone)⟩
    -- the Welcome goes to the established path, which refuses it
    have hrefused : (run.handled inviter).1 = none := by
      rw [ContactRun.handled, handleInboundStream, if_neg (by simp), hfind]
      dsimp only
      rw [dispatchWelcome, receiveWelcome, hack]
      dsimp only
      rw [exec_welcomeJoinPersist]
      cases hprepare : prepareJoin inviter.toJoinDeps run.joinEnv run.state.tables run.welcome
        none none with
      | error e => rfl
      | ok join => exact absurd hprepare (h.established hpeers join)
    rw [hconnected.acked] at hrefused
    cases hrefused
  | none =>
    refine ⟨fun _ => rfl, fun _ => ?_⟩
    obtain ⟨invite, middle, hbuild, hurl, -, -⟩ := h.invite
    obtain ⟨-, hlinked, hstored⟩ := h.genesis hpeers hbuild hurl
    obtain ⟨join, hprepare, hderived, hgroupId, hepoch⟩ := h.bootstrap hpeers
    have hhandled : run.handled inviter = (some (welcomeMsgId inviter.blake2s run.welcome),
        { run.state with
          tables := joinTables inviter.toJoinDeps (some run.outcome.peerX25519) join
            run.state.tables
          events := run.state.events ++ [.contactUpdated join.derived] }) := by
      rw [ContactRun.handled, handleInboundStream, if_neg (by simp), hfind]
      dsimp only
      rw [dispatchWelcomeBootstrap, receiveWelcome, hack]
      dsimp only
      rw [exec_welcomeJoinPersist, hprepare]
      dsimp only
      rw [h.budget, transaction_persistJoin _ _ _ _ (by rw [hepoch]; decide)]
    refine ⟨by rw [hhandled], run.addEnv.random.bytes, ?_, hlinked, ?_, hstored⟩
    · rw [hhandled, ContactRepo.getGroupId]
      simp only [joinTables, joinContacts, ← hderived, Table.get_modify_self, Table.get_put_self,
        Option.map_some, hgroupId]
    · rw [hhandled]
      simp only [joinTables, ← hgroupId, Table.get_put_self, Option.isSome_some]

/-! ### Inviting twice -/

theorem roster_peers : Peers (rosterDeps alice alice) (rosterDeps bob alice) rosterObservation :=
  ⟨rosterMls_lawful, plainCodec_lawful _, rfl, rfl, rfl, by decide⟩

/-- Alice, in `origin`, invites bob, who accepts in `start`; meanwhile nothing else happens. -/
def inviteBob (createEnv : CreateEnv) (addEnv : AddEnv) (outcome : HandshakeOutcome)
    (origin start : State) : ContactRun :=
  let created := exec (createInvite (rosterDeps alice alice) createEnv none (some 10)) origin
  let invite := created.1.toOption.getD ⟨[], .fill 32 0, 0⟩
  { createEnv := createEnv, nickname := none, ttlSecs := some 10, origin := origin
    created := invite, addEnv := addEnv, start := start, added := ⟨alice, "self.onion", 0⟩
    welcome := (firstWelcome (rosterDeps bob alice) addEnv invite.url).getD []
    outcome := outcome, joinEnv := ⟨⟨0, .fill 16 0, none, none⟩, false, false⟩, state := created.2 }

theorem inviteBob_honest {createEnv : CreateEnv} {addEnv : AddEnv} {outcome : HandshakeOutcome}
    {origin start : State} {run : ContactRun}
    (hrun : run = inviteBob createEnv addEnv outcome origin start)
    (hcreated : (exec (createInvite (rosterDeps alice alice) createEnv none (some 10))
      origin).1.toOption.isSome)
    (hadded : (exec (addContact (rosterDeps bob alice) addEnv run.created.url) start).1 =
      .ok run.added)
    (hwelcome : (firstWelcome (rosterDeps bob alice) addEnv run.created.url).isSome)
    (hdial : dialInviter addEnv.dial = .ok outcome.hTransport) (hkey : outcome.peerX25519 = bob)
    (hunexpired : ∀ invite ∈ run.state.tables.outstandingInvites.get run.created.keyPackageId,
      run.joinEnv.now ≤ invite.expiresAt)
    (hunused : run.state.tables.firstContactAcks.get run.created.keyPackageId = none) :
    run.Honest (rosterDeps alice alice) (rosterDeps bob alice) := by
  subst hrun
  refine ⟨?_, hadded, ?_, hdial, congrArg some hkey.symm, rfl, hunexpired, hunused, rfl, rfl⟩
  · show (exec (createInvite (rosterDeps alice alice) createEnv none (some 10)) origin).1 =
      .ok ((exec (createInvite (rosterDeps alice alice) createEnv none (some 10))
        origin).1.toOption.getD ⟨[], .fill 32 0, 0⟩)
    cases hresult : (exec (createInvite (rosterDeps alice alice) createEnv none (some 10)) origin).1
    with
    | error e =>
      rw [hresult] at hcreated
      cases hcreated
    | ok created => rfl
  · exact (Option.some_get hwelcome).symm.trans (congrArg some (Option.get_eq_getD _))

def firstRun : ContactRun :=
  inviteBob quietCreate (quietAdd (.fill 32 5)) ⟨bob, .fill 32 5⟩ State.init State.init

/-- A second contact with a new invite over a new connection, after the first one succeeded. -/
def secondRun : ContactRun :=
  inviteBob { quietCreate with random := .fill 32 17 }
    { quietAdd (.fill 32 6) with random := .fill 32 19 } ⟨bob, .fill 32 6⟩
    (firstRun.handled (rosterDeps alice alice)).2 (firstRun.inviteeState (rosterDeps bob alice))

theorem firstRun_honest : firstRun.Honest (rosterDeps alice alice) (rosterDeps bob alice) :=
  inviteBob_honest rfl (by decide +kernel) (by decide +kernel) (by decide +kernel) rfl rfl
    (by decide +kernel) (by decide +kernel)

theorem secondRun_honest : secondRun.Honest (rosterDeps alice alice) (rosterDeps bob alice) :=
  inviteBob_honest rfl (by decide +kernel) (by decide +kernel) (by decide +kernel) rfl rfl
    (by decide +kernel) (by decide +kernel)

/-- Bob is unknown at first, and connects. -/
theorem first_contact_connects :
    firstRun.Connected (rosterDeps alice alice) (rosterDeps bob alice) :=
  (connected_iff_unknown roster_peers firstRun_honest).mpr (by decide +kernel)

/-- After that bob is a contact with a linked group, and an honest second contact is not even
acknowledged: bob is linked to the new group, alice still to the old one. -/
theorem second_contact_refused :
    secondRun.Honest (rosterDeps alice alice) (rosterDeps bob alice) ∧
      (secondRun.handled (rosterDeps alice alice)).1 = none ∧
      ContactRepo.getGroupId (secondRun.handled (rosterDeps alice alice)).2.tables bob =
        some (List.replicate 32 9) ∧
      ContactRepo.getGroupId (secondRun.inviteeState (rosterDeps bob alice)).tables alice =
        some (List.replicate 32 19) ∧
      ¬secondRun.Connected (rosterDeps alice alice) (rosterDeps bob alice) := by
  have hrefused : (secondRun.handled (rosterDeps alice alice)).1 = none := by decide +kernel
  refine ⟨secondRun_honest, hrefused, by decide +kernel, by decide +kernel, fun hconnected => ?_⟩
  rw [hconnected.acked] at hrefused
  cases hrefused

end Skattr.Core.Daemon
