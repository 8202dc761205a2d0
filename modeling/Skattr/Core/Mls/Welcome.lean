import Skattr.Core.Mls.Group

/-!
# Key packages, external PSKs and Welcomes

The first-contact side of the OpenMLS wrapper: the inviter generates a key package, the invitee
creates a group, proposes two external PSKs and adds the inviter, and the inviter joins from the
resulting Welcome. OpenMLS is a parameter. `Genesis` is what a Welcome says, and
`Onboarding.Lawful` states when OpenMLS joins one: exactly when every PSK that the Welcome
references is registered with the right value. The main results are `joinFromWelcome_ok_iff` and
`addMember_ok`, what joining and adding mean in these terms.
-/

namespace Skattr.Core.Mls

open Lib

variable {P G : Type}

/-- The reference of a key package, by which a Welcome is routed. -/
abbrev KpRef := ByteArr 32

/-- The two PSKs that a genesis commit carries. -/
inductive PskLabel where
  | invite
  | htransport
  deriving DecidableEq

def PskLabel.bytes : PskLabel → Bytes
  | .invite => [105, 110, 118, 105, 116, 101]
  | .htransport => [104, 116, 114, 97, 110, 115, 112, 111, 114, 116]

/-- The id of an external PSK: `skattr-`, the label, `-v1` and the reference of the invite. -/
def pskId (label : PskLabel) (kpRef : KpRef) : Bytes :=
  [115, 107, 97, 116, 116, 114, 45] ++ label.bytes ++ [45, 118, 49] ++ kpRef.bytes

theorem pskId_invite_ne_htransport (kpRef other : KpRef) :
    pskId .invite kpRef ≠ pskId .htransport other := by
  simp [pskId, PskLabel.bytes]

/-- The operations of OpenMLS around first contact. A provider `P` stores keys and PSKs; a group
`G` lives in its own provider. `keyPackage` parses and validates a key package and serializes it
again. `proposePsk` stores the secret and proposes it; `addMembers` commits the proposals with the
new member and merges the commit. Error texts come with the wrapper's label of the failed call. -/
structure Onboarding (P G : Type) extends OpenMls G where
  newProvider : P
  snapshotProvider : P → Bytes
  loadProvider : Bytes → Except String P
  storeSigner : PublicKey → P → P
  storePsk : P → Bytes → ByteArr 32 → P
  generateKeyPackage : PublicKey → ByteArr 32 → P → Except String (Bytes × P)
  keyPackage : Bytes → Except String Bytes
  keyPackageRef : Bytes → KpRef
  sha256 : Bytes → ByteArr 32
  welcomeSecrets : Bytes → Except String (Option (List Bytes))
  stageWelcome : P → Bytes → Except String G
  newGroup : PublicKey → GroupId → P → Except String G
  proposePsk : G → Bytes → ByteArr 32 → Except String G
  addMembers : G → Bytes → Except String (Bytes × G)
  members : G → List Bytes
  ownKey : G → Option Bytes

abbrev InviteSecret := KpRef × ByteArr 32

/-! ### The wrapper -/

variable (mls : Onboarding P G)

def parseWelcomeKpHash (welcome : Bytes) : Except CoreError KpRef :=
  match mls.welcomeSecrets welcome with
  | .error e => .error (.mls ("welcome parse: deserialize: " ++ e))
  | .ok none => .error (.mls "welcome parse: not a Welcome")
  | .ok (some []) => .error (.mls "welcome parse: empty secrets")
  | .ok (some [kpRef]) =>
    match ByteArr.ofBytes? 32 kpRef with
    | none => .error (.mls ("welcome parse: kp_ref wrong length " ++ toString kpRef.length))
    | some kpRef => .ok kpRef
  | .ok (some secrets) => .error (.mls
      ("welcome parse: " ++ toString secrets.length ++ " secrets, only 1 supported in Phase 2"))

def registerPsk (label : PskLabel) (provider : P) :
    Option InviteSecret → P
  | none => provider
  | some (kpRef, secret) => mls.storePsk provider (pskId label kpRef) secret

def registerPsks (provider : P) (invitePsk hTransport : Option InviteSecret) : P :=
  registerPsk mls .htransport (registerPsk mls .invite provider invitePsk) hTransport

/-- Join a group from a Welcome: both secrets are registered, and OpenMLS resolves the ones that
the Welcome references. Which ones it references is not looked at. -/
def joinFromWelcome (self : PublicKey) (welcome : Bytes)
    (invitePsk hTransport : Option InviteSecret) (provider : P) : Except CoreError (Group G) :=
  let provider := registerPsks mls (mls.storeSigner self provider) invitePsk hTransport
  match mls.stageWelcome provider welcome with
  | .error e => .error (.mls e)
  | .ok inner => .ok ⟨mls.groupId inner, .active (mls.epoch inner), inner⟩

def peerIdentity (group : Group G) : Except CoreError PublicKey :=
  if (mls.members group.inner).length ≠ 2 then
    .error (.mls "mls: peer_identity: group is not exactly 2-member")
  else
    match mls.ownKey group.inner with
    | none => .error (.mls "mls: peer_identity: no own leaf")
    | some own =>
      match (mls.members group.inner).find? (· ≠ own) with
      | none => .error (.mls "mls: peer_identity: no distinct peer member")
      | some key =>
        match ByteArr.ofBytes? 32 key with
        | none => .error (.mls "mls: peer_identity: signature key not 32 bytes")
        | some identity => .ok identity

def createSolo (self : PublicKey) (random : ByteArr 32) (invitePsk hTransport : Option InviteSecret)
    (provider : P) : Except CoreError (Group G) :=
  match mls.newGroup self random.bytes (registerPsks mls provider invitePsk hTransport) with
  | .error e => .error (.mls e)
  | .ok inner => .ok ⟨random.bytes, .active 0, inner⟩

def proposeExternalPsk (label : PskLabel) (inner : G) :
    Option InviteSecret → Except CoreError G
  | none => .ok inner
  | some (kpRef, secret) =>
    (mls.proposePsk inner (pskId label kpRef) secret).mapError CoreError.mls

/-- Add the owner of a key package, with both secrets in the genesis commit, and return the
Welcome for them. The group stays pending until they acknowledge it. -/
def addMember (group : Group G) (keyPackage : Bytes) (invitePsk hTransport : Option InviteSecret) :
    Except CoreError (Bytes × Group G) := do
  if (mls.members group.inner).length ≥ 2 then
    .error (.mls "mls: add_member: already 2-member")
  else
    let inner ← proposeExternalPsk mls .invite group.inner invitePsk
    let inner ← proposeExternalPsk mls .htransport inner hTransport
    let (welcome, inner) ← (mls.addMembers inner keyPackage).mapError CoreError.mls
    pure (welcome, ⟨group.id, .pendingJoin, inner⟩)

/-! ### What is assumed of OpenMLS -/

/-- What a Welcome says: for which key package it is, which group with which members it leads to,
and which external PSKs its genesis commit references, with their values. -/
structure Genesis where
  kpRef : KpRef
  groupId : GroupId
  members : List Bytes
  epoch : Nat
  psks : List (Bytes × ByteArr 32)
  deriving DecidableEq

/-- What can be observed of OpenMLS: the content of a Welcome, the PSKs in a provider, whether it
has the private key of a key package of an identity, the PSKs proposed in a group so far, and the
identity in a key package. -/
structure Observation (P G : Type) where
  genesis : Bytes → Option Genesis
  psk : P → Bytes → Option (ByteArr 32)
  holdsKey : P → KpRef → PublicKey → Prop
  proposed : G → List (Bytes × ByteArr 32)
  identity : Bytes → PublicKey

/-- The provider has every PSK that a Welcome references, with the right value. -/
def Observation.Resolves (obs : Observation P G) (provider : P) (genesis : Genesis) : Prop :=
  ∀ entry ∈ genesis.psks, obs.psk provider entry.1 = some entry.2

/-- The documented behaviour of OpenMLS around first contact. -/
structure Onboarding.Lawful (obs : Observation P G) : Prop where
  /-- A Welcome is joined exactly when the provider has its private key and every PSK that the
  Welcome references, with the right value. -/
  staged_iff : ∀ provider welcome, (∃ g, mls.stageWelcome provider welcome = .ok g) ↔
    ∃ genesis owner, obs.genesis welcome = some genesis ∧
      obs.holdsKey provider genesis.kpRef owner ∧ obs.Resolves provider genesis
  staged : ∀ {provider welcome g genesis owner}, mls.stageWelcome provider welcome = .ok g →
    obs.genesis welcome = some genesis → obs.holdsKey provider genesis.kpRef owner →
      mls.groupId g = genesis.groupId ∧ mls.members g = genesis.members ∧
      mls.epoch g = genesis.epoch ∧ mls.ownKey g = some owner.bytes
  welcomeSecrets : ∀ {welcome genesis}, obs.genesis welcome = some genesis →
    mls.welcomeSecrets welcome = .ok (some [genesis.kpRef.bytes])
  psk_newProvider : ∀ id, obs.psk mls.newProvider id = none
  psk_storeSigner : ∀ self provider id,
    obs.psk (mls.storeSigner self provider) id = obs.psk provider id
  psk_storePsk : ∀ provider id secret other,
    obs.psk (mls.storePsk provider id secret) other =
      if other = id then some secret else obs.psk provider other
  holdsKey_storeSigner : ∀ self provider kpRef owner,
    obs.holdsKey (mls.storeSigner self provider) kpRef owner ↔ obs.holdsKey provider kpRef owner
  holdsKey_storePsk : ∀ provider id secret kpRef owner,
    obs.holdsKey (mls.storePsk provider id secret) kpRef owner ↔ obs.holdsKey provider kpRef owner
  load_snapshot : ∀ provider, mls.loadProvider (mls.snapshotProvider provider) = .ok provider
  generated : ∀ {self random provider keyPackage provider'},
    mls.generateKeyPackage self random provider = .ok (keyPackage, provider') →
      obs.holdsKey provider' (mls.keyPackageRef keyPackage) self ∧
      obs.identity keyPackage = self ∧ mls.keyPackage keyPackage = .ok keyPackage ∧
      ∀ id, obs.psk provider' id = obs.psk provider id
  newGroup : ∀ {self id provider g}, mls.newGroup self id provider = .ok g →
    mls.groupId g = id ∧ mls.members g = [self.bytes] ∧ mls.epoch g = 0 ∧ obs.proposed g = []
  proposed : ∀ {g id secret g'}, mls.proposePsk g id secret = .ok g' →
    mls.groupId g' = mls.groupId g ∧ mls.members g' = mls.members g ∧
      mls.epoch g' = mls.epoch g ∧ obs.proposed g' = obs.proposed g ++ [(id, secret)]
  added : ∀ {g keyPackage welcome g'}, mls.addMembers g keyPackage = .ok (welcome, g') →
    mls.groupId g' = mls.groupId g ∧ mls.epoch g' = mls.epoch g + 1 ∧
      obs.genesis welcome = some ⟨mls.keyPackageRef keyPackage, mls.groupId g,
        mls.members g ++ [(obs.identity keyPackage).bytes], mls.epoch g + 1, obs.proposed g⟩

/-! ### What joining and adding mean -/

variable {mls : Onboarding P G} {obs : Observation P G}

variable {welcome : Bytes} {group : Group G}

variable {genesis : Genesis} {self : PublicKey} {kpRef : KpRef} {provider : P}

theorem parseWelcomeKpHash_genesis (hmls : mls.Lawful obs)
    (h : obs.genesis welcome = some genesis) :
    parseWelcomeKpHash mls welcome = .ok genesis.kpRef := by
  rw [parseWelcomeKpHash, hmls.welcomeSecrets h]
  simp only [ofBytes?_bytes]

theorem psk_registered (hmls : mls.Lawful obs) (self : PublicKey) (provider : P) (kpRef : KpRef)
    (psk : ByteArr 32) (hTransport : Option (ByteArr 32)) (id : Bytes) :
    obs.psk (registerPsks mls (mls.storeSigner self provider) (some (kpRef, psk))
        (hTransport.map (kpRef, ·))) id =
      if id = pskId .htransport kpRef ∧ hTransport.isSome then hTransport
      else if id = pskId .invite kpRef then some psk
      else obs.psk provider id := by
  cases hTransport with
  | none | some => simp [registerPsks, registerPsk, hmls.psk_storePsk, hmls.psk_storeSigner]

theorem holdsKey_registered (hmls : mls.Lawful obs) (self : PublicKey) (provider : P)
    (invitePsk hTransport : Option InviteSecret) (kpRef : KpRef) (owner : PublicKey) :
    obs.holdsKey (registerPsks mls (mls.storeSigner self provider) invitePsk hTransport)
      kpRef owner ↔ obs.holdsKey provider kpRef owner := by
  cases invitePsk <;> cases hTransport <;>
    simp [registerPsks, registerPsk, hmls.holdsKey_storePsk, hmls.holdsKey_storeSigner]

/-- A Welcome is joined exactly when the provider has its key and the registered secrets are the
right ones for every PSK that it references. -/
theorem joinFromWelcome_ok_iff (hmls : mls.Lawful obs) (self : PublicKey) (welcome : Bytes)
    (kpRef : KpRef) (psk : ByteArr 32) (hTransport : Option (ByteArr 32)) (provider : P) :
    (∃ group, joinFromWelcome mls self welcome (some (kpRef, psk)) (hTransport.map (kpRef, ·))
      provider = .ok group) ↔
    ∃ genesis owner, obs.genesis welcome = some genesis ∧
      obs.holdsKey provider genesis.kpRef owner ∧
      obs.Resolves (registerPsks mls (mls.storeSigner self provider) (some (kpRef, psk))
        (hTransport.map (kpRef, ·))) genesis := by
  -- registering secrets does not change which private keys the provider has
  have hstage := hmls.staged_iff (registerPsks mls (mls.storeSigner self provider)
    (some (kpRef, psk)) (hTransport.map (kpRef, ·))) welcome
  simp only [holdsKey_registered hmls] at hstage
  rw [← hstage]
  unfold joinFromWelcome
  dsimp only
  split
  next e herror => simp [herror]
  next inner hok => simp [hok]

theorem joinFromWelcome_group (hmls : mls.Lawful obs) {invitePsk hTransport : Option InviteSecret}
    {owner : PublicKey}
    (h : joinFromWelcome mls self welcome invitePsk hTransport provider = .ok group)
    (hgenesis : obs.genesis welcome = some genesis)
    (hkey : obs.holdsKey provider genesis.kpRef owner) :
    group.id = genesis.groupId ∧ mls.members group.inner = genesis.members ∧
      mls.epoch group.inner = genesis.epoch ∧ mls.ownKey group.inner = some owner.bytes := by
  unfold joinFromWelcome at h
  dsimp only at h
  split at h
  · cases h
  next inner hstage =>
  cases h
  exact hmls.staged hstage hgenesis ((holdsKey_registered hmls _ _ _ _ _ _).mpr hkey)

theorem peerIdentity_mem {identity : PublicKey} (h : peerIdentity mls group = .ok identity) :
    identity.bytes ∈ mls.members group.inner := by
  unfold peerIdentity at h
  split at h
  · cases h
  split at h
  · cases h
  split at h
  · cases h
  next key hfind =>
  split at h
  · cases h
  next parsed hparse =>
  cases h
  have hmem := List.mem_of_find?_eq_some hfind
  unfold ByteArr.ofBytes? at hparse
  split at hparse
  · cases hparse
    exact hmem
  · cases hparse

theorem peerIdentity_eq {peer own : PublicKey} (hne : peer ≠ own)
    (hmembers : mls.members group.inner = [peer.bytes, own.bytes])
    (hown : mls.ownKey group.inner = some own.bytes) : peerIdentity mls group = .ok peer := by
  have hbytes : peer.bytes ≠ own.bytes := fun heq => hne (by cases peer; cases own; simp_all)
  simp [peerIdentity, hmembers, hown, hbytes, ofBytes?_bytes]

theorem proposeExternalPsk_ok (hmls : mls.Lawful obs) {label : PskLabel} {g g' : G}
    {secret : ByteArr 32} (h : proposeExternalPsk mls label g (some (kpRef, secret)) = .ok g') :
    mls.groupId g' = mls.groupId g ∧ mls.members g' = mls.members g ∧
      mls.epoch g' = mls.epoch g ∧
      obs.proposed g' = obs.proposed g ++ [(pskId label kpRef, secret)] := by
  exact hmls.proposed (mapError_eq_ok.mp h)

/-- What the first contact of an invitee builds: a Welcome whose genesis commit references both
secrets, into the group that the invitee keeps. -/
theorem addMember_ok (hmls : mls.Lawful obs) {random : ByteArr 32} {psk hTransport : ByteArr 32}
    {keyPackage : Bytes} {solo : Group G}
    (hsolo : createSolo mls self random (some (kpRef, psk)) (some (kpRef, hTransport)) provider =
      .ok solo)
    (hadd : addMember mls solo keyPackage (some (kpRef, psk)) (some (kpRef, hTransport)) = .ok
      (welcome, group)) :
    group.id = random.bytes ∧ mls.epoch group.inner = 1 ∧
      obs.genesis welcome = some ⟨mls.keyPackageRef keyPackage, random.bytes,
        [self.bytes, (obs.identity keyPackage).bytes], 1,
        [(pskId .invite kpRef, psk), (pskId .htransport kpRef, hTransport)]⟩ := by
  unfold createSolo at hsolo
  split at hsolo
  · cases hsolo
  next inner hnew =>
  cases hsolo
  obtain ⟨hid, hmembers, hepoch, hproposed⟩ := hmls.newGroup hnew
  -- a group of one takes a member: both PSKs are proposed, then the Add commits them
  rw [addMember, hmembers, if_neg (by simp)] at hadd
  obtain ⟨bound, hfirst, hadd⟩ := bind_eq_ok.mp hadd
  obtain ⟨both, hsecond, hadd⟩ := bind_eq_ok.mp hadd
  obtain ⟨⟨bytes, last⟩, hlast, hadd⟩ := bind_eq_ok.mp hadd
  cases hadd
  obtain ⟨hid₁, hmembers₁, hepoch₁, hproposed₁⟩ := proposeExternalPsk_ok hmls hfirst
  obtain ⟨hid₂, hmembers₂, hepoch₂, hproposed₂⟩ := proposeExternalPsk_ok hmls hsecond
  obtain ⟨-, hepoch₃, hgenesis⟩ := hmls.added (mapError_eq_ok.mp hlast)
  refine ⟨rfl, by simp [hepoch₃, hepoch₂, hepoch₁, hepoch], ?_⟩
  rw [hgenesis, hid₂, hid₁, hid, hmembers₂, hmembers₁, hmembers, hepoch₂, hepoch₁, hepoch,
    hproposed₂, hproposed₁, hproposed]
  rfl

/-! ### A small instance of the assumptions -/

/-- Concatenate byte strings so that they can be told apart again: every byte is announced by a
one, and the end of a string is a zero. -/
def pack : List Bytes → Bytes
  | [] => []
  | s :: rest => s.flatMap (fun b => [1, b]) ++ 0 :: pack rest

def unpack : Bytes → List Bytes
  | 1 :: b :: rest =>
    match unpack rest with
    | [] => [[b]]
    | s :: strings => (b :: s) :: strings
  | 0 :: rest => [] :: unpack rest
  | _ => []

theorem unpack_pack (strings : List Bytes) : unpack (pack strings) = strings := by
  induction strings with
  | nil => rfl
  | cons s rest ih =>
    induction s with
    | nil => exact congrArg ([] :: ·) ih
    | cons b s hs =>
      simp only [pack, List.flatMap_cons, List.cons_append, List.nil_append] at hs ⊢
      simp only [unpack, hs]

def packPsks (psks : List (Bytes × ByteArr 32)) : List Bytes :=
  psks.flatMap fun entry => [entry.1, entry.2.bytes]

def unpackPsks : List Bytes → List (Bytes × ByteArr 32)
  | id :: secret :: rest =>
    match ByteArr.ofBytes? 32 secret with
    | some secret => (id, secret) :: unpackPsks rest
    | none => []
  | _ => []

theorem unpackPsks_packPsks (psks : List (Bytes × ByteArr 32)) :
    unpackPsks (packPsks psks) = psks := by
  induction psks with
  | nil => rfl
  | cons entry rest ih =>
    simp only [packPsks, List.flatMap_cons, List.cons_append, List.nil_append, unpackPsks,
      ofBytes?_bytes]
    rw [← packPsks, ih]

/-- A provider with the key packages that it has the private keys of, and its PSKs. -/
structure Keyring where
  keys : List (KpRef × PublicKey)
  psks : List (Bytes × ByteArr 32)
  deriving DecidableEq

structure Roster where
  id : GroupId
  members : List Bytes
  own : PublicKey
  epoch : Nat
  proposed : List (Bytes × ByteArr 32)
  deriving DecidableEq

def Keyring.psk (ring : Keyring) (id : Bytes) : Option (ByteArr 32) := ring.psks.lookup id

def Keyring.snapshot (ring : Keyring) : Bytes :=
  pack [pack (packPsks (ring.keys.map fun entry => (entry.1.bytes, entry.2))),
    pack (packPsks ring.psks)]

def Keyring.load (blob : Bytes) : Except String Keyring :=
  match unpack blob with
  | [keys, psks] => .ok ⟨(unpackPsks (unpack keys)).filterMap fun entry =>
    (ByteArr.ofBytes? 32 entry.1).map (·, entry.2), unpackPsks (unpack psks)⟩
  | _ => .error "mls: provider deserialize"

def Genesis.encode (genesis : Genesis) : Bytes :=
  pack [genesis.kpRef.bytes, genesis.groupId, pack genesis.members,
    List.replicate genesis.epoch 0, pack (packPsks genesis.psks)]

def Genesis.decode (welcome : Bytes) : Option Genesis :=
  match unpack welcome with
  | [kpRef, groupId, members, epoch, psks] => (ByteArr.ofBytes? 32 kpRef).map fun kpRef =>
    ⟨kpRef, groupId, unpack members, epoch.length, unpackPsks (unpack psks)⟩
  | _ => none

theorem Genesis.decode_encode (genesis : Genesis) :
    Genesis.decode genesis.encode = some genesis := by
  simp [Genesis.decode, Genesis.encode, unpack_pack, unpackPsks_packPsks, ofBytes?_bytes]

theorem Keyring.load_snapshot (ring : Keyring) : Keyring.load ring.snapshot = .ok ring := by
  simp [Keyring.load, Keyring.snapshot, unpack_pack, unpackPsks_packPsks, ofBytes?_bytes]

/-- A key package of the instance: the identity and 32 bytes that name the package. -/
def rosterRef (keyPackage : Bytes) : ByteArr 32 :=
  (ByteArr.ofBytes? 32 (keyPackage.drop 32)).getD (.fill 32 0)

def rosterIdentity (keyPackage : Bytes) : PublicKey :=
  (ByteArr.ofBytes? 32 (keyPackage.take 32)).getD (.fill 32 0)

/-- Joining without encryption: a Welcome is read, its key is looked up, and its PSKs are compared
with the registered ones. -/
def Roster.join (ring : Keyring) (welcome : Bytes) : Except String Roster :=
  match Genesis.decode welcome with
  | none => .error "mls: welcome deserialize"
  | some genesis =>
    match ring.keys.lookup genesis.kpRef with
    | none => .error "mls: welcome process: NoMatchingKeyPackage"
    | some own =>
      if ∀ entry ∈ genesis.psks, ring.psk entry.1 = some entry.2 then
        .ok ⟨genesis.groupId, genesis.members, own, genesis.epoch, []⟩
      else .error "mls: welcome process: PskNotFound"

def rosterMls : Onboarding Keyring Roster where
  load _ _ := .error "no ratchet"
  snapshot g := pack (g.id :: g.members)
  groupId := Roster.id
  epoch := Roster.epoch
  deserialize _ := .error "no ratchet"
  createMessage _ _ := .error "no ratchet"
  processMessage _ _ := .error "no ratchet"
  newProvider := ⟨[], []⟩
  snapshotProvider := Keyring.snapshot
  loadProvider := Keyring.load
  storeSigner _ ring := ring
  storePsk ring id secret := { ring with psks := (id, secret) :: ring.psks }
  generateKeyPackage self random ring :=
    .ok (self.bytes ++ random.bytes, { ring with keys := (random, self) :: ring.keys })
  keyPackage keyPackage :=
    if keyPackage.length = 64 then .ok keyPackage else .error "mls: key_package deserialize"
  keyPackageRef := rosterRef
  sha256 := rosterRef
  welcomeSecrets welcome := .ok ((Genesis.decode welcome).map fun genesis => [genesis.kpRef.bytes])
  stageWelcome := Roster.join
  newGroup self id _ := .ok ⟨id, [self.bytes], self, 0, []⟩
  proposePsk g id secret := .ok { g with proposed := g.proposed ++ [(id, secret)] }
  addMembers g keyPackage :=
    let genesis : Genesis := ⟨rosterRef keyPackage, g.id,
      g.members ++ [(rosterIdentity keyPackage).bytes], g.epoch + 1, g.proposed⟩
    .ok (genesis.encode, ⟨g.id, genesis.members, g.own, genesis.epoch, []⟩)
  members := Roster.members
  ownKey g := some g.own.bytes

def rosterObservation : Observation Keyring Roster where
  genesis := Genesis.decode
  psk := Keyring.psk
  holdsKey ring kpRef owner := ring.keys.lookup kpRef = some owner
  proposed := Roster.proposed
  identity := rosterIdentity

theorem Roster.join_ok {ring : Keyring} {g : Roster} (h : Roster.join ring welcome = .ok g) :
    ∃ genesis own, Genesis.decode welcome = some genesis ∧
      ring.keys.lookup genesis.kpRef = some own ∧
      (∀ entry ∈ genesis.psks, ring.psk entry.1 = some entry.2) ∧
      g = ⟨genesis.groupId, genesis.members, own, genesis.epoch, []⟩ := by
  unfold Roster.join at h
  split at h
  · cases h
  next genesis hgenesis =>
  split at h
  · cases h
  next own hown =>
  split at h
  · next hpsks =>
    cases h
    exact ⟨genesis, own, hgenesis, hown, hpsks, rfl⟩
  · cases h

theorem rosterMls_lawful : rosterMls.Lawful rosterObservation where
  staged_iff ring welcome := by
    constructor
    · rintro ⟨g, h⟩
      obtain ⟨genesis, own, hgenesis, hown, hpsks, -⟩ := Roster.join_ok h
      exact ⟨genesis, own, hgenesis, hown, hpsks⟩
    · rintro ⟨genesis, own, hgenesis, hown, hpsks⟩
      refine ⟨⟨genesis.groupId, genesis.members, own, genesis.epoch, []⟩, ?_⟩
      simp only [rosterObservation] at hgenesis hown
      show Roster.join ring welcome = _
      rw [Roster.join, hgenesis]
      simp only [hown]
      exact if_pos hpsks
  staged h hgenesis hown := by
    obtain ⟨genesis, own, hgenesis', hown', -, rfl⟩ := Roster.join_ok h
    cases hgenesis'.symm.trans hgenesis
    cases hown'.symm.trans hown
    exact ⟨rfl, rfl, rfl, rfl⟩
  welcomeSecrets h := by
    simp only [rosterObservation] at h
    simp [rosterMls, h]
  psk_newProvider _ := rfl
  psk_storeSigner _ _ _ := rfl
  psk_storePsk ring id secret other := by
    simp only [rosterObservation, rosterMls, Keyring.psk, List.lookup_cons]
    by_cases h : other = id
    · simp [h]
    · simp [h, beq_eq_false_iff_ne.mpr h]
  holdsKey_storeSigner _ _ _ _ := Iff.rfl
  holdsKey_storePsk _ _ _ _ _ := Iff.rfl
  load_snapshot := Keyring.load_snapshot
  generated {self random ring keyPackage ring'} h := by
    cases h
    have hself := self.length_eq
    have hrandom := random.length_eq
    refine ⟨?_, ?_, ?_, fun _ => rfl⟩
    · simp [rosterObservation, rosterMls, rosterRef, hself, ofBytes?_bytes]
    · simp [rosterObservation, rosterIdentity, hself, ofBytes?_bytes]
    · simp [rosterMls, hself, hrandom]
  newGroup h := by
    cases h
    exact ⟨rfl, rfl, rfl, rfl⟩
  proposed h := by
    cases h
    exact ⟨rfl, rfl, rfl, rfl⟩
  added h := by
    cases h
    exact ⟨rfl, rfl, Genesis.decode_encode _⟩

end Skattr.Core.Mls
