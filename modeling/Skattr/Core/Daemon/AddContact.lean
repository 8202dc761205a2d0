import Skattr.Core.Daemon.CreateInvite

/-!
# Accepting an invite

`addContact` records the key package of an invite, dials the inviter, builds the genesis group with
both secrets and persists everything in one transaction, which checks again that the invite is not
consumed. `addContact_error` says what a failed call leaves behind, and `does_persistContact` what
the transaction of a successful one writes.
-/

namespace Skattr.Core.Daemon

open Lib Lib.Fallible Core.Mls

variable {P G : Type} {link : InviteLink}

/-- What a call of `addContact` meets: the clock in seconds, faults of its two reads of
`key_packages`, the statements before a storage fault in its two writes, the result of each dial
(an error may have a kind), fresh random bytes, and the clock in milliseconds after the dial. -/
structure AddEnv where
  now : Int
  getFault : Bool
  recordBudget : Option Nat
  consumedFault : Bool
  dial : Nat → Except (Option CoreError) (ByteArr 32)
  random : ByteArr 32
  nowMs : Int
  commitBudget : Option Nat

/-- The part of the contact's summary that the call determines. -/
structure ContactAdded where
  pubkey : PublicKey
  onion : String
  addedAt : Nat
  deriving DecidableEq

def DIAL_ATTEMPTS : Nat := 5

/-- Dial, and after a failure dial again up to `retries` times; `attempt` counts the dials. -/
def dialFrom (dial : Nat → Except (Option CoreError) (ByteArr 32)) :
    Nat → Nat → Except (Option CoreError) (ByteArr 32)
  | 0, attempt => dial attempt
  | retries + 1, attempt =>
    match dial attempt with
    | .ok hTransport => .ok hTransport
    | .error _ => dialFrom dial retries (attempt + 1)

/-- Dial the inviter; a final failure without a kind is reported as a timeout. -/
def dialInviter (dial : Nat → Except (Option CoreError) (ByteArr 32)) :
    Except CoreError (ByteArr 32) :=
  (dialFrom dial (DIAL_ATTEMPTS - 1) 0).mapError fun kind => kind.getD .deliveryTimeout

/-- A genesis group in memory, with the Welcome for the inviter. -/
structure FirstContact (G : Type) where
  group : Mls.Group G
  welcome : Bytes

/-- Check the key package and the card, dial the inviter and build the genesis group. -/
def buildFirstContact (deps : InviteDeps P G) (env : AddEnv) (link : InviteLink) :
    Except CoreError (FirstContact G) := do
  let keyPackage ← (deps.mls.keyPackage link.body.keyPackage).mapError CoreError.mls
  let kpRef := deps.mls.keyPackageRef keyPackage
  let _ ← link.body.card.verify deps.verifyCard env.now
  let hTransport ← dialInviter env.dial
  let solo ← createSolo deps.mls deps.self env.random (some (kpRef, link.psk))
    (some (kpRef, hTransport)) deps.mls.newProvider
  let (welcome, group) ← addMember deps.mls solo keyPackage (some (kpRef, link.psk))
    (some (kpRef, hTransport))
  pure ⟨group, welcome⟩

def persistContact (deps : InviteDeps P G) (env : AddEnv) (link : InviteLink)
    (contact : FirstContact G) : DbTx Unit := do
  let consumed ← InviteLink.isConsumedInTx (link.kpHash deps.mls.sha256)
  ensure (consumed = false) .inviteConsumed
  ContactRepo.upsertInTx link.inviter none env.now
  ContactRepo.putCardInTx link.body.card
  saveInTx deps.mls.toOpenMls contact.group
  ContactRepo.setGroupIdInTx link.inviter contact.group.id
  InviteLink.markConsumedInTx (link.kpHash deps.mls.sha256)
  PendingWelcomeRepo.insertInTx link.inviter contact.group.id contact.welcome env.nowMs env.nowMs

def recordReceived (deps : InviteDeps P G) (env : AddEnv) (link : InviteLink) :
    Fallible CoreError State Unit := do
  ensure (env.getFault = false) (.storage "get key_package")
  let state ← get
  if (state.tables.keyPackages.get (link.kpHash deps.mls.sha256)).isSome then
    pure ()
  else
    transactWithin env.recordBudget
      (KeyPackageRepo.insert (link.kpHash deps.mls.sha256) link.body.keyPackage .theirs)

/-- The call once the key package is recorded: an early check, the dial and the transaction. -/
def addRecorded (deps : InviteDeps P G) (env : AddEnv) (link : InviteLink) :
    Fallible CoreError State ContactAdded := do
  ensure (env.consumedFault = false) (.storage "get key_package")
  let state ← get
  ensure (InviteLink.isConsumed state.tables (link.kpHash deps.mls.sha256) = false) .inviteConsumed
  let contact ← attempt (buildFirstContact deps env link)
  transactWithin env.commitBudget (persistContact deps env link contact)
  emit (.contactUpdated link.inviter)
  pure ⟨link.inviter, link.body.card.body.onion, env.now.toNat⟩

def addContact (deps : InviteDeps P G) (env : AddEnv) (url : List Char) :
    Fallible CoreError State ContactAdded := do
  let link ← attempt (InviteLink.fromUrl deps.codec deps.verifyLink url env.now)
  recordReceived deps env link
  addRecorded deps env link

variable {env : AddEnv} {contact : FirstContact G} {deps : InviteDeps P G}

/-- What a first contact is: its Welcome is for the key package of the invite, leads to the new
group and references the secret of the invite and the transcript of the connection. -/
theorem buildFirstContact_ok {obs : Observation P G} (hmls : deps.mls.Lawful obs)
    (h : buildFirstContact deps env link = .ok contact) :
    ∃ keyPackage hTransport, deps.mls.keyPackage link.body.keyPackage = .ok keyPackage ∧
      dialInviter env.dial = .ok hTransport ∧ contact.group.id = env.random.bytes ∧
      obs.genesis contact.welcome = some ⟨deps.mls.keyPackageRef keyPackage, env.random.bytes,
        [deps.self.bytes, (obs.identity keyPackage).bytes], 1,
        [(pskId .invite (deps.mls.keyPackageRef keyPackage), link.psk),
          (pskId .htransport (deps.mls.keyPackageRef keyPackage), hTransport)]⟩ := by
  obtain ⟨keyPackage, hpackage, h⟩ := bind_eq_ok.mp h
  obtain ⟨_, -, h⟩ := bind_eq_ok.mp h
  obtain ⟨hTransport, hdial, h⟩ := bind_eq_ok.mp h
  obtain ⟨solo, hsolo, h⟩ := bind_eq_ok.mp h
  obtain ⟨⟨welcome, group⟩, hadd, h⟩ := bind_eq_ok.mp h
  cases h
  obtain ⟨hid, -, hgenesis⟩ := addMember_ok hmls hsolo hadd
  exact ⟨keyPackage, hTransport, mapError_eq_ok.mp hpackage, hdial, hid, hgenesis⟩

/-! ### The transaction -/

def upsertedRow (contacts : Table PublicKey ContactRow) (env : AddEnv) (link : InviteLink) :
    ContactRow :=
  match contacts.get link.inviter with
  | none => ⟨none, env.now, [], false, []⟩
  | some row => { row with displayName := none, hidden := false }

def cardedRow (contacts : Table PublicKey ContactRow) (env : AddEnv) (link : InviteLink) :
    ContactRow :=
  { upsertedRow contacts env link with
    cards := (upsertedRow contacts env link).cards ++ [link.body.card] }

/-- The contacts after a call: the inviter has the card of the invite and is linked. -/
def addedContacts (contacts : Table PublicKey ContactRow) (env : AddEnv) (link : InviteLink)
    (groupId : GroupId) : Table PublicKey ContactRow :=
  ((contacts.put link.inviter (upsertedRow contacts env link)).put link.inviter
    (cardedRow contacts env link)).put link.inviter
      { cardedRow contacts env link with groupId := groupId }

def addedTables (deps : InviteDeps P G) (env : AddEnv) (link : InviteLink)
    (contact : FirstContact G) (tables : Tables) : Tables :=
  { tables with
    contacts := addedContacts tables.contacts env link contact.group.id
    groups := tables.groups.put contact.group.id (groupRow deps.mls.toOpenMls contact.group)
    keyPackages := tables.keyPackages.modify (link.kpHash deps.mls.sha256) fun row =>
      { row with consumed := true }
    pendingWelcomes := tables.pendingWelcomes.insertOrIgnore link.inviter
      ⟨contact.group.id, contact.welcome, env.nowMs, 0, env.nowMs, false⟩ }

variable {u : Unit} {s t : Tables} {row : ContactRow}

theorem does_upsertInTx (h : Tx.Does (ContactRepo.upsertInTx link.inviter none env.now) s u t) :
    t = { s with contacts := s.contacts.put link.inviter (upsertedRow s.contacts env link) } := by
  have hupsert := Tx.does_update h
  rw [← hupsert, upsertedRow]
  cases s.contacts.get link.inviter <;> rfl

theorem does_putCardInTx {card : ContactCard} (h : Tx.Does (ContactRepo.putCardInTx card) s u t)
    (hrow : s.contacts.get card.body.identity = some row) :
    t = { s with
      contacts :=
        s.contacts.put card.body.identity { row with cards := row.cards ++ [card] } } := by
  obtain ⟨_, middle, hensure, hstatement⟩ := Tx.does_bind h
  obtain ⟨-, rfl⟩ := Tx.does_ensure hensure
  have hput := Tx.does_statement hstatement
  rw [hrow] at hput
  dsimp only at hput
  split at hput
  · cases hput
    rfl
  · cases hput

theorem does_setGroupIdInTx {identity : PublicKey} {groupId : GroupId}
    (h : Tx.Does (ContactRepo.setGroupIdInTx identity groupId) s u t)
    (hrow : s.contacts.get identity = some row) :
    t = { s with contacts := s.contacts.put identity { row with groupId := groupId } } := by
  have hput := Tx.does_statement h
  rw [hrow] at hput
  cases hput
  rfl

theorem does_markConsumedInTx {hash : ByteArr 32}
    (h : Tx.Does (InviteLink.markConsumedInTx hash) s u t) :
    (s.keyPackages.get hash).isSome ∧
      t = { s with keyPackages := s.keyPackages.modify hash fun row =>
        { row with consumed := true } } := by
  obtain ⟨known, middle, hselect, h⟩ := Tx.does_bind h
  obtain ⟨rfl, rfl⟩ := Tx.does_select hselect
  obtain ⟨_, last, hensure, hmark⟩ := Tx.does_bind h
  obtain ⟨hknown, rfl⟩ := Tx.does_ensure hensure
  exact ⟨hknown, (Tx.does_update hmark).symm⟩

theorem does_persistContact (h : Tx.Does (persistContact deps env link contact) s u t) :
    InviteLink.isConsumed s (link.kpHash deps.mls.sha256) = false ∧
      (s.keyPackages.get (link.kpHash deps.mls.sha256)).isSome ∧
      t = addedTables deps env link contact s := by
  obtain ⟨consumed, _, hselect, h⟩ := Tx.does_bind h
  obtain ⟨rfl, rfl⟩ := Tx.does_select hselect
  obtain ⟨_, _, hensure, h⟩ := Tx.does_bind h
  obtain ⟨hconsumed, rfl⟩ := Tx.does_ensure hensure
  obtain ⟨_, _, hupsert, h⟩ := Tx.does_bind h
  obtain ⟨_, _, hcard, h⟩ := Tx.does_bind h
  obtain ⟨_, _, hsave, h⟩ := Tx.does_bind h
  obtain ⟨_, _, hlink, h⟩ := Tx.does_bind h
  obtain ⟨_, _, hmark, hpending⟩ := Tx.does_bind h
  cases does_upsertInTx hupsert
  cases does_putCardInTx hcard (Table.get_put_self _ _ _)
  cases does_saveInTx hsave
  cases does_setGroupIdInTx hlink (Table.get_put_self _ _ _)
  obtain ⟨hknown, rfl⟩ := does_markConsumedInTx hmark
  cases Tx.does_update hpending
  exact ⟨hconsumed, hknown, rfl⟩

/-! ### What a call did -/

section Recorded

variable {deps : InviteDeps P G} {link : InviteLink} {s t : State}

/-- The key package of the invite is recorded: it was known, or an unconsumed row was added. -/
inductive Recorded (deps : InviteDeps P G) (link : InviteLink) (s : State) : State → Prop where
  | known (h : (s.tables.keyPackages.get (link.kpHash deps.mls.sha256)).isSome) :
      Recorded deps link s s
  | new {keyPackages : Table (ByteArr 32) KeyPackageRow}
      (h : s.tables.keyPackages.insert (link.kpHash deps.mls.sha256)
        ⟨link.body.keyPackage, .theirs, false⟩ = some keyPackages) :
      Recorded deps link s { s with tables := { s.tables with keyPackages := keyPackages } }

theorem Recorded.isSome (h : Recorded deps link s t) :
    (t.tables.keyPackages.get (link.kpHash deps.mls.sha256)).isSome := by
  cases h with
  | known h => exact h
  | new h =>
    simp [Table.get_insert h]

theorem Recorded.unique {t' : State} (h : Recorded deps link s t) (h' : Recorded deps link s t') :
    t = t' := by
  cases h with
  | known hknown =>
    cases h' with
    | known => rfl
    | new hnew =>
      rw [(Table.insert_eq_some hnew).1] at hknown
      cases hknown
  | new hnew =>
    cases h' with
    | known hknown =>
      rw [(Table.insert_eq_some hnew).1] at hknown
      cases hknown
    | new hnew' =>
      cases hnew.symm.trans hnew'
      rfl

theorem Recorded.tables (h : Recorded deps link s t) :
    t.tables = { s.tables with keyPackages := t.tables.keyPackages } := by
  cases h <;> rfl

theorem Recorded.isConsumed (h : Recorded deps link s t) (hash : ByteArr 32) :
    InviteLink.isConsumed t.tables hash = InviteLink.isConsumed s.tables hash := by
  cases h with
  | known => rfl
  | new hnew =>
    simp only [InviteLink.isConsumed, Table.get_insert hnew]
    by_cases hhash : hash = link.kpHash deps.mls.sha256
    · rw [if_pos hhash, hhash, (Table.insert_eq_some hnew).1]
    · rw [if_neg hhash]

end Recorded

section Calls

variable {deps : InviteDeps P G} {env : AddEnv} {url : List Char} {s t : State} {link : InviteLink}
  {result : Except CoreError ContactAdded} {added : ContactAdded} {e : CoreError}

theorem exec_recordReceived (deps : InviteDeps P G) (env : AddEnv) (link : InviteLink) (s : State) :
    exec (recordReceived deps env link) s =
      if env.getFault = false then
        if (s.tables.keyPackages.get (link.kpHash deps.mls.sha256)).isSome then (.ok (), s)
        else
          match Pool.transaction env.recordBudget
            (KeyPackageRepo.insert (link.kpHash deps.mls.sha256) link.body.keyPackage .theirs)
            s.tables with
          | (.error e, _) => (.error e, s)
          | (.ok u, tables) => (.ok u, { s with tables := tables })
      else (.error (.storage "get key_package"), s) := by
  rw [recordReceived, exec_bind, exec_ensure]
  by_cases hfault : env.getFault = false
  · rw [if_pos hfault, if_pos hfault]
    dsimp only
    rw [exec_bind, exec_get]
    dsimp only
    by_cases hknown : (s.tables.keyPackages.get (link.kpHash deps.mls.sha256)).isSome
    · rw [if_pos hknown, if_pos hknown]
      rfl
    · rw [if_neg hknown, if_neg hknown, exec_transactWithin]
      rcases Pool.transaction env.recordBudget _ s.tables with ⟨result, tables⟩
      cases result <;> rfl
  · rw [if_neg hfault, if_neg hfault]

theorem Recorded.of_transaction {budget : Option Nat} {u : Unit} {tables : Tables}
    (h : Pool.transaction budget (KeyPackageRepo.insert (link.kpHash deps.mls.sha256)
      link.body.keyPackage .theirs) s.tables = (.ok u, tables)) :
    Recorded deps link s { s with tables := tables } := by
  have hinsert := Tx.does_statement (Tx.run_ok h)
  split at hinsert
  · cases hinsert
  · next keyPackages hnew =>
    cases hinsert
    exact .new hnew

theorem recordReceived_cases {result : Except CoreError Unit}
    (h : exec (recordReceived deps env link) s = (result, t)) :
    (∃ e, result = .error e ∧ t = s) ∨
      result = .ok () ∧ env.getFault = false ∧ Recorded deps link s t := by
  rw [exec_recordReceived] at h
  split at h
  · next hfault =>
    split at h
    · next hknown =>
      cases h
      exact .inr ⟨rfl, hfault, .known hknown⟩
    · split at h
      · cases h
        exact .inl ⟨_, rfl, rfl⟩
      · next hrun =>
        cases h
        exact .inr ⟨rfl, hfault, .of_transaction hrun⟩
  · cases h
    exact .inl ⟨_, rfl, rfl⟩

theorem exec_addRecorded (deps : InviteDeps P G) (env : AddEnv) (link : InviteLink) (s : State) :
    exec (addRecorded deps env link) s =
      if env.consumedFault = false then
        if InviteLink.isConsumed s.tables (link.kpHash deps.mls.sha256) = false then
          match buildFirstContact deps env link with
          | .error e => (.error e, s)
          | .ok contact =>
            match Pool.transaction env.commitBudget (persistContact deps env link contact)
              s.tables with
            | (.error e, _) => (.error e, s)
            | (.ok _, tables) =>
              (.ok ⟨link.inviter, link.body.card.body.onion, env.now.toNat⟩, { s with
                tables := tables, events := s.events ++ [.contactUpdated link.inviter] })
        else (.error .inviteConsumed, s)
      else (.error (.storage "get key_package"), s) := by
  rw [addRecorded, exec_bind, exec_ensure]
  by_cases hfault : env.consumedFault = false
  · rw [if_pos hfault, if_pos hfault]
    dsimp only
    rw [exec_bind, exec_get]
    dsimp only
    rw [exec_bind, exec_ensure]
    by_cases hconsumed : InviteLink.isConsumed s.tables (link.kpHash deps.mls.sha256) = false
    · rw [if_pos hconsumed, if_pos hconsumed]
      dsimp only
      rw [exec_bind, exec_attempt]
      cases buildFirstContact deps env link with
      | error e => rfl
      | ok contact =>
        dsimp only
        rw [exec_bind, exec_transactWithin]
        rcases Pool.transaction env.commitBudget (persistContact deps env link contact)
          s.tables with ⟨result, tables⟩
        cases result <;> rfl
    · rw [if_neg hconsumed, if_neg hconsumed]
  · rw [if_neg hfault, if_neg hfault]

theorem addRecorded_cases (h : exec (addRecorded deps env link) s = (result, t)) :
    (∃ e, result = .error e ∧ t = s) ∨
      ∃ contact, buildFirstContact deps env link = .ok contact ∧
        InviteLink.isConsumed s.tables (link.kpHash deps.mls.sha256) = false ∧
        result = .ok ⟨link.inviter, link.body.card.body.onion, env.now.toNat⟩ ∧
        t.tables = addedTables deps env link contact s.tables := by
  rw [exec_addRecorded] at h
  split at h
  · split at h
    · next hconsumed =>
      split at h
      · cases h
        exact .inl ⟨_, rfl, rfl⟩
      · next contact hbuild =>
        split at h
        · cases h
          exact .inl ⟨_, rfl, rfl⟩
        · next tables hrun =>
          cases h
          exact .inr ⟨contact, hbuild, hconsumed, rfl,
            (does_persistContact (Tx.run_ok hrun)).2.2⟩
    · cases h
      exact .inl ⟨_, rfl, rfl⟩
  · cases h
    exact .inl ⟨_, rfl, rfl⟩

theorem addContact_cases (h : exec (addContact deps env url) s = (result, t)) :
    (∃ e, result = .error e ∧ t = s) ∨
      ∃ link middle, InviteLink.fromUrl deps.codec deps.verifyLink url env.now = .ok link ∧
        env.getFault = false ∧ Recorded deps link s middle ∧
        exec (addRecorded deps env link) middle = (result, t) := by
  rcases attempt_bind_cases h with ⟨e, -, rfl, rfl⟩ | ⟨link, hparse, h⟩
  · exact .inl ⟨e, rfl, rfl⟩
  rcases exec_bind_cases h with ⟨e, hrecord, rfl⟩ | ⟨_, middle, hrecord, h⟩
  · rcases recordReceived_cases hrecord with ⟨_, -, rfl⟩ | ⟨herror, -, -⟩
    · exact .inl ⟨e, rfl, rfl⟩
    · cases herror
  rcases recordReceived_cases hrecord with ⟨_, herror, -⟩ | ⟨-, hfault, hrecorded⟩
  · cases herror
  exact .inr ⟨link, middle, hparse, hfault, hrecorded, h⟩

theorem addContact_ok (h : exec (addContact deps env url) s = (.ok added, t)) :
    ∃ link contact, InviteLink.fromUrl deps.codec deps.verifyLink url env.now = .ok link ∧
      buildFirstContact deps env link = .ok contact ∧ added.pubkey = link.inviter ∧
      t.tables.contacts = addedContacts s.tables.contacts env link contact.group.id ∧
      t.tables.groups = s.tables.groups.put contact.group.id
        (groupRow deps.mls.toOpenMls contact.group) ∧
      t.tables.pendingWelcomes = s.tables.pendingWelcomes.insertOrIgnore link.inviter
        ⟨contact.group.id, contact.welcome, env.nowMs, 0, env.nowMs, false⟩ := by
  rcases addContact_cases h with ⟨_, herror, -⟩ | ⟨link, middle, hparse, -, hrecorded, hrest⟩
  · cases herror
  rcases addRecorded_cases hrest with ⟨_, herror, -⟩ | ⟨contact, hbuild, -, hadded, htables⟩
  · cases herror
  cases hadded
  rw [hrecorded.tables] at htables
  exact ⟨link, contact, hparse, hbuild, rfl, by rw [htables]; rfl, by rw [htables]; rfl,
    by rw [htables]; rfl⟩

theorem getGroupId_added {groupId : GroupId}
    (hcontacts : t.tables.contacts = addedContacts s.tables.contacts env link groupId)
    (peer : PublicKey) :
    ContactRepo.getGroupId t.tables peer =
      if peer = link.inviter then some groupId else ContactRepo.getGroupId s.tables peer := by
  rw [ContactRepo.getGroupId, ContactRepo.getGroupId, hcontacts, addedContacts]
  by_cases hpeer : peer = link.inviter
  · rw [if_pos hpeer, hpeer, Table.get_put_self]
    rfl
  · rw [if_neg hpeer, Table.get_put_ne _ _ hpeer, Table.get_put_ne _ _ hpeer,
      Table.get_put_ne _ _ hpeer]

theorem exec_addContact_recorded
    (hparse : InviteLink.fromUrl deps.codec deps.verifyLink url env.now = .ok link)
    (hfault : env.getFault = false)
    (hknown : (s.tables.keyPackages.get (link.kpHash deps.mls.sha256)).isSome) :
    exec (addContact deps env url) s = exec (addRecorded deps env link) s := by
  rw [addContact, exec_bind, exec_attempt, hparse]
  dsimp only
  rw [exec_bind, exec_recordReceived, if_pos hfault, if_pos hknown]

theorem addContact_error (h : exec (addContact deps env url) s = (.error e, t)) :
    t = s ∨ ∃ link, InviteLink.fromUrl deps.codec deps.verifyLink url env.now = .ok link ∧
      Recorded deps link s t := by
  rcases addContact_cases h with ⟨_, -, rfl⟩ | ⟨link, middle, hparse, -, hrecorded, hrest⟩
  · exact .inl rfl
  rcases addRecorded_cases hrest with ⟨_, -, rfl⟩ | ⟨_, -, -, herror, -⟩
  · exact .inr ⟨link, hparse, hrecorded⟩
  · cases herror

theorem addContact_again (hfailed : exec (addContact deps env url) s = (.error e, t))
    {env' : AddEnv} {u : State} (h : exec (addContact deps env' url) s = (.ok added, u)) :
    exec (addContact deps env' url) t = (.ok added, u) := by
  rcases addContact_error hfailed with rfl | ⟨link, hparse, hrecorded⟩
  · exact h
  rcases addContact_cases h with
    ⟨_, herror, -⟩ | ⟨link', middle, hparse', hfault, hrecorded', hrest⟩
  · cases herror
  -- both calls parsed the same invite and recorded it in the same way
  cases InviteLink.fromUrl_unique hparse hparse'
  cases hrecorded.unique hrecorded'
  rw [exec_addContact_recorded hparse' hfault hrecorded.isSome]
  exact hrest

end Calls

/-! ### A small instance -/

def aliceInvites : List (List Char) :=
  invitesFrom State.init [quietCreate, { quietCreate with random := .fill 32 17 }]

/-- A call that meets no fault, with a connection of this transcript value. -/
def quietAdd (hTransport : ByteArr 32) : AddEnv :=
  ⟨0, false, none, false, fun _ => .ok hTransport, .fill 32 9, 0, none⟩

def offlineAdd : AddEnv := ⟨0, false, none, false, fun _ => .error none, .fill 32 9, 0, none⟩

end Skattr.Core.Daemon
