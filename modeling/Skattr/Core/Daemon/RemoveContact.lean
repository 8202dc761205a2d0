import Skattr.Core.Daemon.Inbound

/-!
# Removing a contact

A contact whose Welcome is still pending is purged with everything that is keyed by it; any other
contact is only hidden. `removeContact_cases` says what a call did to the tables.
-/

namespace Skattr.Core.Daemon

open Lib Lib.Fallible

/-- What a call of `removeContact` meets: faults of its three reads, and the statements before a
storage fault in its writes. -/
structure RemoveEnv where
  getFault : Bool
  pendingFault : Bool
  groupFault : Bool
  purgeBudget : Option Nat
  hideBudget : Option Nat
  cleanupBudget : Option Nat
  deriving DecidableEq

def removeFree : RemoveEnv := ⟨false, false, false, none, none, none⟩

def purgeGroup : Option GroupId → DbTx Unit
  | none => pure ()
  | some groupId => do
      MlsGroupRepo.deleteInTx groupId
      MessageRepo.deleteByGroupInTx groupId

def purge (contact : PublicKey) (groupId : Option GroupId) : DbTx Unit := do
  purgeGroup groupId
  PendingWelcomeRepo.deleteInTx contact
  FirstContactAckRepo.deleteByPeerInTx contact
  OutboxRepo.deleteByTargetInTx contact
  ContactRepo.removeInTx contact

def removeContact (env : RemoveEnv) (contact : PublicKey) : Fallible CoreError State Bool := do
  ensure (env.getFault = false) (.storage "get contact")
  let state ← get
  ensure ((state.tables.contacts.get contact).isSome) .contactNotFound
  ensure (env.pendingFault = false) (.storage "pending_welcomes is_pending")
  if PendingWelcomeRepo.isPending state.tables contact then
    ensure (env.groupFault = false) (.storage "get group_id")
    transactWithin env.purgeBudget
      (purge contact (ContactRepo.getGroupId state.tables contact))
  else
    transactWithin env.hideBudget (ContactRepo.setHidden contact true)
    ignoreError (transactWithin env.cleanupBudget (PendingWelcomeRepo.delete contact))
  emit (.contactRemoved contact)
  pure (PendingWelcomeRepo.isPending state.tables contact)

def purged (contact : PublicKey) (groupId : Option GroupId) (tables : Tables) : Tables :=
  { tables with
    groups := groupId.elim tables.groups tables.groups.delete
    messages := groupId.elim tables.messages fun groupId =>
      tables.messages.deleteWhere fun key _ => key.1 = groupId
    pendingWelcomes := tables.pendingWelcomes.delete contact
    firstContactAcks := tables.firstContactAcks.deleteWhere fun _ ack =>
      ack.peerIdentity = contact
    outbox := tables.outbox.deleteWhere fun key _ => key.1 = contact
    mailboxOutbox := tables.mailboxOutbox.deleteWhere fun key _ => key.1 = contact
    contacts := tables.contacts.delete contact }

variable {groupId : Option GroupId} {s t : Tables} {u : Unit}

theorem does_purgeGroup (h : Tx.Does (purgeGroup groupId) s u t) :
    t = { s with
      groups := groupId.elim s.groups s.groups.delete
      messages := groupId.elim s.messages fun groupId =>
        s.messages.deleteWhere fun key _ => key.1 = groupId } := by
  cases groupId with
  | none =>
    obtain ⟨-, rfl⟩ := Tx.does_pure h
    rfl
  | some groupId =>
    obtain ⟨_, _, hdelete, hmessages⟩ := Tx.does_bind h
    cases Tx.does_update hdelete
    cases Tx.does_update hmessages
    rfl

variable {contact : PublicKey}

theorem does_purge (h : Tx.Does (purge contact groupId) s u t) : t = purged contact groupId s := by
  obtain ⟨_, middle, hgroup, h⟩ := Tx.does_bind h
  obtain ⟨_, _, hwelcome, h⟩ := Tx.does_bind h
  obtain ⟨_, _, hack, h⟩ := Tx.does_bind h
  obtain ⟨_, _, houtbox, hcontact⟩ := Tx.does_bind h
  cases does_purgeGroup hgroup
  cases PendingWelcomeRepo.does_deleteRow hwelcome
  cases Tx.does_update hack
  cases Tx.does_update houtbox
  cases Tx.does_update hcontact
  rfl

theorem does_setHidden {hidden : Bool} (h : Tx.Does (ContactRepo.setHidden contact hidden) s u t) :
    ∃ row, s.contacts.get contact = some row ∧
      t = { s with contacts := s.contacts.put contact { row with hidden := hidden } } := by
  have hput := Tx.does_statement h
  split at hput
  · cases hput
  · next row hrow =>
    cases hput
    exact ⟨row, hrow, rfl⟩

theorem deletePending_cases (budget : Option Nat) (contact : PublicKey) (s : State) :
    (exec (transactWithin budget (PendingWelcomeRepo.delete contact)) s).2.tables.contacts =
      s.tables.contacts ∧
    ((exec (transactWithin budget (PendingWelcomeRepo.delete contact)) s).2.tables.pendingWelcomes =
        s.tables.pendingWelcomes ∨
      (exec (transactWithin budget (PendingWelcomeRepo.delete contact)) s).2.tables.pendingWelcomes
        =
        s.tables.pendingWelcomes.delete contact) := by
  rcases h : exec (transactWithin budget (PendingWelcomeRepo.delete contact)) s with ⟨result, t⟩
  rcases transactWithin_cases h with ⟨_, -, rfl⟩ | ⟨_, tables, -, hdoes, rfl⟩
  · exact ⟨rfl, .inl rfl⟩
  · cases PendingWelcomeRepo.does_deleteRow hdoes
    exact ⟨rfl, .inr rfl⟩

/-- What a call did: it failed and changed nothing, it purged a pending contact, or it hid another
one, whose pending Welcome it deletes though it has none. -/
theorem removeContact_cases {env : RemoveEnv} {s t : State} {result : Except CoreError Bool}
    (h : exec (removeContact env contact) s = (result, t)) :
    (∃ e, result = .error e ∧ t = s) ∨
    (result = .ok true ∧ ∃ row, s.tables.contacts.get contact = some row ∧
      t.tables = purged contact (some row.groupId) s.tables) ∨
    (result = .ok false ∧ ∃ row, s.tables.contacts.get contact = some row ∧
      t.tables.contacts = s.tables.contacts.put contact { row with hidden := true } ∧
      (t.tables.pendingWelcomes = s.tables.pendingWelcomes ∨
        t.tables.pendingWelcomes = s.tables.pendingWelcomes.delete contact)) := by
  rcases ensure_bind_cases h with ⟨-, rfl, rfl⟩ | ⟨-, h⟩
  · exact .inl ⟨_, rfl, rfl⟩
  rw [exec_bind, exec_get] at h
  rcases ensure_bind_cases h with ⟨-, rfl, rfl⟩ | ⟨hknown, h⟩
  · exact .inl ⟨_, rfl, rfl⟩
  obtain ⟨known, hknown⟩ := Option.isSome_iff_exists.mp hknown
  rcases ensure_bind_cases h with ⟨-, rfl, rfl⟩ | ⟨-, h⟩
  · exact .inl ⟨_, rfl, rfl⟩
  cases hpending : PendingWelcomeRepo.isPending s.tables contact with
  | true =>
    rw [hpending, if_pos rfl] at h
    rcases ensure_bind_cases h with ⟨-, rfl, rfl⟩ | ⟨-, h⟩
    · exact .inl ⟨_, rfl, rfl⟩
    rcases transactWithin_bind_cases h with ⟨e, rfl, rfl⟩ | ⟨_, tables, hdoes, hrest⟩
    · exact .inl ⟨e, rfl, rfl⟩
    cases hrest
    refine .inr (.inl ⟨rfl, known, hknown, ?_⟩)
    rw [does_purge hdoes, ContactRepo.getGroupId, hknown, Option.map_some]
  | false =>
    rw [hpending, if_neg (by simp)] at h
    rcases transactWithin_bind_cases h with ⟨e, rfl, rfl⟩ | ⟨_, tables, hdoes, hrest⟩
    · exact .inl ⟨e, rfl, rfl⟩
    obtain ⟨row, hrow, rfl⟩ := does_setHidden hdoes
    rw [exec_bind, exec_ignoreError] at hrest
    cases hrest
    refine .inr (.inr ⟨rfl, row, hrow, ?_⟩)
    exact deletePending_cases env.cleanupBudget contact _

end Skattr.Core.Daemon
