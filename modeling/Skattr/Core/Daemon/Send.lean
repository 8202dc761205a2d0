import Skattr.Core.Daemon.Inbound

/-!
# Sending messages and cards

`sendMessage` persists the advanced ratchet, the message row and the outbox row in one transaction
before it hands the ciphertext to the delivery hub; `sendCard` persists only the ratchet before
its hand-off. Both replace the stored snapshot by the one that the encryption led to, or leave the
stored groups alone.
-/

namespace Skattr.Core.Daemon

open Lib Lib.Fallible Core.Mls

variable {G : Type}

def linkedGroup (tables : Tables) (contact : PublicKey) : Except CoreError GroupId :=
  match (ContactRepo.getGroupId tables contact).filter (· ≠ []) with
  | none => .error .contactNotFound
  | some groupId => .ok groupId

def isPeerPending (tables : Tables) (peer : PublicKey) : Bool :=
  PendingWelcomeRepo.isPending tables peer

def handOff (peer : PublicKey) (id : MessageId) (ciphertext : Bytes) :
    Fallible CoreError State Unit :=
  modify fun state => { state with handed := state.handed ++ [(peer, id, ciphertext)] }

/-- The transaction of a sent message: the ratchet, the message row and the outbox row. -/
def persistSent (deps : Deps G) (env : Env) (self contact : PublicKey) (group : Mls.Group G)
    (envelope : Envelope) (ciphertext : Bytes) : DbTx Unit := do
  saveInTx deps.mls group
  MessageRepo.insertInTx deps.codec.encode group.id
    ⟨self, envelope, deps.mls.epoch group.inner, env.clockMs / 1000⟩
  OutboxRepo.insertInTx contact envelope.id ciphertext 0

/-- Run the transaction of a sent message. An id that is already stored is not an error: its
earlier row owns the delivery, and nothing is handed off. -/
def persistSentOnce (deps : Deps G) (env : Env) (self contact : PublicKey) (group : Mls.Group G)
    (envelope : Envelope) (ciphertext : Bytes) (tables : Tables) :
    Except CoreError Bool × Tables :=
  match Pool.transaction env.budget
      (persistSent deps env self contact group envelope ciphertext) tables with
  | (.ok _, tables) => (.ok true, tables)
  | (.error .duplicateMessage, tables) => (.ok false, tables)
  | (.error e, tables) => (.error e, tables)

def newEnvelope (env : Env) (kind : Kind) : Envelope := ⟨1, env.freshId, env.clockMs, none, kind⟩

def sendMessage (deps : Deps G) (env : Env) (self contact : PublicKey) (kind : Kind) :
    Fallible CoreError State Unit := do
  ensure (¬kind.isCardUpdate)
    (.invalidArgument "ContactCardUpdate is not a user-sendable message kind")
  let state ← get
  let groupId ← attempt (linkedGroup state.tables contact)
  ensure (groupId.length = 32) .groupCorrupt
  let group ← attempt (loadGroup deps.mls state.tables groupId .groupCorrupt)
  ensure (¬isPeerPending state.tables contact)
    (.invalidArgument "not connected yet — waiting for them to join")
  let (ciphertext, group) ← attempt (group.encrypt deps.mls deps.codec (newEnvelope env kind))
  let inserted ← onPart State.tables (fun tables state => { state with tables := tables })
    (persistSentOnce deps env self contact group (newEnvelope env kind) ciphertext)
  if inserted then handOff contact env.freshId ciphertext else pure ()

/-- Encrypt our card for a contact, persist the ratchet and hand the ciphertext to the hub. Every
error skips the contact. -/
def sendCardToContact (deps : Deps G) (env : Env) (card : ContactCard) (peer : PublicKey) :
    Fallible CoreError State Unit := do
  let state ← get
  ensure (¬isPeerPending state.tables peer) (.delivery "card-send: peer has an unacked Welcome")
  let groupId ← attempt (linkedGroup state.tables peer)
  ensure (groupId.length = 32) .groupCorrupt
  let group ← attempt (loadGroup deps.mls state.tables groupId .groupCorrupt)
  let (ciphertext, group) ← attempt
    (group.encrypt deps.mls deps.codec (newEnvelope env (.contactCardUpdate card)))
  transact env (saveInTx deps.mls group)
  handOff peer env.freshId ciphertext

/-! ### What sending does to the stored groups -/

/-- The stored groups are as they were, or one snapshot was replaced by the one that an encryption
led to. -/
def Sent (deps : Deps G) (before after : Tables) : Prop :=
  after.groups = before.groups ∨
    ∃ groupId group envelope ciphertext next,
      Mls.Group.load deps.mls groupId (MlsGroupRepo.get before groupId) = .ok (some group) ∧
      group.encrypt deps.mls deps.codec envelope = .ok (ciphertext, next) ∧
      after.groups = before.groups.put next.id (groupRow deps.mls next)

variable {deps : Deps G} {env : Env} {self contact : PublicKey} {ciphertext : Bytes} {kind : Kind}
  {s t : State} {result : Except CoreError Unit} {group : Mls.Group G} {envelope : Envelope}

theorem does_persistSent_frame {s t : Tables} {u : Unit}
    (h : Tx.Does (persistSent deps env self contact group envelope ciphertext) s u t) :
    t = { s with
      groups := s.groups.put group.id (groupRow deps.mls group)
      messages := t.messages
      outbox := s.outbox.insertOrIgnore (contact, envelope.id) ⟨ciphertext, 0⟩ } := by
  obtain ⟨_, saved, hsave, hrest⟩ := Tx.does_bind h
  obtain ⟨_, inserted, hinsert, houtbox⟩ := Tx.does_bind hrest
  cases does_saveInTx hsave
  obtain ⟨messages, -, rfl⟩ := does_insertMessage hinsert
  rw [← Tx.does_update houtbox]

theorem persistSentOnce_cases {s t : Tables} {result : Except CoreError Bool}
    (h : persistSentOnce deps env self contact group envelope ciphertext s = (result, t)) :
    (t = s ∧ result ≠ .ok true) ∨ (result = .ok true ∧
      ∃ u, Tx.Does (persistSent deps env self contact group envelope ciphertext) s u t) := by
  unfold persistSentOnce at h
  split at h
  · next u tables hrun =>
    cases h
    exact .inr ⟨rfl, u, Tx.run_ok hrun⟩
  · next tables hrun =>
    cases h
    exact .inl ⟨Tx.run_error hrun, by simp⟩
  · next e tables _ hrun =>
    cases h
    exact .inl ⟨Tx.run_error hrun, by simp⟩

theorem sendMessage_cases (h : exec (sendMessage deps env self contact kind) s = (result, t)) :
    t = s ∨ ∃ groupId group ciphertext next stored tables,
      linkedGroup s.tables contact = .ok groupId ∧
      Mls.Group.load deps.mls groupId (MlsGroupRepo.get s.tables groupId) = .ok (some group) ∧
      group.encrypt deps.mls deps.codec (newEnvelope env kind) = .ok (ciphertext, next) ∧
      persistSentOnce deps env self contact next (newEnvelope env kind) ciphertext s.tables =
        (stored, tables) ∧
      t = { s with
        tables := tables
        handed := s.handed ++
          if stored = .ok true then [(contact, env.freshId, ciphertext)] else [] } := by
  rcases ensure_bind_cases h with ⟨-, -, rfl⟩ | ⟨-, hrest⟩
  · exact .inl rfl
  rw [exec_bind, exec_get] at hrest
  rcases attempt_bind_cases hrest with ⟨_, -, -, rfl⟩ | ⟨groupId, hlinked, hrest⟩
  · exact .inl rfl
  rcases ensure_bind_cases hrest with ⟨-, -, rfl⟩ | ⟨-, hrest⟩
  · exact .inl rfl
  rcases attempt_bind_cases hrest with ⟨_, -, -, rfl⟩ | ⟨group, hload, hrest⟩
  · exact .inl rfl
  rcases ensure_bind_cases hrest with ⟨-, -, rfl⟩ | ⟨-, hrest⟩
  · exact .inl rfl
  rcases attempt_bind_cases hrest with ⟨_, -, -, rfl⟩ | ⟨⟨ciphertext, next⟩, hencrypt, hrest⟩
  · exact .inl rfl
  rcases hpersist : persistSentOnce deps env self contact next (newEnvelope env kind) ciphertext
    s.tables with ⟨stored, tables⟩
  refine .inr ⟨groupId, group, ciphertext, next, stored, tables, hlinked, loadGroup_ok hload,
    hencrypt, hpersist, ?_⟩
  rw [exec_bind, exec_onPart, hpersist] at hrest
  rcases stored with e | inserted
  · cases hrest
    simp
  · cases inserted with
    | false =>
      cases hrest
      simp
    | true =>
      cases hrest
      rw [if_pos rfl]

theorem sendMessage_sent (h : exec (sendMessage deps env self contact kind) s = (result, t)) :
    Sent deps s.tables t.tables := by
  rcases sendMessage_cases h with rfl |
    ⟨groupId, group, ciphertext, next, stored, tables, -, hload, hencrypt, hpersist, rfl⟩
  · exact .inl rfl
  · rcases persistSentOnce_cases hpersist with ⟨rfl, -⟩ | ⟨-, u, hdoes⟩
    · exact .inl rfl
    · exact .inr ⟨groupId, group, _, ciphertext, next, hload, hencrypt,
        by rw [does_persistSent_frame hdoes]⟩

theorem sendMessage_transfers (h : exec (sendMessage deps env self contact kind) s = (result, t)) :
    t.tables.transfers = s.tables.transfers := by
  rcases sendMessage_cases h with rfl |
    ⟨groupId, group, ciphertext, next, stored, tables, -, -, -, hpersist, rfl⟩
  · rfl
  · rcases persistSentOnce_cases hpersist with ⟨rfl, -⟩ | ⟨-, u, hdoes⟩
    · rfl
    · show tables.transfers = s.tables.transfers
      rw [does_persistSent_frame hdoes]
      rfl

theorem sendMessage_handed (h : exec (sendMessage deps env self contact kind) s = (result, t)) :
    t.handed = s.handed ∨
      ∃ ciphertext, t.handed = s.handed ++ [(contact, env.freshId, ciphertext)] := by
  rcases sendMessage_cases h with rfl | ⟨_, _, ciphertext, _, stored, _, -, -, -, -, rfl⟩
  · exact .inl rfl
  · by_cases hstored : stored = .ok true
    · exact .inr ⟨ciphertext, by rw [if_pos hstored]⟩
    · left
      show s.handed ++ (if stored = .ok true then _ else []) = s.handed
      rw [if_neg hstored, List.append_nil]

theorem sendMessage_encrypted (h : exec (sendMessage deps env self contact kind) s = (result, t))
    (hhanded : t.handed = s.handed ++ [(contact, env.freshId, ciphertext)]) :
    ∃ groupId group next, linkedGroup s.tables contact = .ok groupId ∧
      Mls.Group.load deps.mls groupId (MlsGroupRepo.get s.tables groupId) = .ok (some group) ∧
      group.encrypt deps.mls deps.codec (newEnvelope env kind) = .ok (ciphertext, next) := by
  rcases sendMessage_cases h with rfl |
    ⟨groupId, group, sent, next, stored, _, hlinked, hload, hencrypt, -, rfl⟩
  · exact absurd (List.self_eq_append_right.mp hhanded) (List.cons_ne_nil _ _)
  · have happended := List.append_cancel_left hhanded
    split at happended
    · cases happended
      exact ⟨groupId, group, next, hlinked, hload, hencrypt⟩
    · cases happended

theorem sendCardToContact_sent {card : ContactCard} {peer : PublicKey}
    (h : exec (sendCardToContact deps env card peer) s = (result, t)) :
    Sent deps s.tables t.tables := by
  rw [sendCardToContact, exec_bind, exec_get] at h
  rcases ensure_bind_cases h with ⟨-, -, rfl⟩ | ⟨-, hrest⟩
  · exact .inl rfl
  rcases attempt_bind_cases hrest with ⟨_, -, -, rfl⟩ | ⟨groupId, -, hrest⟩
  · exact .inl rfl
  rcases ensure_bind_cases hrest with ⟨-, -, rfl⟩ | ⟨-, hrest⟩
  · exact .inl rfl
  rcases attempt_bind_cases hrest with ⟨_, -, -, rfl⟩ | ⟨group, hload, hrest⟩
  · exact .inl rfl
  rcases attempt_bind_cases hrest with ⟨_, -, -, rfl⟩ | ⟨⟨ciphertext, next⟩, hencrypt, hrest⟩
  · exact .inl rfl
  rcases transactWithin_bind_cases hrest with ⟨_, -, rfl⟩ | ⟨_, tables, hdoes, hlast⟩
  · exact .inl rfl
  cases hlast
  exact .inr ⟨groupId, group, _, ciphertext, next, loadGroup_ok hload, hencrypt,
    by rw [does_saveInTx hdoes]⟩

end Skattr.Core.Daemon
