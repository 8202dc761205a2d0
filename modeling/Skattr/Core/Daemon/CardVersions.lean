import Skattr.Core.Daemon.AddContact
import Skattr.Core.Daemon.Receipt

/-!
# Versions of contact cards

A contact's card reaches the daemon in a card update, on either lane, or in an invite; a Welcome
brings a contact without a card. `Grows` is all that can happen to the stored cards of a contact in
one action, and `cards_monotone` follows it through any run. A rejected card leaves no trace, except
that accepting an invite has recorded the key package of the invite by then.
-/

namespace Skattr.Core.Daemon

open Lib Lib.Fallible Core.Mls

variable {P G : Type} {state : State}

/-- The third-party parts of a daemon that both receives messages and accepts invites. Cards are
verified by the same function on both paths. -/
structure CardDeps (P G : Type) extends InviteDeps P G where
  envelope : EnvelopeCodec
  manifest : Bytes → Except String AttachmentManifest

def CardDeps.inbound (deps : CardDeps P G) : Deps G :=
  ⟨deps.mls.toOpenMls, deps.envelope, deps.manifest, deps.verifyCard⟩

/-- How a card or a contact can reach the daemon. -/
inductive CardAction where
  | receive (lane : Lane) (env : Env) (ciphertext : Bytes)
  | addContact (env : AddEnv) (url : List Char)
  | welcome (env : JoinEnv) (peer : PublicKey) (welcome : Bytes)
  | bootstrap (env : JoinEnv) (welcome : Bytes) (expectedX25519 : ByteArr 32)
      (hTransport : Option (ByteArr 32))
  | restart

def cardStep (deps : CardDeps P G) (state : State) : CardAction → State
  | .receive lane env ciphertext => (lane.dispatch deps.inbound env ciphertext state).2
  | .addContact env url => (exec (addContact deps.toInviteDeps env url) state).2
  | .welcome env peer welcome => (dispatchWelcome deps.toJoinDeps env peer welcome state).2
  | .bootstrap env welcome expectedX25519 hTransport =>
    (dispatchWelcomeBootstrap deps.toJoinDeps env welcome expectedX25519 hTransport state).2
  | .restart => ⟨state.tables, [], [], []⟩

def storedCards (contacts : Table PublicKey ContactRow) (identity : PublicKey) :
    List ContactCard :=
  (contacts.get identity).elim [] ContactRow.cards

def latestVersion (state : State) (identity : PublicKey) : Option Nat :=
  ((storedCards state.tables.contacts identity).map (·.body.version)).max?

/-! ### What an action does to the stored cards -/

/-- What can happen to the stored cards of a contact: nothing, or one card is added that verifies
under the contact's own key and is newer than all of them. -/
inductive Grows (verifyCbor : PublicKey → ContactCardBody → ByteArr 64 → Bool)
    (identity : PublicKey) (cards : List ContactCard) : List ContactCard → Prop where
  | same : Grows verifyCbor identity cards cards
  | added (card : ContactCard) (hidentity : card.body.identity = identity)
      (hverifies : verifyCbor identity card.body card.signature = true)
      (hnewer : ∀ stored ∈ cards, stored.body.version < card.body.version) :
      Grows verifyCbor identity cards (cards ++ [card])

section Cards

variable {verifyCbor : PublicKey → ContactCardBody → ByteArr 64 → Bool} {identity : PublicKey}
  {card : ContactCard} {s t : Tables} (contacts : Table PublicKey ContactRow)

theorem storedCards_put (identity other : PublicKey) (row : ContactRow) :
    storedCards (contacts.put identity row) other =
      if other = identity then row.cards else storedCards contacts other := by
  unfold storedCards
  by_cases hother : other = identity
  · rw [if_pos hother, hother, Table.get_put_self]
    rfl
  · rw [if_neg hother, Table.get_put_ne _ _ hother]

theorem storedCards_modify (identity other : PublicKey) {f : ContactRow → ContactRow}
    (hf : ∀ row, (f row).cards = row.cards) :
    storedCards (contacts.modify identity f) other = storedCards contacts other := by
  unfold storedCards
  rw [Table.get_modify]
  split
  · cases contacts.get other with
    | none => rfl
    | some row => exact hf row
  · rfl

theorem does_putCardInTx_newer {u : Unit} (h : Tx.Does (ContactRepo.putCardInTx card) s u t) :
    (∀ stored ∈ storedCards s.contacts card.body.identity,
      stored.body.version < card.body.version) ∧
    ∀ other, storedCards t.contacts other =
      if other = card.body.identity then storedCards s.contacts other ++ [card]
      else storedCards s.contacts other := by
  obtain ⟨_, middle, hensure, hstatement⟩ := Tx.does_bind h
  obtain ⟨-, rfl⟩ := Tx.does_ensure hensure
  have hput := Tx.does_statement hstatement
  split at hput
  · cases hput
  · next row hrow =>
    split at hput
    · next hnewer =>
      cases hput
      have hcards : storedCards s.contacts card.body.identity = row.cards := by
        rw [storedCards, hrow]
        rfl
      refine ⟨fun stored hstored => ?_, fun other => ?_⟩
      · rw [hcards] at hstored
        exact of_decide_eq_true (List.all_eq_true.mp hnewer stored hstored)
      · rw [storedCards_put]
        by_cases hother : other = card.body.identity
        · rw [if_pos hother, if_pos hother, hother, hcards]
        · rw [if_neg hother, if_neg hother]
    · cases hput

theorem Grows.of_putCardInTx {now : Int} {u : Unit}
    (hverify : card.verify verifyCbor now = .ok identity)
    (h : Tx.Does (ContactRepo.putCardInTx card) s u t) (other : PublicKey) :
    Grows verifyCbor other (storedCards s.contacts other)
      (storedCards t.contacts other) := by
  obtain ⟨hidentity, hverifies⟩ := ContactCard.verify_ok hverify
  obtain ⟨hnewer, hcards⟩ := does_putCardInTx_newer h
  rw [hcards]
  split
  · next hother =>
    have hsame : identity = other := by rw [hother, hidentity]
    subst hsame
    exact .added card hidentity hverifies (hidentity ▸ hnewer)
  · exact .same

theorem Grows.latest {cards cards' : List ContactCard} (h : Grows verifyCbor identity cards cards')
    {v : Nat} (hlatest : (cards.map (·.body.version)).max? = some v) :
    ∃ w, (cards'.map (·.body.version)).max? = some w ∧ v ≤ w := by
  cases h with
  | same => exact ⟨v, hlatest, Nat.le_refl v⟩
  | added card hidentity hverifies hnewer =>
    obtain ⟨stored, hstored, rfl⟩ := List.mem_map.mp (List.max?_mem hlatest)
    refine ⟨card.body.version, ?_, Nat.le_of_lt (hnewer stored hstored)⟩
    rw [List.max?_eq_some_iff]
    constructor
    · simp
    · intro version hversion
      rw [List.map_append, List.mem_append] at hversion
      rcases hversion with hold | hnew
      · obtain ⟨other, hother, rfl⟩ := List.mem_map.mp hold
        exact Nat.le_of_lt (hnewer other hother)
      · exact Nat.le_of_eq (List.mem_singleton.mp hnew)

end Cards

/-! ### The paths of a card -/

section Paths

variable {s t : State} {verifyCbor : PublicKey → ContactCardBody → ByteArr 64 → Bool}

def CardsGrow (verifyCbor : PublicKey → ContactCardBody → ByteArr 64 → Bool) (s t : State) : Prop :=
  ∀ identity, Grows verifyCbor identity (storedCards s.tables.contacts identity)
    (storedCards t.tables.contacts identity)

theorem CardsGrow.of_same
    (h : ∀ identity, storedCards t.tables.contacts identity = storedCards s.tables.contacts
      identity) : CardsGrow verifyCbor s t := by
  intro identity
  rw [h]
  exact .same

theorem CardsGrow.of_contacts (h : t.tables.contacts = s.tables.contacts) :
    CardsGrow verifyCbor s t :=
  .of_same fun identity => by rw [h]

variable {sender identity : PublicKey} {groupId : GroupId} {result : Except CoreError MessageId}
  {deps : InviteDeps P G} {env : AddEnv} {link : InviteLink} {contact : FirstContact G}
  {group : Mls.Group G} {enforce : Bool} (contacts : Table PublicKey ContactRow)

theorem receiveMessage_contacts {deps : Deps G} {env : Env} {envelope : Envelope}
    (h : exec (receiveMessage deps env sender groupId group envelope enforce) s = (result, t)) :
    t.tables.contacts = s.tables.contacts := by
  rcases transactWithin_bind_cases h with ⟨_, -, rfl⟩ | ⟨outcome, tables, hdoes, hrest⟩
  · rfl
  have htables : t.tables = tables := by
    cases outcome <;> (cases hrest; rfl)
  rw [htables, does_persistReceived_frame hdoes]

theorem stageAttachment_contacts (deps : Deps G) (env : Env) (sender : PublicKey)
    (manifest : Bytes) (state : State) :
    (stageAttachment deps env sender manifest state).tables.contacts = state.tables.contacts := by
  unfold stageAttachment
  split
  · rfl
  · split
    · split <;> rfl
    · rfl

theorem receiveCard_grows {deps : Deps G} {env : Env} {id : MessageId} {card : ContactCard}
    (h : exec (receiveCard deps env sender id card) s = (result, t)) :
    CardsGrow deps.verifyCbor s t := by
  rcases attempt_bind_cases h with ⟨_, -, -, rfl⟩ | ⟨claimed, hverify, hrest⟩
  · exact .of_contacts rfl
  rcases ensure_bind_cases hrest with ⟨-, -, rfl⟩ | ⟨-, hrest⟩
  · exact .of_contacts rfl
  rcases transactWithin_bind_cases hrest with ⟨_, -, rfl⟩ | ⟨_, tables, hdoes, hrest⟩
  · exact .of_contacts rfl
  cases hrest
  exact fun identity => Grows.of_putCardInTx hverify hdoes identity

theorem receive_grows {deps : Deps G} {env : Env} {content : Option Envelope}
    (h : exec (receive deps env sender groupId group enforce content) s = (result, t)) :
    CardsGrow deps.verifyCbor s t := by
  cases content with
  | none =>
    rcases transactWithin_bind_cases h with ⟨_, -, rfl⟩ | ⟨_, tables, hdoes, hrest⟩
    · exact .of_contacts rfl
    · cases hrest
      cases does_saveInTx hdoes
      exact .of_contacts rfl
  | some envelope =>
    simp only [receive] at h
    split at h
    · exact receiveCard_grows h
    · next manifest _ =>
      have hreceived := receiveMessage_contacts
        (s := stageAttachment deps env sender manifest s) h
      exact .of_contacts (hreceived.trans (stageAttachment_contacts _ _ _ _ _))
    · exact .of_contacts (receiveMessage_contacts h)

theorem Lane.dispatch_grows (deps : Deps G) (env : Env) (ciphertext : Bytes) (state : State)
    (lane : Lane) :
    CardsGrow deps.verifyCbor state (lane.dispatch deps env ciphertext state).2 := by
  rcases lane.dispatch_cases deps env ciphertext state with
    hnone | ⟨sender, groupId, enforce, hdispatch⟩
  · rw [hnone]
    exact .of_contacts rfl
  · rw [hdispatch]
    rcases hexec : exec (dispatchForGroup deps env sender groupId ciphertext enforce) state with
      ⟨result, after⟩
    rcases dispatchForGroup_opens hexec with ⟨rfl, -⟩ | ⟨-, content, next, -, hreceive⟩
    · exact .of_contacts rfl
    · exact receive_grows hreceive

theorem does_setGroupIdInTx_cards {s t : Tables} {u : Unit}
    (h : Tx.Does (ContactRepo.setGroupIdInTx identity groupId) s u t) (other : PublicKey) :
    storedCards t.contacts other = storedCards s.contacts other := by
  have hstatement := Tx.does_statement h
  split at hstatement
  · cases hstatement
  · next row hrow =>
    cases hstatement
    rw [storedCards_put]
    split
    · next hother =>
      rw [hother, storedCards, hrow]
      rfl
    · rfl

theorem cards_upserted (env : AddEnv) (link : InviteLink) (other : PublicKey) :
    storedCards (contacts.put link.inviter (upsertedRow contacts env link)) other =
      storedCards contacts other := by
  rw [storedCards_put]
  split
  · next hother =>
    rw [hother, storedCards, upsertedRow]
    cases contacts.get link.inviter <;> rfl
  · rfl

theorem does_persistContact_grows {now : Int} {s t : Tables} {u : Unit}
    (hverify : link.body.card.verify deps.verifyCard now = .ok identity)
    (h : Tx.Does (persistContact deps env link contact) s u t) (other : PublicKey) :
    Grows deps.verifyCard other (storedCards s.contacts other)
      (storedCards t.contacts other) := by
  obtain ⟨consumed, _, hselect, h⟩ := Tx.does_bind h
  obtain ⟨rfl, rfl⟩ := Tx.does_select hselect
  obtain ⟨_, _, hensure, h⟩ := Tx.does_bind h
  obtain ⟨-, rfl⟩ := Tx.does_ensure hensure
  obtain ⟨_, _, hupsert, h⟩ := Tx.does_bind h
  obtain ⟨_, carded, hcard, h⟩ := Tx.does_bind h
  obtain ⟨_, _, hsave, h⟩ := Tx.does_bind h
  obtain ⟨_, linked, hlink, h⟩ := Tx.does_bind h
  obtain ⟨_, _, hmark, hpending⟩ := Tx.does_bind h
  cases does_upsertInTx hupsert
  have hgrows := Grows.of_putCardInTx hverify hcard other
  rw [cards_upserted] at hgrows
  cases does_saveInTx hsave
  have hlinked := does_setGroupIdInTx_cards hlink other
  obtain ⟨-, rfl⟩ := does_markConsumedInTx hmark
  cases Tx.does_update hpending
  show Grows _ _ _ (storedCards linked.contacts other)
  rw [hlinked]
  exact hgrows

theorem buildFirstContact_verify (h : buildFirstContact deps env link = .ok contact) :
    ∃ identity, link.body.card.verify deps.verifyCard env.now = .ok identity := by
  obtain ⟨keyPackage, -, h⟩ := bind_eq_ok.mp h
  obtain ⟨identity, hverify, -⟩ := bind_eq_ok.mp h
  exact ⟨identity, hverify⟩

theorem addRecorded_grows {result : Except CoreError ContactAdded}
    (h : exec (addRecorded deps env link) s = (result, t)) : CardsGrow deps.verifyCard s t := by
  rw [exec_addRecorded] at h
  split at h
  · split at h
    · split at h
      · cases h
        exact .of_contacts rfl
      · next contact hbuild =>
        obtain ⟨identity, hverify⟩ := buildFirstContact_verify hbuild
        split at h
        · cases h
          exact .of_contacts rfl
        · next tables hrun =>
          cases h
          exact does_persistContact_grows hverify (Tx.run_ok hrun)
    · cases h
      exact .of_contacts rfl
  · cases h
    exact .of_contacts rfl

theorem addContact_grows {url : List Char} {result : Except CoreError ContactAdded}
    (h : exec (addContact deps env url) s = (result, t)) : CardsGrow deps.verifyCard s t := by
  rcases addContact_cases h with ⟨_, -, rfl⟩ | ⟨link, middle, -, -, hrecorded, hrest⟩
  · exact .of_contacts rfl
  · have hcontacts : middle.tables.contacts = s.tables.contacts := by rw [hrecorded.tables]
    have hgrows := addRecorded_grows hrest
    unfold CardsGrow at hgrows
    rw [hcontacts] at hgrows
    exact hgrows

theorem cards_joinContacts (join : Prepared G) (other : PublicKey) :
    storedCards (joinContacts contacts join) other = storedCards contacts other := by
  have hcards (row : ContactRow) :
      ({ row with groupId := join.group.id } : ContactRow).cards = row.cards := rfl
  rw [joinContacts, storedCards_modify _ _ _ hcards, storedCards_put]
  split
  · next hother =>
    rw [hother, storedCards]
    cases contacts.get join.derived <;> rfl
  · rfl

theorem receiveWelcome_cards {deps : JoinDeps P G} {env : JoinEnv}
    {samePeer : FirstContactAck → Bool} {bindX25519 hTransport : Option (ByteArr 32)}
    {welcome : Bytes} {outcome : WelcomeOutcome}
    (h : receiveWelcome deps env samePeer bindX25519 hTransport welcome s = (outcome, t))
    (identity : PublicKey) :
    storedCards t.tables.contacts identity = storedCards s.tables.contacts identity := by
  rcases receiveWelcome_cases h with ⟨join, -, -, htables⟩ | ⟨-, rfl⟩
  · rw [htables]
    exact cards_joinContacts s.tables.contacts join identity
  · rfl

theorem dispatchWelcome_cards (deps : JoinDeps P G) (env : JoinEnv) (peer : PublicKey)
    (welcome : Bytes) (state : State) (identity : PublicKey) :
    storedCards (dispatchWelcome deps env peer welcome state).2.tables.contacts identity =
      storedCards state.tables.contacts identity := by
  unfold dispatchWelcome
  split
  · next h => exact receiveWelcome_cards h identity
  · next h => exact receiveWelcome_cards h identity

theorem dispatchWelcomeBootstrap_cards (deps : JoinDeps P G) (env : JoinEnv) (welcome : Bytes)
    (expectedX25519 : ByteArr 32) (hTransport : Option (ByteArr 32)) (state : State)
    (identity : PublicKey) :
    storedCards (dispatchWelcomeBootstrap deps env welcome expectedX25519 hTransport
      state).2.tables.contacts identity = storedCards state.tables.contacts identity := by
  unfold dispatchWelcomeBootstrap
  split
  · next h => exact receiveWelcome_cards h identity
  · next h => exact receiveWelcome_cards h identity
  · next h => exact receiveWelcome_cards h identity

end Paths

variable (deps : CardDeps P G)

theorem cardStep_grows (state : State) (action : CardAction) :
    CardsGrow deps.verifyCard state (cardStep deps state action) := by
  cases action with
  | receive lane env ciphertext => exact lane.dispatch_grows deps.inbound env ciphertext state
  | addContact env url => exact addContact_grows (Prod.mk.eta).symm
  | welcome env peer welcome =>
    exact .of_same (dispatchWelcome_cards deps.toJoinDeps env peer welcome state)
  | bootstrap env welcome expectedX25519 hTransport =>
    exact .of_same (dispatchWelcomeBootstrap_cards deps.toJoinDeps env welcome expectedX25519
      hTransport state)
  | restart => exact .of_contacts rfl

theorem latestVersion_mono (identity : PublicKey) (actions : List CardAction) {v : Nat}
    (h : latestVersion state identity = some v) :
    ∃ w, latestVersion (actions.foldl (cardStep deps) state) identity = some w ∧ v ≤ w := by
  induction actions generalizing state v with
  | nil => exact ⟨v, h, Nat.le_refl v⟩
  | cons action actions ih =>
    obtain ⟨w, hw, hvw⟩ := (cardStep_grows deps state action identity).latest h
    obtain ⟨x, hx, hwx⟩ := ih hw
    exact ⟨x, hx, Nat.le_trans hvw hwx⟩

/-! ### Rejected cards -/

def CarriesCard (deps : Deps G) (tables : Tables) (ciphertext : Bytes) : Prop :=
  ∀ groupId content next, Opens deps tables groupId ciphertext content next →
    ∃ envelope card, content = some envelope ∧ envelope.kind = .contactCardUpdate card

theorem Lane.dispatch_rejected {deps : Deps G} {env : Env} {ciphertext : Bytes} {lane : Lane}
    (hcard : CarriesCard deps state.tables ciphertext)
    (h : (lane.dispatch deps env ciphertext state).1 = none) :
    (lane.dispatch deps env ciphertext state).2 = state := by
  rcases lane.dispatch_cases deps env ciphertext state with
    hnone | ⟨sender, groupId, enforce, hdispatch⟩
  · rw [hnone]
  · rw [hdispatch] at h ⊢
    rcases hexec : exec (dispatchForGroup deps env sender groupId ciphertext enforce) state with
      ⟨result, after⟩
    rw [hexec] at h
    show after = state
    rcases dispatchForGroup_opens hexec with ⟨rfl, -⟩ | ⟨-, content, next, hopens, hreceive⟩
    · rfl
    obtain ⟨envelope, card, rfl, hkind⟩ := hcard groupId content next hopens
    cases result with
    | ok id => cases h
    | error e =>
      have hstaged := receive_error hreceive
      simpa only [staged, hkind] using hstaged

/-- In every run of received messages, accepted invites, Welcomes and restarts: the latest version
of a contact's card does not decrease, a card is stored only if it verifies under the contact's own
key and is newer than all stored ones, and a rejected card leaves the whole state as it was, except
that the call that imported it has recorded the key package of its invite. -/
theorem cards_monotone (deps : CardDeps P G) (state : State) (actions : List CardAction) :
    (∀ identity v, latestVersion state identity = some v →
      ∃ w, latestVersion (actions.foldl (cardStep deps) state) identity = some w ∧ v ≤ w) ∧
    (∀ action, CardsGrow deps.verifyCard (actions.foldl (cardStep deps) state)
      (cardStep deps (actions.foldl (cardStep deps) state) action)) ∧
    (∀ lane env ciphertext,
      CarriesCard deps.inbound (actions.foldl (cardStep deps) state).tables ciphertext →
      (Lane.dispatch deps.inbound env ciphertext (actions.foldl (cardStep deps) state) lane).1 =
        none →
      cardStep deps (actions.foldl (cardStep deps) state) (.receive lane env ciphertext) =
        actions.foldl (cardStep deps) state) ∧
    ∀ env url e after,
      exec (addContact deps.toInviteDeps env url) (actions.foldl (cardStep deps) state) =
        (.error e, after) →
      after = actions.foldl (cardStep deps) state ∨
        ∃ link, InviteLink.fromUrl deps.codec deps.verifyLink url env.now = .ok link ∧
          Recorded deps.toInviteDeps link (actions.foldl (cardStep deps) state) after := by
  refine ⟨fun identity v => latestVersion_mono deps identity actions, cardStep_grows deps _, ?_, ?_⟩
  · intro lane env ciphertext hcard hnone
    exact Lane.dispatch_rejected hcard hnone
  · intro env url e after hfailed
    exact addContact_error hfailed

/-- Bob has accepted the second invite of alice, whose card has version 2. -/
def newerInvite : State :=
  (exec (addContact (rosterDeps bob alice) (quietAdd (.fill 32 5)) (aliceInvites.getD 1 []))
    State.init).2

/-- The first invite, whose card has version 1, is then refused for its card, but its key package
has been recorded. -/
theorem stale_invite_recorded :
    latestVersion newerInvite alice = some 2 ∧
    (exec (addContact (rosterDeps bob alice) (quietAdd (.fill 32 6)) (aliceInvites.getD 0 []))
      newerInvite).1 = .error (.contact "card: stale version") ∧
    newerInvite.tables.keyPackages.rows.length = 1 ∧
    (exec (addContact (rosterDeps bob alice) (quietAdd (.fill 32 6)) (aliceInvites.getD 0 []))
      newerInvite).2.tables.keyPackages.rows.length = 2 := by
  refine ⟨?_, ?_, ?_, ?_⟩ <;> decide +kernel

end Skattr.Core.Daemon
