import Skattr.Core.Daemon.Send
import Skattr.Lib.Run

/-!
# Redelivered ciphertexts

A ciphertext can arrive twice: retransmitted after a lost Ack, or fetched again from a mailbox.
Recognising the duplicate needs the envelope id, hence a second decryption, and the snapshot that
the first dispatch saved has used up the key. `redelivery_refused` says that once a message has
been received, neither lane ever acknowledges its ciphertext again, whatever the daemon does in
between.
-/

namespace Skattr.Core.Daemon

open Lib Lib.Fallible Core.Mls

variable {G : Type}

def Stored (mls : OpenMls G) (tables : Tables) (groupId : GroupId) (g : G) : Prop :=
  ∃ blob, MlsGroupRepo.get tables groupId = some blob ∧ mls.load groupId blob = .ok (some g)

/-- Every stored group is a later state of the group that was stored under its id before. -/
def Evolves (mls : OpenMls G) (before after : Tables) : Prop :=
  ∀ groupId g', Stored mls after groupId g' → ∃ g, Stored mls before groupId g ∧ mls.Later g g'

variable {mls : OpenMls G} {before after tables : Tables} {addressee : Bytes → Option GroupId}
  {next : Mls.Group G} {groupId : GroupId} {ciphertext : Bytes} {deps : Deps G}
  {content : Option Envelope} {env : Env}

theorem Evolves.of_groups_eq (h : after.groups = before.groups) : Evolves mls before after := by
  intro groupId g' hstored
  unfold Stored MlsGroupRepo.get at hstored
  rw [h] at hstored
  exact ⟨g', hstored, .refl⟩

theorem Stored.of_put (hmls : mls.Lawful addressee) (hid : mls.groupId next.inner = next.id)
    (hgroups : after.groups = before.groups.put next.id (groupRow mls next)) {g : G}
    (h : Stored mls after groupId g) :
    (groupId = next.id ∧ g = next.inner) ∨ (groupId ≠ next.id ∧ Stored mls before groupId g) := by
  obtain ⟨blob, hblob, hload⟩ := h
  unfold MlsGroupRepo.get at hblob
  rw [hgroups] at hblob
  by_cases hsame : groupId = next.id
  · rw [hsame, Table.get_put_self] at hblob
    cases hblob
    have hsnapshot := hmls.load_snapshot next.inner
    rw [hid, ← hsame] at hsnapshot
    cases hsnapshot.symm.trans hload
    exact .inl ⟨hsame, rfl⟩
  · rw [Table.get_put_ne _ _ hsame] at hblob
    exact .inr ⟨hsame, blob, hblob, hload⟩

theorem Evolves.of_put (hmls : mls.Lawful addressee) {group : Mls.Group G}
    (hload : Mls.Group.load mls groupId (MlsGroupRepo.get before groupId) = .ok (some group))
    (hid : next.id = group.id) (hlater : mls.Later group.inner next.inner)
    (hgroups : after.groups = before.groups.put next.id (groupRow mls next)) :
    Evolves mls before after := by
  obtain ⟨stored, hget, hinner, hgroup, -⟩ := Mls.Group.load_ok hload
  have hnext : next.id = groupId := hid.trans hgroup
  have hnextId : mls.groupId next.inner = next.id := by
    rw [hlater.groupId hmls, hmls.load_groupId hinner, hnext]
  intro other g' hstored
  rcases hstored.of_put hmls hnextId hgroups with ⟨rfl, rfl⟩ | ⟨-, hbefore⟩
  · exact ⟨group.inner, ⟨stored, hnext ▸ hget, hnext ▸ hinner⟩, hlater⟩
  · exact ⟨g', hbefore, .refl⟩

/-- No stored group, nor any state that operations lead it to, processes the ciphertext. -/
def Spent (mls : OpenMls G) (tables : Tables) (ciphertext : Bytes) : Prop :=
  ∀ groupId g g', Stored mls tables groupId g → mls.Later g g' →
    ∀ result, mls.processMessage g' ciphertext ≠ .ok result

theorem Spent.evolves (h : Spent mls before ciphertext) (hevolves : Evolves mls before after) :
    Spent mls after ciphertext := by
  intro groupId g g' hstored hlater
  obtain ⟨old, hold, hsince⟩ := hevolves groupId g hstored
  exact h groupId old g' hold (hsince.trans hlater)

theorem Opens.processed (h : Opens deps tables groupId ciphertext content next) :
    ∃ g result, Stored deps.mls tables groupId g ∧
      deps.mls.processMessage g ciphertext = .ok result := by
  obtain ⟨group, hload, hdecrypt⟩ := h
  obtain ⟨stored, hget, hinner, -, -⟩ := Mls.Group.load_ok hload
  refine ⟨group.inner, ?_⟩
  rcases (Mls.Group.decrypt_ok hdecrypt).2 with ⟨_, _, -, -, hprocess⟩ | ⟨_, -, hprocess⟩
  · exact ⟨_, ⟨stored, hget, hinner⟩, hprocess⟩
  · exact ⟨_, ⟨stored, hget, hinner⟩, hprocess⟩

theorem Spent.not_opens (h : Spent deps.mls tables ciphertext) :
    ¬Opens deps tables groupId ciphertext content next := by
  intro hopens
  obtain ⟨g, result, hstored, hprocess⟩ := hopens.processed
  exact h groupId g g hstored .refl result hprocess

/-- Saving the group that opened a message spends the message: the group has used its key, and
every other group refuses it by its id. -/
theorem spent_of_opens (hmls : deps.mls.Lawful addressee) (honce : deps.mls.SingleUse)
    {envelope : Envelope} (hopens : Opens deps before groupId ciphertext (some envelope) next)
    (hgroups : after.groups = before.groups.put next.id (groupRow deps.mls next)) :
    Spent deps.mls after ciphertext := by
  obtain ⟨group, hload, hdecrypt⟩ := hopens
  obtain ⟨stored, -, hinner, hgroup, -⟩ := Mls.Group.load_ok hload
  obtain ⟨hid, ⟨plaintext, _, -, -, hprocess⟩ | ⟨_, hnone, -⟩⟩ := Mls.Group.decrypt_ok hdecrypt
  · have hnextId : deps.mls.groupId next.inner = next.id := by
      rw [hmls.advances_groupId (.processed hprocess), hmls.load_groupId hinner, hid, hgroup]
    intro other g g' hstored hlater result hagain
    rcases hstored.of_put hmls hnextId hgroups with ⟨-, rfl⟩ | ⟨hother, blob, -, hload⟩
    · exact honce hprocess hlater result hagain
    · -- a group under another id would have to process a ciphertext that names the first
      refine hother ?_
      have hsame := hmls.groupId_eq hagain hprocess
      rwa [hlater.groupId hmls, hmls.load_groupId hload, hmls.load_groupId hinner, ← hgroup,
        ← hid] at hsame
  · cases hnone

/-! ### The lanes -/

/-- How a ciphertext arrives: on the connection of a contact, or from a mailbox. -/
inductive Lane where
  | direct (sender : PublicKey)
  | mailbox
  deriving DecidableEq

def Lane.dispatch (deps : Deps G) (env : Env) (ciphertext : Bytes) (state : State) :
    Lane → Option MessageId × State
  | .direct sender => Daemon.dispatch deps env sender ciphertext state
  | .mailbox => dispatchMailbox deps env ciphertext state

theorem dispatchInner_cases {sender : PublicKey} {s t : State} {result : Except CoreError MessageId}
    (h : exec (dispatchInner deps env sender ciphertext) s = (result, t)) :
    (t = s ∧ ∃ e, result = .error e) ∨ ∃ groupId,
      exec (dispatchForGroup deps env sender groupId ciphertext true) s = (result, t) := by
  rw [dispatchInner, exec_bind, exec_get] at h
  rcases attempt_bind_cases h with ⟨e, -, herror, rfl⟩ | ⟨groupId, -, hrest⟩
  · exact .inl ⟨rfl, e, herror⟩
  · exact .inr ⟨groupId, hrest⟩

theorem Lane.dispatch_cases (deps : Deps G) (env : Env) (ciphertext : Bytes) (state : State)
    (lane : Lane) :
    lane.dispatch deps env ciphertext state = (none, state) ∨
      ∃ sender groupId enforce, lane.dispatch deps env ciphertext state = acknowledged
        (exec (dispatchForGroup deps env sender groupId ciphertext enforce) state) := by
  cases lane with
  | direct sender =>
    simp only [Lane.dispatch, Daemon.dispatch]
    rcases hexec : exec (dispatchInner deps env sender ciphertext) state with ⟨result, after⟩
    rcases dispatchInner_cases hexec with ⟨rfl, e, rfl⟩ | ⟨groupId, hgroup⟩
    · exact .inl rfl
    · exact .inr ⟨sender, groupId, true, by rw [hgroup]⟩
  | mailbox =>
    simp only [Lane.dispatch, dispatchMailbox]
    split
    · exact .inl rfl
    · next groupId peer _ => exact .inr ⟨peer, groupId, false, rfl⟩

def CarriesMessage (deps : Deps G) (tables : Tables) (ciphertext : Bytes) : Prop :=
  ∃ groupId envelope next, Opens deps tables groupId ciphertext (some envelope) next ∧
    envelope.kind.isCardUpdate = false

theorem Opens.unique (hmls : deps.mls.Lawful addressee) {other : GroupId}
    {content' : Option Envelope} {next' : Mls.Group G}
    (h : Opens deps tables groupId ciphertext content next)
    (h' : Opens deps tables other ciphertext content' next') : content = content' := by
  have hsame : groupId = other := by
    obtain ⟨g, _, ⟨_, -, hload⟩, hprocess⟩ := h.processed
    obtain ⟨g', _, ⟨_, -, hload'⟩, hprocess'⟩ := h'.processed
    have hsame := hmls.groupId_eq hprocess hprocess'
    rwa [hmls.load_groupId hload, hmls.load_groupId hload'] at hsame
  subst hsame
  obtain ⟨group, hload, hdecrypt⟩ := h
  obtain ⟨group', hload', hdecrypt'⟩ := h'
  cases hload.symm.trans hload'
  cases hdecrypt.symm.trans hdecrypt'
  rfl

theorem spent_of_acknowledged (hmls : deps.mls.Lawful addressee) (honce : deps.mls.SingleUse)
    {lane : Lane} {id : MessageId} {before after : State}
    (hmessage : CarriesMessage deps before.tables ciphertext)
    (h : lane.dispatch deps env ciphertext before = (some id, after)) :
    Spent deps.mls after.tables ciphertext := by
  obtain ⟨origin, envelope, opened, hopened, hkind⟩ := hmessage
  rcases Lane.dispatch_cases deps env ciphertext before lane with
    hnone | ⟨sender, groupId, enforce, hgroup⟩
  · cases hnone.symm.trans h
  rw [hgroup] at h
  rcases hexec : exec (dispatchForGroup deps env sender groupId ciphertext enforce) before with
    ⟨result, last⟩
  rw [hexec, acknowledged] at h
  obtain ⟨hresult, rfl⟩ := Prod.mk.inj h
  rcases dispatchForGroup_cases hexec with ⟨-, e, rfl⟩ | ⟨content, next, hopens, hreceives⟩
  · cases hresult
  cases hopens.unique hmls hopened
  cases result with
  | error e => cases hresult
  | ok first =>
    have hsaves : savesGroup (some envelope) (.ok first) = true := by
      simp [savesGroup, hkind, Except.isOk, Except.toBool]
    have hdelivery := hreceives.delivery
    rw [hsaves, if_pos rfl] at hdelivery
    exact spent_of_opens hmls honce hopens (congrArg Prod.fst hdelivery)

theorem Spent.refused {state : State} (h : Spent deps.mls state.tables ciphertext) (env : Env)
    (lane : Lane) : lane.dispatch deps env ciphertext state = (none, state) := by
  rcases Lane.dispatch_cases deps env ciphertext state lane with
    hnone | ⟨sender, groupId, enforce, hgroup⟩
  · exact hnone
  rw [hgroup]
  rcases hexec : exec (dispatchForGroup deps env sender groupId ciphertext enforce) state with
    ⟨result, last⟩
  rcases dispatchForGroup_cases hexec with ⟨rfl, e, rfl⟩ | ⟨content, next, hopens, -⟩
  · rfl
  · exact absurd hopens h.not_opens

/-! ### Runs of the daemon -/

/-- What the daemon does between two arrivals of a ciphertext: it receives on either lane, sends
messages and cards, deletes old rows, and restarts. -/
inductive Action where
  | receive (lane : Lane) (env : Env) (ciphertext : Bytes)
  | sendMessage (env : Env) (self contact : PublicKey) (kind : Kind)
  | sendCard (env : Env) (card : ContactCard) (peer : PublicKey)
  | sweepSeen (cutoff : Int)
  | pruneMessages (cutoff : Int)
  | restart

def step (deps : Deps G) (state : State) : Action → State
  | .receive lane env ciphertext => (lane.dispatch deps env ciphertext state).2
  | .sendMessage env self contact kind =>
    (exec (Daemon.sendMessage deps env self contact kind) state).2
  | .sendCard env card peer => (exec (sendCardToContact deps env card peer) state).2
  | .sweepSeen cutoff =>
    { state with tables := SeenMessagesRepo.sweepOlderThan cutoff state.tables }
  | .pruneMessages cutoff => { state with tables := { state.tables with
      messages := MessageRepo.pruneBefore none cutoff state.tables.messages } }
  | .restart => ⟨state.tables, [], [], []⟩

theorem Lane.dispatch_evolves (hmls : deps.mls.Lawful addressee) (env : Env) (ciphertext : Bytes)
    (state : State) (lane : Lane) :
    Evolves deps.mls state.tables (lane.dispatch deps env ciphertext state).2.tables := by
  rcases Lane.dispatch_cases deps env ciphertext state lane with
    hnone | ⟨sender, groupId, enforce, hgroup⟩
  · rw [hnone]
    exact .of_groups_eq rfl
  rw [hgroup]
  rcases hexec : exec (dispatchForGroup deps env sender groupId ciphertext enforce) state with
    ⟨result, last⟩
  show Evolves deps.mls state.tables last.tables
  rcases dispatchForGroup_cases hexec with ⟨rfl, -⟩ | ⟨content, next, hopens, hreceives⟩
  · exact .of_groups_eq rfl
  have hdelivery := hreceives.delivery
  split at hdelivery
  · obtain ⟨group, hload, hdecrypt⟩ := hopens
    exact .of_put hmls hload (Mls.Group.decrypt_ok hdecrypt).1 (Mls.Group.decrypt_later hdecrypt)
      (congrArg Prod.fst hdelivery)
  · exact .of_groups_eq (congrArg Prod.fst hdelivery)

theorem Sent.evolves (hmls : deps.mls.Lawful addressee) (h : Sent deps before after) :
    Evolves deps.mls before after := by
  rcases h with hsame | ⟨groupId, group, envelope, ciphertext, next, hload, hencrypt, hput⟩
  · exact .of_groups_eq hsame
  · obtain ⟨_, -, -, hid⟩ := Mls.Group.encrypt_ok hencrypt
    exact .of_put hmls hload hid (Mls.Group.encrypt_later hencrypt) hput

theorem step_evolves (hmls : deps.mls.Lawful addressee) (state : State) (action : Action) :
    Evolves deps.mls state.tables (step deps state action).tables := by
  cases action with
  | receive lane env ciphertext => exact lane.dispatch_evolves hmls env ciphertext state
  | sendMessage env self contact kind => exact (sendMessage_sent rfl).evolves hmls
  | sendCard env card peer => exact (sendCardToContact_sent rfl).evolves hmls
  | sweepSeen | pruneMessages | restart => exact .of_groups_eq rfl

/-- A message that was received and acknowledged is never acknowledged again: whatever the daemon
does after it, both lanes refuse the same ciphertext and change nothing. -/
theorem redelivery_refused (deps : Deps G) (addressee : Bytes → Option GroupId)
    (hmls : deps.mls.Lawful addressee) (honce : deps.mls.SingleUse) (env : Env) (lane : Lane)
    (ciphertext : Bytes) (id : MessageId) (before after : State)
    (hmessage : CarriesMessage deps before.tables ciphertext)
    (hfirst : lane.dispatch deps env ciphertext before = (some id, after))
    (actions : List Action) (env' : Env) (again : Lane) :
    again.dispatch deps env' ciphertext (actions.foldl (step deps) after) =
      (none, actions.foldl (step deps) after) := by
  have hspent := spent_of_acknowledged hmls honce hmessage hfirst
  -- a spent ciphertext stays spent, since every action only evolves the stored groups
  let Inv : State → Prop := fun state => Spent deps.mls state.tables ciphertext
  have hstep : ∀ state action, Inv state → Inv (step deps state action) :=
    fun state action h => h.evolves (step_evolves hmls state action)
  have hrun : Inv (actions.foldl (step deps) after) := foldl_invariant hstep actions hspent
  exact Spent.refused hrun env' again

/-! ### One message, received twice -/

/-- A daemon over the counter groups that decodes every plaintext as one text message. -/
def counterDeps : Deps Counter where
  mls := counterMls
  codec := ⟨fun _ => .ok [], fun _ => .ok ⟨1, .fill 16 5, 0, none, .text "hi"⟩⟩
  manifest _ := .error "no manifest"
  verifyCbor _ _ _ := true

def linkedTables : Tables := { Tables.empty with
  contacts := Table.empty.put (.fill 32 1) ⟨none, 0, List.replicate 32 7, false, []⟩
  groups := Table.empty.put (List.replicate 32 7) ⟨[1], 0⟩ }

/-- The first message of the group, 32 bytes for its id and none for generation 0. -/
def firstMessage : Bytes := List.replicate 32 7

def afterFirst : State :=
  ((Lane.direct (.fill 32 1)).dispatch counterDeps ⟨0, .fill 16 0, none, none⟩ firstMessage
    ⟨linkedTables, [], [], []⟩).2

theorem firstMessage_acknowledged :
    (Lane.direct (.fill 32 1)).dispatch counterDeps ⟨0, .fill 16 0, none, none⟩ firstMessage
      ⟨linkedTables, [], [], []⟩ = (some (.fill 16 5), afterFirst) := rfl

/-- The message is received and its row stored, and its retransmission is not acknowledged, neither
on the contact's connection nor from a mailbox. -/
theorem retransmission_not_acknowledged :
    (Lane.direct (.fill 32 1)).dispatch counterDeps ⟨0, .fill 16 0, none, none⟩ firstMessage
        ⟨linkedTables, [], [], []⟩ = (some (.fill 16 5), afterFirst) ∧
      (afterFirst.tables.messages.get (List.replicate 32 7, .fill 16 5)).isSome ∧
      ((Lane.direct (.fill 32 1)).dispatch counterDeps ⟨1000, .fill 16 0, none, none⟩ firstMessage
        afterFirst).1 ≠ some (.fill 16 5) ∧
      (Lane.mailbox.dispatch counterDeps ⟨1000, .fill 16 0, none, none⟩ firstMessage afterFirst).1 ≠
        some (.fill 16 5) := by
  refine ⟨firstMessage_acknowledged, ?_, ?_, ?_⟩ <;> decide

theorem firstMessage_carriesMessage : CarriesMessage counterDeps linkedTables firstMessage :=
  ⟨List.replicate 32 7, ⟨1, .fill 16 5, 0, none, .text "hi"⟩,
    ⟨List.replicate 32 7, .active 0, ⟨List.replicate 32 7, 0, 1⟩⟩,
    ⟨⟨List.replicate 32 7, .active 0, ⟨List.replicate 32 7, 0, 0⟩⟩, rfl, rfl⟩, rfl⟩

/-- After a restart and a swept index of seen messages, the mailbox lane refuses the message. -/
theorem refetched_after_restart :
    Lane.mailbox.dispatch counterDeps ⟨1000, .fill 16 0, none, none⟩ firstMessage
        ([Action.restart, .sweepSeen 1].foldl (step counterDeps) afterFirst) =
      (none, [Action.restart, .sweepSeen 1].foldl (step counterDeps) afterFirst) :=
  redelivery_refused counterDeps _ counterMls_lawful counterMls_singleUse
    ⟨0, .fill 16 0, none, none⟩ (.direct (.fill 32 1)) firstMessage (.fill 16 5)
    ⟨linkedTables, [], [], []⟩ afterFirst firstMessage_carriesMessage firstMessage_acknowledged
    [.restart, .sweepSeen 1] ⟨1000, .fill 16 0, none, none⟩ .mailbox

end Skattr.Core.Daemon
