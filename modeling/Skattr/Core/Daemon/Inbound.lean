import Skattr.Core.Mls.Group
import Skattr.Core.Storage.Tables

/-!
# The inbound message pipeline

`dispatchForGroup` loads a group, decrypts one message, and persists the advanced ratchet together
with the seen row and the message row in one transaction. `dispatch` is the direct lane, which
finds the group by the connected contact; `dispatchMailbox` is the mailbox lane, which finds it by
trial decryption. What both lanes do to the stored groups is one fact, `dispatchForGroup_cases`:
nothing, or they replace one snapshot by the one that the decryption led to.
-/

namespace Skattr.Core.Daemon

open Lib Lib.Fallible Core.Mls

variable {G : Type}

def REPLAY_WINDOW_MS : Int := 60 * 60 * 1000

/-- The third-party parts of the pipeline: OpenMLS, the CBOR codecs and signature checking. -/
structure Deps (G : Type) where
  mls : OpenMls G
  codec : EnvelopeCodec
  manifest : Bytes → Except String AttachmentManifest
  verifyCbor : PublicKey → ContactCardBody → ByteArr 64 → Bool

/-- The record of a received message as the event carries it. -/
structure MessageRecord where
  envelope : Envelope
  contact : PublicKey
  mlsGeneration : Nat
  tsDaemonRecv : Int
  deriving DecidableEq

/-- The events of the modelled functions. -/
inductive Event where
  | messageReceived (contact : PublicKey) (record : MessageRecord)
  | contactCardReceived (contact : PublicKey) (version : Nat)
  | contactUpdated (contact : PublicKey)
  | contactRemoved (contact : PublicKey)
  deriving DecidableEq

/-- The daemon: its database, the events it has emitted, the attachment fetches it has queued and
the ciphertexts it has handed to the delivery hub. -/
structure State where
  tables : Tables
  events : List Event
  begins : List (PublicKey × AttachmentManifest)
  handed : List (PublicKey × MessageId × Bytes)
  deriving DecidableEq

def State.init : State := ⟨Tables.empty, [], [], []⟩

/-- What a call meets: the clock in milliseconds, a fresh random message id, the number of
statements of its transaction before a storage fault, and the number of statements before a fault
while it stages an attachment. -/
structure Env where
  clockMs : Int
  freshId : MessageId
  budget : Option Nat
  staging : Option Nat
  deriving DecidableEq

def Env.now (env : Env) : Int := env.clockMs / 1000

/-- The clock that the receiver compares timestamps with: whole seconds, in milliseconds. -/
def Env.nowMs (env : Env) : Int := saturate (env.now * 1000)

/-- Run a transaction on the daemon's pool; `budget` is the number of its statements before a
storage fault. -/
def transactWithin {α : Type} (budget : Option Nat) (body : DbTx α) : Fallible CoreError State α :=
  onPart State.tables (fun tables state => { state with tables := tables })
    (Pool.transaction budget body)

def transact {α : Type} (env : Env) (body : DbTx α) : Fallible CoreError State α :=
  transactWithin env.budget body

def emit (event : Event) : Fallible CoreError State Unit :=
  modify fun state => { state with events := state.events ++ [event] }

def saveInTx (mls : OpenMls G) (group : Mls.Group G) : DbTx Unit :=
  MlsGroupRepo.putInTx group.id (mls.snapshot group.inner) (mls.epoch group.inner)

/-! ### Receiving one envelope -/

/-- The outcome of ingesting an envelope. -/
inductive ReceiveOutcome where
  | new
  | duplicate
  | rejected (reason : String)
  deriving DecidableEq

def outsideWindow (ts nowMs : Int) : Bool :=
  saturate (saturate (ts - nowMs)).natAbs > REPLAY_WINDOW_MS

def receiveInTx (deps : Deps G) (sender : PublicKey) (groupId : GroupId) (envelope : Envelope)
    (nowMs : Int) (mlsGeneration : Nat) (tsDaemonRecv : Int) (enforceTsWindow : Bool) :
    DbTx ReceiveOutcome :=
  if enforceTsWindow ∧ outsideWindow envelope.ts nowMs then
    pure (.rejected s!"ts outside ±1h window: envelope ts={envelope.ts}, now={nowMs}")
  else do
    let isNew ← SeenMessagesRepo.insertInTx sender envelope.id nowMs
    if isNew then do
      ensure (groupId.length = 32) (.storage "group_id must be 32 bytes")
      MessageRepo.insertInTx deps.codec.encode groupId
        ⟨sender, envelope, mlsGeneration, tsDaemonRecv⟩
      pure .new
    else pure .duplicate

/-- The transaction of a received message: the ratchet, the seen row and the message row. A
rejected envelope is an error here, so that the ratchet is rolled back with it. -/
def persistReceived (deps : Deps G) (env : Env) (sender : PublicKey) (groupId : GroupId)
    (group : Mls.Group G) (envelope : Envelope) (enforceTsWindow : Bool) : DbTx ReceiveOutcome := do
  saveInTx deps.mls group
  let outcome ← receiveInTx deps sender groupId envelope env.nowMs (deps.mls.epoch group.inner)
    env.now enforceTsWindow
  match outcome with
  | .rejected reason => attempt (.error (.delivery ("inbound: rejected: " ++ reason)))
  | outcome => pure outcome

/-- The row of an incoming attachment. The sender is recorded by a second statement, whose failure
is only logged. -/
def stagedRow (env : Env) (sender : PublicKey) (manifest : Bytes) (chunks : List ChunkRef) :
    AttachmentRow :=
  ⟨.inbound, manifest, chunks.length, .pending, env.now,
    if env.staging = some 1 then none else some sender⟩

/-- Stage the manifest of an incoming file and queue the fetch of its chunks. A bad manifest, or
one that is already known, is skipped. -/
def stageAttachment (deps : Deps G) (env : Env) (sender : PublicKey) (manifest : Bytes)
    (state : State) : State :=
  match AttachmentManifest.fromCbor deps.manifest manifest with
  | .error _ => state
  | .ok m =>
    if m.totalSize ≤ MAX_ATTACHMENT_BYTES ∧ m.chunks ≠ [] ∧ env.staging ≠ some 0 then
      match state.tables.attachments.insert m.attachmentId
          (stagedRow env sender manifest m.chunks) with
      | none => state
      | some attachments => { state with
          tables := { state.tables with attachments := attachments }
          begins := state.begins ++ [(sender, m)] }
    else state

/-- Persist a message of the history, announce it when it is new, and acknowledge it. -/
def receiveMessage (deps : Deps G) (env : Env) (sender : PublicKey) (groupId : GroupId)
    (group : Mls.Group G) (envelope : Envelope) (enforceTsWindow : Bool) :
    Fallible CoreError State MessageId := do
  let outcome ← transact env
    (persistReceived deps env sender groupId group envelope enforceTsWindow)
  match outcome with
  | .new => emit (.messageReceived sender
      ⟨envelope, sender, deps.mls.epoch group.inner, env.now⟩)
  | _ => pure ()
  pure envelope.id

/-- Store a card that the sender published. The group is not saved on this path. -/
def receiveCard (deps : Deps G) (env : Env) (sender : PublicKey) (id : MessageId)
    (card : ContactCard) : Fallible CoreError State MessageId := do
  let claimed ← attempt (card.verify deps.verifyCbor env.now)
  ensure (claimed = sender) (.contact "card-update: sender identity mismatch")
  transact env (ContactRepo.putCardInTx card)
  emit (.contactCardReceived sender card.body.version)
  pure id

/-- Persist the epoch that a commit advanced to, and acknowledge with a fresh id. -/
def receiveCommit (deps : Deps G) (env : Env) (group : Mls.Group G) :
    Fallible CoreError State MessageId := do
  transact env (saveInTx deps.mls group)
  pure env.freshId

def receive (deps : Deps G) (env : Env) (sender : PublicKey) (groupId : GroupId)
    (group : Mls.Group G) (enforceTsWindow : Bool) :
    Option Envelope → Fallible CoreError State MessageId
  | none => receiveCommit deps env group
  | some envelope =>
    match envelope.kind with
    | .contactCardUpdate card => receiveCard deps env sender envelope.id card
    | .file manifest => do
        modify (stageAttachment deps env sender manifest)
        receiveMessage deps env sender groupId group envelope enforceTsWindow
    | _ => receiveMessage deps env sender groupId group envelope enforceTsWindow

/-! ### The two lanes -/

def loadGroup (mls : OpenMls G) (tables : Tables) (groupId : GroupId) (unknown : CoreError) :
    Except CoreError (Mls.Group G) :=
  match Mls.Group.load mls groupId (MlsGroupRepo.get tables groupId) with
  | .error e => .error e
  | .ok none => .error unknown
  | .ok (some group) => .ok group

def dispatchForGroup (deps : Deps G) (env : Env) (sender : PublicKey) (groupId : GroupId)
    (ciphertext : Bytes) (enforceTsWindow : Bool) : Fallible CoreError State MessageId := do
  ensure (groupId.length = 32) (.mls "mls: inbound: bad group_id length")
  let state ← get
  let group ← attempt
    (loadGroup deps.mls state.tables groupId (.mls "mls: inbound: unknown group_id"))
  let (content, group) ← attempt (group.decrypt deps.mls deps.codec ciphertext)
  receive deps env sender groupId group enforceTsWindow content

/-- The direct lane: the group is the one that the connected contact is linked to. -/
def dispatchInner (deps : Deps G) (env : Env) (sender : PublicKey) (ciphertext : Bytes) :
    Fallible CoreError State MessageId := do
  let state ← get
  let groupId ← attempt
    (match (ContactRepo.getGroupId state.tables sender).filter (· ≠ []) with
    | none => .error (.mls "mls: inbound: no group for peer")
    | some groupId => .ok groupId)
  dispatchForGroup deps env sender groupId ciphertext true

def acknowledged (outcome : Except CoreError MessageId × State) : Option MessageId × State :=
  (outcome.1.toOption, outcome.2)

/-- The direct lane as the peer actor calls it: an error drops the frame without an Ack. -/
def dispatch (deps : Deps G) (env : Env) (sender : PublicKey) (ciphertext : Bytes)
    (state : State) : Option MessageId × State :=
  acknowledged (exec (dispatchInner deps env sender ciphertext) state)

/-- The contact to attribute a mailbox deposit to, if this group decrypts it. The trial runs on a
copy of the group that is never saved. -/
def trial (deps : Deps G) (tables : Tables) (ciphertext : Bytes) (groupId : GroupId) :
    Option (GroupId × PublicKey) :=
  match Mls.Group.load deps.mls groupId (MlsGroupRepo.get tables groupId) with
  | .ok (some group) =>
    match group.decrypt deps.mls deps.codec ciphertext with
    | .ok (some _, _) =>
      if groupId.length = 32 then
        (ContactRepo.contactForGroup tables groupId).map fun peer => (groupId, peer)
      else none
    | _ => none
  | _ => none

/-- The mailbox lane: the first group that decrypts the deposit receives it. -/
def dispatchMailbox (deps : Deps G) (env : Env) (ciphertext : Bytes) (state : State) :
    Option MessageId × State :=
  match (MlsGroupRepo.list state.tables).findSome? (trial deps state.tables ciphertext) with
  | none => (none, state)
  | some (groupId, peer) =>
    acknowledged (exec (dispatchForGroup deps env peer groupId ciphertext false) state)

/-! ### What the pipeline does to the stored groups -/

def groupRow (mls : OpenMls G) (group : Mls.Group G) : GroupRow :=
  ⟨mls.snapshot group.inner, mls.epoch group.inner⟩

variable {α : Type} {budget : Option Nat} {s t : State} {mls : OpenMls G} {group : Mls.Group G}
  {groupId : GroupId} {deps : Deps G} {env : Env} {sender : PublicKey} {envelope : Envelope}
  {enforce : Bool} {content : Option Envelope} {result : Except CoreError MessageId} {body : DbTx α}
  {outcome : ReceiveOutcome} {u : Unit} {card : ContactCard}

theorem exec_transactWithin (budget : Option Nat) (body : DbTx α) (s : State) :
    exec (transactWithin budget body) s =
      match Pool.transaction budget body s.tables with
      | (.error e, _) => (.error e, s)
      | (.ok a, tables) => (.ok a, { s with tables := tables }) := by
  rw [transactWithin, exec_onPart]
  rcases hrun : Pool.transaction budget body s.tables with ⟨result, tables⟩
  cases result with
  | error e =>
    have hsame : tables = s.tables := Tx.run_error hrun
    rw [hsame]
  | ok a => rfl

theorem transactWithin_cases {result : Except CoreError α}
    (h : exec (transactWithin budget body) s = (result, t)) :
    (∃ e, result = .error e ∧ t = s) ∨
      ∃ a tables, result = .ok a ∧ Tx.Does body s.tables a tables ∧
        t = { s with tables := tables } := by
  rw [exec_transactWithin] at h
  split at h
  · cases h
    exact .inl ⟨_, rfl, rfl⟩
  · next a tables hrun =>
    cases h
    exact .inr ⟨a, tables, rfl, Tx.run_ok hrun, rfl⟩

theorem transactWithin_keeps {R : State → State → Prop} [Std.Refl R]
    (hbody : ∀ {s : State} {a tables}, Tx.Does body s.tables a tables → R s { s with tables :=
      tables }) : Keeps R (transactWithin budget body) := by
  intro s
  rcases h : exec (transactWithin budget body) s with ⟨result, t⟩
  rcases transactWithin_cases h with ⟨e, -, rfl⟩ | ⟨a, tables, -, hdoes, rfl⟩
  · exact refl_of R _
  · exact hbody hdoes

/-- What a sequence did that starts with a transaction: the transaction failed and nothing was
changed, or the rest ran on the tables that its body left. -/
theorem transactWithin_bind_cases {β : Type} {f : α → Fallible CoreError State β} {u : State}
    {result : Except CoreError β} (h : exec (transactWithin budget body >>= f) s = (result, u)) :
    (∃ e, result = .error e ∧ u = s) ∨
      ∃ a tables, Tx.Does body s.tables a tables ∧
        exec (f a) { s with tables := tables } = (result, u) := by
  rcases exec_bind_cases h with ⟨e, hfail, rfl⟩ | ⟨a, middle, hok, hrest⟩
  · rcases transactWithin_cases hfail with ⟨_, -, rfl⟩ | ⟨_, _, herror, -⟩
    · exact .inl ⟨e, rfl, rfl⟩
    · cases herror
  · rcases transactWithin_cases hok with ⟨_, herror, -⟩ | ⟨_, tables, hresult, hdoes, rfl⟩
    · cases herror
    · cases hresult
      exact .inr ⟨a, tables, hdoes, hrest⟩

theorem does_saveInTx {s t : Tables} (h : Tx.Does (saveInTx mls group) s u t) :
    t = { s with groups := s.groups.put group.id (groupRow mls group) } := by
  obtain ⟨_, middle, hensure, hput⟩ := Tx.does_bind h
  obtain ⟨-, rfl⟩ := Tx.does_ensure hensure
  exact (Tx.does_update hput).symm

theorem does_putCardInTx_frame {s t : Tables} (h : Tx.Does (ContactRepo.putCardInTx card) s u t) :
    t = { s with contacts := t.contacts } := by
  obtain ⟨_, middle, hensure, hput⟩ := Tx.does_bind h
  obtain ⟨-, rfl⟩ := Tx.does_ensure hensure
  have hstatement := Tx.does_statement hput
  split at hstatement
  · cases hstatement
  · split at hstatement
    · cases hstatement
      rfl
    · cases hstatement

theorem does_insertMessage {encode : Envelope → Except String Bytes} {row : MessageRow}
    {s t : Tables} (h : Tx.Does (MessageRepo.insertInTx encode groupId row) s u t) :
    ∃ messages, s.messages.insert (groupId, row.envelope.id) row = some messages ∧
      t = { s with messages := messages } := by
  obtain ⟨_, middle, hencode, hinsert⟩ := Tx.does_bind h
  obtain ⟨-, rfl⟩ := Tx.does_attempt hencode
  have hstatement := Tx.does_statement hinsert
  split at hstatement
  · cases hstatement
  · next messages hmessages =>
    cases hstatement
    exact ⟨messages, hmessages, rfl⟩

theorem does_receiveInTx_frame {nowMs tsRecv : Int} {generation : Nat} {s t : Tables}
    (h : Tx.Does (receiveInTx deps sender groupId envelope nowMs generation tsRecv enforce) s
      outcome t) :
    t = { s with messages := t.messages, seenMessages := t.seenMessages } := by
  unfold receiveInTx at h
  split at h
  · obtain ⟨-, rfl⟩ := Tx.does_pure h
    rfl
  · obtain ⟨isNew, seen, hseen, hrest⟩ := Tx.does_bind h
    cases Tx.does_statement hseen
    split at hrest
    · obtain ⟨_, _, hensure, hrest⟩ := Tx.does_bind hrest
      obtain ⟨-, rfl⟩ := Tx.does_ensure hensure
      obtain ⟨_, inserted, hinsert, hpure⟩ := Tx.does_bind hrest
      obtain ⟨-, rfl⟩ := Tx.does_pure hpure
      obtain ⟨messages, -, rfl⟩ := does_insertMessage hinsert
      rfl
    · obtain ⟨-, rfl⟩ := Tx.does_pure hrest
      rfl

theorem does_persistReceived_frame {s t : Tables}
    (h : Tx.Does (persistReceived deps env sender groupId group envelope enforce) s outcome t) :
    t = { s with
      groups := s.groups.put group.id (groupRow deps.mls group)
      messages := t.messages
      seenMessages := t.seenMessages } := by
  obtain ⟨_, saved, hsave, hrest⟩ := Tx.does_bind h
  obtain ⟨received, middle, hreceive, hlast⟩ := Tx.does_bind hrest
  cases does_saveInTx hsave
  split at hlast
  · cases (Tx.does_attempt hlast).1
  · obtain ⟨-, rfl⟩ := Tx.does_pure hlast
    exact does_receiveInTx_frame hreceive

/-- Receiving succeeded, and it was not a card: the snapshot of the group was written. -/
def savesGroup (content : Option Envelope) (result : Except CoreError MessageId) : Bool :=
  result.isOk && !content.any fun envelope => envelope.kind.isCardUpdate

/-- What receiving does to the ratchet and to the delivery: it writes the snapshot or leaves the
groups as they were, and it sends nothing. -/
structure Receives (mls : OpenMls G) (group : Mls.Group G) (content : Option Envelope)
    (result : Except CoreError MessageId) (before after : State) : Prop where
  delivery : after.tables.delivery =
    if savesGroup content result then
      (before.tables.groups.put group.id (groupRow mls group), before.tables.outbox)
    else before.tables.delivery
  handed : after.handed = before.handed

theorem Receives.of_error {state : State} (e : CoreError) :
    Receives mls group content (.error e) state state :=
  ⟨rfl, rfl⟩

theorem receiveMessage_receives (hkind : envelope.kind.isCardUpdate = false)
    (h : exec (receiveMessage deps env sender groupId group envelope enforce) s = (result, t)) :
    Receives deps.mls group (some envelope) result s t := by
  rcases transactWithin_bind_cases h with ⟨e, rfl, rfl⟩ | ⟨outcome, tables, hdoes, hrest⟩
  · exact .of_error e
  -- announcing the message touches the events only
  obtain ⟨rfl, htables, hhanded⟩ : result = .ok envelope.id ∧ t.tables = tables ∧
      t.handed = s.handed := by
    cases outcome <;> (cases hrest; exact ⟨rfl, rfl, rfl⟩)
  have hsaves : savesGroup (some envelope) (.ok envelope.id) = true := by
    simp [savesGroup, hkind, Except.isOk, Except.toBool]
  refine ⟨?_, hhanded⟩
  rw [htables, hsaves, if_pos rfl, does_persistReceived_frame hdoes]
  rfl

theorem receiveCard_receives (hkind : envelope.kind = .contactCardUpdate card)
    (h : exec (receiveCard deps env sender envelope.id card) s = (result, t)) :
    Receives deps.mls group (some envelope) result s t := by
  rcases attempt_bind_cases h with ⟨e, -, rfl, rfl⟩ | ⟨claimed, -, hrest⟩
  · exact .of_error e
  rcases ensure_bind_cases hrest with ⟨-, rfl, rfl⟩ | ⟨-, hrest⟩
  · exact .of_error _
  rcases transactWithin_bind_cases hrest with ⟨e, rfl, rfl⟩ | ⟨_, tables, hdoes, hrest⟩
  · exact .of_error e
  have hsaves : savesGroup (some envelope) result = false := by
    simp [savesGroup, hkind, Kind.isCardUpdate]
  cases hrest
  exact ⟨by rw [hsaves, does_putCardInTx_frame hdoes]; rfl, rfl⟩

theorem receiveCommit_receives (h : exec (receiveCommit deps env group) s = (result, t)) :
    Receives deps.mls group none result s t := by
  rcases transactWithin_bind_cases h with ⟨e, rfl, rfl⟩ | ⟨_, tables, hdoes, hrest⟩
  · exact .of_error e
  cases hrest
  exact ⟨by rw [does_saveInTx hdoes]; rfl, rfl⟩

theorem stageAttachment_delivery (deps : Deps G) (env : Env) (sender : PublicKey)
    (manifest : Bytes) (state : State) :
    (stageAttachment deps env sender manifest state).tables.delivery = state.tables.delivery ∧
      (stageAttachment deps env sender manifest state).handed = state.handed := by
  unfold stageAttachment
  split
  · exact ⟨rfl, rfl⟩
  · split
    · split <;> exact ⟨rfl, rfl⟩
    · exact ⟨rfl, rfl⟩

theorem Receives.after_staging {before staged after : State}
    (h : Receives mls group content result staged after)
    (hdelivery : staged.tables.delivery = before.tables.delivery)
    (hhanded : staged.handed = before.handed) : Receives mls group content result before after := by
  obtain ⟨hgroups, houtbox⟩ := Prod.mk.inj hdelivery
  exact ⟨by rw [h.delivery, hgroups, houtbox, hdelivery], h.handed.trans hhanded⟩

theorem receive_receives
    (h : exec (receive deps env sender groupId group enforce content) s = (result, t)) :
    Receives deps.mls group content result s t := by
  cases content with
  | none => exact receiveCommit_receives h
  | some envelope =>
    simp only [receive] at h
    split at h
    · next card hkind => exact receiveCard_receives hkind h
    · next manifest hkind =>
      obtain ⟨hdelivery, hhanded⟩ := stageAttachment_delivery deps env sender manifest s
      have hreceives := receiveMessage_receives (s := stageAttachment deps env sender manifest s)
        (by rw [hkind]; rfl) h
      exact hreceives.after_staging hdelivery hhanded
    · next hcard _ =>
      refine receiveMessage_receives ?_ h
      cases hkind : envelope.kind with
      | contactCardUpdate card => exact absurd hkind (hcard card)
      | _ => rfl

def Opens (deps : Deps G) (tables : Tables) (groupId : GroupId) (ciphertext : Bytes)
    (content : Option Envelope) (next : Mls.Group G) : Prop :=
  ∃ group, Mls.Group.load deps.mls groupId (MlsGroupRepo.get tables groupId) = .ok (some group) ∧
    group.decrypt deps.mls deps.codec ciphertext = .ok (content, next)

theorem loadGroup_ok {tables : Tables} {unknown : CoreError}
    (h : loadGroup mls tables groupId unknown = .ok group) :
    Mls.Group.load mls groupId (MlsGroupRepo.get tables groupId) = .ok (some group) := by
  unfold loadGroup at h
  split at h
  · cases h
  · cases h
  · next hload =>
    cases h
    exact hload

theorem dispatchForGroup_cases {ciphertext : Bytes}
    (h : exec (dispatchForGroup deps env sender groupId ciphertext enforce) s = (result, t)) :
    (t = s ∧ ∃ e, result = .error e) ∨
      ∃ content next, Opens deps s.tables groupId ciphertext content next ∧
        Receives deps.mls next content result s t := by
  rcases ensure_bind_cases h with ⟨-, herror, rfl⟩ | ⟨-, hrest⟩
  · exact .inl ⟨rfl, _, herror⟩
  rw [exec_bind, exec_get] at hrest
  rcases attempt_bind_cases hrest with ⟨e, -, herror, rfl⟩ | ⟨group, hload, hrest⟩
  · exact .inl ⟨rfl, e, herror⟩
  rcases attempt_bind_cases hrest with ⟨e, -, herror, rfl⟩ | ⟨⟨content, next⟩, hdecrypt, hrest⟩
  · exact .inl ⟨rfl, e, herror⟩
  exact .inr ⟨content, next, ⟨group, loadGroup_ok hload, hdecrypt⟩, receive_receives hrest⟩

end Skattr.Core.Daemon
