import Skattr.Core.Daemon.CreateInvite
import Skattr.Core.Daemon.Redelivery
import Skattr.Core.Delivery.Custody
import Skattr.Core.Delivery.Peer

/-!
# Publishing the self-card

`publish_self_card_update` signs a new card and sends it to one contact after the other: it
encrypts the card, saves the ratchet, and submits the ciphertext to the hub as a job of the
contact's actor. A job that cannot be dialled or sent is dropped, and so is one that loses its
connection, its actor or the daemon before the Ack. What backs a text message then is its outbox
row. A card has none: `card_backed_iff_acked` says that nothing but the Ack ever stands for it.
-/

namespace Skattr.Core.SelfCard

open Lib Lib.Fallible Core.Daemon
open Core.Delivery (Actor Lanes TickEnv retryTick retryRows Tick)

variable {G : Type}

/-- The third-party parts of publishing, and the daemon's identity. -/
structure PublishDeps (G : Type) extends Deps G where
  self : PublicKey
  signCard : ContactCardBody → Except CoreError (ByteArr 64)
  pick : MessageId → Nat → Nat

/-- What building a card meets: the clock in seconds, the daemon's onion once it is published, its
reachable mailboxes, and the statements before a storage fault. -/
structure CardEnv where
  now : Int
  onion : Option String
  mailboxes : List String
  budget : Option Nat

def buildSelfCard (deps : PublishDeps G) (env : CardEnv) :
    Fallible CoreError State ContactCard := do
  let onion ← attempt (env.onion.elim (.error .torNotReady) .ok)
  let version ← transactWithin env.budget bumpSelfCardVersion
  attempt (ContactCard.sign deps.signCard deps.self onion env.mailboxes version DEFAULT_TTL_SECS
    env.now)

/-- `send_card_to_contact` up to the end of its critical section: encrypt the card and save the
advanced ratchet. -/
def saveCard (deps : Deps G) (env : Env) (card : ContactCard) (peer : PublicKey) :
    Fallible CoreError State Bytes := do
  let state ← get
  ensure (¬isPeerPending state.tables peer) (.delivery "card-send: peer has an unacked Welcome")
  let groupId ← attempt (linkedGroup state.tables peer)
  ensure (groupId.length = 32) .groupCorrupt
  let group ← attempt (loadGroup deps.mls state.tables groupId .groupCorrupt)
  let (ciphertext, group) ← attempt
    (group.encrypt deps.mls deps.codec (newEnvelope env (.contactCardUpdate card)))
  transact env (saveInTx deps.mls group)
  pure ciphertext

/-! ### The daemon with its actors -/

/-- A ciphertext for a peer, as the hub submits it to the peer's actor. -/
structure Job where
  peer : PublicKey
  messageId : MessageId
  ciphertext : Bytes
  deriving DecidableEq

/-- A call of `publish_self_card_update` past the signing. -/
inductive Publisher where
  /-- In the loop, with these contacts to go. -/
  | sending (card : ContactCard) (peers : List PublicKey)
  /-- The ratchet is saved: `hub.send` comes next. -/
  | handing (card : ContactCard) (job : Job) (peers : List PublicKey)

/-- The daemon, the lanes of its outbox, the calls that publish, the jobs that wait in the actors'
queues, and the actors; and the card ciphertexts whose ratchet has been saved. -/
structure World where
  daemon : State
  lanes : Lanes
  publishers : List Publisher
  jobs : List Job
  actors : PublicKey → Actor
  cards : List Job

def idleActor : Actor := ⟨none, .empty, 0, none, none, none, 0⟩

def disconnected (actor : Actor) : Actor :=
  { actor with conn := none, pending := .empty, awaitingPongSince := none }

def replaced (conn : Delivery.Connection) (instant : Nat) : Actor :=
  ⟨some conn, .empty, instant, none, none, none, 0⟩

def World.init (tables : Tables) (actors : PublicKey → Actor) : World :=
  ⟨⟨tables, [], [], []⟩, Lanes.init, [], [], actors, []⟩

inductive Action where
  /-- `publish_self_card_update` is called. -/
  | publish (env : CardEnv)
  /-- A call takes its next step. -/
  | advance (i : Nat) (env : Env)
  | sendMessage (env : Env) (contact : PublicKey) (kind : Kind)
  /-- The actor takes its next job; `dial` is what its dialer yields. -/
  | job (peer : PublicKey) (instant : Nat) (dial : Option Delivery.Connection)
  | tick (peer : PublicKey) (env : TickEnv) (directTimeout : Nat) (fallbackEnabled : Bool)
  | ack (peer : PublicKey) (messageId : MessageId) (writeOk : Bool)
  /-- The connection is lost, or closed by either side. -/
  | disconnect (peer : PublicKey)
  | replaceConn (peer : PublicKey) (conn : Delivery.Connection) (instant : Nat)
  /-- The actor stops, with what it has in its queue. -/
  | shutdown (peer : PublicKey)
  /-- The sweeps of the outbox and their workers. -/
  | delivery (action : Lanes.Action)
  | restart

namespace World

def become (world : World) (i : Nat) (publisher : Publisher) : World :=
  { world with publishers := world.publishers.set i publisher }

/-- A call takes its next step: save the card for the next contact, or submit it. -/
def advance (deps : PublishDeps G) (world : World) (i : Nat) (env : Env) : Publisher → World
  | .sending _ [] => world
  | .sending card (peer :: peers) =>
    match exec (saveCard deps.toDeps env card peer) world.daemon with
    | (.ok ciphertext, daemon) =>
      let job : Job := ⟨peer, env.freshId, ciphertext⟩
      { world with daemon, cards := world.cards ++ [job] }.become i (.handing card job peers)
    | (.error _, daemon) => { world with daemon }.become i (.sending card peers)
  | .handing card job peers =>
    { world with jobs := world.jobs ++ [job] }.become i (.sending card peers)

def sendMessage (deps : PublishDeps G) (world : World) (env : Env) (contact : PublicKey)
    (kind : Kind) : World :=
  let daemon := (exec (Daemon.sendMessage deps.toDeps env deps.self contact kind) world.daemon).2
  if daemon.handed = world.daemon.handed then { world with daemon }
  else
    match daemon.handed.getLast? with
    | none => { world with daemon }
    | some (peer, messageId, ciphertext) =>
      { world with
        daemon
        lanes := world.lanes.send peer messageId ciphertext
        jobs := world.jobs ++ [⟨peer, messageId, ciphertext⟩] }

def setActor (world : World) (peer : PublicKey) (actor : Actor) : World :=
  { world with actors := Function.update world.actors peer actor }

def takeJob (world : World) (peer : PublicKey) (instant : Nat)
    (dial : Option Delivery.Connection) : World :=
  match world.jobs.find? fun job => job.peer = peer with
  | none => world
  | some job =>
    { world with jobs := world.jobs.erase job }.setActor peer
      ((world.actors peer).job instant dial job.messageId job.ciphertext).2

/-- A retry tick of an actor; the rows that it hands to the fallback get a worker each. -/
def tick (world : World) (peer : PublicKey) (env : TickEnv) (directTimeout : Nat)
    (fallbackEnabled : Bool) : World :=
  let (rows, tick) :=
    retryTick env peer directTimeout fallbackEnabled (world.actors peer) world.lanes.outbox
  let workers := rows.map fun (row : Nat × Delivery.OutboxRow) =>
    Delivery.Worker.fallback row.2.target row.2.messageId row.2.payload
  { world with lanes := Lanes.spawn { world.lanes with outbox := tick.outbox } workers }.setActor
    peer tick.actor

def ack (world : World) (peer : PublicKey) (messageId : MessageId) (writeOk : Bool) : World :=
  let actor := world.actors peer
  { world with lanes := world.lanes.ack peer messageId writeOk }.setActor peer
    { actor with pending := actor.pending.delete messageId }

end World

def step (deps : PublishDeps G) (world : World) : Action → World
  | .publish env =>
    match exec (buildSelfCard deps env) world.daemon with
    | (.ok card, daemon) =>
      let peers := (ContactRepo.list daemon.tables).map Prod.fst
      { world with daemon, publishers := world.publishers ++ [.sending card peers] }
    | (.error _, daemon) => { world with daemon }
  | .advance i env =>
    match world.publishers[i]? with
    | some publisher => world.advance deps i env publisher
    | none => world
  | .sendMessage env contact kind => world.sendMessage deps env contact kind
  | .job peer instant dial => world.takeJob peer instant dial
  | .tick peer env directTimeout fallbackEnabled =>
    world.tick peer env directTimeout fallbackEnabled
  | .ack peer messageId writeOk => world.ack peer messageId writeOk
  | .disconnect peer => world.setActor peer (disconnected (world.actors peer))
  | .replaceConn peer conn instant => world.setActor peer (replaced conn instant)
  | .shutdown peer =>
    { world with jobs := world.jobs.filter fun job => job.peer ≠ peer }.setActor peer idleActor
  | .delivery action =>
    match action with
    -- these have steps of their own
    | .send .. | .ack .. | .restart => world
    | action => { world with lanes := world.lanes.step deps.pick action }
  | .restart =>
    { world with
      lanes := world.lanes.step deps.pick .restart
      publishers := []
      jobs := []
      actors := fun _ => idleActor }

def run (deps : PublishDeps G) (world : World) (actions : List Action) : World :=
  actions.foldl (step deps) world

def Acked (world : World) (card : Job) : Prop :=
  ∃ found, (card.peer, card.messageId, found) ∈ world.lanes.acks

/-- The ciphertext has its Ack, or it can be recovered from a row of the outbox, in whichever
lane. -/
def Backed (world : World) (card : Job) : Prop :=
  Acked world card ∨ ∃ id row, world.lanes.outbox.rows.get id = some row ∧
    row.target = card.peer ∧ row.messageId = card.messageId ∧ row.payload = card.ciphertext

def World.Unused (world : World) (messageId : MessageId) : Prop :=
  (∀ id sent, world.lanes.sent.get id = some sent → sent.messageId ≠ messageId) ∧
    (∀ card ∈ world.cards, card.messageId ≠ messageId) ∧
    ∀ ack ∈ world.lanes.acks, ack.2.1 ≠ messageId

def Fresh (world : World) : Action → Prop
  | .advance _ env | .sendMessage env _ _ => world.Unused env.freshId
  | _ => True

/-- What holds in every state: no row was ever queued under the id of a card. -/
structure Inv (world : World) : Prop where
  lanes : Delivery.Inv world.lanes
  cards : ∀ card ∈ world.cards, ∀ id sent, world.lanes.sent.get id = some sent →
    sent.messageId ≠ card.messageId

variable {card : Job}

theorem Inv.backed_iff {world : World} (h : Inv world) (hcard : card ∈ world.cards) :
    Backed world card ↔ Acked world card := by
  refine ⟨fun hbacked => ?_, .inl⟩
  rcases hbacked with hacked | ⟨id, row, hrow, -, hid, -⟩
  · exact hacked
  · exact absurd hid (h.cards card hcard id row.sent (h.lanes.rowSent id row hrow))

/-! ### What a step keeps -/

theorem inv_init (tables : Tables) (actors : PublicKey → Actor) : Inv (World.init tables actors) :=
  ⟨Delivery.Lanes.inv_init, nofun⟩

variable {world after : World} {lanes : Lanes} {env : Env} (deps : PublishDeps G)

theorem Inv.keep (h : Inv world) (hlanes : Delivery.Inv after.lanes)
    (hsent : after.lanes.sent = world.lanes.sent) (hcards : after.cards = world.cards) :
    Inv after := by
  refine ⟨hlanes, ?_⟩
  rw [hcards, hsent]
  exact h.cards

theorem inv_retryRows (env : TickEnv) (due : List (Nat × Delivery.OutboxRow)) (tick : Tick)
    (h : Delivery.Inv { lanes with outbox := tick.outbox }) :
    Delivery.Inv { lanes with outbox := (retryRows env due tick).outbox } := by
  induction due generalizing tick with
  | nil => exact h
  | cons head due ih =>
    obtain ⟨id, row⟩ := head
    unfold retryRows
    split
    · exact ih tick h
    · split
      · exact h
      · split
        · exact h
        · refine ih _ ?_
          dsimp only [Tick.transmit]
          split
          · exact Delivery.Lanes.inv_reschedule h id _
          · exact h

theorem inv_tick (h : Delivery.Inv lanes) (env : TickEnv) (peer : PublicKey) (directTimeout : Nat)
    (fallbackEnabled : Bool) (actor : Actor) :
    let (rows, tick) := retryTick env peer directTimeout fallbackEnabled actor lanes.outbox
    Delivery.Inv (Lanes.spawn { lanes with outbox := tick.outbox }
      (rows.map fun (row : Nat × Delivery.OutboxRow) =>
        Delivery.Worker.fallback row.2.target row.2.messageId row.2.payload)) := by
  have hrows := inv_retryRows env (Delivery.batch env peer lanes.outbox)
    ⟨(actor.evictStale env.instant).dialForDue env (Delivery.batch env peer lanes.outbox),
      lanes.outbox, []⟩ h
  unfold retryTick Delivery.Tick.fallback
  dsimp only
  split
  · refine Delivery.Lanes.inv_spawn hrows fun worker hworker => ?_
    obtain ⟨row, hrow, rfl⟩ := List.mem_map.mp hworker
    split at hrow
    · exact ⟨row.1, hrows.rowSent _ _ (Delivery.Outbox.of_mem_dueDirectFor hrow).1⟩
    · cases hrow
  · exact Delivery.Lanes.inv_spawn hrows nofun

theorem advance_spec (world : World) (i : Nat) (env : Env) (publisher : Publisher) :
    (world.advance deps i env publisher).lanes = world.lanes ∧
      ((world.advance deps i env publisher).cards = world.cards ∨
        ∃ peer ciphertext, (world.advance deps i env publisher).cards =
          world.cards ++ [⟨peer, env.freshId, ciphertext⟩]) := by
  unfold World.advance
  split
  · exact ⟨rfl, .inl rfl⟩
  · next card peer peers =>
    split
    · next ciphertext daemon _ => exact ⟨rfl, .inr ⟨peer, ciphertext, rfl⟩⟩
    · exact ⟨rfl, .inl rfl⟩
  · exact ⟨rfl, .inl rfl⟩

theorem Inv.advance (h : Inv world) (deps : PublishDeps G) (i : Nat)
    (hunused : world.Unused env.freshId) (publisher : Publisher) :
    Inv (world.advance deps i env publisher) := by
  obtain ⟨hlanes, hcards⟩ := advance_spec deps world i env publisher
  refine ⟨hlanes ▸ h.lanes, fun card hcard => ?_⟩
  rw [hlanes]
  rcases hcards with hsame | ⟨peer, ciphertext, hnew⟩
  · exact h.cards card (hsame ▸ hcard)
  · rw [hnew, List.mem_append, List.mem_singleton] at hcard
    rcases hcard with hold | rfl
    · exact h.cards card hold
    · exact hunused.1

theorem sendMessage_spec (world : World) (env : Env) (contact : PublicKey) (kind : Kind) :
    (world.sendMessage deps env contact kind).cards = world.cards ∧
      ((world.sendMessage deps env contact kind).lanes = world.lanes ∨
        ∃ ciphertext, (world.sendMessage deps env contact kind).lanes =
          world.lanes.send contact env.freshId ciphertext) := by
  rcases hsend : exec (Daemon.sendMessage deps.toDeps env deps.self contact kind) world.daemon with
    ⟨result, daemon⟩
  unfold World.sendMessage
  rw [hsend]
  dsimp only
  split
  · exact ⟨rfl, .inl rfl⟩
  · next hchanged =>
    rcases sendMessage_handed hsend with hsame | ⟨ciphertext, hnew⟩
    · exact absurd hsame hchanged
    · rw [hnew, List.getLast?_concat]
      exact ⟨rfl, .inr ⟨ciphertext, rfl⟩⟩

theorem Inv.sendMessage (h : Inv world) (deps : PublishDeps G) (hunused : world.Unused env.freshId)
    (contact : PublicKey) (kind : Kind) : Inv (world.sendMessage deps env contact kind) := by
  obtain ⟨hcards, hlanes⟩ := sendMessage_spec deps world env contact kind
  rcases hlanes with hsame | ⟨ciphertext, hnew⟩
  · exact h.keep (hsame ▸ h.lanes) (congrArg Lanes.sent hsame) hcards
  · refine ⟨hnew ▸ Delivery.Lanes.inv_send h.lanes hunused.1, fun card hcard id sent hsent => ?_⟩
    rw [hcards] at hcard
    rw [hnew] at hsent
    rcases Delivery.Lanes.sent_send h.lanes hunused.1 hsent with hid | hold
    · exact fun hsame => hunused.2.1 card hcard (hsame.symm.trans hid)
    · exact h.cards card hcard id sent hold

theorem Inv.deliver (h : Inv world) (pick : MessageId → Nat → Nat) (action : Lanes.Action)
    (hsend : ∀ peer messageId payload, action ≠ .send peer messageId payload)
    (hlanes : after.lanes = world.lanes.step pick action) (hcards : after.cards = world.cards) :
    Inv after := by
  have hfresh : Lanes.Fresh world.lanes action := by
    cases action with
    | send peer messageId payload => exact absurd rfl (hsend peer messageId payload)
    | ack | directFallback | mailboxSweep | outboxSweep | retried | dismiss | removeContact
    | restart | work => trivial
  refine h.keep (hlanes ▸ Delivery.Lanes.inv_step pick h.lanes hfresh) ?_ hcards
  rw [hlanes]
  exact Delivery.Lanes.sent_step pick world.lanes hsend

variable {action : Action}

theorem Inv.step (h : Inv world) (deps : PublishDeps G) (hfresh : Fresh world action) :
    Inv (step deps world action) := by
  cases action with
  | publish env =>
    dsimp only [SelfCard.step]
    split <;> exact h.keep h.lanes rfl rfl
  | advance i env =>
    dsimp only [SelfCard.step]
    split
    · exact h.advance deps i hfresh _
    · exact h
  | sendMessage env contact kind => exact h.sendMessage deps hfresh contact kind
  | job peer instant dial =>
    show Inv (world.takeJob peer instant dial)
    unfold World.takeJob
    split
    · exact h
    · exact h.keep h.lanes rfl rfl
  | tick peer env directTimeout fallbackEnabled =>
    exact h.keep (inv_tick h.lanes env peer directTimeout fallbackEnabled (world.actors peer)) rfl
      rfl
  | ack peer messageId writeOk =>
    exact h.deliver deps.pick (.ack peer messageId writeOk) nofun rfl rfl
  | disconnect | replaceConn | shutdown => exact h.keep h.lanes rfl rfl
  | delivery action =>
    cases action with
    | send | ack | restart => exact h
    | directFallback peer now =>
      exact h.deliver deps.pick (.directFallback peer now) nofun rfl rfl
    | mailboxSweep now batch => exact h.deliver deps.pick (.mailboxSweep now batch) nofun rfl rfl
    | outboxSweep now batch => exact h.deliver deps.pick (.outboxSweep now batch) nofun rfl rfl
    | retried id time => exact h.deliver deps.pick (.retried id time) nofun rfl rfl
    | dismiss messageId now => exact h.deliver deps.pick (.dismiss messageId now) nofun rfl rfl
    | removeContact peer => exact h.deliver deps.pick (.removeContact peer) nofun rfl rfl
    | work i choice => exact h.deliver deps.pick (.work i choice) nofun rfl rfl
  | restart => exact h.deliver deps.pick .restart nofun rfl rfl

theorem inv_run {actions : List Action} (h : Inv world)
    (hfresh : Meets (step deps) Fresh world actions) : Inv (run deps world actions) := by
  have halong : Along (step deps) Inv world actions :=
    along_of_meets (P := Inv) (fun _ _ h hfresh => Inv.step h deps hfresh) h hfresh
  exact halong.last

/-! ### Nothing backs a card but its Ack -/

theorem cards_step (world : World) (hadvance : ∀ i env, action ≠ .advance i env) :
    (step deps world action).cards = world.cards := by
  cases action with
  | publish env =>
    dsimp only [step]
    split <;> rfl
  | advance i env => exact absurd rfl (hadvance i env)
  | sendMessage env contact kind => exact (sendMessage_spec deps world env contact kind).1
  | job peer instant dial =>
    show (world.takeJob peer instant dial).cards = world.cards
    unfold World.takeJob
    split <;> rfl
  | delivery action => cases action <;> rfl
  | tick | ack | disconnect | replaceConn | shutdown | restart => rfl

theorem saved_of_new {deps : PublishDeps G} (hcard : card ∈ (step deps world action).cards)
    (hnew : card ∉ world.cards) :
    ∃ i env, action = .advance i env ∧ card.messageId = env.freshId ∧
      (step deps world action).lanes = world.lanes := by
  by_cases hadvance : ∃ i env, action = .advance i env
  · obtain ⟨i, env, rfl⟩ := hadvance
    refine ⟨i, env, rfl, ?_⟩
    dsimp only [step] at hcard ⊢
    split at hcard
    · next publisher _ =>
      obtain ⟨hlanes, hsame | ⟨peer, ciphertext, hsaved⟩⟩ :=
        advance_spec deps world i env publisher
      · exact absurd (hsame ▸ hcard) hnew
      · rw [hsaved, List.mem_append, List.mem_singleton] at hcard
        rcases hcard with hold | rfl
        · exact absurd hold hnew
        · exact ⟨rfl, hlanes⟩
    · exact absurd hcard hnew
  · refine absurd ?_ hnew
    rw [cards_step deps world fun i env h => hadvance ⟨i, env, h⟩] at hcard
    exact hcard

/-- In every run, from any tables and whatever the actors do, the ciphertext of a card that was
encrypted and saved for a contact is never in the outbox: what stands for it is its Ack and nothing
else. So it has nothing at all when it has just been saved. -/
theorem card_backed_iff_acked (deps : PublishDeps G) (tables : Tables)
    (actors : PublicKey → Actor) (actions : List Action)
    (hfresh : Meets (step deps) Fresh (World.init tables actors) actions) :
    (∀ card ∈ (run deps (World.init tables actors) actions).cards,
      Backed (run deps (World.init tables actors) actions) card ↔
        Acked (run deps (World.init tables actors) actions) card) ∧
    ∀ action, Fresh (run deps (World.init tables actors) actions) action →
      ∀ card ∈ (step deps (run deps (World.init tables actors) actions) action).cards,
        card ∉ (run deps (World.init tables actors) actions).cards →
        ¬Backed (step deps (run deps (World.init tables actors) actions) action) card := by
  have h := inv_run deps (inv_init tables actors) hfresh
  refine ⟨fun card hcard => h.backed_iff hcard, fun action hnext card hcard hnew hbacked => ?_⟩
  obtain ⟨found, hack⟩ := ((h.step deps hnext).backed_iff hcard).mp hbacked
  obtain ⟨i, env, rfl, hid, hlanes⟩ := saved_of_new hcard hnew
  rw [hlanes] at hack
  exact hnext.2.2 _ hack hid

/-! ### A contact that is reached, and one that is not -/

def counterPublish : PublishDeps Mls.Counter :=
  { counterDeps with
    self := .fill 32 2
    signCard := fun _ => .ok (.fill 64 0)
    pick := fun _ _ => 0 }

/-- A card is published to the only contact; its actor has no connection, and this is what the
dialer yields. -/
def publishOnce (dial : Option Delivery.Connection) : List Action :=
  [.publish ⟨0, some "self.onion", [], none⟩, .advance 0 ⟨0, .fill 16 8, none, none⟩,
    .advance 0 ⟨0, .fill 16 9, none, none⟩, .job (.fill 32 1) 0 dial]

def onlyCard : Job := ⟨.fill 32 1, .fill 16 8, List.replicate 32 7⟩

theorem unused_of_quiet {world : World} (hlanes : world.lanes = Lanes.init) {messageId : MessageId}
    (hcards : ∀ card ∈ world.cards, card.messageId ≠ messageId) : world.Unused messageId := by
  refine ⟨?_, hcards, ?_⟩
  · rw [hlanes]
    exact nofun
  · rw [hlanes]
    exact nofun

theorem publishOnce_fresh (dial : Option Delivery.Connection) :
    Meets (step counterPublish) Fresh (World.init linkedTables fun _ => idleActor)
      (publishOnce dial) := by
  refine ⟨trivial, unused_of_quiet rfl nofun, unused_of_quiet rfl fun card hcard => ?_, trivial,
    trivial⟩
  change card ∈ [onlyCard] at hcard
  cases List.mem_singleton.mp hcard
  decide

/-- The contact is offline: the card is encrypted and its ratchet saved, the job is dropped, and
nothing is left of the ciphertext: no outbox row, no job, no send in flight, no Ack. -/
theorem offline_contact_loses_card :
    Meets (step counterPublish) Fresh (World.init linkedTables fun _ => idleActor)
        (publishOnce none) ∧
      (run counterPublish (World.init linkedTables fun _ => idleActor) (publishOnce none)).cards =
        [onlyCard] ∧
      ¬Backed (run counterPublish (World.init linkedTables fun _ => idleActor) (publishOnce none))
        onlyCard ∧
      (run counterPublish (World.init linkedTables fun _ => idleActor) (publishOnce none)).jobs =
        [] ∧
      ((run counterPublish (World.init linkedTables fun _ => idleActor)
        (publishOnce none)).actors (.fill 32 1)).pending.get (.fill 16 8) = none := by
  refine ⟨publishOnce_fresh none, rfl, ?_, rfl, by decide⟩
  rintro (⟨found, hack⟩ | ⟨id, row, hrow, -⟩)
  · cases hack
  · cases hrow

def acknowledged : List Action :=
  publishOnce (some ⟨fun _ => true⟩) ++ [.ack (.fill 32 1) (.fill 16 8) true]

/-- A card is backed once its Ack has come. -/
theorem acknowledged_card_backed :
    Meets (step counterPublish) Fresh (World.init linkedTables fun _ => idleActor) acknowledged ∧
      Backed (run counterPublish (World.init linkedTables fun _ => idleActor) acknowledged)
        onlyCard := by
  have hfresh : Meets (step counterPublish) Fresh (World.init linkedTables fun _ => idleActor)
      acknowledged := by
    obtain ⟨hpublish, hsave, hhand, hjob, -⟩ := publishOnce_fresh (some ⟨fun _ => true⟩)
    exact ⟨hpublish, hsave, hhand, hjob, trivial, trivial⟩
  refine ⟨hfresh, ((card_backed_iff_acked counterPublish linkedTables _ acknowledged hfresh).1
    onlyCard ?_).mpr ⟨false, List.mem_cons_self⟩⟩
  exact List.mem_singleton_self onlyCard

end Skattr.Core.SelfCard
