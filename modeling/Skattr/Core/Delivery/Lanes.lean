import Mathlib.Data.List.Rotate
import Skattr.Core.Delivery.Outbox
import Skattr.Lib.Run

/-!
# The lanes of a queued message

Many tasks share the outbox and the message rows: the actors' Ack arms, the mailbox fallback, the
sweep of the mailbox lane and the expiry sweep. Each of them is a worker that is at some point of
its function; between two points anything else may happen, and every read, write, connect or
deposit may fail. A batch of a sweep is one worker for each row, which admits every order of the
rows.
-/

namespace Skattr.Core.Delivery

open Lib

inductive DeliveryStatus where
  | delivered
  | deposited
  | failed
  deriving DecidableEq

/-- What delivery reads and writes of a message of our own. -/
structure Message where
  peer : PublicKey
  deliveredAt : Option Int
  failedReason : Option String
  dismissedAt : Option Int
  deriving DecidableEq

/-- A status that was recorded on the message row, or announced to the clients. -/
structure Entry where
  messageId : MessageId
  status : DeliveryStatus
  announced : Bool
  deriving DecidableEq

def DIRECT_EXPIRY_MS : Int := 60 * 60 * 1000 - 5 * 60 * 1000

def NO_MAILBOX_REASON : String :=
  "Not delivered — this contact has no mailbox, so messages cannot reach them while they are " ++
    "offline."

/-! ### The message rows -/

def markDelivered (messages : Table MessageId Message) (id : MessageId) (now : Int) :
    Bool × Table MessageId Message :=
  match messages.get id with
  | some ⟨_, none, _, _⟩ =>
    (true, messages.modify id fun message => { message with deliveredAt := some now })
  | _ => (false, messages)

/-- Record the reason why a message of our own was given up, unless it is delivered. -/
def markFailed (messages : Table MessageId Message) (id : MessageId) :
    Bool × Table MessageId Message :=
  match messages.get id with
  | some ⟨_, none, _, _⟩ =>
    (true, messages.modify id fun message =>
      { message with failedReason := some NO_MAILBOX_REASON })
  | _ => (false, messages)

def markDismissed (messages : Table MessageId Message) (id : MessageId) (now : Int) :
    Table MessageId Message :=
  messages.modify id fun message => { message with dismissedAt := some now }

/-! ### The workers -/

inductive Worker where
  /-- The Ack arm, past the outbox: `message_delivered` marks the message next. -/
  | acked (messageId : MessageId)
  | announcingDelivered (messageId : MessageId)
  /-- `run_mailbox_fallback`, at its start. -/
  | fallback (peer : PublicKey) (messageId : MessageId) (payload : Bytes)
  /-- The fallback, about to move the row to the next of these mailboxes. -/
  | walking (peer : PublicKey) (messageId : MessageId) (payload : Bytes) (id : Nat)
      (onions : List String)
  /-- The fallback, connecting and depositing; the other mailboxes come after it. -/
  | depositing (peer : PublicKey) (messageId : MessageId) (payload : Bytes) (id : Nat)
      (onions : List String)
  /-- `redeposit_mailbox_row` of a row of the sweep's batch, at its start. -/
  | redeposit (id : Nat) (row : OutboxRow)
  /-- The redeposit, connecting to the next of these mailboxes and depositing. -/
  | redepositing (id : Nat) (row : OutboxRow) (onions : List String)
  /-- A mailbox has accepted the deposit: the row is deleted next. -/
  | deposited (id : Nat) (messageId : MessageId)
  | announcingDeposited (messageId : MessageId)
  /-- `run_outbox_sweep` on a row of its batch, which it read at this time. -/
  | sweeping (id : Nat) (row : OutboxRow) (now : Int)
  /-- The expiry of a row: `mark_failed` comes next. -/
  | expiring (id : Nat) (row : OutboxRow)
  /-- The expiry of a row, marked or not: the row is deleted next. -/
  | expired (id : Nat) (row : OutboxRow) (marked : Bool)
  | announcingFailed (messageId : MessageId)
  | finished

/-- What a row was when it was inserted. -/
structure Sent where
  target : PublicKey
  messageId : MessageId
  payload : Bytes
  deriving DecidableEq

/-- The database, the workers, and what has happened: the statuses in order, the Ack frames with
whether a row was there for them, the rows that were inserted, the deposits that a mailbox
accepted, and the rows whose contact was removed. -/
structure Lanes where
  outbox : Outbox
  messages : Table MessageId Message
  workers : List Worker
  history : List Entry
  acks : List (PublicKey × MessageId × Bool)
  sent : Table Nat Sent
  accepted : List (PublicKey × Bytes)
  purged : List Nat

namespace Lanes

def init : Lanes := ⟨.empty, .empty, [], [], [], .empty, [], []⟩

/-- What a worker finds at its next point: whether a read, a write, or a connect and deposit
succeed, what is read, and the clocks. -/
structure Choice where
  readOk : Bool
  writeOk : Bool
  depositOk : Bool
  onions : List String
  envelopeTs : Option Int
  mailboxId : Nat
  nextRetryAt : Int
  now : Int

def become (lanes : Lanes) (i : Nat) (worker : Worker) : Lanes :=
  { lanes with workers := lanes.workers.set i worker }

def spawn (lanes : Lanes) (workers : List Worker) : Lanes :=
  { lanes with workers := lanes.workers ++ workers }

def note (lanes : Lanes) (messageId : MessageId) (status : DeliveryStatus) (announced : Bool) :
    Lanes :=
  { lanes with history := lanes.history ++ [⟨messageId, status, announced⟩] }

/-- `message_delivered`: mark the message, and announce it only if that changed anything. -/
def messageDelivered (lanes : Lanes) (i : Nat) (choice : Choice) (messageId : MessageId) : Lanes :=
  match markDelivered lanes.messages messageId choice.now with
  | (true, messages) =>
    if choice.writeOk then
      ({ lanes with messages }.note messageId .delivered false).become i
        (.announcingDelivered messageId)
    else lanes.become i .finished
  | (false, _) => lanes.become i .finished

variable (pick : MessageId → Nat → Nat)

/-- The fallback up to its walk: look up the mailboxes of the contact and the direct row of the
message, and start with the primary mailbox. -/
def startFallback (lanes : Lanes) (i : Nat) (choice : Choice) (peer : PublicKey)
    (messageId : MessageId) (payload : Bytes) : Lanes :=
  if choice.readOk ∧ choice.onions ≠ [] then
    match lanes.outbox.findDirectId peer messageId with
    | none => lanes.become i .finished
    | some id =>
      let primary := pick messageId choice.onions.length
      lanes.become i (.walking peer messageId payload id (choice.onions.rotate primary))
  else lanes.become i .finished

/-- Move the row to the next mailbox; on an error the walk goes on with the one after it. -/
def walk (lanes : Lanes) (i : Nat) (choice : Choice) (peer : PublicKey) (messageId : MessageId)
    (payload : Bytes) (id : Nat) : List String → Lanes
  | [] => lanes.become i .finished
  | _ :: onions =>
    if choice.writeOk then
      match lanes.outbox.setMailboxTarget id choice.mailboxId with
      | none => lanes.become i (.walking peer messageId payload id onions)
      | some outbox =>
        { lanes with outbox }.become i (.depositing peer messageId payload id onions)
    else lanes.become i (.walking peer messageId payload id onions)

def accept (lanes : Lanes) (i : Nat) (peer : PublicKey) (messageId : MessageId) (payload : Bytes)
    (id : Nat) : Lanes :=
  { lanes with accepted := lanes.accepted ++ [(peer, payload)] }.become i (.deposited id messageId)

def reschedule (lanes : Lanes) (choice : Choice) (id : Nat) : Lanes :=
  if choice.writeOk then
    { lanes with outbox := lanes.outbox.reschedule id choice.nextRetryAt }
  else lanes

def deleteById (lanes : Lanes) (choice : Choice) (id : Nat) : Lanes :=
  if choice.writeOk then { lanes with outbox := lanes.outbox.deleteById id } else lanes

def redepositNext (lanes : Lanes) (i : Nat) (choice : Choice) (id : Nat) (row : OutboxRow) :
    List String → Lanes
  | [] => (lanes.reschedule choice id).become i .finished
  | _ :: onions =>
    if choice.depositOk then lanes.accept i row.target row.messageId row.payload id
    else lanes.become i (.redepositing id row onions)

/-- The sweep on one direct row: skip it, hand it to the fallback, or expire it. -/
def sweepRow (lanes : Lanes) (i : Nat) (choice : Choice) (id : Nat) (row : OutboxRow) (now : Int) :
    Lanes :=
  match choice.envelopeTs with
  | none => lanes.become i .finished
  | some ts =>
    if now - ts < DIRECT_EXPIRY_MS then lanes.become i .finished
    else if choice.readOk then
      if choice.onions ≠ [] then
        lanes.become i (.fallback row.target row.messageId row.payload)
      else lanes.become i (.expiring id row)
    else lanes.become i .finished

def expire (lanes : Lanes) (i : Nat) (choice : Choice) (id : Nat) (row : OutboxRow) : Lanes :=
  if choice.writeOk then
    match markFailed lanes.messages row.messageId with
    | (true, messages) =>
      ({ lanes with messages }.note row.messageId .failed false).become i (.expired id row true)
    | (false, _) => lanes.become i (.expired id row false)
  else lanes.become i .finished

def work (lanes : Lanes) (i : Nat) (choice : Choice) : Worker → Lanes
  | .acked messageId => lanes.messageDelivered i choice messageId
  | .announcingDelivered messageId => (lanes.note messageId .delivered true).become i .finished
  | .fallback peer messageId payload => lanes.startFallback pick i choice peer messageId payload
  | .walking peer messageId payload id onions =>
    lanes.walk i choice peer messageId payload id onions
  | .depositing peer messageId payload id onions =>
    if choice.depositOk then lanes.accept i peer messageId payload id
    else lanes.become i (.walking peer messageId payload id onions)
  | .redeposit id row =>
    if choice.readOk ∧ choice.onions ≠ [] then
      lanes.become i (.redepositing id row choice.onions)
    else (lanes.reschedule choice id).become i .finished
  | .redepositing id row onions => lanes.redepositNext i choice id row onions
  | .deposited id messageId =>
    (lanes.deleteById choice id).become i (.announcingDeposited messageId)
  | .announcingDeposited messageId => (lanes.note messageId .deposited true).become i .finished
  | .sweeping id row now => lanes.sweepRow i choice id row now
  | .expiring id row => lanes.expire i choice id row
  | .expired id row marked =>
    -- the row goes in any case, but only a recorded failure is announced
    (lanes.deleteById choice id).become i
      (if marked then .announcingFailed row.messageId else .finished)
  | .announcingFailed messageId => (lanes.note messageId .failed true).become i .finished
  | .finished => lanes

/-- What can happen: a message is sent, an Ack frame arrives from a peer, an actor hands its due
rows to the fallback, the sweeps run, a row is retried directly, a failure is dismissed, a contact
is removed with everything of it, the daemon restarts, or a worker takes a step. -/
inductive Action where
  | send (peer : PublicKey) (messageId : MessageId) (payload : Bytes)
  | ack (peer : PublicKey) (messageId : MessageId) (writeOk : Bool)
  | directFallback (peer : PublicKey) (now : Int)
  | mailboxSweep (now : Int) (batch : Nat)
  | outboxSweep (now : Int) (batch : Nat)
  | retried (id : Nat) (nextRetryAt : Int)
  | dismiss (messageId : MessageId) (now : Int)
  | removeContact (peer : PublicKey)
  | restart
  | work (i : Nat) (choice : Choice)

/-- The transaction of a sent message, with its row in the direct lane. A message id that is
stored already fails the whole transaction. -/
def send (lanes : Lanes) (peer : PublicKey) (messageId : MessageId) (payload : Bytes) : Lanes :=
  if lanes.messages.get messageId = none then
    { lanes with
      outbox := lanes.outbox.insert peer messageId payload 0
      messages := lanes.messages.put messageId ⟨peer, none, none, none⟩
      sent := lanes.sent.put lanes.outbox.nextId ⟨peer, messageId, payload⟩ }
  else lanes

/-- The Ack arm up to the outbox. Only an Ack that removed a row of this peer goes on. -/
def ack (lanes : Lanes) (peer : PublicKey) (messageId : MessageId) (writeOk : Bool) : Lanes :=
  let (found, outbox) := lanes.outbox.ackByMessageId peer messageId
  let lanes := { lanes with acks := lanes.acks ++ [(peer, messageId, found)] }
  if writeOk then
    if found then { lanes with outbox }.spawn [.acked messageId] else { lanes with outbox }
  else lanes

def removeContact (lanes : Lanes) (peer : PublicKey) : Lanes :=
  { lanes with
    outbox := lanes.outbox.deleteByTarget peer
    messages := lanes.messages.deleteWhere fun _ message => message.peer = peer
    purged := lanes.purged ++
      (lanes.sent.rows.filter fun entry => entry.2.target = peer).map Prod.fst }

def step (lanes : Lanes) : Action → Lanes
  | .send peer messageId payload => lanes.send peer messageId payload
  | .ack peer messageId writeOk => lanes.ack peer messageId writeOk
  | .directFallback peer now =>
    lanes.spawn ((lanes.outbox.dueDirectFor peer now 32).map fun row =>
      .fallback row.2.target row.2.messageId row.2.payload)
  | .mailboxSweep now batch =>
    lanes.spawn ((lanes.outbox.dueMailbox now batch).map fun row => .redeposit row.1 row.2)
  | .outboxSweep now batch =>
    lanes.spawn (((lanes.outbox.due now batch).filter fun row => row.2.lane = .direct).map
      fun row => .sweeping row.1 row.2 now)
  | .retried id nextRetryAt => { lanes with outbox := lanes.outbox.reschedule id nextRetryAt }
  | .dismiss messageId now =>
    { lanes with messages := markDismissed lanes.messages messageId now }
  | .removeContact peer => lanes.removeContact peer
  | .restart => { lanes with workers := [] }
  | .work i choice =>
    match lanes.workers[i]? with
    | some worker => lanes.work pick i choice worker
    | none => lanes

def run (lanes : Lanes) (actions : List Action) : Lanes := actions.foldl (step pick) lanes

variable {pick} in
theorem step_work {lanes : Lanes} {i : Nat} {worker : Worker}
    (hi : lanes.workers[i]? = some worker) (choice : Choice) :
    lanes.step pick (.work i choice) = lanes.work pick i choice worker := by
  simp only [step, hi]

theorem step_work_cases (lanes : Lanes) (i : Nat) (choice : Choice) :
    (∃ worker, lanes.workers[i]? = some worker ∧
      lanes.step pick (.work i choice) = lanes.work pick i choice worker) ∨
    lanes.step pick (.work i choice) = lanes := by
  cases hi : lanes.workers[i]? with
  | some worker => exact .inl ⟨worker, rfl, step_work hi choice⟩
  | none =>
    refine .inr ?_
    simp only [step, hi]

/-- A sent message has an id of its own: `MessageId::generate` never draws one twice. -/
def Fresh (lanes : Lanes) : Action → Prop
  | .send _ messageId _ => ∀ id sent, lanes.sent.get id = some sent → sent.messageId ≠ messageId
  | _ => True

end Lanes

end Skattr.Core.Delivery
