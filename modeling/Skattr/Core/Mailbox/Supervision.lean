import Mathlib.Logic.Function.Basic
import Skattr.Lib.Table

/-!
# Our mailboxes and their pollers

The `AddMailbox` and `RemoveMailbox` commands, the supervisor of the pollers, one poller for each
mailbox and the builder of the self-card read and write the status of the same row, each from its
own task. A step is one access of one of them to the table, to the channel of the supervisor or to
the network.
-/

namespace Skattr.Core.Removal

open Lib

inductive MailboxStatus where
  | unknown
  | reachable
  | unreachable
  | rateLimited
  | pendingRemoval
  | removed
  deriving DecidableEq

inductive MailboxRole where
  | mine
  | theirs
  deriving DecidableEq

structure MailboxRow where
  onion : String
  role : MailboxRole
  status : MailboxStatus
  deriving DecidableEq

def MailboxRow.key (row : MailboxRow) : String × MailboxRole := (row.onion, row.role)

/-- The table of mailboxes. Its ids are below `nextId`, and a role has one row for an onion. -/
structure Mailboxes where
  rows : Table Nat MailboxRow
  nextId : Nat
  issued : ∀ {id row}, rows.get id = some row → id < nextId
  unique : ∀ {id other row row'}, rows.get id = some row → rows.get other = some row' →
    row.key = row'.key → id = other

namespace Mailboxes

def empty : Mailboxes where
  rows := .empty
  nextId := 0
  issued := nofun
  unique := nofun

/-- `add_mine` and `ensure_theirs`: the id of the row for an onion, which is inserted if it is not
there. -/
def ensure (mailboxes : Mailboxes) (onion : String) (role : MailboxRole) : Nat × Mailboxes :=
  match hfind : mailboxes.rows.rows.find? fun row => row.2.key = (onion, role) with
  | some row => (row.1, mailboxes)
  | none =>
    (mailboxes.nextId,
      { rows := mailboxes.rows.push mailboxes.nextId ⟨onion, role, .unknown⟩
          (Table.get_next mailboxes.issued)
        nextId := mailboxes.nextId + 1
        issued := Table.issued_push mailboxes.issued
        unique := fun h h' hsame =>
          Table.unique_push mailboxes.unique h h' hsame fun id row hrow hold =>
            List.find?_eq_none.mp hfind (id, row) (Table.get_eq_some_iff.mp hrow)
              (decide_eq_true hold) })

def markStatus (mailboxes : Mailboxes) (id : Nat) (status : MailboxStatus) : Mailboxes where
  rows := mailboxes.rows.modify id fun row => { row with status }
  nextId := mailboxes.nextId
  issued := Table.issued_modify mailboxes.issued
  unique := fun h h' hsame => Table.unique_modify mailboxes.unique h h' hsame fun _ => rfl

/-- The onions that a self-card carries: those of our reachable mailboxes. -/
def reachable (mailboxes : Mailboxes) : List String :=
  (mailboxes.rows.rows.filter fun row => row.2.role = .mine ∧ row.2.status = .reachable).map
    fun row => row.2.onion

end Mailboxes

/-! ### The pollers -/

def FAILURE_THRESHOLD : Nat := 5

inductive Outcome where
  | ok
  | rateLimited
  | failed
  deriving DecidableEq

/-- A poller at a point of `actor_loop`, with its last reported status and its failures in a
row. -/
inductive Poller where
  /-- About to look up the onion of its row. -/
  | starting
  /-- About to look up the status of its row. -/
  | located (onion : String)
  /-- At the `select!`, asleep until its next tick. -/
  | waiting (onion : String) (last : MailboxStatus) (failures : Nat)
  | connecting (onion : String) (last : MailboxStatus) (failures : Nat)
  /-- Connected: `poll_dispatch_once` comes next. -/
  | polling (onion : String) (last : MailboxStatus) (failures : Nat)
  /-- About to write the outcome of its tick. -/
  | reporting (onion : String) (last : MailboxStatus) (failures : Nat) (outcome : Outcome)
  | exited
  deriving DecidableEq

/-- The messages to the supervisor; bumps, which only change the cadence, are left out. -/
inductive PollerCtrl where
  | addMailbox (id : Nat)
  | removeMailbox (id : Nat)
  deriving DecidableEq

/-- The supervisor of the pollers at a point of its task. -/
inductive Supervisor where
  /-- About to list our mailboxes. -/
  | listing
  | receiving
  /-- Waiting for a poller that was told to stop. -/
  | stopping (id : Nat)
  deriving DecidableEq

/-- A command or a publication at a point of its handler. -/
inductive Call where
  /-- `handle_add_mailbox`, connecting and probing. -/
  | addProbing (onion : String)
  | addInserting (onion : String)
  | addMarking (id : Nat)
  | addNotifying (id : Nat)
  /-- `handle_remove_mailbox`, looking up the row. -/
  | removeFinding (id : Nat)
  | removeMarking (id : Nat)
  /-- The final drain, a poll of its own. -/
  | removeDraining (id : Nat)
  | removeNotifying (id : Nat)
  | removeFinalising (id : Nat)
  /-- `build_self_card`, about to read the reachable mailboxes. -/
  | publishListing
  /-- `build_self_card`, about to sign a card with these mailboxes. -/
  | publishSigning (onions : List String)
  | finished
  deriving DecidableEq

inductive Event where
  | added (id : Nat)
  | finalised (id : Nat)
  | polled (id : Nat)
  | status (id : Nat) (status : MailboxStatus)
  | advertised (onions : List String)
  deriving DecidableEq

/-- The table, the commands, the supervisor with its channel, the pollers with whether they were
told to stop, and what has happened. -/
structure World where
  mailboxes : Mailboxes
  calls : List Call
  queue : List PollerCtrl
  supervisor : Supervisor
  pollers : Nat → Option (Poller × Bool)
  history : List Event

/-- What a step meets: whether a read, connect, probe or poll succeeds, whether the mailbox limits
the rate, and whether a write succeeds. -/
structure Choice where
  ok : Bool
  rateLimited : Bool
  writeOk : Bool

inductive Action where
  | addMailbox (onion : String)
  | removeMailbox (id : Nat)
  /-- Any other publication of the self-card. -/
  | publish
  | ensureTheirs (onion : String)
  | call (i : Nat) (choice : Choice)
  | supervise (listOk : Bool)
  | poller (id : Nat) (choice : Choice)
  /-- The daemon stops, or is killed, and starts again. -/
  | restart

namespace World

def init : World := ⟨.empty, [], [], .listing, fun _ => none, []⟩

def become (world : World) (i : Nat) (call : Call) : World :=
  { world with calls := world.calls.set i call }

def note (world : World) (event : Event) : World :=
  { world with history := world.history ++ [event] }

def markStatus (world : World) (id : Nat) (status : MailboxStatus) : World :=
  { world with mailboxes := world.mailboxes.markStatus id status }

def advance (world : World) (i : Nat) (choice : Choice) : Call → World
  | .addProbing onion => world.become i (if choice.ok then .addInserting onion else .finished)
  | .addInserting onion =>
    if choice.writeOk then
      let (id, mailboxes) := world.mailboxes.ensure onion .mine
      { world with mailboxes }.become i (.addMarking id)
    else world.become i .finished
  | .addMarking id =>
    if choice.writeOk then
      ((world.markStatus id .reachable).note (.added id)).become i (.addNotifying id)
    else world.become i .finished
  | .addNotifying id =>
    { world with queue := world.queue ++ [PollerCtrl.addMailbox id] }.become i .publishListing
  | .removeFinding id =>
    if choice.ok then
      match world.mailboxes.rows.get id with
      | some _ => world.become i (.removeMarking id)
      | none => world.become i .finished
    else world.become i .finished
  | .removeMarking id =>
    if choice.writeOk then
      ((world.markStatus id .pendingRemoval).note (.status id .pendingRemoval)).become i
        (.removeDraining id)
    else world.become i .finished
  | .removeDraining id =>
    -- an error of the drain is ignored
    if choice.ok then (world.note (.polled id)).become i (.removeNotifying id)
    else world.become i (.removeNotifying id)
  | .removeNotifying id =>
    { world with queue := world.queue ++ [PollerCtrl.removeMailbox id] }.become i
      (.removeFinalising id)
  | .removeFinalising id =>
    if choice.writeOk then
      ((world.markStatus id .removed).note (.finalised id)).become i .publishListing
    else world.become i .finished
  | .publishListing =>
    if choice.ok then world.become i (.publishSigning world.mailboxes.reachable)
    else world.become i .finished
  | .publishSigning onions =>
    if choice.writeOk then (world.note (.advertised onions)).become i .finished
    else world.become i .finished
  | .finished => world

def setPoller (world : World) (id : Nat) (poller : Option (Poller × Bool)) : World :=
  { world with pollers := Function.update world.pollers id poller }

/-- A starting supervisor has a poller for every mailbox of ours. -/
def bootstrap (mailboxes : Mailboxes) (id : Nat) : Option (Poller × Bool) :=
  match mailboxes.rows.get id with
  | some row => if row.role = .mine then some (.starting, false) else none
  | none => none

/-- The supervisor lists the mailboxes, which may fail, waits for the poller that it stops, or takes
its next message. -/
def supervise (world : World) (listOk : Bool) : World :=
  match world.supervisor with
  | .listing =>
    if listOk then { world with supervisor := .receiving, pollers := bootstrap world.mailboxes }
    else { world with supervisor := .receiving }
  | .stopping id =>
    match world.pollers id with
    | none | some (.exited, _) => { world with supervisor := .receiving }.setPoller id none
    | some _ => world
  | .receiving =>
    match world.queue with
    | [] => world
    | .addMailbox id :: queue =>
      match world.pollers id with
      | none => { world with queue }.setPoller id (some (.starting, false))
      | some _ => { world with queue }
    | .removeMailbox id :: queue =>
      match world.pollers id with
      | none => { world with queue }
      | some (poller, _) =>
        { world with queue, supervisor := .stopping id }.setPoller id (some (poller, true))

def report (last : MailboxStatus) (failures : Nat) : Outcome → MailboxStatus × Nat
  | .ok => (.reachable, 0)
  | .rateLimited => (.rateLimited, failures)
  | .failed =>
    (if failures + 1 ≥ FAILURE_THRESHOLD then .unreachable else last, failures + 1)

def reportStatus (world : World) (id : Nat) (choice : Choice) (last status : MailboxStatus) :
    World :=
  if status = last then world
  else
    (if choice.writeOk then world.markStatus id status else world).note (.status id status)

def poll (world : World) (id : Nat) (choice : Choice) (shutdown : Bool) : Poller → World
  | .starting =>
    match world.mailboxes.rows.get id with
    | some row =>
      if choice.ok then world.setPoller id (some (.located row.onion, shutdown))
      else world.setPoller id (some (.exited, shutdown))
    | none => world.setPoller id (some (.exited, shutdown))
  | .located onion =>
    let last :=
      match world.mailboxes.rows.get id with
      | some row => if choice.ok then row.status else .unknown
      | none => .unknown
    world.setPoller id (some (.waiting onion last 0, shutdown))
  | .waiting onion last failures =>
    -- the signal is looked at before the timer
    if shutdown then world.setPoller id (some (.exited, shutdown))
    else world.setPoller id (some (.connecting onion last failures, shutdown))
  | .connecting onion last failures =>
    if choice.ok then world.setPoller id (some (.polling onion last failures, shutdown))
    else world.setPoller id (some (.reporting onion last failures .failed, shutdown))
  | .polling onion last failures =>
    let outcome := if choice.ok then .ok else if choice.rateLimited then .rateLimited else .failed
    (world.note (.polled id)).setPoller id
      (some (.reporting onion last failures outcome, shutdown))
  | .reporting onion last failures outcome =>
    let (status, failures) := report last failures outcome
    (world.reportStatus id choice last status).setPoller id
      (some (.waiting onion status failures, shutdown))
  | .exited => world

end World

def step (world : World) : Action → World
  | .addMailbox onion => { world with calls := world.calls ++ [.addProbing onion] }
  | .removeMailbox id => { world with calls := world.calls ++ [.removeFinding id] }
  | .publish => { world with calls := world.calls ++ [.publishListing] }
  | .ensureTheirs onion =>
    { world with mailboxes := (world.mailboxes.ensure onion .theirs).2 }
  | .call i choice =>
    match world.calls[i]? with
    | some call => world.advance i choice call
    | none => world
  | .supervise listOk => world.supervise listOk
  | .poller id choice =>
    match world.pollers id with
    | some (poller, shutdown) => world.poll id choice shutdown poller
    | none => world
  | .restart => { World.init with mailboxes := world.mailboxes, history := world.history }

def run (world : World) (actions : List Action) : World := actions.foldl step world

/-! ### The table -/

namespace Mailboxes

def Grows (old new : Mailboxes) : Prop :=
  ∀ id row, old.rows.get id = some row → ∃ row', new.rows.get id = some row' ∧
    row'.onion = row.onion ∧ row'.role = row.role

variable {mailboxes : Mailboxes} {row : MailboxRow}

theorem Grows.refl (mailboxes : Mailboxes) : mailboxes.Grows mailboxes :=
  fun _ row hrow => ⟨row, hrow, rfl, rfl⟩

theorem get_markStatus (id key : Nat) (status : MailboxStatus) :
    (mailboxes.markStatus id status).rows.get key =
      if key = id then (mailboxes.rows.get key).map fun row => { row with status }
      else mailboxes.rows.get key :=
  Table.get_modify ..

theorem grows_markStatus (mailboxes : Mailboxes) (id : Nat) (status : MailboxStatus) :
    mailboxes.Grows (mailboxes.markStatus id status) := by
  intro key row hrow
  rw [get_markStatus, hrow]
  split
  · exact ⟨_, rfl, rfl, rfl⟩
  · exact ⟨row, rfl, rfl, rfl⟩

theorem get_ensure (mailboxes : Mailboxes) (onion : String) (role : MailboxRole) (key : Nat) :
    (mailboxes.ensure onion role).2.rows.get key = mailboxes.rows.get key ∨
      key = mailboxes.nextId ∧
        (mailboxes.ensure onion role).2.rows.get key = some ⟨onion, role, .unknown⟩ := by
  unfold ensure
  split
  · exact .inl rfl
  · show (mailboxes.rows.push _ _ (Table.get_next mailboxes.issued)).get key = _ ∨
      _ ∧ (mailboxes.rows.push _ _ (Table.get_next mailboxes.issued)).get key = _
    rw [Table.get_push]
    split
    · next hkey => exact .inr ⟨hkey, rfl⟩
    · exact .inl rfl

theorem grows_ensure (mailboxes : Mailboxes) (onion : String) (role : MailboxRole) :
    mailboxes.Grows (mailboxes.ensure onion role).2 := by
  intro key row hrow
  rcases get_ensure mailboxes onion role key with hsame | ⟨hkey, -⟩
  · exact ⟨row, hsame.trans hrow, rfl, rfl⟩
  · exact absurd (mailboxes.issued hrow) (by omega)

theorem reachable_of_markStatus {id key : Nat} {status : MailboxStatus} {row' : MailboxRow}
    (hrow : mailboxes.rows.get key = some row)
    (hrow' : (mailboxes.markStatus id status).rows.get key = some row')
    (hreachable : row'.status = .reachable) :
    row.status = .reachable ∨ key = id ∧ status = .reachable := by
  rw [get_markStatus, hrow] at hrow'
  split at hrow'
  · next hkey =>
    cases hrow'
    exact .inr ⟨hkey, hreachable⟩
  · cases hrow'
    exact .inl hreachable

theorem mem_reachable {id : Nat} (hrow : mailboxes.rows.get id = some row)
    (hmine : row.role = .mine) : row.onion ∈ mailboxes.reachable ↔ row.status = .reachable := by
  unfold reachable
  rw [List.mem_map]
  constructor
  · rintro ⟨⟨key, other⟩, hmem, honion⟩
    obtain ⟨hother, hstatus⟩ := List.mem_filter.mp hmem
    have hparts : other.role = .mine ∧ other.status = .reachable := of_decide_eq_true hstatus
    have hget := Table.get_eq_some_iff.mpr hother
    obtain rfl := mailboxes.unique hget hrow (Prod.ext honion (hparts.1.trans hmine.symm))
    obtain rfl := Option.some.inj (hget.symm.trans hrow)
    exact hparts.2
  · intro hstatus
    refine ⟨(id, row), List.mem_filter.mpr ⟨Table.get_eq_some_iff.mp hrow, ?_⟩, rfl⟩
    exact decide_eq_true ⟨hmine, hstatus⟩

end Mailboxes

end Skattr.Core.Removal
