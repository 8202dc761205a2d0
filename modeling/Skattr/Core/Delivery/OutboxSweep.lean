import Skattr.Core.Delivery.Lanes

/-!
# The expiry sweep of the outbox

Every minute the sweep reads the rows that are due, of both lanes, up to a batch in the order of
their retry times. It goes through them one by one: a direct row whose envelope is too old is handed
to the mailboxes of its contact, or given up if there are none. It skips a row of the mailbox lane,
a row whose message has been pruned and a row with a young envelope, and gives none of them another
retry time.

`expiry_sweep_reaches` says that a direct row with an old envelope is moved or given up after as
many passes as there are direct rows before it and one more, if fewer rows than a batch before it
are skipped. `pruned_rows_block` is an outbox whose last row no number of passes reaches.
-/

namespace Skattr.Core.Delivery.OutboxSweep

open Lib

def SWEEP_BATCH : Nat := 32

/-- What the sweep reads and writes of a message of our own. -/
structure OwnMessage where
  ts : Int
  deliveredAt : Option Int
  failedReason : Option String
  deriving DecidableEq

/-! ### The mailbox fallback -/

/-- What the fallback meets at a mailbox: the id of its row, if that can be had, whether the outbox
row can be moved there, and whether the mailbox takes the payload. -/
structure Visit where
  mailboxId : Option Nat
  writeOk : Bool
  accepts : Bool

/-- What the expiry sweep meets at a row: which reads and writes succeed. -/
structure RowChoice where
  readOk : Bool
  listOk : Bool
  findOk : Bool
  visit : String → Visit
  markOk : Bool
  deleteOk : Bool

/-- The storage does what it is asked; a mailbox may still be away. -/
structure RowChoice.Works (choice : RowChoice) : Prop where
  readOk : choice.readOk = true
  listOk : choice.listOk = true
  findOk : choice.findOk = true
  moves : ∀ onion, (choice.visit onion).mailboxId.isSome = true ∧
    (choice.visit onion).writeOk = true
  markOk : choice.markOk = true
  deleteOk : choice.deleteOk = true

/-- Move the row to one mailbox after the other until one takes its payload. -/
def walk (choice : RowChoice) (id : Nat) : List String → Outbox → Outbox
  | [], outbox => outbox
  | onion :: onions, outbox =>
    match (choice.visit onion).mailboxId with
    | none => walk choice id onions outbox
    | some mailboxId =>
      if (choice.visit onion).writeOk then
        match outbox.setMailboxTarget id mailboxId with
        | none => walk choice id onions outbox
        | some moved =>
          if (choice.visit onion).accepts then
            if choice.deleteOk then moved.deleteById id else moved
          else walk choice id onions moved
      else walk choice id onions outbox

variable (pick : MessageId → Nat → Nat)

/-- Find the direct row of the message, and walk from its primary mailbox on. -/
def runMailboxFallback (choice : RowChoice) (peer : PublicKey) (messageId : MessageId)
    (onions : List String) (outbox : Outbox) : Outbox :=
  if choice.listOk ∧ choice.findOk ∧ onions ≠ [] then
    match outbox.findDirectId peer messageId with
    | none => outbox
    | some id => walk choice id (onions.rotate (pick messageId onions.length)) outbox
  else outbox

/-! ### The sweep -/

structure World where
  outbox : Outbox
  messages : Table MessageId OwnMessage
  mailboxes : PublicKey → List String
  now : Int

namespace World

/-- Give a row up: record it on the message unless that is delivered, and delete the row. -/
def expireRow (choice : RowChoice) (row : Nat × OutboxRow) (world : World) : World :=
  if choice.markOk then
    { world with
      messages := world.messages.modify row.2.messageId fun message =>
        if message.deliveredAt.isNone then
          { message with failedReason := some NO_MAILBOX_REASON }
        else message
      outbox := if choice.deleteOk then world.outbox.deleteById row.1 else world.outbox }
  else world

def sweepRow (choice : RowChoice) (row : Nat × OutboxRow) (world : World) : World :=
  if row.2.lane ≠ .direct then world
  else if choice.readOk then
    match world.messages.get row.2.messageId with
    | none => world
    | some message =>
      if world.now - message.ts < DIRECT_EXPIRY_MS then world
      else if choice.listOk then
        if world.mailboxes row.2.target ≠ [] then
          { world with
            outbox := runMailboxFallback pick choice row.2.target row.2.messageId
              (world.mailboxes row.2.target) world.outbox }
        else world.expireRow choice row
      else world
  else world

def sweepRows (choice : Nat → RowChoice) (rows : List (Nat × OutboxRow)) (world : World) : World :=
  rows.foldl (fun world row => world.sweepRow pick (choice row.1) row) world

def runOutboxSweep (choice : Nat → RowChoice) (world : World) : World :=
  world.sweepRows pick choice (world.outbox.due world.now SWEEP_BATCH)

/-- The pass leaves the row alone: it is in the mailbox lane, or it has no old envelope. -/
def skips (world : World) (row : Nat × OutboxRow) : Bool :=
  row.2.lane ≠ .direct || (world.messages.get row.2.messageId).all fun message =>
    world.now - message.ts < DIRECT_EXPIRY_MS

end World

/-- What can happen: the sweep makes a pass at a time, and other tasks change the tables. -/
inductive Action where
  | pass (now : Int) (choice : Nat → RowChoice)
  | other (next : World)

def World.step (world : World) : Action → World
  | .pass now choice => { world with now }.runOutboxSweep pick choice
  | .other next => next

/-! ### A worker of the lanes -/

section Worker

def CanReach (i : Nat) (P : Lanes → Prop) (lanes : Lanes) : Prop :=
  ∃ choices : List Lanes.Choice, P (lanes.run pick (choices.map (.work i)))

variable {pick} {lanes : Lanes} {i id : Nat} {P : Lanes → Prop} {world : World}
  {row : Nat × OutboxRow}

theorem CanReach.now (h : P lanes) : CanReach pick i P lanes := ⟨[], h⟩

theorem CanReach.step {worker : Worker} (hi : i < lanes.workers.length) (choice : Lanes.Choice)
    {next : Lanes} (hwork : (lanes.become i worker).work pick i choice worker = next)
    (h : CanReach pick i P next) : CanReach pick i P (lanes.become i worker) := by
  obtain ⟨choices, hnext⟩ := h
  have hworker : (lanes.become i worker).workers[i]? = some worker := List.getElem?_set_self hi
  refine ⟨choice :: choices, ?_⟩
  rwa [List.map_cons, Lanes.run, List.foldl_cons, Lanes.step_work hworker, hwork]

theorem become_become (lanes : Lanes) (i : Nat) (worker other : Worker) :
    (lanes.become i worker).become i other = lanes.become i other :=
  congrArg (fun workers => { lanes with workers }) (List.set_set ..)

/-- What a worker meets: whether it can write and deposit, and which mailboxes there are. -/
def meeting (writeOk depositOk : Bool) (mailboxId : Nat) (onions : List String) (ts : Int) :
    Lanes.Choice :=
  ⟨true, writeOk, depositOk, onions, some ts, mailboxId, 0, 0⟩

theorem canReach_walk (choice : RowChoice) (peer : PublicKey) (messageId : MessageId)
    (payload : Bytes) (onions : List String) (hi : i < lanes.workers.length) :
    CanReach pick i (fun next => next.outbox = walk choice id onions lanes.outbox ∧
        next.messages = lanes.messages)
      (lanes.become i (.walking peer messageId payload id onions)) := by
  induction onions generalizing lanes with
  | nil => exact .now ⟨rfl, rfl⟩
  | cons onion onions ih =>
    -- a mailbox that the row is not moved to
    have hskip : CanReach pick i (fun next => next.outbox = walk choice id onions lanes.outbox ∧
          next.messages = lanes.messages)
        (lanes.become i (.walking peer messageId payload id (onion :: onions))) :=
      .step hi (meeting false false 0 [] 0) (become_become ..) (ih hi)
    unfold walk
    split
    · exact hskip
    next mailboxId _ =>
    split
    · split
      · next hnone =>
        refine .step hi (meeting true false mailboxId [] 0) ?_ (ih hi)
        simp [Lanes.work, Lanes.walk, Lanes.become, meeting, hnone]
      · next moved hmoved =>
        have hmoving : i < { lanes with outbox := moved }.workers.length := hi
        have hmove : (lanes.become i (.walking peer messageId payload id (onion :: onions))).work
            pick i (meeting true false mailboxId [] 0)
              (.walking peer messageId payload id (onion :: onions)) =
            { lanes with outbox := moved }.become i
              (.depositing peer messageId payload id onions) := by
          simp [Lanes.work, Lanes.walk, Lanes.become, meeting, hmoved]
        refine .step hi _ hmove ?_
        split
        · refine .step hmoving (meeting true true 0 [] 0) rfl ?_
          refine .step ?_ (meeting choice.deleteOk true 0 [] 0) rfl (.now ?_)
          · simpa [Lanes.become] using hi
          · cases choice.deleteOk <;> exact ⟨rfl, rfl⟩
        · exact .step hmoving (meeting true false 0 [] 0) (become_become ..) (ih hmoving)
    · exact hskip

theorem canReach_fallback (choice : RowChoice) {peer : PublicKey} {messageId : MessageId}
    {payload : Bytes} (onions : List String) (hi : i < lanes.workers.length) :
    CanReach pick i (fun next => next.outbox = runMailboxFallback pick choice peer messageId onions
        lanes.outbox ∧ next.messages = lanes.messages)
      (lanes.become i (.fallback peer messageId payload)) := by
  unfold runMailboxFallback
  split
  · next hreads =>
    split
    · exact .now ⟨rfl, rfl⟩
    · next id hfind =>
      refine .step hi (meeting true true 0 onions 0) ?_
        (canReach_walk choice peer messageId payload _ hi)
      simp [Lanes.work, Lanes.startFallback, Lanes.become, meeting, hreads.2.2, hfind]
  · exact .now ⟨rfl, rfl⟩

/-- The lanes hold the outbox of the world, and of its messages what the sweep writes. -/
structure World.Held (world : World) (lanes : Lanes) : Prop where
  outbox : lanes.outbox = world.outbox
  messages : ∀ id, (lanes.messages.get id).map (fun message =>
      (message.deliveredAt, message.failedReason)) =
    (world.messages.get id).map fun message => (message.deliveredAt, message.failedReason)

theorem get_markFailed (messages : Table MessageId Message) (messageId id : MessageId) :
    (markFailed messages messageId).2.get id = if id = messageId then
      (messages.get id).map fun message =>
        if message.deliveredAt.isNone then { message with failedReason := some NO_MAILBOX_REASON }
        else message
      else messages.get id := by
  unfold markFailed
  split
  · next hget =>
    rw [Table.get_modify]
    split
    · next hid =>
      rw [hid, hget]
      rfl
    · rfl
  · next hother =>
    split
    · next hid =>
      subst hid
      cases hget : messages.get id with
      | none => rfl
      | some message =>
        obtain ⟨peer, _ | delivered, failed, dismissed⟩ := message
        · exact absurd hget (hother peer failed dismissed)
        · rfl
    · rfl

theorem World.Held.markFailed (h : world.Held lanes) (messageId id : MessageId) :
    ((markFailed lanes.messages messageId).2.get id).map (fun message =>
        (message.deliveredAt, message.failedReason)) =
      ((world.messages.modify messageId fun message =>
        if message.deliveredAt.isNone then { message with failedReason := some NO_MAILBOX_REASON }
        else message).get id).map fun message => (message.deliveredAt, message.failedReason) := by
  have hsame := h.messages id
  rw [get_markFailed, Table.get_modify]
  split
  · revert hsame
    rcases lanes.messages.get id with _ | ⟨peer, delivered, failed, dismissed⟩ <;>
      rcases world.messages.get id with _ | ⟨ts, delivered', failed'⟩ <;> intro hsame <;>
      cases hsame
    · rfl
    · cases delivered <;> rfl
  · exact hsame

theorem expire_become (lanes : Lanes) (i : Nat) (choice : Lanes.Choice) (id : Nat)
    (row : OutboxRow) (hwrite : choice.writeOk = true) :
    ∃ (next : Lanes) (marked : Bool),
      lanes.expire i choice id row = next.become i (.expired id row marked) ∧
      next.outbox = lanes.outbox ∧ next.workers = lanes.workers ∧
      next.messages = (markFailed lanes.messages row.messageId).2 := by
  have hunmarked : (markFailed lanes.messages row.messageId).1 = false →
      lanes.messages = (markFailed lanes.messages row.messageId).2 := by
    unfold markFailed
    split
    · exact nofun
    · exact fun _ => rfl
  unfold Lanes.expire
  rw [if_pos hwrite]
  rcases hmark : markFailed lanes.messages row.messageId with ⟨_ | _, messages⟩
  · rw [hmark] at hunmarked
    exact ⟨lanes, false, rfl, rfl, rfl, hunmarked rfl⟩
  · exact ⟨_, true, rfl, rfl, rfl, rfl⟩

theorem CanReach.imp {Q : Lanes → Prop} (h : CanReach pick i P lanes)
    (hsub : ∀ lanes, P lanes → Q lanes) : CanReach pick i Q lanes :=
  let ⟨choices, hlanes⟩ := h
  ⟨choices, hsub _ hlanes⟩

theorem World.Held.sweepRow (h : world.Held lanes) (choice : RowChoice)
    (hlane : row.2.lane = .direct)
    (hi : lanes.workers[i]? = some (.sweeping row.1 row.2 world.now)) :
    CanReach pick i (world.sweepRow pick choice row).Held lanes := by
  obtain ⟨hlt, hworker⟩ := List.getElem?_eq_some_iff.mp hi
  have hself : lanes = lanes.become i (.sweeping row.1 row.2 world.now) := by
    rw [Lanes.become, ← hworker, List.set_getElem_self]
  unfold World.sweepRow
  rw [if_neg (not_not.mpr hlane)]
  split
  · split
    · exact .now h
    next message _ =>
    split
    · exact .now h
    next hold =>
    let met := meeting true true 0 (world.mailboxes row.2.target) message.ts
    have hsweep : (lanes.become i (.sweeping row.1 row.2 world.now)).work pick i met
        (.sweeping row.1 row.2 world.now) = lanes.become i
          (if world.mailboxes row.2.target ≠ [] then
            .fallback row.2.target row.2.messageId row.2.payload
          else .expiring row.1 row.2) := by
      simp only [Lanes.work, Lanes.sweepRow, met, meeting, if_neg hold, if_true, become_become]
      split <;> rfl
    split
    · split
      · next honions =>
        rw [if_pos honions] at hsweep
        rw [hself]
        refine .step hlt met hsweep ((canReach_fallback choice _ hlt).imp fun next hnext =>
          ⟨hnext.1.trans (by rw [h.outbox]), fun id => ?_⟩)
        rw [hnext.2]
        exact h.messages id
      · next hnone =>
        rw [if_neg hnone] at hsweep
        unfold World.expireRow
        split
        · obtain ⟨next, marked, hexpire, houtbox, hworkers, hmessages⟩ := expire_become
            (lanes.become i (.expiring row.1 row.2)) i (meeting true true 0 [] 0) row.1 row.2 rfl
          rw [hself]
          refine .step hlt met hsweep (.step hlt (meeting true true 0 [] 0) hexpire (.step ?_
            (meeting choice.deleteOk true 0 [] 0) rfl (.now ⟨?_, ?_⟩)))
          · simpa [hworkers, Lanes.become] using hlt
          · have hrow : next.outbox = world.outbox := houtbox.trans h.outbox
            cases choice.deleteOk
            · exact hrow
            · exact congrArg (·.deleteById row.1) hrow
          · intro id
            have hmarked := h.markFailed row.2.messageId id
            cases choice.deleteOk <;>
              exact (congrArg _ (congrArg (·.get id) hmessages)).trans hmarked
        · exact .now h
    · exact .now h
  · exact .now h

end Worker

/-! ### What happens to the rows -/

/-- Rows go or are moved to a mailbox, and no others change. -/
structure Changes (outbox next : Outbox) : Prop where
  keys : next.rows.keys.Sublist outbox.rows.keys
  row : ∀ {id row}, next.rows.get id = some row → ∃ old, outbox.rows.get id = some old ∧
    row.target = old.target ∧ row.messageId = old.messageId ∧ (row.lane = .direct → row = old)

variable {outbox next : Outbox}

theorem Changes.refl (outbox : Outbox) : Changes outbox outbox :=
  ⟨.refl _, fun {_ row} h => ⟨row, h, rfl, rfl, fun _ => rfl⟩⟩

theorem Changes.trans {last : Outbox} (h : Changes outbox next) (hlast : Changes next last) :
    Changes outbox last := by
  refine ⟨hlast.keys.trans h.keys, fun hrow => ?_⟩
  obtain ⟨mid, hmid, htarget, hmessage, hdirect⟩ := hlast.row hrow
  obtain ⟨old, hold, htarget', hmessage', hdirect'⟩ := h.row hmid
  refine ⟨old, hold, htarget.trans htarget', hmessage.trans hmessage', fun hlane => ?_⟩
  obtain rfl := hdirect hlane
  exact hdirect' hlane

theorem changes_deleteWhere (outbox : Outbox) (p : Nat → OutboxRow → Bool) :
    Changes outbox (outbox.deleteWhere p) :=
  ⟨List.filter_sublist.map Prod.fst, fun {_ row} h =>
    ⟨row, (Outbox.get_deleteWhere.mp h).1, rfl, rfl, fun _ => rfl⟩⟩

variable {id key : Nat} {world : World} {row : Nat × OutboxRow} {after : OutboxRow}

theorem changes_setMailboxTarget {mailboxId : Nat}
    (h : outbox.setMailboxTarget id mailboxId = some next) : Changes outbox next := by
  obtain ⟨-, row, hrow, hget⟩ := Outbox.setMailboxTarget_eq_some h
  refine ⟨?_, fun {key found} hfound => ?_⟩
  · unfold Outbox.setMailboxTarget at h
    split at h
    · cases h
    · split at h
      · cases h
        show (outbox.rows.modify id _).keys.Sublist outbox.rows.keys
        rw [Table.keys_modify]
      · cases h
  · rw [hget] at hfound
    split at hfound
    · next hkey =>
      cases hfound
      exact ⟨row, hkey ▸ hrow, rfl, rfl, fun hdirect => by cases hdirect⟩
    · exact ⟨found, hfound, rfl, rfl, fun _ => rfl⟩

theorem walk_keeps {P : Outbox → Prop} (choice : RowChoice)
    (hmove : ∀ {outbox moved mailboxId}, P outbox → outbox.setMailboxTarget id mailboxId = some
      moved → P moved) (hdelete : ∀ {outbox}, P outbox → P (outbox.deleteById id))
    (onions : List String) (h : P outbox) : P (walk choice id onions outbox) := by
  induction onions generalizing outbox with
  | nil => exact h
  | cons onion onions ih =>
    unfold walk
    split
    · exact ih h
    split
    · split
      · exact ih h
      · next moved hmoved =>
        split
        · split
          · exact hdelete (hmove h hmoved)
          · exact hmove h hmoved
        · exact ih (hmove h hmoved)
    · exact ih h

theorem changes_walk (choice : RowChoice) (id : Nat) (onions : List String) (outbox : Outbox) :
    Changes outbox (walk choice id onions outbox) :=
  walk_keeps choice (fun h hmoved => h.trans (changes_setMailboxTarget hmoved))
    (fun h => h.trans (changes_deleteWhere _ _)) onions (.refl outbox)

/-- A row that was read from the outbox before: what has become of it, and no other row is about
its message. -/
structure Seen (outbox : Outbox) (seen : Nat × OutboxRow) : Prop where
  row : ∀ {row}, outbox.rows.get seen.1 = some row → row.lane = .direct → row = seen.2
  only : ∀ {id row}, outbox.rows.get id = some row → row.target = seen.2.target →
    row.messageId = seen.2.messageId → id = seen.1

theorem Seen.changes (h : Seen outbox row) (hchanges : Changes outbox next) : Seen next row := by
  refine ⟨fun hrow hdirect => ?_, fun hrow htarget hmessage => ?_⟩
  · obtain ⟨old, hold, -, -, hsame⟩ := hchanges.row hrow
    obtain rfl := hsame hdirect
    exact h.row hold hdirect
  · obtain ⟨old, hold, htarget', hmessage', -⟩ := hchanges.row hrow
    exact h.only hold (htarget'.symm.trans htarget) (hmessage'.symm.trans hmessage)

/-- What the sweep can do: rows go or are moved to a mailbox, and the messages keep their times. -/
structure World.Sweeps (world next : World) : Prop where
  changes : Changes world.outbox next.outbox
  ts : ∀ id, (next.messages.get id).map OwnMessage.ts = (world.messages.get id).map OwnMessage.ts
  now : next.now = world.now

theorem World.Sweeps.refl (world : World) : world.Sweeps world := ⟨.refl _, fun _ => rfl, rfl⟩

theorem World.Sweeps.trans {next last : World} (h : world.Sweeps next) (hlast : next.Sweeps last) :
    world.Sweeps last :=
  ⟨h.changes.trans hlast.changes, fun id => (hlast.ts id).trans (h.ts id),
    hlast.now.trans h.now⟩

theorem World.sweepRow_cases (choice : RowChoice) (row : Nat × OutboxRow) (world : World) :
    world.sweepRow pick choice row = world ∨
      world.skips row = false ∧
        (world.sweepRow pick choice row = { world with
            outbox := runMailboxFallback pick choice row.2.target row.2.messageId
              (world.mailboxes row.2.target) world.outbox } ∨
          world.sweepRow pick choice row = world.expireRow choice row) := by
  unfold World.sweepRow
  split
  · exact .inl rfl
  next hlane =>
  split
  · split
    · exact .inl rfl
    · next message hmessage =>
      split
      · exact .inl rfl
      next hold =>
      have hskips : world.skips row = false := by
        rw [World.skips, hmessage, Option.all_some, decide_eq_false hlane, decide_eq_false hold]
        rfl
      split
      · split
        · exact .inr ⟨hskips, .inl rfl⟩
        · exact .inr ⟨hskips, .inr rfl⟩
      · exact .inl rfl
  · exact .inl rfl

theorem World.sweeps_sweepRow (choice : RowChoice) (row : Nat × OutboxRow) (world : World) :
    world.Sweeps (world.sweepRow pick choice row) := by
  rcases world.sweepRow_cases pick choice row with heq | ⟨-, heq | heq⟩ <;> rw [heq]
  · exact .refl world
  · refine ⟨?_, fun _ => rfl, rfl⟩
    show Changes world.outbox (runMailboxFallback ..)
    unfold runMailboxFallback
    split
    · split
      · exact .refl _
      · exact changes_walk ..
    · exact .refl _
  · unfold World.expireRow
    split
    · refine ⟨?_, fun id => ?_, rfl⟩
      · show Changes world.outbox (if choice.deleteOk then _ else _)
        split
        · exact changes_deleteWhere ..
        · exact .refl _
      · rw [Table.get_modify]
        split
        · rw [Option.map_map]
          refine Option.map_congr fun message _ => ?_
          dsimp only [Function.comp_apply]
          split <;> rfl
        · rfl
    · exact .refl world

variable {rows : List (Nat × OutboxRow)} {choice : Nat → RowChoice}

theorem World.sweeps_sweepRows (choice : Nat → RowChoice) (rows : List (Nat × OutboxRow))
    (world : World) : world.Sweeps (world.sweepRows pick choice rows) := by
  induction rows generalizing world with
  | nil => exact .refl world
  | cons row rows ih => exact (world.sweeps_sweepRow pick (choice row.1) row).trans (ih _)

theorem World.sweepRows_skipped (choice : Nat → RowChoice)
    (hskips : ∀ row ∈ rows, world.skips row = true) : world.sweepRows pick choice rows = world := by
  induction rows with
  | nil => rfl
  | cons row rows ih =>
    obtain ⟨hrow, hrows⟩ := List.forall_mem_cons.mp hskips
    have hsame : world.sweepRow pick (choice row.1) row = world :=
      (world.sweepRow_cases pick (choice row.1) row).resolve_right fun hcases =>
        Bool.false_ne_true (hcases.1.symm.trans hrow)
    rw [World.sweepRows, List.foldl_cons, hsame]
    exact ih hrows

/-! ### What a row that is reached becomes -/

theorem findDirectId_of_get {row : OutboxRow} (hrow : outbox.rows.get id = some row)
    (hdirect : row.lane = .direct) : outbox.findDirectId row.target row.messageId = some id := by
  have hkey : row.key = (row.target, row.messageId, .direct) := by rw [OutboxRow.key, hdirect]
  cases hfind : outbox.findDirectId row.target row.messageId with
  | none =>
    have hnone := List.find?_eq_none.mp (Option.map_eq_none_iff.mp hfind) (id, row)
      (Table.get_eq_some_iff.mp hrow)
    exact absurd (decide_eq_true hkey) hnone
  | some found =>
    obtain ⟨⟨key, row'⟩, hmem, rfl⟩ := Option.map_eq_some_iff.mp hfind
    have hsame := List.find?_some hmem
    have hget := Table.get_eq_some_iff.mpr (List.mem_of_find?_eq_some hmem)
    exact congrArg some (outbox.unique hget hrow ((of_decide_eq_true hsame).trans hkey.symm))

theorem setMailboxTarget_of_single {row : OutboxRow} (hrow : outbox.rows.get id = some row)
    (hsingle : ∀ {other found}, outbox.rows.get other = some found → found.target = row.target →
      found.messageId = row.messageId → other = id) (mailboxId : Nat) :
    ∃ moved, outbox.setMailboxTarget id mailboxId = some moved := by
  unfold Outbox.setMailboxTarget
  split
  · next hnone =>
    rw [hrow] at hnone
    cases hnone
  · next found hfound =>
    rw [hrow] at hfound
    cases hfound
    split
    · exact ⟨_, rfl⟩
    · next hfree =>
      refine absurd (fun other hother hkey => ?_) hfree
      exact hsingle (Table.get_eq_some_iff.mpr hother) (congrArg Prod.fst hkey)
        (congrArg (fun key => key.2.1) hkey)

theorem walk_leaves {choice : RowChoice} (hworks : choice.Works) {row : OutboxRow}
    (hrow : outbox.rows.get id = some row)
    (hsingle : ∀ {other found}, outbox.rows.get other = some found → found.target = row.target →
      found.messageId = row.messageId → other = id) {onions : List String} (honions : onions ≠ [])
    (hafter : (walk choice id onions outbox).rows.get id = some after) : after.lane ≠ .direct := by
  cases onions with
  | nil => exact absurd rfl honions
  | cons onion onions =>
    obtain ⟨hmailbox, hwrite⟩ := hworks.moves onion
    obtain ⟨mailboxId, hmailbox⟩ := Option.isSome_iff_exists.mp hmailbox
    obtain ⟨moved, hmoved⟩ := setMailboxTarget_of_single hrow hsingle mailboxId
    obtain ⟨-, row', -, hget⟩ := Outbox.setMailboxTarget_eq_some hmoved
    have hlane {found : OutboxRow} (hfound : moved.rows.get id = some found) :
        found.lane ≠ .direct := by
      rw [hget, if_pos rfl] at hfound
      cases hfound
      exact nofun
    unfold walk at hafter
    simp only [hmailbox, hwrite, if_true, hmoved] at hafter
    split at hafter
    · split at hafter
      · exact hlane (Outbox.get_deleteWhere.mp hafter).1
      · exact hlane hafter
    · obtain ⟨old, hold, -, -, hsame⟩ := (changes_walk choice id onions moved).row hafter
      exact fun hdirect => hlane hold (hsame hdirect ▸ hdirect)

theorem World.sweepRow_leaves (hseen : Seen world.outbox row) {choice : RowChoice}
    (hworks : choice.Works) (hskips : world.skips row = false)
    (hafter : (world.sweepRow pick choice row).outbox.rows.get row.1 = some after) :
    after.lane ≠ .direct := by
  intro hdirect
  obtain ⟨found, hfound, -, -, hsame⟩ :=
    (world.sweeps_sweepRow pick choice row).changes.row hafter
  obtain rfl := hsame hdirect
  obtain rfl := hseen.row hfound hdirect
  revert hdirect
  obtain ⟨hlane, hold⟩ := Bool.or_eq_false_iff.mp hskips
  cases hmessage : world.messages.get row.2.messageId with
  | none =>
    rw [hmessage] at hold
    cases hold
  | some message =>
    rw [hmessage, Option.all_some] at hold
    have hlane := of_decide_eq_false hlane
    unfold World.sweepRow at hafter
    rw [if_neg hlane, if_pos hworks.readOk] at hafter
    simp only [hmessage, if_neg (of_decide_eq_false hold), hworks.listOk, if_true] at hafter
    split at hafter
    · next honions =>
      unfold runMailboxFallback at hafter
      rw [if_pos ⟨hworks.listOk, hworks.findOk, honions⟩,
        findDirectId_of_get hfound (not_not.mp hlane)] at hafter
      refine walk_leaves hworks hfound hseen.only ?_ hafter
      rw [ne_eq, List.rotate_eq_nil_iff]
      exact honions
    · unfold World.expireRow at hafter
      rw [if_pos hworks.markOk, if_pos hworks.deleteOk] at hafter
      exact absurd rfl (of_decide_eq_false (Outbox.get_deleteWhere.mp hafter).2)

theorem World.Sweeps.skips {next : World} (h : world.Sweeps next) (row : Nat × OutboxRow) :
    next.skips row = world.skips row := by
  have hall (world : World) : (world.messages.get row.2.messageId).all (fun message =>
      decide (world.now - message.ts < DIRECT_EXPIRY_MS)) =
        ((world.messages.get row.2.messageId).map OwnMessage.ts).all fun ts =>
          decide (world.now - ts < DIRECT_EXPIRY_MS) := by
    cases world.messages.get row.2.messageId <;> rfl
  rw [World.skips, World.skips, hall, hall, h.ts, h.now]

theorem World.sweepRows_leaves (hworks : ∀ id, (choice id).Works)
    (hnodup : (rows.map Prod.fst).Nodup) (hseen : ∀ row ∈ rows, Seen world.outbox row)
    (hrow : row ∈ rows) (hskips : world.skips row = false)
    (hafter : (world.sweepRows pick choice rows).outbox.rows.get row.1 = some after) :
    after.lane ≠ .direct := by
  induction rows generalizing world with
  | nil => cases hrow
  | cons head rows ih =>
    have hsweeps := world.sweeps_sweepRow pick (choice head.1) head
    rcases List.mem_cons.mp hrow with rfl | hrow
    · have hrest := World.sweeps_sweepRows pick choice rows (world.sweepRow pick (choice row.1) row)
      obtain ⟨mid, hmid, -, -, hsame⟩ := hrest.changes.row hafter
      have hleft := World.sweepRow_leaves pick (hseen row List.mem_cons_self) (hworks row.1) hskips
        hmid
      exact fun hdirect => hleft (hsame hdirect ▸ hdirect)
    · refine ih (List.nodup_cons.mp hnodup).2 (fun other hother => ?_) hrow
        ((hsweeps.skips row).trans hskips) hafter
      exact (hseen other (List.mem_cons_of_mem head hother)).changes hsweeps.changes

/-! ### Runs -/

namespace World

/-- The rows are in the order of their ids and about different messages. -/
structure Sane (world : World) : Prop where
  ascending : Outbox.Ascending world.outbox.rows.rows
  single : ∀ {id other row row'}, world.outbox.rows.get id = some row →
    world.outbox.rows.get other = some row' → row.target = row'.target →
    row.messageId = row'.messageId → id = other

/-- A direct row that is due and has an old envelope. -/
structure Waits (world : World) (row : Nat × OutboxRow) : Prop where
  sane : world.Sane
  present : world.outbox.rows.get row.1 = some row.2
  due : row.2.nextRetryAt ≤ world.now
  old : world.skips row = false

/-- The row is no longer in the direct lane: it was moved to a mailbox, given up or removed. -/
def Handled (world : World) (row : Nat × OutboxRow) : Prop :=
  ∀ found, world.outbox.rows.get row.1 = some found → found.lane ≠ .direct

def ahead (world : World) (row : Nat × OutboxRow) : List (Nat × OutboxRow) :=
  world.outbox.rows.rows.filter fun other => other.2.lane = .direct ∧
    (world.messages.get other.2.messageId).isSome ∧ Outbox.Precedes other row

def skipped (world : World) (row : Nat × OutboxRow) : List (Nat × OutboxRow) :=
  world.outbox.rows.rows.filter fun other => world.skips other ∧ Outbox.Precedes other row

/-- The guard of the runs. The storage works in a pass, and fewer rows than a batch before the row
are skipped. Other tasks handle the row, or leave it as it is and queue no direct row before it. -/
def Allows (row : Nat × OutboxRow) (world : World) : Action → Prop
  | .pass now choice => world.now ≤ now ∧ (∀ id, (choice id).Works) ∧
      ({ world with now }.skipped row).length < SWEEP_BATCH
  | .other next => next.Handled row ∨
      next.Waits row ∧ (next.ahead row).length ≤ (world.ahead row).length

end World

theorem nodup_pass (outbox : Outbox) (p : Nat × OutboxRow → Bool) (limit : Nat) :
    (((Outbox.orderByNextRetryAt (outbox.rows.rows.filter p)).take limit).map Prod.fst).Nodup := by
  refine ((List.take_sublist _ _).map Prod.fst).nodup ?_
  refine ((List.perm_insertionSort _ _).map Prod.fst).nodup_iff.mpr ?_
  exact (List.filter_sublist.map Prod.fst).nodup outbox.rows.nodup

theorem World.Waits.exists_swept (h : world.Waits row)
    (hskipped : (world.skipped row).length < SWEEP_BATCH)
    (hnot : row ∉ world.outbox.due world.now SWEEP_BATCH) :
    ∃ other ∈ world.outbox.due world.now SWEEP_BATCH,
      Outbox.Precedes other row ∧ world.skips other = false := by
  have hpairwise := Outbox.pairwise_orderByNextRetryAt (h.sane.ascending.sublist
    (List.filter_sublist (p := fun row => row.2.nextRetryAt ≤ world.now)))
  have hdue : row ∈ Outbox.orderByNextRetryAt
      (world.outbox.rows.rows.filter fun row => row.2.nextRetryAt ≤ world.now) :=
    Outbox.mem_orderByNextRetryAt.mpr (List.mem_filter.mpr
      ⟨Table.get_eq_some_iff.mp h.present, decide_eq_true h.due⟩)
  rw [← List.take_append_drop SWEEP_BATCH (Outbox.orderByNextRetryAt _)] at hdue hpairwise
  have hrest := (List.mem_append.mp hdue).resolve_left hnot
  have hprecedes {other : Nat × OutboxRow}
      (hother : other ∈ world.outbox.due world.now SWEEP_BATCH) : Outbox.Precedes other row :=
    (List.pairwise_append.mp hpairwise).2.2 other hother row hrest
  by_contra hall
  have hsubset : world.outbox.due world.now SWEEP_BATCH ⊆ world.skipped row := by
    intro other hother
    refine List.mem_filter.mpr ⟨Table.get_eq_some_iff.mp (Outbox.of_mem_due hother),
      decide_eq_true ⟨?_, hprecedes hother⟩⟩
    by_contra hskips
    exact hall ⟨other, hother, hprecedes hother, (Bool.not_eq_true _).mp hskips⟩
  have hnodup : (world.outbox.due world.now SWEEP_BATCH).Nodup := .of_map _ (nodup_pass _ _ _)
  have hlength := (List.subperm_of_subset hnodup hsubset).length_le
  have hfull : (world.outbox.due world.now SWEEP_BATCH).length = SWEEP_BATCH := by
    refine List.length_take_of_le ?_
    have hpos := List.length_pos_of_mem hrest
    rw [List.length_drop] at hpos
    omega
  omega

theorem World.Sane.sweeps {next : World} (h : world.Sane) (hsweeps : world.Sweeps next) :
    next.Sane := by
  refine ⟨List.pairwise_map.mp ((List.pairwise_map.mpr h.ascending).sublist hsweeps.changes.keys),
    fun hget hget' htarget hmessage => ?_⟩
  obtain ⟨old, hold, htarget', hmessage', -⟩ := hsweeps.changes.row hget
  obtain ⟨old', hold', htarget'', hmessage'', -⟩ := hsweeps.changes.row hget'
  exact h.single hold hold' ((htarget'.symm.trans htarget).trans htarget'')
    ((hmessage'.symm.trans hmessage).trans hmessage'')

theorem World.Waits.pass (h : world.Waits row) (hworks : ∀ id, (choice id).Works)
    (hskipped : (world.skipped row).length < SWEEP_BATCH)
    (hnot : ¬(world.runOutboxSweep pick choice).Handled row) :
    (world.runOutboxSweep pick choice).Waits row ∧
      ((world.runOutboxSweep pick choice).ahead row).length < (world.ahead row).length := by
  have hsweeps := world.sweeps_sweepRows pick choice (world.outbox.due world.now SWEEP_BATCH)
  have hleaves {other : Nat × OutboxRow}
      (hother : other ∈ world.outbox.due world.now SWEEP_BATCH)
      (hskips : world.skips other = false) : (world.runOutboxSweep pick choice).Handled other := by
    intro found hfound
    refine World.sweepRows_leaves pick hworks (nodup_pass _ _ _) (fun row hrow => ?_) hother hskips
      hfound
    exact ⟨fun hget _ => Option.some.inj (hget.symm.trans (Outbox.of_mem_due hrow)),
      fun hget => h.sane.single hget (Outbox.of_mem_due hrow)⟩
  obtain ⟨found, hfound⟩ := not_forall.mp hnot
  obtain ⟨hfound, hdirect⟩ := Classical.not_imp.mp hfound
  obtain ⟨old, hold, -, -, hsame⟩ := hsweeps.changes.row hfound
  obtain rfl := hsame (not_not.mp hdirect)
  obtain rfl := Option.some.inj (h.present.symm.trans hold)
  refine ⟨⟨h.sane.sweeps hsweeps, hfound, hsweeps.now ▸ h.due, (hsweeps.skips row).trans h.old⟩, ?_⟩
  obtain ⟨other, hother, hprecedes, hskips⟩ :=
    h.exists_swept hskipped fun hmem => hnot (hleaves hmem h.old)
  have hget := Outbox.of_mem_due hother
  have hsubset : other :: (world.runOutboxSweep pick choice).ahead row ⊆ world.ahead row := by
    intro entry hentry
    rcases List.mem_cons.mp hentry with rfl | hentry
    · obtain ⟨hlane, hold⟩ := Bool.or_eq_false_iff.mp hskips
      refine List.mem_filter.mpr ⟨Table.get_eq_some_iff.mp hget,
        decide_eq_true ⟨not_not.mp (of_decide_eq_false hlane), ?_, hprecedes⟩⟩
      cases hmessage : world.messages.get entry.2.messageId with
      | none =>
        rw [hmessage] at hold
        cases hold
      | some message => rfl
    · obtain ⟨hmem, hahead⟩ := List.mem_filter.mp hentry
      obtain ⟨hlane, hmessage, hbefore⟩ := of_decide_eq_true hahead
      obtain ⟨old, hold, -, -, hsame⟩ := hsweeps.changes.row (Table.get_eq_some_iff.mpr hmem)
      obtain rfl := hsame hlane
      refine List.mem_filter.mpr ⟨Table.get_eq_some_iff.mp hold,
        decide_eq_true ⟨hlane, ?_, hbefore⟩⟩
      rw [← Option.isSome_map, ← hsweeps.ts, Option.isSome_map]
      exact hmessage
  have hnodup : (other :: (world.runOutboxSweep pick choice).ahead row).Nodup := by
    refine List.nodup_cons.mpr
      ⟨fun hself => ?_, (List.Nodup.of_map _ (Outbox.rows _).nodup).filter _⟩
    obtain ⟨hmem, hahead⟩ := List.mem_filter.mp hself
    exact hleaves hother hskips other.2 (Table.get_eq_some_iff.mpr hmem)
      (of_decide_eq_true hahead).1
  have hlength := (List.subperm_of_subset hnodup hsubset).length_le
  rw [List.length_cons] at hlength
  exact hlength

def Action.isPass : Action → Bool
  | .pass .. => true
  | .other _ => false

/-- A direct row that is due and has an old envelope is handled in every run that meets the guard
and has more passes than direct rows before it. -/
theorem expiry_sweep_reaches (pick : MessageId → Nat → Nat) (init : World) (row : Nat × OutboxRow)
    (hwaits : init.Waits row) (actions : List Action)
    (hmeets : Meets (World.step pick) (World.Allows row) init actions)
    (henough : (init.ahead row).length < actions.countP Action.isPass) :
    ∃ earlier later, actions = earlier ++ later ∧
      (earlier.foldl (World.step pick) init).Handled row := by
  induction actions generalizing init with
  | nil => exact absurd henough (Nat.not_lt_zero _)
  | cons action actions ih =>
    by_cases hhandled : (init.step pick action).Handled row
    · exact ⟨[action], actions, rfl, hhandled⟩
    suffices (init.step pick action).Waits row ∧
        ((init.step pick action).ahead row).length < actions.countP Action.isPass by
      obtain ⟨earlier, later, rfl, hearlier⟩ := ih _ this.1 hmeets.2 this.2
      exact ⟨action :: earlier, later, rfl, hearlier⟩
    obtain ⟨hallows, -⟩ := hmeets
    cases action with
    | other next =>
      rw [List.countP_cons_of_neg (by exact Bool.false_ne_true)] at henough
      obtain ⟨hnext, hahead⟩ := hallows.resolve_left hhandled
      exact ⟨hnext, hahead.trans_lt henough⟩
    | pass now choice =>
      rw [List.countP_cons_of_pos (by rfl)] at henough
      obtain ⟨hnow, hworks, hskipped⟩ := hallows
      have hlater : World.Waits { init with now } row := by
        refine ⟨⟨hwaits.sane.ascending, hwaits.sane.single⟩, hwaits.present,
          hwaits.due.trans hnow, ?_⟩
        obtain ⟨hlane, hold⟩ := Bool.or_eq_false_iff.mp hwaits.old
        refine Bool.or_eq_false_iff.mpr ⟨hlane, ?_⟩
        cases hmessage : init.messages.get row.2.messageId with
        | none =>
          rw [hmessage] at hold
          cases hold
        | some message =>
          rw [hmessage] at hold
          have hage := of_decide_eq_false hold
          exact decide_eq_false (by dsimp only; omega)
      obtain ⟨hnext, hahead⟩ := hlater.pass pick hworks hskipped hhandled
      exact ⟨hnext, hahead.trans_le (Nat.le_of_lt_succ henough)⟩

/-! ### Pruned rows -/

/-- An outbox of direct rows for one contact without a mailbox, that were queued an hour ago and
never sent. All messages but the last one have been pruned. -/
def crowd (pruned : Nat) : World where
  outbox := (List.range (pruned + 1)).foldl
    (fun outbox i => outbox.insert (.fill 32 1) (.fill 16 (.ofNat i)) [] 0) .empty
  messages := Table.empty.put (.fill 16 (.ofNat pruned)) ⟨0, none, none⟩
  mailboxes := fun _ => []
  now := 3600000

def lastRow (pruned : Nat) : Nat × OutboxRow :=
  (pruned, ⟨.fill 32 1, [], .fill 16 (.ofNat pruned), 0, .direct, 0⟩)

theorem crowd_sane {pruned : Nat} (hascending : Outbox.Ascending (crowd pruned).outbox.rows.rows)
    (hdirect : ∀ row ∈ (crowd pruned).outbox.rows.rows, row.2.lane = .direct) :
    (crowd pruned).Sane := by
  refine ⟨hascending, fun {id other row row'} hget hget' htarget hmessage => ?_⟩
  refine (crowd pruned).outbox.unique hget hget' ?_
  have hlane := hdirect (id, row) (Table.get_eq_some_iff.mp hget)
  have hlane' := hdirect (other, row') (Table.get_eq_some_iff.mp hget')
  dsimp only at hlane hlane'
  simp only [OutboxRow.key, htarget, hmessage, hlane, hlane']

def workingPass (now : Int) : Action :=
  .pass now fun _ => ⟨true, true, true, fun _ => ⟨some 0, true, false⟩, true, true⟩

/-- Behind thirty-one pruned rows, the row is reached in one pass. -/
theorem crowd_reached :
    ((crowd 31).skipped (lastRow 31)).length = 31 ∧ ∃ earlier later,
      [workingPass 3600000] = earlier ++ later ∧
        (earlier.foldl (World.step fun _ _ => 0) (crowd 31)).Handled (lastRow 31) := by
  have hskipped : ((crowd 31).skipped (lastRow 31)).length = 31 := by decide +kernel
  have hsane : (crowd 31).Sane := crowd_sane (by unfold Outbox.Ascending; decide +kernel)
    (by decide +kernel)
  refine ⟨hskipped, expiry_sweep_reaches (fun _ _ => 0) (crowd 31) (lastRow 31)
    ⟨hsane, by decide +kernel, by decide, by decide +kernel⟩ _ ⟨⟨?_, ?_, ?_⟩, trivial⟩
    (by decide +kernel)⟩
  · exact le_rfl
  · exact fun _ => ⟨rfl, rfl, rfl, fun _ => ⟨rfl, rfl⟩, rfl, rfl⟩
  · exact hskipped.trans_lt (by decide)

/-- Behind thirty-two pruned rows, the row is due and its envelope is old, and no number of passes
at any times comes to it. -/
theorem pruned_rows_block :
    (crowd 32).Waits (lastRow 32) ∧ ∀ times : List Int, (∀ now ∈ times, 3600000 ≤ now) →
      ¬((times.map workingPass).foldl (World.step fun _ _ => 0) (crowd 32)).Handled
        (lastRow 32) := by
  have hsane : (crowd 32).Sane := crowd_sane (by unfold Outbox.Ascending; decide +kernel)
    (by decide +kernel)
  have hrow : (crowd 32).outbox.rows.get 32 = some (lastRow 32).2 := by decide +kernel
  have hdue (now : Int) (hnow : 3600000 ≤ now) :
      ∀ row ∈ (crowd 32).outbox.due now SWEEP_BATCH,
        (crowd 32).messages.get row.2.messageId = none := by
    have hzero : ∀ row ∈ (crowd 32).outbox.rows.rows, row.2.nextRetryAt = 0 := by decide +kernel
    have hall : (crowd 32).outbox.rows.rows.filter (fun row => row.2.nextRetryAt ≤ now) =
        (crowd 32).outbox.rows.rows :=
      List.filter_eq_self.mpr fun row hmem => decide_eq_true (by rw [hzero row hmem]; omega)
    rw [Outbox.due, hall]
    decide +kernel
  have hblocked (times : List Int) (hlate : ∀ now ∈ times, 3600000 ≤ now) (world : World)
      (houtbox : world.outbox = (crowd 32).outbox)
      (hmessages : world.messages = (crowd 32).messages) :
      ((times.map workingPass).foldl (World.step fun _ _ => 0) world).outbox =
        (crowd 32).outbox := by
    induction times generalizing world with
    | nil => exact houtbox
    | cons now times ih =>
      obtain ⟨hnow, hlate⟩ := List.forall_mem_cons.mp hlate
      have hpass : world.step (fun _ _ => 0) (workingPass now) = { world with now } := by
        show World.runOutboxSweep _ _ { world with now } = _
        rw [World.runOutboxSweep, World.sweepRows_skipped]
        intro row hmem
        dsimp only at hmem
        rw [houtbox] at hmem
        rw [World.skips, hmessages, hdue now hnow row hmem]
        exact Bool.or_true _
      rw [List.map_cons, List.foldl_cons, hpass]
      exact ih hlate _ houtbox hmessages
  refine ⟨⟨hsane, hrow, by decide, by decide +kernel⟩, fun times hlate hhandled => ?_⟩
  refine hhandled (lastRow 32).2 ?_ rfl
  rw [hblocked times hlate (crowd 32) rfl rfl]
  exact hrow

end Skattr.Core.Delivery.OutboxSweep
