import Skattr.Core.Delivery.Outbox

/-!
# The peer actor

One actor for each peer owns the connection to it and the map of sends that wait for an Ack. Its
retry tick walks the due direct rows of the peer in the order of their retry times and leaves the
loop at the first send that fails. A payload that does not fit one Noise message fails like a
broken link: `retry_tick_unblocked_iff` says that a tick serves every row that fits exactly when
all rows of the batch do, and `oversized_row_blocks` is a batch that one row blocks.
-/

namespace Skattr.Core.Delivery

open Lib

/-! ### The connection -/

def MAX_FRAME_SIZE : Nat := 16 * 1024 * 1024

/-- The largest plaintext of one Noise message: 65535 bytes without the tag. -/
def NOISE_MAX_OUTER : Nat := 65519

inductive SendError where
  | frame (message : String)
  | transport (message : String)
  deriving DecidableEq

/-- `FrameCodec::encode` of an application message: the length, the type byte and the payload. -/
def encodeMlsApp (payload : Bytes) : Except SendError Bytes :=
  let length := 1 + payload.length
  if length > MAX_FRAME_SIZE then .error (.frame s!"encoded frame too large: {length} bytes")
  else .ok (beBytes 4 length ++ [0x05] ++ payload)

/-- An authenticated connection, as far as sending on it goes: which frames the link takes. -/
structure Connection where
  accepts : Bytes → Bool

def Connection.send (conn : Connection) (payload : Bytes) : Except SendError Unit := do
  let inner ← encodeMlsApp payload
  if inner.length > NOISE_MAX_OUTER then
    let size := inner.length
    .error (.transport s!"send: inner frame too large for single Noise message: {size} bytes")
  else if conn.accepts inner then .ok ()
  else .error (.transport "send")

/-! ### The actor -/

/-- Where an entry of the pending map comes from. -/
inductive PendingOrigin where
  | outbox
  | welcome
  deriving DecidableEq

structure PendingSend where
  sentAt : Nat
  origin : PendingOrigin
  deriving DecidableEq

/-- The state of an actor that its deliveries depend on; instants are in milliseconds. -/
structure Actor where
  conn : Option Connection
  pending : Table MessageId PendingSend
  lastTraffic : Nat
  awaitingPongSince : Option Nat
  firstFailureAt : Option Nat
  nextOutboxDialAt : Option Nat
  outboxDialStep : Nat

def PENDING_INFLIGHT_DEADLINE : Nat := 30000

def CHUNK_DIAL_BACKOFF_MS : List Nat := [15000, 60000, 300000, 900000]

def RETRY_BATCH : Nat := 32

def armFailure (instant : Nat) (firstFailureAt : Option Nat) : Option Nat :=
  some (firstFailureAt.getD instant)

def Actor.dropConn (actor : Actor) (instant : Nat) : Actor :=
  { actor with
    conn := none
    pending := .empty
    firstFailureAt := armFailure instant actor.firstFailureAt }

def Actor.ensureConn (actor : Actor) (dial : Option Connection) : Bool × Actor :=
  match actor.conn, dial with
  | some _, _ => (true, actor)
  | none, some conn => (true, { actor with conn := some conn })
  | none, none => (false, actor)

def Actor.sent (actor : Actor) (instant : Nat) (messageId : MessageId) : Actor :=
  { actor with
    pending := actor.pending.put messageId ⟨instant, .outbox⟩
    lastTraffic := instant
    firstFailureAt := none }

/-- The arm for a job of the hub: dial on demand, send, and wait for the Ack. The result tells
whether the ciphertext was sent; a job that fails is dropped. -/
def Actor.job (actor : Actor) (instant : Nat) (dial : Option Connection) (messageId : MessageId)
    (ciphertext : Bytes) : Bool × Actor :=
  let (connected, actor) := actor.ensureConn dial
  match connected, actor.conn with
  | true, some conn =>
    match conn.send ciphertext with
    | .ok () => (true, actor.sent instant messageId)
    | .error _ => (false, actor.dropConn instant)
  | _, _ =>
    (false, { actor with firstFailureAt := armFailure instant actor.firstFailureAt })

/-! ### The retry tick -/

/-- What a tick finds around it: the clocks, whether the outbox can be read, what a dial yields,
and when a row is to be retried next, if that can be written. -/
structure TickEnv where
  instant : Nat
  now : Int
  readOk : Bool
  dial : Option Connection
  nextRetryAt : Nat → OutboxRow → Option Int

def Actor.evictStale (actor : Actor) (instant : Nat) : Actor :=
  { actor with
    pending := actor.pending.deleteWhere fun _ entry =>
      entry.origin = .outbox ∧ instant - entry.sentAt ≥ PENDING_INFLIGHT_DEADLINE }

def Actor.dialForDue (actor : Actor) (env : TickEnv) (due : List (Nat × OutboxRow)) : Actor :=
  let hasDirectDue := due.any fun row => (actor.pending.get row.2.messageId).isNone
  let ready := actor.nextOutboxDialAt.all fun at_ => at_ ≤ env.instant
  if hasDirectDue ∧ actor.conn.isNone ∧ ready then
    let (connected, actor) := actor.ensureConn env.dial
    if connected then
      { actor with
        nextOutboxDialAt := none
        outboxDialStep := 0
        lastTraffic := env.instant
        awaitingPongSince := none }
    else
      let last := CHUNK_DIAL_BACKOFF_MS.length - 1
      { actor with
        firstFailureAt := armFailure env.instant actor.firstFailureAt
        nextOutboxDialAt :=
          some (env.instant + CHUNK_DIAL_BACKOFF_MS.getD (min actor.outboxDialStep last) 0)
        outboxDialStep := min (actor.outboxDialStep + 1) last }
  else actor

/-- The actor and the outbox while a tick works, and the rows it has transmitted. -/
structure Tick where
  actor : Actor
  outbox : Outbox
  transmitted : List (Nat × OutboxRow)

/-- A row has been transmitted: it is in flight, and its retry is put off. -/
def Tick.transmit (tick : Tick) (env : TickEnv) (id : Nat) (row : OutboxRow) : Tick where
  actor := tick.actor.sent env.instant row.messageId
  outbox :=
    match env.nextRetryAt id row with
    | some nextRetryAt => tick.outbox.reschedule id nextRetryAt
    | none => tick.outbox
  transmitted := tick.transmitted ++ [(id, row)]

def retryRows (env : TickEnv) : List (Nat × OutboxRow) → Tick → Tick
  | [], tick => tick
  | (id, row) :: due, tick =>
    if (tick.actor.pending.get row.messageId).isSome then retryRows env due tick
    else
      match tick.actor.conn with
      | none => tick
      | some conn =>
        match conn.send row.payload with
        | .error _ => { tick with actor := tick.actor.dropConn env.instant }
        | .ok () => retryRows env due (tick.transmit env id row)

def Tick.fallback (tick : Tick) (env : TickEnv) (peer : PublicKey) (directTimeout : Nat)
    (enabled : Bool) : List (Nat × OutboxRow) × Tick :=
  let sustained := tick.actor.firstFailureAt.any fun at_ => directTimeout ≤ env.instant - at_
  if enabled ∧ 0 < directTimeout ∧ sustained then
    (if env.readOk then tick.outbox.dueDirectFor peer env.now RETRY_BATCH else [],
      { tick with actor := { tick.actor with firstFailureAt := none } })
  else ([], tick)

def batch (env : TickEnv) (peer : PublicKey) (outbox : Outbox) : List (Nat × OutboxRow) :=
  if env.readOk then outbox.dueDirectFor peer env.now RETRY_BATCH else []

/-- One retry tick, up to the transfer of attachments: the rows handed to the mailbox fallback,
and what the tick has done itself. -/
def retryTick (env : TickEnv) (peer : PublicKey) (directTimeout : Nat) (fallbackEnabled : Bool)
    (actor : Actor) (outbox : Outbox) : List (Nat × OutboxRow) × Tick :=
  let due := batch env peer outbox
  let actor := (actor.evictStale env.instant).dialForDue env due
  (retryRows env due ⟨actor, outbox, []⟩).fallback env peer directTimeout fallbackEnabled

/-! ### What a tick does to the rows that fit -/

def Fits (payload : Bytes) : Prop :=
  ∃ inner, encodeMlsApp payload = .ok inner ∧ inner.length ≤ NOISE_MAX_OUTER

def Connection.Healthy (conn : Connection) : Prop :=
  ∀ inner : Bytes, inner.length ≤ NOISE_MAX_OUTER → conn.accepts inner = true

theorem fits_iff {payload : Bytes} : Fits payload ↔ payload.length ≤ 65514 := by
  have hlength : (beBytes 4 (1 + payload.length) ++ [0x05] ++ payload).length =
      5 + payload.length := by
    simp only [List.length_append, length_beBytes, List.length_cons, List.length_nil]
  constructor
  · rintro ⟨inner, hencode, hinner⟩
    simp only [encodeMlsApp] at hencode
    split at hencode
    · cases hencode
    · cases hencode
      rw [hlength, NOISE_MAX_OUTER] at hinner
      omega
  · intro h
    refine ⟨_, if_neg (by rw [MAX_FRAME_SIZE]; omega), ?_⟩
    rw [hlength, NOISE_MAX_OUTER]
    omega

theorem Connection.Healthy.send_eq_ok_iff {conn : Connection} (h : conn.Healthy)
    {payload : Bytes} : conn.send payload = .ok () ↔ Fits payload := by
  unfold Connection.send Fits
  cases hencode : encodeMlsApp payload with
  | error e => simp [bind, Except.bind]
  | ok inner =>
    by_cases hsize : inner.length ≤ NOISE_MAX_OUTER
    · simp [bind, Except.bind, h inner hsize, hsize]
    · have hbig : NOISE_MAX_OUTER < inner.length := by omega
      simp [bind, Except.bind, hsize, hbig]

theorem Actor.sent_get (actor : Actor) (instant : Nat) {messageId other : MessageId}
    (h : other ≠ messageId) :
    (actor.sent instant messageId).pending.get other = actor.pending.get other :=
  Table.get_put_ne _ _ h

variable (env : TickEnv) {conn : Connection} {actor : Actor}

theorem retryRows_of_fits (hhealthy : conn.Healthy) (due : List (Nat × OutboxRow))
    (hdue : (due.map fun row => row.2.messageId).Nodup) (tick : Tick)
    (hconn : tick.actor.conn = some conn)
    (hfits : ∀ row ∈ due, tick.actor.pending.get row.2.messageId = none → Fits row.2.payload) :
    (retryRows env due tick).actor.conn = some conn ∧
      (∀ id entry, tick.actor.pending.get id = some entry →
        (retryRows env due tick).actor.pending.get id = some entry) ∧
      (∀ row ∈ tick.transmitted, row ∈ (retryRows env due tick).transmitted) ∧
      ∀ row ∈ due, tick.actor.pending.get row.2.messageId = none →
        row ∈ (retryRows env due tick).transmitted := by
  induction due generalizing tick with
  | nil => exact ⟨hconn, fun _ _ h => h, fun _ h => h, fun _ h => by cases h⟩
  | cons head due ih =>
    obtain ⟨id, row⟩ := head
    rw [List.map_cons, List.nodup_cons] at hdue
    obtain ⟨hhead, hdue⟩ := hdue
    unfold retryRows
    split
    · -- the row is in flight and is skipped
      next hflight =>
        obtain ⟨hopen, hkept, hsent, hall⟩ := ih hdue tick hconn fun other hother =>
          hfits other (List.mem_cons_of_mem _ hother)
        refine ⟨hopen, hkept, hsent, fun other hother hfree => ?_⟩
        rcases List.mem_cons.mp hother with rfl | hother
        · rw [hfree] at hflight
          cases hflight
        · exact hall other hother hfree
    · next hflight =>
      have hfree : tick.actor.pending.get row.messageId = none := by
        simpa using hflight
      have hsend := hhealthy.send_eq_ok_iff.mpr (hfits (id, row) List.mem_cons_self hfree)
      simp only [hconn, hsend]
      -- the other rows are about other messages, so they stay as free as they were
      have hother {other : Nat × OutboxRow} (h : other ∈ due) :
          (tick.transmit env id row).actor.pending.get other.2.messageId =
            tick.actor.pending.get other.2.messageId := by
        refine Actor.sent_get _ _ fun hsame => hhead ?_
        rw [← hsame]
        exact List.mem_map_of_mem h
      obtain ⟨hopen, hkept, hsent, hall⟩ := ih hdue (tick.transmit env id row) hconn
        fun other hmem hfree' =>
          hfits other (List.mem_cons_of_mem _ hmem) (hother hmem ▸ hfree')
      refine ⟨hopen, fun key entry hentry => hkept key entry ?_, fun other h => ?_,
        fun other hmem hfree' => ?_⟩
      · rw [← hentry]
        refine Actor.sent_get _ _ ?_
        rintro rfl
        rw [hfree] at hentry
        cases hentry
      · exact hsent other (List.mem_append_left _ h)
      · rcases List.mem_cons.mp hmem with rfl | hmem
        · exact hsent _ (List.mem_append_right _ List.mem_cons_self)
        · exact hall other hmem (hother hmem ▸ hfree')

theorem retryRows_of_not_fits (hhealthy : conn.Healthy) (due : List (Nat × OutboxRow))
    (hdue : (due.map fun row => row.2.messageId).Nodup) (tick : Tick)
    (hconn : tick.actor.conn = some conn) {row : Nat × OutboxRow} (hrow : row ∈ due)
    (hfree : tick.actor.pending.get row.2.messageId = none) (hbig : ¬Fits row.2.payload) :
    (retryRows env due tick).actor.conn = none := by
  induction due generalizing tick with
  | nil => cases hrow
  | cons head due ih =>
    obtain ⟨id, first⟩ := head
    rw [List.map_cons, List.nodup_cons] at hdue
    obtain ⟨hhead, hdue⟩ := hdue
    unfold retryRows
    split
    · next hflight =>
      rcases List.mem_cons.mp hrow with rfl | hrow
      · rw [hfree] at hflight
        cases hflight
      · exact ih hdue tick hconn hrow hfree
    · simp only [hconn]
      cases hsend : conn.send first.payload with
      | error e => rfl
      | ok u =>
        rcases List.mem_cons.mp hrow with rfl | hrow
        · exact absurd (hhealthy.send_eq_ok_iff.mp hsend) hbig
        · refine ih hdue (tick.transmit env id first) hconn hrow ?_
          rw [← hfree]
          refine Actor.sent_get _ _ fun hsame => hhead ?_
          rw [← hsame]
          exact List.mem_map_of_mem hrow

theorem nodup_batch (peer : PublicKey) (outbox : Outbox) :
    ((batch env peer outbox).map fun row => row.2.messageId).Nodup := by
  unfold batch
  split
  · exact outbox.nodup_dueDirectFor peer env.now RETRY_BATCH
  · exact List.nodup_nil

theorem Tick.fallback_spec (tick : Tick) (peer : PublicKey) (directTimeout : Nat)
    (enabled : Bool) :
    (tick.fallback env peer directTimeout enabled).2.actor.conn = tick.actor.conn ∧
      (tick.fallback env peer directTimeout enabled).2.actor.pending = tick.actor.pending ∧
      (tick.fallback env peer directTimeout enabled).2.transmitted = tick.transmitted := by
  by_cases h : enabled = true ∧ 0 < directTimeout ∧
      (tick.actor.firstFailureAt.any fun at_ => directTimeout ≤ env.instant - at_) = true
  · simp only [Tick.fallback, if_pos h, and_self]
  · simp only [Tick.fallback, if_neg h, and_self]

theorem Actor.dialForDue_of_connected (hconn : actor.conn = some conn)
    (due : List (Nat × OutboxRow)) : actor.dialForDue env due = actor := by
  unfold Actor.dialForDue
  rw [if_neg]
  rintro ⟨-, hnone, -⟩
  rw [hconn] at hnone
  cases hnone

theorem retryTick_of_connected (hconn : actor.conn = some conn) (peer : PublicKey)
    (directTimeout : Nat) (fallbackEnabled : Bool) (outbox : Outbox) :
    retryTick env peer directTimeout fallbackEnabled actor outbox =
      (retryRows env (batch env peer outbox) ⟨actor.evictStale env.instant, outbox, []⟩).fallback
        env peer directTimeout fallbackEnabled := by
  have hdial : (actor.evictStale env.instant).dialForDue env (batch env peer outbox) =
      actor.evictStale env.instant :=
    Actor.dialForDue_of_connected env
      (show (actor.evictStale env.instant).conn = some conn from hconn) _
  show (retryRows env _ ⟨(actor.evictStale env.instant).dialForDue env _, outbox, []⟩).fallback
    env peer directTimeout fallbackEnabled = _
  rw [hdial]

/-- Nothing blocks the direct lane: every due row that is not in flight and fits is transmitted,
the connection stays, and so does everything in flight on it. -/
structure Unblocked (env : TickEnv) (peer : PublicKey) (conn : Connection) (actor : Actor)
    (outbox : Outbox) (after : Tick) : Prop where
  transmits : ∀ row ∈ batch env peer outbox,
    (actor.evictStale env.instant).pending.get row.2.messageId = none → Fits row.2.payload →
      row ∈ after.transmitted
  connected : after.actor.conn = some conn
  inFlight : ∀ id entry, (actor.evictStale env.instant).pending.get id = some entry →
    after.actor.pending.get id = some entry

/-- On a healthy link, a retry tick leaves the direct lane unblocked exactly when every row of its
batch that is not in flight fits a single Noise message. -/
theorem retry_tick_unblocked_iff (env : TickEnv) (peer : PublicKey) (directTimeout : Nat)
    (fallbackEnabled : Bool) (actor : Actor) (outbox : Outbox) (conn : Connection)
    (hconn : actor.conn = some conn) (hhealthy : conn.Healthy) :
    Unblocked env peer conn actor outbox
        (retryTick env peer directTimeout fallbackEnabled actor outbox).2 ↔
      ∀ row ∈ batch env peer outbox,
        (actor.evictStale env.instant).pending.get row.2.messageId = none →
          Fits row.2.payload := by
  obtain ⟨hafter, hpending, htransmitted⟩ := Tick.fallback_spec env (retryRows env
    (batch env peer outbox) ⟨actor.evictStale env.instant, outbox, []⟩) peer directTimeout
    fallbackEnabled
  rw [retryTick_of_connected env hconn]
  constructor
  · intro h row hrow hfree
    by_contra hbig
    have hnone := retryRows_of_not_fits env hhealthy _ (nodup_batch env peer outbox)
      ⟨actor.evictStale env.instant, outbox, []⟩ hconn hrow hfree hbig
    rw [← hafter, h.connected] at hnone
    cases hnone
  · intro hfits
    obtain ⟨hopen, hkept, -, hall⟩ := retryRows_of_fits env hhealthy _
      (nodup_batch env peer outbox) ⟨actor.evictStale env.instant, outbox, []⟩ hconn hfits
    refine ⟨fun row hrow hfree _ => ?_, ?_, fun id entry hentry => ?_⟩
    · rw [htransmitted]
      exact hall row hrow hfree
    · rw [hafter]
      exact hopen
    · rw [hpending]
      exact hkept id entry hentry

/-! ### A row that blocks the lane -/

/-- Two due rows for one peer, one with this payload and one that is empty behind it. -/
def twoRows (payload : Bytes) : Outbox where
  rows := ⟨[(0, ⟨.fill 32 1, payload, .fill 16 1, 0, .direct, 0⟩),
    (1, ⟨.fill 32 1, [], .fill 16 2, 0, .direct, 1⟩)], by simp⟩
  nextId := 2
  issued := by
    intro id row hget
    have hmem := Table.get_eq_some_iff.mp hget
    simp only [List.mem_cons, Prod.mk.injEq, List.not_mem_nil, or_false] at hmem
    omega
  unique := by
    intro id other row row' hget hget' hkey
    have hmem := Table.get_eq_some_iff.mp hget
    have hmem' := Table.get_eq_some_iff.mp hget'
    simp only [List.mem_cons, Prod.mk.injEq, List.not_mem_nil, or_false] at hmem hmem'
    have hids : ByteArr.fill 16 1 ≠ ByteArr.fill 16 2 := by decide
    rcases hmem with ⟨rfl, rfl⟩ | ⟨rfl, rfl⟩ <;> rcases hmem' with ⟨rfl, rfl⟩ | ⟨rfl, rfl⟩
    · rfl
    · exact absurd (congrArg (fun key => key.2.1) hkey) hids
    · exact absurd (congrArg (fun key => key.2.1) hkey).symm hids
    · rfl

def quietTick : TickEnv := ⟨0, 5, true, none, fun _ _ => none⟩

def openConn : Connection := ⟨fun _ => true⟩

def busyActor : Actor :=
  ⟨some openConn, ⟨[(.fill 16 9, ⟨0, .welcome⟩)], by simp⟩, 0, none, none, none, 0⟩

theorem batch_twoRows (payload : Bytes) :
    batch quietTick (.fill 32 1) (twoRows payload) = (twoRows payload).rows.rows := by
  rfl

/-- A row of 65515 bytes is due first: the tick transmits nothing, not even the empty row behind
it, drops the connection and the Welcome in flight, and leaves the outbox as it was for the next
tick. -/
theorem oversized_row_blocks :
    ∃ payload : Bytes, payload.length = 65515 ∧ openConn.Healthy ∧
      (retryTick quietTick (.fill 32 1) 0 false busyActor (twoRows payload)).2 =
        ⟨{ busyActor with conn := none, pending := .empty, firstFailureAt := some 0 },
          twoRows payload, []⟩ ∧
      ¬Unblocked quietTick (.fill 32 1) openConn busyActor (twoRows payload)
        (retryTick quietTick (.fill 32 1) 0 false busyActor (twoRows payload)).2 := by
  obtain ⟨payload, hlength⟩ : ∃ payload : Bytes, payload.length = 65515 :=
    ⟨List.replicate 65515 0, List.length_replicate⟩
  have hhealthy : openConn.Healthy := fun _ _ => rfl
  have hbig : ¬Fits payload := by
    rw [fits_iff]
    omega
  have hsend : ∃ e, openConn.send payload = .error e := by
    cases hsend : openConn.send payload with
    | error e => exact ⟨e, rfl⟩
    | ok u => exact absurd (hhealthy.send_eq_ok_iff.mp hsend) hbig
  obtain ⟨e, hsend⟩ := hsend
  have htick : (retryTick quietTick (.fill 32 1) 0 false busyActor (twoRows payload)).2 =
      ⟨{ busyActor with conn := none, pending := .empty, firstFailureAt := some 0 },
        twoRows payload, []⟩ := by
    show (Tick.fallback (retryRows quietTick (batch quietTick (.fill 32 1) (twoRows payload))
      ⟨busyActor, twoRows payload, []⟩) quietTick (.fill 32 1) 0 false).2 = _
    rw [batch_twoRows]
    show (Tick.fallback (match openConn.send payload with
      | .error _ => _
      | .ok () => _) quietTick (.fill 32 1) 0 false).2 = _
    rw [hsend]
    rfl
  refine ⟨payload, hlength, hhealthy, htick, fun h => ?_⟩
  have hconn := h.connected
  rw [htick] at hconn
  cases hconn

/-- Two small rows are both transmitted. -/
theorem small_rows_transmitted :
    openConn.Healthy ∧ Unblocked quietTick (.fill 32 1) openConn busyActor (twoRows [])
      (retryTick quietTick (.fill 32 1) 0 false busyActor (twoRows [])).2 := by
  have hhealthy : openConn.Healthy := fun _ _ => rfl
  refine ⟨hhealthy, (retry_tick_unblocked_iff quietTick _ 0 false busyActor (twoRows []) openConn
    rfl hhealthy).mpr ?_⟩
  intro row hrow _
  rw [batch_twoRows] at hrow
  rw [fits_iff]
  simp only [twoRows, List.mem_cons, List.not_mem_nil, or_false] at hrow
  rcases hrow with rfl | rfl <;> exact Nat.zero_le _

end Skattr.Core.Delivery
