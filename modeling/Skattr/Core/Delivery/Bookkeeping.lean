import Skattr.Core.Delivery.Keepalive

/-!
# The books of the peer actor

The actor of a peer keeps a map of the sends that wait for an Ack, and a timer that the first failed
send arms and every successful one disarms. When the timer has run out, a retry tick hands the due
rows of the peer to the mailbox fallback, in the belief that none of them is in flight.

No single place of the loop sees to that: each arm empties the map where it gives up the connection
and disarms the timer where it sends. `Actor.Booked` is what they keep together. A connection that
is gone leaves no send behind, so a failed dial arms the timer over an empty map, and
`actor_books_kept` has both halves after every turn of the loop, with the fallback as their
consequence.
-/

namespace Skattr.Core.Delivery

open Lib

/-- Without a connection no send is pending, and while the failure timer is armed none that comes
from the outbox is. -/
structure Actor.Booked (actor : Actor) : Prop where
  idle : actor.conn = none → ∀ id, actor.pending.get id = none
  failing : actor.firstFailureAt.isSome = true → ∀ id entry,
    actor.pending.get id = some entry → entry.origin ≠ .outbox

namespace Actor

variable {actor next : Actor} {instant : Nat} {dial : Option Connection}

/-! ### Three ways to keep the books -/

theorem Booked.of_none (h : ∀ id, actor.pending.get id = none) : actor.Booked := by
  refine ⟨fun _ => h, fun _ id entry hentry => ?_⟩
  rw [h id] at hentry
  cases hentry

theorem Booked.of_sent {conn : Connection} (hconn : actor.conn = some conn)
    (htimer : actor.firstFailureAt = none) : actor.Booked := by
  refine ⟨fun hnone => ?_, fun harmed => ?_⟩
  · rw [hconn] at hnone
    cases hnone
  · rw [htimer] at harmed
    cases harmed

theorem Booked.mono (h : actor.Booked) (hconn : next.conn = none → actor.conn = none)
    (htimer : next.firstFailureAt.isSome = true → actor.firstFailureAt.isSome = true)
    (hpending : ∀ id entry, next.pending.get id = some entry →
      actor.pending.get id = some entry) : next.Booked := by
  refine ⟨fun hnone id => ?_, fun harmed id entry hentry => ?_⟩
  · cases hget : next.pending.get id with
    | none => rfl
    | some entry =>
      rw [← hpending id entry hget]
      exact h.idle (hconn hnone) id
  · exact h.failing (htimer harmed) id entry (hpending id entry hentry)

theorem close_booked (actor : Actor) : actor.close.Booked := .of_none fun _ => rfl

theorem dropConn_booked (actor : Actor) (instant : Nat) : (actor.dropConn instant).Booked :=
  .of_none fun _ => rfl

/-! ### The arms that send -/

theorem ensureConn_cases (actor : Actor) (dial : Option Connection) :
    (actor.conn = none ∧ actor.ensureConn dial = (false, actor)) ∨
      ∃ conn next, actor.ensureConn dial = (true, next) ∧ next.conn = some conn := by
  unfold ensureConn
  cases hconn : actor.conn with
  | some conn => exact .inr ⟨conn, actor, rfl, hconn⟩
  | none =>
    cases dial with
    | none => exact .inl ⟨rfl, rfl⟩
    | some conn => exact .inr ⟨conn, _, rfl, rfl⟩

theorem Booked.job (h : actor.Booked) (messageId : MessageId) (ciphertext : Bytes) :
    (actor.job instant dial messageId ciphertext).2.Booked := by
  unfold Actor.job
  rcases ensureConn_cases actor dial with ⟨hnone, hdial⟩ | ⟨conn, next, hdial, hconn⟩
  · -- the timer is armed, but without a connection nothing was pending
    rw [hdial]
    dsimp only
    exact .of_none (h.idle hnone)
  · rw [hdial]
    dsimp only
    rw [hconn]
    dsimp only
    split
    · exact .of_sent hconn rfl
    · exact next.dropConn_booked instant

theorem Booked.welcome (h : actor.Booked) (syntheticId : MessageId) (welcome : Bytes) :
    (actor.welcome instant dial syntheticId welcome).Booked := by
  unfold Actor.welcome
  rcases ensureConn_cases actor dial with ⟨hnone, hdial⟩ | ⟨conn, next, hdial, hconn⟩
  · rw [hdial]
    dsimp only
    exact .of_none (h.idle hnone)
  · rw [hdial]
    dsimp only
    rw [hconn]
    dsimp only
    split
    · exact .of_sent rfl rfl
    · exact next.dropConn_booked instant

/-! ### The retry tick -/

theorem Booked.evictStale (h : actor.Booked) (instant : Nat) :
    (actor.evictStale instant).Booked := by
  refine h.mono id id fun id entry hentry => ?_
  have hkept := (Table.get_deleteWhere _ _ _).symm.trans hentry
  exact (Option.filter_eq_some_iff.mp hkept).1

theorem Booked.dialForDue (h : actor.Booked) (env : TickEnv) (due : List (Nat × OutboxRow)) :
    (actor.dialForDue env due).Booked := by
  unfold Actor.dialForDue
  dsimp only
  split
  · next hdial =>
    have hnone : actor.conn = none := Option.isNone_iff_eq_none.mp hdial.2.1
    unfold Actor.ensureConn
    rw [hnone]
    cases env.dial with
    | none => exact .of_none (h.idle hnone)
    | some conn => exact .of_none (h.idle hnone)
  · exact h

end Actor

variable {env : TickEnv} {peer : PublicKey} {directTimeout : Nat} {enabled : Bool} {tick : Tick}
  {actor : Actor}

/-- The loop over the due rows: a row that is sent disarms the timer, and one that fails costs the
connection and everything in flight on it. -/
theorem retryRows_booked (h : tick.actor.Booked) (due : List (Nat × OutboxRow)) :
    (retryRows env due tick).actor.Booked := by
  induction due generalizing tick with
  | nil => exact h
  | cons head due ih =>
    obtain ⟨id, row⟩ := head
    rw [retryRows]
    split
    · exact ih h
    · split
      · exact h
      · next conn hconn =>
        split
        · exact Actor.dropConn_booked _ _
        · exact ih (.of_sent hconn rfl)

theorem Tick.fallback_booked (h : tick.actor.Booked) :
    (tick.fallback env peer directTimeout enabled).2.actor.Booked := by
  unfold Tick.fallback
  dsimp only
  split
  · exact h.mono id (fun harmed => by cases harmed) fun _ _ hentry => hentry
  · exact h

theorem Tick.armed_of_mem_fallback {row : Nat × OutboxRow}
    (h : row ∈ (tick.fallback env peer directTimeout enabled).1) :
    tick.actor.firstFailureAt.isSome = true := by
  unfold Tick.fallback at h
  dsimp only at h
  split at h
  · next hfallback =>
    cases htimer : tick.actor.firstFailureAt with
    | none =>
      rw [htimer] at hfallback
      cases hfallback.2.2
    | some at_ => rfl
  · cases h

theorem retryRows_batch_booked (h : actor.Booked) (outbox : Outbox) :
    (retryRows env (batch env peer outbox) ⟨(actor.evictStale env.instant).dialForDue env
      (batch env peer outbox), outbox, []⟩).actor.Booked :=
  retryRows_booked ((h.evictStale env.instant).dialForDue env _) _

/-- The mailbox fallback is handed no row that is in flight on the direct lane. -/
def SparesInFlight (peer : PublicKey) (actor : Actor) : Prop :=
  ∀ env directTimeout enabled outbox,
    ∀ row ∈ (retryTick env peer directTimeout enabled actor outbox).1, ∀ entry,
      (retryTick env peer directTimeout enabled actor outbox).2.actor.pending.get row.2.messageId =
        some entry → entry.origin ≠ .outbox

theorem sparesInFlight_of_booked (h : actor.Booked) (peer : PublicKey) :
    SparesInFlight peer actor := by
  intro env directTimeout enabled outbox row hrow entry hentry
  have hspec := Tick.fallback_spec env (retryRows env (batch env peer outbox)
    ⟨(actor.evictStale env.instant).dialForDue env (batch env peer outbox), outbox, []⟩) peer
    directTimeout enabled
  have hkept := (congrArg (fun pending => pending.get row.2.messageId) hspec.2.1).symm.trans hentry
  exact (retryRows_batch_booked h outbox).failing (Tick.armed_of_mem_fallback hrow) _ entry hkept

/-! ### The other arms -/

namespace Line

variable {line : Line}

theorem onLink_booked (h : line.actor.Booked) (link : Connection) :
    (line.onLink link).actor.Booked :=
  h.mono Option.map_eq_none_iff.mp id fun _ _ hentry => hentry

theorem dialForFetch_booked (h : line.actor.Booked) (instant : Nat) (fetch : FetchDial) :
    (line.dialForFetch instant fetch).actor.Booked := by
  unfold dialForFetch
  dsimp only
  split
  · next hdial =>
    cases fetch.dial with
    | none => exact h
    | some conn => exact .of_none (h.idle (Option.isNone_iff_eq_none.mp hdial.2.2.1))
  · exact h

theorem keepalive_booked (h : line.actor.Booked) (instant : Nat) :
    (line.keepalive instant).actor.Booked := by
  unfold keepalive
  split
  · exact h
  · split
    · exact line.actor.close_booked
    · split
      · exact .of_none fun _ => rfl
      · exact h.mono id id fun _ _ hentry => hentry

theorem receive_booked (h : line.actor.Booked) (instant : Nat) (peer : PublicKey)
    (received : Received) (ackOk : Bool) (answer : Option Transport.Frame) :
    (line.receive instant peer received ackOk answer).actor.Booked := by
  have htraffic : (line.traffic instant).actor.Booked :=
    h.mono id id fun _ _ hentry => hentry
  have hgone : line.hangUp.actor.Booked := .of_none fun _ => rfl
  unfold receive
  split
  · exact h
  · split
    · -- an Ack takes the send off the map
      refine h.mono id id fun id entry hentry => ?_
      exact (Option.filter_eq_some_iff.mp ((Table.get_deleteWhere _ _ _).symm.trans hentry)).1
    · exact hgone
    · exact hgone
    · exact hgone
    · exact h.mono id id fun _ _ hentry => hentry
    all_goals first
      | exact htraffic
      | exact h
      | skip
    split
    · exact htraffic
    · exact Actor.close_booked _

theorem step_booked (h : line.actor.Booked) (peer : PublicKey) (event : LineEvent) :
    (line.step peer event).actor.Booked := by
  cases event with
  | job instant link dial messageId ciphertext =>
    exact (onLink_booked h link).job messageId ciphertext
  | welcome instant link dial syntheticId welcome =>
    exact (onLink_booked h link).welcome syntheticId welcome
  | retryTick env link directTimeout enabled fetch =>
    exact dialForFetch_booked
      (Tick.fallback_booked (retryRows_batch_booked (onLink_booked h link) _)) env.instant fetch
  | keepalive instant link => exact keepalive_booked (onLink_booked h link) instant
  | replaceConn instant conn => exact .of_none fun _ => rfl
  | received instant link received ackOk answer =>
    exact receive_booked (onLink_booked h link) instant peer received ackOk answer

def start (conn : Option Connection) (instant : Nat) : Line :=
  ⟨⟨conn, .empty, instant, none, none, none, 0⟩, .empty, none, 0, 0, []⟩

def turn (peer : PublicKey) (line : Line) : Outbox × LineEvent → Line
  | (outbox, event) => { line with outbox := outbox }.step peer event

theorem turn_booked (h : line.actor.Booked) (peer : PublicKey) (found : Outbox × LineEvent) :
    (line.turn peer found).actor.Booked := by
  obtain ⟨outbox, event⟩ := found
  have hsame : Actor.Booked { line with outbox := outbox }.actor := h
  exact step_booked hsame peer event

end Line

/-- After every turn of the loop no send is pending without a connection, none of the outbox is
pending while the failure timer is armed, and a retry tick hands no row in flight to the mailbox
fallback. -/
theorem actor_books_kept (peer : PublicKey) (conn : Option Connection) (instant : Nat)
    (turns : List (Outbox × LineEvent)) :
    Along (Line.turn peer)
      (fun line => line.actor.Booked ∧
        ∀ link, SparesInFlight peer (line.onLink link).actor)
      (Line.start conn instant) turns := by
  have hbooked : Along (Line.turn peer) (fun line => line.actor.Booked)
      (Line.start conn instant) turns :=
    along_of_step (fun _ found h => Line.turn_booked h peer found) (.of_none fun _ => rfl) turns
  exact hbooked.imp fun line h =>
    ⟨h, fun link => sparesInFlight_of_booked (Line.onLink_booked h link) peer⟩

/-- The dial for a job fails, and half a minute later the due rows go to the mailbox. -/
example :
    (retryTick ⟨30000, 5, true, none, fun _ _ => none⟩ (.fill 32 1) 30000 true
      ((Line.start none 0).turn (.fill 32 1) (.empty, .job 0 openConn none (.fill 16 1) [])).actor
      (twoRows [])).1 = (twoRows []).rows.rows := by
  decide +kernel

end Skattr.Core.Delivery
