import Skattr.Core.Delivery.Peer
import Skattr.Core.Transport.Frame
import Skattr.Lib.Run

/-!
# Waiting for a Pong

The actor of a peer sends a Ping every minute and notes since when it waits for the Pong; a minute
later it drops a connection that has not answered. The note belongs to the actor and not to the
connection. Most arms of the loop that take a connection away or install one clear it, but a send
that fails does not, and neither does a dial for a job or for a Welcome.

A `Line` numbers the connections of an actor and records its Pings, the Pongs and the connections
that it drops for want of one. `dropped_for_silence` says that in a run whose dials for jobs and
Welcomes find no Pong awaited, and whose Pings are transmitted, a connection is dropped only after a
Ping on it that stayed unanswered until the deadline. `fresh_connection_dropped` is a run that drops
a connection for a Ping on the one before it.
-/

namespace Skattr.Core.Delivery

open Lib

def PONG_DEADLINE : Nat := 30000

def IDLE_CLOSE : Nat := 180000

/-- The frame is encoded, fits a single Noise message and is taken by the link. -/
def Connection.delivers (conn : Connection) (frame : Transport.Frame) : Bool :=
  match Transport.encode frame with
  | .ok inner => inner.length ≤ NOISE_MAX_OUTER && conn.accepts inner
  | .error _ => false

/-! ### The other arms of the actor -/

/-- Drop the connection and everything in flight on it, without a note of the failure. -/
def Actor.close (actor : Actor) : Actor := { actor with conn := none, pending := .empty }

/-- The arm for a Welcome: dial on demand, send, and wait for the Ack under a synthetic id. -/
def Actor.welcome (actor : Actor) (instant : Nat) (dial : Option Connection)
    (syntheticId : MessageId) (welcome : Bytes) : Actor :=
  let (connected, actor) := actor.ensureConn dial
  match connected, actor.conn with
  | true, some conn =>
    if conn.delivers (.mlsWelcome welcome) then
      { actor with
        pending := actor.pending.put syntheticId ⟨instant, .welcome⟩
        lastTraffic := instant
        firstFailureAt := none }
    else actor.dropConn instant
  | _, _ => { actor with firstFailureAt := armFailure instant actor.firstFailureAt }

def Actor.replaceConn (actor : Actor) (instant : Nat) (conn : Connection) : Actor :=
  { actor with
    conn := some conn
    pending := .empty
    lastTraffic := instant
    awaitingPongSince := none
    firstFailureAt := none
    nextOutboxDialAt := none
    outboxDialStep := 0 }

/-- What the actor meets when it looks after its attachments: whether it has a store for them,
whether a fetch is pending, and what a dial yields. -/
structure FetchDial where
  enabled : Bool
  workPending : Bool
  dial : Option Connection

/-- Something that was sent or received for the sake of the connection, or the end of one that did
not answer. -/
inductive LineNote where
  | ping (serial instant : Nat) (sent : Bool)
  | pong (serial : Nat)
  | silent (serial instant : Nat)
  deriving DecidableEq

/-- An actor with the number of connections that it has had, and what happened on them. -/
structure Line where
  actor : Actor
  outbox : Outbox
  nextChunkDialAt : Option Nat
  chunkDialStep : Nat
  serial : Nat
  log : List LineNote

/-- What a read of the connection yields: a frame, the end of the stream or an error. -/
inductive Received where
  | frame (frame : Transport.Frame)
  | eof
  | error
  deriving DecidableEq

/-- An event of the loop. Each brings what the link takes at that time; the answer to a chunk
request is the one of the frame handler. -/
inductive LineEvent where
  | job (instant : Nat) (link : Connection) (dial : Option Connection) (messageId : MessageId)
      (ciphertext : Bytes)
  | welcome (instant : Nat) (link : Connection) (dial : Option Connection)
      (syntheticId : MessageId) (welcome : Bytes)
  | retryTick (env : TickEnv) (link : Connection) (directTimeout : Nat) (fallbackEnabled : Bool)
      (fetch : FetchDial)
  | keepalive (instant : Nat) (link : Connection)
  | replaceConn (instant : Nat) (conn : Connection)
  | received (instant : Nat) (link : Connection) (received : Received) (ackOk : Bool)
      (answer : Option Transport.Frame)

namespace Line

def onLink (link : Connection) (line : Line) : Line :=
  { line with actor := { line.actor with conn := line.actor.conn.map fun _ => link } }

def dialled (line : Line) (actor : Actor) : Nat :=
  if line.actor.conn.isNone && actor.conn.isSome then line.serial + 1 else line.serial

def job (instant : Nat) (dial : Option Connection) (messageId : MessageId) (ciphertext : Bytes)
    (line : Line) : Line :=
  { line with
    actor := (line.actor.job instant dial messageId ciphertext).2
    serial := line.dialled (line.actor.ensureConn dial).2 }

def welcome (instant : Nat) (dial : Option Connection) (syntheticId : MessageId) (welcome : Bytes)
    (line : Line) : Line :=
  { line with
    actor := line.actor.welcome instant dial syntheticId welcome
    serial := line.dialled (line.actor.ensureConn dial).2 }

def dialForFetch (instant : Nat) (fetch : FetchDial) (line : Line) : Line :=
  let due := line.nextChunkDialAt.all fun at_ => at_ ≤ instant
  if fetch.enabled ∧ fetch.workPending ∧ line.actor.conn.isNone ∧ due then
    match fetch.dial with
    | some conn =>
      { line with
        actor := { line.actor with
          conn := some conn, lastTraffic := instant, awaitingPongSince := none }
        nextChunkDialAt := none
        chunkDialStep := 0
        serial := line.serial + 1 }
    | none =>
      let last := CHUNK_DIAL_BACKOFF_MS.length - 1
      { line with
        nextChunkDialAt :=
          some (instant + CHUNK_DIAL_BACKOFF_MS.getD (min line.chunkDialStep last) 0)
        chunkDialStep := min (line.chunkDialStep + 1) last }
  else line

def retryTick (env : TickEnv) (peer : PublicKey) (directTimeout : Nat) (fallbackEnabled : Bool)
    (fetch : FetchDial) (line : Line) : Line :=
  let due := batch env peer line.outbox
  let actor := (line.actor.evictStale env.instant).dialForDue env due
  let tick := (Delivery.retryTick env peer directTimeout fallbackEnabled line.actor line.outbox).2
  dialForFetch env.instant fetch { line with
    actor := tick.actor, outbox := tick.outbox, serial := line.dialled actor }

/-- The keepalive tick: close an idle connection, drop one that owes a Pong, or send a Ping, whose
failure is not looked at. -/
def keepalive (instant : Nat) (line : Line) : Line :=
  match line.actor.conn with
  | none => line
  | some conn =>
    if IDLE_CLOSE ≤ instant - line.actor.lastTraffic then { line with actor := line.actor.close }
    else if line.actor.awaitingPongSince.any fun at_ => PONG_DEADLINE ≤ instant - at_ then
      { line with
        actor := { line.actor.close with awaitingPongSince := none }
        log := line.log ++ [.silent line.serial instant] }
    else
      { line with
        actor := { line.actor with
          awaitingPongSince := some (line.actor.awaitingPongSince.getD instant) }
        log := line.log ++ [.ping line.serial instant (conn.delivers .ping)] }

def replaceConn (instant : Nat) (conn : Connection) (line : Line) : Line :=
  { line with
    actor := line.actor.replaceConn instant conn
    nextChunkDialAt := none
    chunkDialStep := 0
    serial := line.serial + 1 }

def traffic (instant : Nat) (line : Line) : Line :=
  { line with actor := { line.actor with lastTraffic := instant } }

def hangUp (line : Line) : Line :=
  { line with actor := { line.actor.close with awaitingPongSince := none } }

def receive (instant : Nat) (peer : PublicKey) (received : Received) (ackOk : Bool)
    (answer : Option Transport.Frame) (line : Line) : Line :=
  match line.actor.conn with
  | none => line
  | some conn =>
    match received with
    | .frame (.ack id) =>
      { line with
        actor := { line.actor with
          pending := line.actor.pending.delete id, lastTraffic := instant }
        outbox := if ackOk then (line.outbox.ackByMessageId peer id).2 else line.outbox }
    | .frame .bye | .eof | .error => line.hangUp
    | .frame .pong =>
      { line with
        actor := { line.actor with lastTraffic := instant, awaitingPongSince := none }
        log := line.log ++ [.pong line.serial] }
    | .frame .ping | .frame (.mlsApp _) | .frame (.mlsWelcome _) | .frame (.chunk _)
    | .frame (.chunkNack _) | .frame (.attachmentComplete _) => line.traffic instant
    | .frame (.chunkRequest _) =>
      if answer.all conn.delivers then line.traffic instant
      else { line.traffic instant with actor := (line.traffic instant).actor.close }
    | .frame (.noiseInit _) | .frame (.noiseResp _) | .frame (.mlsCommit _)
    | .frame (.error _) => line

def step (peer : PublicKey) (line : Line) : LineEvent → Line
  | .job instant link dial messageId ciphertext =>
    (line.onLink link).job instant dial messageId ciphertext
  | .welcome instant link dial syntheticId welcome =>
    (line.onLink link).welcome instant dial syntheticId welcome
  | .retryTick env link directTimeout fallbackEnabled fetch =>
    (line.onLink link).retryTick env peer directTimeout fallbackEnabled fetch
  | .keepalive instant link => (line.onLink link).keepalive instant
  | .replaceConn instant conn => line.replaceConn instant conn
  | .received instant link received ackOk answer =>
    (line.onLink link).receive instant peer received ackOk answer

/-! ### The links of an actor -/

variable {line next last : Line} {peer : PublicKey}

/-- A step that records nothing: the connection is gone, or it is the old one and the note on its
Pong is the old one, or no Pong is awaited. -/
structure Rewires (line next : Line) : Prop where
  log : next.log = line.log
  link : next.actor.conn.isSome = true →
    (line.actor.conn.isSome = true ∧ next.serial = line.serial ∧
      next.actor.awaitingPongSince = line.actor.awaitingPongSince) ∨
    next.actor.awaitingPongSince = none

theorem Rewires.trans (h : line.Rewires next) (hlast : next.Rewires last) : line.Rewires last := by
  refine ⟨hlast.log.trans h.log, fun hconn => ?_⟩
  rcases hlast.link hconn with ⟨hmid, hserial, hawaiting⟩ | hawaiting
  · rw [hserial, hawaiting]
    exact h.link hmid
  · exact .inr hawaiting

theorem Rewires.of_same (hlog : next.log = line.log) (hserial : next.serial = line.serial)
    (hconn : next.actor.conn.isSome = true → line.actor.conn.isSome = true)
    (hawaiting : next.actor.conn.isSome = true →
      next.actor.awaitingPongSince = line.actor.awaitingPongSince) : line.Rewires next :=
  ⟨hlog, fun h => .inl ⟨hconn h, hserial, hawaiting h⟩⟩

theorem Rewires.of_none (hlog : next.log = line.log) (hconn : next.actor.conn = none) :
    line.Rewires next :=
  ⟨hlog, fun h => by rw [hconn] at h; cases h⟩

theorem onLink_rewires (link : Connection) (line : Line) : line.Rewires (line.onLink link) :=
  .of_same rfl rfl (fun h => by rw [onLink, Option.isSome_map] at h; exact h) fun _ => rfl

variable {instant : Nat} {dial : Option Connection} (env : TickEnv) (due : List (Nat × OutboxRow))

theorem job_rewires {messageId : MessageId} {ciphertext : Bytes}
    (h : line.actor.conn = none → (∃ conn, dial = some conn ∧ conn.send ciphertext = .ok ()) →
      line.actor.awaitingPongSince = none) :
    line.Rewires (line.job instant dial messageId ciphertext) := by
  refine ⟨rfl, ?_⟩
  unfold job Actor.job Actor.ensureConn dialled
  cases hconn : line.actor.conn with
  | some conn =>
    simp only [hconn]
    cases hsend : conn.send ciphertext with
    | ok u => exact fun _ => .inl ⟨rfl, rfl, rfl⟩
    | error e => exact fun hnone => by cases hnone
  | none =>
    cases dial with
    | none =>
      simp only [hconn]
      exact fun hnone => by cases hnone
    | some conn =>
      cases hsend : conn.send ciphertext with
      | ok u =>
        simp only [hsend]
        exact fun _ => .inr (h hconn ⟨conn, rfl, hsend⟩)
      | error e =>
        simp only [hsend]
        exact fun hnone => by cases hnone

theorem welcome_rewires {syntheticId : MessageId} {welcome : Bytes}
    (h : line.actor.conn = none → (∃ conn, dial = some conn ∧ conn.delivers (.mlsWelcome welcome) =
      true) → line.actor.awaitingPongSince = none) :
    line.Rewires (line.welcome instant dial syntheticId welcome) := by
  refine ⟨rfl, ?_⟩
  unfold Line.welcome Actor.welcome Actor.ensureConn dialled
  cases hconn : line.actor.conn with
  | some conn =>
    simp only [hconn]
    cases hsend : conn.delivers (.mlsWelcome welcome) with
    | true => exact fun _ => .inl ⟨rfl, rfl, rfl⟩
    | false => exact fun hnone => by cases hnone
  | none =>
    cases dial with
    | none =>
      simp only [hconn]
      exact fun hnone => by cases hnone
    | some conn =>
      cases hsend : conn.delivers (.mlsWelcome welcome) with
      | true =>
        simp only [hsend]
        exact fun _ => .inr (h hconn ⟨conn, rfl, hsend⟩)
      | false =>
        simp only [hsend]
        exact fun hnone => by cases hnone

theorem dialForDue_cases (actor : Actor) :
    ((actor.dialForDue env due).conn = actor.conn ∧
        (actor.dialForDue env due).awaitingPongSince = actor.awaitingPongSince) ∨
      (actor.dialForDue env due).awaitingPongSince = none := by
  unfold Actor.dialForDue
  dsimp only
  split
  · next hdial =>
    obtain ⟨-, hnone, -⟩ := hdial
    rw [Option.isNone_iff_eq_none] at hnone
    unfold Actor.ensureConn
    cases env.dial with
    | none =>
      simp only [hnone]
      exact .inl ⟨rfl, rfl⟩
    | some conn =>
      simp only [hnone]
      exact .inr rfl
  · exact .inl ⟨rfl, rfl⟩

theorem retryRows_link (tick : Tick) :
    (retryRows env due tick).actor.awaitingPongSince = tick.actor.awaitingPongSince ∧
      ((retryRows env due tick).actor.conn = none ∨
        (retryRows env due tick).actor.conn = tick.actor.conn) := by
  induction due generalizing tick with
  | nil => exact ⟨rfl, .inr rfl⟩
  | cons head due ih =>
    obtain ⟨id, row⟩ := head
    rw [retryRows]
    split
    · exact ih tick
    · split
      · exact ⟨rfl, .inr rfl⟩
      · split
        · exact ⟨rfl, .inl rfl⟩
        · exact ih (tick.transmit env id row)

theorem fallback_link (peer : PublicKey) (directTimeout : Nat) (enabled : Bool) (tick : Tick) :
    (tick.fallback env peer directTimeout enabled).2.actor.conn = tick.actor.conn ∧
      (tick.fallback env peer directTimeout enabled).2.actor.awaitingPongSince =
        tick.actor.awaitingPongSince := by
  unfold Tick.fallback
  dsimp only
  split <;> exact ⟨rfl, rfl⟩

theorem dialForFetch_rewires (instant : Nat) (fetch : FetchDial) (line : Line) :
    line.Rewires (line.dialForFetch instant fetch) := by
  unfold dialForFetch
  dsimp only
  split
  · cases fetch.dial with
    | none => exact .of_same rfl rfl id fun _ => rfl
    | some conn => exact ⟨rfl, fun _ => .inr rfl⟩
  · exact .of_same rfl rfl id fun _ => rfl

theorem retryTick_rewires (directTimeout : Nat) (fallbackEnabled : Bool) (fetch : FetchDial)
    (line : Line) : line.Rewires (line.retryTick env peer directTimeout fallbackEnabled fetch) := by
  refine Rewires.trans ?_ (dialForFetch_rewires _ _ _)
  refine ⟨rfl, ?_⟩
  unfold dialled Delivery.retryTick
  dsimp only
  set dialled := (line.actor.evictStale env.instant).dialForDue env (batch env peer line.outbox)
    with hdialled
  obtain ⟨hconn, hawaiting⟩ := fallback_link env peer directTimeout fallbackEnabled
    (retryRows env (batch env peer line.outbox) ⟨dialled, line.outbox, []⟩)
  obtain ⟨hsame, hlink⟩ :=
    retryRows_link env (batch env peer line.outbox) ⟨dialled, line.outbox, []⟩
  rw [hconn, hawaiting, hsame]
  intro hsome
  have hdial : dialled.conn.isSome = true := by
    rcases hlink with hnone | hkept
    · rw [hnone] at hsome
      cases hsome
    · exact hkept ▸ hsome
  rcases dialForDue_cases env (batch env peer line.outbox) (line.actor.evictStale env.instant) with
    ⟨hold, hnote⟩ | hfresh
  · have hline : line.actor.conn.isSome = true := by
      rw [← hdialled] at hold
      exact hold ▸ hdial
    refine .inl ⟨hline, if_neg ?_, hnote⟩
    rw [← Option.not_isSome, hline]
    exact Bool.false_ne_true
  · exact .inr hfresh

/-! ### What is recorded -/

/-- A Ping went out on the connection at that time, and no Pong came since. -/
def Unanswered (log : List LineNote) (serial at_ : Nat) : Prop :=
  ∃ earlier later, log = earlier ++ .ping serial at_ true :: later ∧ .pong serial ∉ later

/-- Every connection that was dropped for its silence had not answered a Ping until the deadline. -/
def Justified (log : List LineNote) : Prop :=
  ∀ earlier serial instant later, log = earlier ++ .silent serial instant :: later →
    ∃ at_, Unanswered earlier serial at_ ∧ PONG_DEADLINE ≤ instant - at_

variable {log : List LineNote} {note : LineNote} {serial at_ : Nat}

theorem Unanswered.append (h : Unanswered log serial at_) (hnote : note ≠ .pong serial) :
    Unanswered (log ++ [note]) serial at_ := by
  obtain ⟨earlier, later, rfl, hpong⟩ := h
  refine ⟨earlier, later ++ [note], by rw [List.append_assoc, List.cons_append], ?_⟩
  rw [List.mem_append, List.mem_singleton]
  exact fun hmem => hmem.elim hpong fun hsame => hnote hsame.symm

theorem Unanswered.mem (h : Unanswered log serial at_) : .ping serial at_ true ∈ log := by
  obtain ⟨earlier, later, rfl, -⟩ := h
  exact List.mem_append_right _ List.mem_cons_self

theorem Justified.append (h : Justified log)
    (hnote : ∀ serial instant, note = .silent serial instant →
      ∃ at_, Unanswered log serial at_ ∧ PONG_DEADLINE ≤ instant - at_) :
    Justified (log ++ [note]) := by
  intro earlier serial instant later hlog
  rcases concat_eq_append_cons hlog with ⟨rfl, hsilent, -⟩ | ⟨rest, -, hold⟩
  · exact hnote serial instant hsilent.symm
  · exact h earlier serial instant rest hold

/-- What holds after every event that meets the condition. -/
structure Kept (line : Line) : Prop where
  justified : Justified line.log
  awaited : line.actor.conn.isSome = true → ∀ at_, line.actor.awaitingPongSince = some at_ →
    Unanswered line.log line.serial at_

theorem Kept.rewires (h : line.Kept) (hrewires : line.Rewires next) : next.Kept := by
  refine ⟨hrewires.log ▸ h.justified, fun hconn at_ hawaiting => ?_⟩
  rcases hrewires.link hconn with ⟨hline, hserial, hsame⟩ | hnone
  · rw [hrewires.log, hserial]
    exact h.awaited hline at_ (hsame ▸ hawaiting)
  · rw [hnone] at hawaiting
    cases hawaiting

/-! ### The condition -/

/-- A dial for a job or a Welcome that is then sent finds no Pong awaited, and a first Ping is
transmitted. -/
def Fresh (line : Line) : LineEvent → Prop
  | .job _ _ dial _ ciphertext => line.actor.conn = none →
      (∃ conn, dial = some conn ∧ conn.send ciphertext = .ok ()) →
        line.actor.awaitingPongSince = none
  | .welcome _ _ dial _ welcome => line.actor.conn = none →
      (∃ conn, dial = some conn ∧ conn.delivers (.mlsWelcome welcome) = true) →
        line.actor.awaitingPongSince = none
  | .keepalive instant link => line.actor.conn.isSome = true →
      instant - line.actor.lastTraffic < IDLE_CLOSE → line.actor.awaitingPongSince = none →
        link.delivers .ping = true
  | .retryTick .. | .replaceConn .. | .received .. => True

theorem Kept.keepalive (h : line.Kept) {link : Connection}
    (hlink : ∀ conn, line.actor.conn = some conn → conn = link)
    (hfresh : Fresh line (.keepalive instant link)) : (line.keepalive instant).Kept := by
  cases hconn : line.actor.conn with
  | none =>
    have hsame : line.keepalive instant = line := by rw [Line.keepalive, hconn]
    rw [hsame]
    exact h
  | some conn =>
    obtain rfl := hlink conn hconn
    have hsome : line.actor.conn.isSome = true := by rw [hconn]; rfl
    rw [Line.keepalive, hconn]
    dsimp only
    split
    · exact h.rewires (.of_none rfl rfl)
    · next hbusy =>
      cases hawaiting : line.actor.awaitingPongSince with
      | none =>
        rw [Option.any_none, if_neg Bool.false_ne_true]
        refine ⟨h.justified.append fun _ _ hsame => (nomatch hsame), fun _ at_ hat => ?_⟩
        obtain rfl := Option.some.inj hat
        refine ⟨line.log, [], ?_, List.not_mem_nil⟩
        rw [hfresh hsome (Nat.lt_of_not_le hbusy) hawaiting]
        rfl
      | some at_ =>
        have hping := h.awaited hsome at_ hawaiting
        split
        · next hlate =>
          refine ⟨h.justified.append ?_, fun hnone => (nomatch hnone)⟩
          rintro serial instant hsame
          cases hsame
          exact ⟨at_, hping, of_decide_eq_true hlate⟩
        · refine ⟨h.justified.append fun _ _ hsame => (nomatch hsame), fun _ other hother => ?_⟩
          obtain rfl := Option.some.inj hother
          exact hping.append fun hsame => (nomatch hsame)

theorem Kept.receive (h : line.Kept) (instant : Nat) (received : Received) (ackOk : Bool)
    (answer : Option Transport.Frame) :
    (line.receive instant peer received ackOk answer).Kept := by
  unfold Line.receive
  split
  · exact h
  · next conn hconn =>
    have hsame : line.Rewires (line.traffic instant) := .of_same rfl rfl id fun _ => rfl
    have hgone : line.Rewires line.hangUp := .of_none rfl rfl
    split
    · exact h.rewires (.of_same rfl rfl id fun _ => rfl)
    · exact h.rewires hgone
    · exact h.rewires hgone
    · exact h.rewires hgone
    · exact ⟨h.justified.append fun _ _ hsame => (nomatch hsame), fun _ _ hnone => (nomatch hnone)⟩
    all_goals first
      | exact h.rewires hsame
      | exact h
      | skip
    split
    · exact h.rewires hsame
    · exact h.rewires (.of_none rfl rfl)

theorem Kept.step (h : line.Kept) {event : LineEvent} (hfresh : Fresh line event) :
    (line.step peer event).Kept := by
  cases event with
  | job instant link dial messageId ciphertext =>
    refine (h.rewires (onLink_rewires link line)).rewires (job_rewires fun hnone => hfresh ?_)
    exact Option.map_eq_none_iff.mp hnone
  | welcome instant link dial syntheticId welcome =>
    refine (h.rewires (onLink_rewires link line)).rewires (welcome_rewires fun hnone => hfresh ?_)
    exact Option.map_eq_none_iff.mp hnone
  | retryTick env link directTimeout fallbackEnabled fetch =>
    exact (h.rewires (onLink_rewires link line)).rewires (retryTick_rewires _ _ _ _ _)
  | keepalive instant link =>
    have hkept : (line.onLink link).Kept := h.rewires (onLink_rewires link line)
    have honly (conn : Connection) (hconn : (line.onLink link).actor.conn = some conn) :
        conn = link := by
      obtain ⟨_, -, hlink⟩ := Option.map_eq_some_iff.mp hconn
      exact hlink.symm
    refine hkept.keepalive honly fun hsome => hfresh ?_
    rw [onLink, Option.isSome_map] at hsome
    exact hsome
  | replaceConn instant conn =>
    exact h.rewires ⟨rfl, fun _ => .inr rfl⟩
  | received instant link received ackOk answer =>
    exact (h.rewires (onLink_rewires link line)).receive instant received ackOk answer

theorem not_justified_append (h : ∀ at_, ¬Unanswered log serial at_) :
    ¬Justified (log ++ [.silent serial instant]) := by
  intro hjustified
  obtain ⟨at_, hping, -⟩ := hjustified log serial instant [] rfl
  exact h at_ hping

def New (line : Line) : Prop := line.log = [] ∧ line.actor.awaitingPongSince = none

theorem New.kept (h : line.New) : line.Kept := by
  obtain ⟨hlog, hawaiting⟩ := h
  refine ⟨?_, fun _ at_ hat => ?_⟩
  · rw [hlog]
    exact fun earlier _ _ later hnil => by simp at hnil
  · rw [hawaiting] at hat
    cases hat

end Line

/-- In a run whose dials for jobs and Welcomes find no Pong awaited, and whose first Pings are
transmitted, a connection is dropped for its silence only after a Ping on it that was not answered
until the deadline. -/
theorem dropped_for_silence (peer : PublicKey) (line : Line) (hnew : line.New)
    (events : List LineEvent) (hfresh : Meets (Line.step peer) Line.Fresh line events) :
    Along (Line.step peer) (fun line => Line.Justified line.log) line events := by
  have hkept : Along (Line.step peer) Line.Kept line events :=
    along_of_meets (fun _ _ h hfresh => h.step hfresh) hnew.kept hfresh
  exact hkept.imp fun _ h => h.justified

def openLine : Line := ⟨⟨some openConn, .empty, 0, none, none, none, 0⟩, .empty, none, 0, 0, []⟩

/-- A Ping is answered, the next one is not, and the line is dropped a minute later. -/
def silentPeer : List LineEvent :=
  [.keepalive 60000 openConn, .received 60100 openConn (.frame .pong) true none,
    .keepalive 120000 openConn, .keepalive 180000 openConn]

theorem silent_peer_dropped :
    openLine.New ∧ Meets (Line.step (.fill 32 1)) Line.Fresh openLine silentPeer ∧
      Along (Line.step (.fill 32 1)) (fun line => Line.Justified line.log) openLine silentPeer ∧
      (silentPeer.foldl (Line.step (.fill 32 1)) openLine).log =
        [.ping 0 60000 true, .pong 0, .ping 0 120000 true, .silent 0 180000] := by
  have hnew : openLine.New := ⟨rfl, rfl⟩
  have hfresh : Meets (Line.step (.fill 32 1)) Line.Fresh openLine silentPeer :=
    ⟨fun _ _ _ => by decide +kernel, trivial, fun _ _ _ => by decide +kernel,
      fun _ _ _ => by decide +kernel, trivial⟩
  exact ⟨hnew, hfresh, dropped_for_silence (.fill 32 1) openLine hnew silentPeer hfresh,
    by decide +kernel⟩

/-- A Ping goes out, the link breaks when a message is sent, and the next message dials again. -/
def brokenLink : List LineEvent :=
  [.keepalive 60000 openConn, .job 70000 ⟨fun _ => false⟩ none (.fill 16 5) [1],
    .job 110000 openConn (some openConn) (.fill 16 5) [1], .keepalive 120000 openConn]

/-- The new connection is dropped ten seconds after it was dialled, although no Ping was sent on
it. -/
theorem fresh_connection_dropped :
    (brokenLink.foldl (Line.step (.fill 32 1)) openLine).log =
        [.ping 0 60000 true, .silent 1 120000] ∧
      ¬Line.Justified (brokenLink.foldl (Line.step (.fill 32 1)) openLine).log := by
  have hlog : (brokenLink.foldl (Line.step (.fill 32 1)) openLine).log =
      [.ping 0 60000 true, .silent 1 120000] := by decide +kernel
  have hnone (at_ : Nat) : ¬Line.Unanswered [.ping 0 60000 true] 1 at_ := by
    intro hping
    have hmem := hping.mem
    simp at hmem
  refine ⟨hlog, ?_⟩
  rw [hlog]
  exact Line.not_justified_append hnone

end Skattr.Core.Delivery
