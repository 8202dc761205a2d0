import Skattr.Core.Daemon.Logs
import Skattr.Lib.Run

/-!
# Following the log

A client follows the log with `TailLogs`: each call asks for the records from a number on, and the
reply has the number to go on with. Any thread of the daemon may log meanwhile. It draws the number
of its record from a counter and takes the lock of the ring afterwards, so that threads may come to
the lock in another order than to the counter. A record that comes late is behind the cursor of a
client that has seen a later one, and a ring out of order is handed out as it is, with a cursor that
goes back (`records_missed_or_repeated`).

`log_tail_complete` says that a client misses nothing, and gets nothing twice or out of order, in
every run in which the records come to the lock in the order of their numbers.
-/

namespace Skattr.Core.Daemon

open Lib

/-- A client that follows the log: the cursor of its next call and what it has received. -/
structure Follower where
  sinceSeq : Option Nat
  received : List LogRecord
  deriving DecidableEq

/-- The log, the records that have a number and wait for the lock, and the clients. -/
structure LogWorld where
  sink : LogSink
  waiting : List LogRecord
  followers : Nat → Follower

/-- A thread draws a number, a waiting thread gets the lock, or a client calls `TailLogs`. -/
inductive LogAction where
  | draw (now : Nat) (level : LogLevel) (target message : String)
  | append (i : Nat)
  | tail (client limit : Nat) (positive : 0 < limit)

def LogAction.isTailOf (client : Nat) : LogAction → Bool
  | .tail other _ _ => other = client
  | _ => false

def Follower.tailLogs (follower : Follower) (sink : LogSink) (limit : Nat) : Follower :=
  let (records, next) := sink.snapshot follower.sinceSeq limit
  ⟨some next, follower.received ++ records⟩

def Follower.cursor (follower : Follower) : Nat := follower.sinceSeq.getD 0

namespace LogWorld

def new : LogWorld := ⟨.new, [], fun _ => ⟨none, []⟩⟩

def step (world : LogWorld) : LogAction → LogWorld
  | .draw now level target message =>
    let (seq, sink) := world.sink.draw
    { world with
      sink := sink
      waiting := world.waiting ++ [⟨seq, now, level, target, message⟩] }
  | .append i =>
    match world.waiting[i]? with
    | none => world
    | some record =>
      { world with sink := world.sink.append record, waiting := world.waiting.eraseIdx i }
  | .tail client limit _ =>
    { world with
      followers := Function.update world.followers client
        ((world.followers client).tailLogs world.sink limit) }

def InOrder (world : LogWorld) : LogAction → Prop
  | .append i => ∀ record, world.waiting[i]? = some record →
      ∀ other ∈ world.waiting, record.seq ≤ other.seq
  | _ => True

end LogWorld

def Increasing (records : List LogRecord) : Prop :=
  records.Pairwise fun earlier later => earlier.seq < later.seq

/-! ### A page of an ordered ring -/

/-- What a page of the records from a number on is. -/
structure Page (ring : List LogRecord) (start : Nat) (records : List LogRecord) (next : Nat) :
    Prop where
  increasing : Increasing records
  within : ∀ record ∈ records, record ∈ ring ∧ start ≤ record.seq ∧ record.seq < next
  complete : ∀ record ∈ ring, start ≤ record.seq → record.seq < next → record ∈ records
  next : (records = [] ∧ next = start) ∨ ∃ last ∈ ring, start ≤ last.seq ∧ next = last.seq + 1

variable {ring records : List LogRecord} {start next : Nat}

theorem Page.start_le (h : Page ring start records next) : start ≤ next := by
  rcases h.next with ⟨-, rfl⟩ | ⟨last, -, hle, rfl⟩
  · exact Nat.le_refl _
  · omega

theorem Page.next_le {bound : Nat} (h : Page ring start records next) (hstart : start ≤ bound)
    (hring : ∀ record ∈ ring, record.seq < bound) : next ≤ bound := by
  rcases h.next with ⟨-, rfl⟩ | ⟨last, hlast, -, rfl⟩
  · exact hstart
  · exact hring last hlast

variable {sink : LogSink} {record : LogRecord}

theorem LogSink.snapshot_page (hring : Increasing sink.ring) (sinceSeq : Option Nat)
    (limit : Nat) :
    Page sink.ring (sinceSeq.getD 0) (sink.snapshot sinceSeq limit).1
      (sink.snapshot sinceSeq limit).2 := by
  unfold snapshot
  dsimp only
  set start := sinceSeq.getD 0
  set rest := sink.ring.filter fun record => record.seq ≥ start with hrest
  have hmem (record : LogRecord) : record ∈ rest ↔ record ∈ sink.ring ∧ start ≤ record.seq := by
    rw [hrest, List.mem_filter, decide_eq_true_iff]
  have hordered : Increasing rest := hring.sublist List.filter_sublist
  rw [← List.take_append_drop (min limit 1000) rest] at hordered
  obtain ⟨hpage, -, hbehind⟩ := List.pairwise_append.mp hordered
  rcases List.eq_nil_or_concat' (rest.take (min limit 1000)) with hnil | ⟨earlier, last, hlast⟩
  · rw [hnil]
    refine ⟨.nil, fun _ hnone => (nomatch hnone), fun record _ hle hlt => ?_, .inl ⟨rfl, rfl⟩⟩
    exact absurd hlt (Nat.not_lt.mpr hle)
  · have hin : last ∈ rest.take (min limit 1000) := by
      rw [hlast]
      exact List.mem_concat_self
    have hnext : (rest.take (min limit 1000)).getLast?.elim start (fun record => record.seq + 1) =
        last.seq + 1 := by
      rw [hlast, List.getLast?_concat]
      rfl
    rw [hnext]
    refine ⟨hpage, fun record hrecord => ?_, fun record hrecord hle hlt => ?_, .inr ⟨last, ?_⟩⟩
    · obtain ⟨hring, hle⟩ := (hmem record).mp (List.mem_of_mem_take hrecord)
      refine ⟨hring, hle, ?_⟩
      rw [hlast] at hpage hrecord
      rcases List.mem_append.mp hrecord with hearlier | hsame
      · have hlt := (List.pairwise_append.mp hpage).2.2 record hearlier last List.mem_cons_self
        omega
      · rw [List.mem_singleton.mp hsame]
        omega
    · have hrest := (hmem record).mpr ⟨hrecord, hle⟩
      rw [← List.take_append_drop (min limit 1000) rest] at hrest
      rcases List.mem_append.mp hrest with hpage | hdrop
      · exact hpage
      · have hlast := hbehind last hin record hdrop
        omega
    · obtain ⟨hring, hle⟩ := (hmem last).mp (List.mem_of_mem_take hin)
      exact ⟨hring, hle, rfl⟩

theorem LogSink.snapshot_ne_nil {sinceSeq : Option Nat} {limit : Nat} (hrecord : record ∈ sink.ring)
    (hle : sinceSeq.getD 0 ≤ record.seq) (hlimit : 0 < limit) :
    (sink.snapshot sinceSeq limit).1 ≠ [] := by
  intro hnil
  rcases List.take_eq_nil_iff.mp hnil with hzero | hnone
  · omega
  · have hmem : record ∈ sink.ring.filter fun record => record.seq ≥ sinceSeq.getD 0 :=
      List.mem_filter.mpr ⟨hrecord, decide_eq_true hle⟩
    rw [hnone] at hmem
    cases hmem

/-! ### What a follower has -/

namespace LogWorld

variable {world : LogWorld} {client : Nat}

/-- A follower has every record of the ring that its cursor has passed, and only these; the records
that are still to come are ahead of it. -/
structure Follows (sink : LogSink) (waiting : List LogRecord) (follower : Follower) : Prop where
  increasing : Increasing follower.received
  behind : ∀ record ∈ follower.received, record.seq < follower.cursor
  passed : ∀ record ∈ sink.ring, record.seq < follower.cursor → record ∈ follower.received
  ahead : ∀ record ∈ waiting, follower.cursor ≤ record.seq
  bounded : follower.cursor ≤ sink.nextSeq

/-- What holds after every action that meets the condition. -/
structure Ordered (world : LogWorld) : Prop where
  increasing : Increasing (world.sink.ring ++ world.waiting)
  numbered : ∀ record ∈ world.sink.ring ++ world.waiting, record.seq < world.sink.nextSeq
  follows : ∀ client, Follows world.sink world.waiting (world.followers client)

theorem new_ordered : new.Ordered where
  increasing := .nil
  numbered := fun _ hnone => (nomatch hnone)
  follows := fun _ => ⟨.nil, fun _ hnone => (nomatch hnone), fun _ hnone => (nomatch hnone),
    fun _ hnone => (nomatch hnone), Nat.zero_le _⟩

theorem Ordered.draw (h : world.Ordered) (now : Nat) (level : LogLevel)
    (target message : String) : (world.step (.draw now level target message)).Ordered := by
  refine ⟨?_, fun record hrecord => ?_, fun client => ?_⟩
  · show Increasing (world.sink.ring ++ (world.waiting ++ [_]))
    rw [← List.append_assoc]
    refine List.pairwise_append.mpr ⟨h.increasing, List.pairwise_singleton _ _, ?_⟩
    intro earlier hearlier later hlater
    rw [List.mem_singleton.mp hlater]
    exact h.numbered earlier hearlier
  · show record.seq < world.sink.nextSeq + 1
    rw [step, ← List.append_assoc, List.mem_append, List.mem_singleton] at hrecord
    rcases hrecord with hold | rfl
    · exact Nat.lt_succ_of_lt (h.numbered record hold)
    · exact Nat.lt_succ_self _
  · have hfollows := h.follows client
    refine ⟨hfollows.increasing, hfollows.behind, hfollows.passed, fun record hrecord => ?_,
      Nat.le_succ_of_le hfollows.bounded⟩
    rw [step, List.mem_append, List.mem_singleton] at hrecord
    rcases hrecord with hold | rfl
    · exact hfollows.ahead record hold
    · exact hfollows.bounded

theorem Ordered.waiting_eq (h : world.Ordered) {i : Nat} (hi : world.waiting[i]? = some record)
    (hfirst : ∀ other ∈ world.waiting, record.seq ≤ other.seq) :
    ∃ rest, world.waiting = record :: rest ∧ world.waiting.eraseIdx i = rest := by
  have hwaiting := (List.pairwise_append.mp h.increasing).2.1
  cases hcons : world.waiting with
  | nil =>
    rw [hcons] at hi
    cases hi
  | cons first rest =>
    rw [hcons] at hi hfirst hwaiting
    cases i with
    | zero =>
      cases hi
      exact ⟨rest, rfl, rfl⟩
    | succ i =>
      have hlt := (List.pairwise_cons.mp hwaiting).1 record (List.mem_of_getElem? hi)
      exact absurd (hfirst first List.mem_cons_self) (Nat.not_le.mpr hlt)

theorem evict_sublist (sink : LogSink) : sink.evict.Sublist sink.ring := by
  unfold LogSink.evict
  split
  · exact List.drop_sublist _ _
  · exact .refl _

theorem Ordered.append (h : world.Ordered) {i : Nat} (horder : world.InOrder (.append i)) :
    (world.step (.append i)).Ordered := by
  unfold step
  dsimp only
  split
  · exact h
  next record hi =>
  obtain ⟨rest, hwaiting, hrest⟩ := h.waiting_eq hi (horder _ hi)
  have hsublist : (world.sink.evict ++ [record] ++ rest).Sublist
      (world.sink.ring ++ world.waiting) := by
    rw [hwaiting, List.append_assoc]
    exact (evict_sublist world.sink).append_right _
  rw [hrest]
  refine ⟨h.increasing.sublist hsublist, fun other hother =>
    h.numbered other (hsublist.subset hother), fun client => ?_⟩
  have hfollows := h.follows client
  have hahead := hfollows.ahead
  rw [hwaiting] at hahead
  refine ⟨hfollows.increasing, hfollows.behind, fun other hother hlt => ?_,
    fun other hother => hahead other (List.mem_cons_of_mem _ hother), hfollows.bounded⟩
  rcases List.mem_append.mp hother with hold | hnew
  · exact hfollows.passed other ((evict_sublist world.sink).subset hold) hlt
  · rw [List.mem_singleton.mp hnew] at hlt
    exact absurd hlt (Nat.not_lt.mpr (hahead record List.mem_cons_self))

theorem Ordered.tailLogs (h : world.Ordered) {follower : Follower}
    (hfollows : Follows world.sink world.waiting follower) (limit : Nat) :
    Follows world.sink world.waiting (follower.tailLogs world.sink limit) := by
  obtain ⟨hring, hwaiting, hbetween⟩ := List.pairwise_append.mp h.increasing
  have hpage := LogSink.snapshot_page hring follower.sinceSeq limit
  refine ⟨?_, fun record hrecord => ?_, fun record hrecord hlt => ?_, fun record hrecord =>
    hpage.next_le (hfollows.ahead record hrecord) fun last hlast =>
      hbetween last hlast record hrecord,
    hpage.next_le hfollows.bounded fun last hlast =>
      h.numbered last (List.mem_append_left _ hlast)⟩
  · refine List.pairwise_append.mpr ⟨hfollows.increasing, hpage.increasing, ?_⟩
    intro earlier hearlier later hlater
    exact Nat.lt_of_lt_of_le (hfollows.behind earlier hearlier) (hpage.within later hlater).2.1
  · rcases List.mem_append.mp hrecord with hold | hnew
    · exact Nat.lt_of_lt_of_le (hfollows.behind record hold) hpage.start_le
    · exact (hpage.within record hnew).2.2
  · by_cases hold : record.seq < follower.cursor
    · exact List.mem_append_left _ (hfollows.passed record hrecord hold)
    · exact List.mem_append_right _ (hpage.complete record hrecord (Nat.le_of_not_lt hold) hlt)

theorem Ordered.step (h : world.Ordered) {action : LogAction} (horder : world.InOrder action) :
    (world.step action).Ordered := by
  cases action with
  | draw now level target message => exact h.draw now level target message
  | append i => exact h.append horder
  | tail client limit positive =>
    refine ⟨h.increasing, h.numbered, fun other => ?_⟩
    show Follows world.sink world.waiting (Function.update world.followers client _ other)
    by_cases hsame : other = client
    · rw [hsame, Function.update_self]
      exact h.tailLogs (h.follows client) limit
    · rw [Function.update_of_ne hsame]
      exact h.follows other

/-! ### What a follower reaches -/

theorem Ordered.cursor_tailLogs (h : world.Ordered) (follower : Follower)
    (hrecord : record ∈ world.sink.ring) {limit : Nat} (hlimit : 0 < limit) :
    min (follower.cursor + 1) (record.seq + 1) ≤ (follower.tailLogs world.sink limit).cursor := by
  have hpage := LogSink.snapshot_page (List.pairwise_append.mp h.increasing).1 follower.sinceSeq
    limit
  by_cases hle : follower.cursor ≤ record.seq
  · rcases hpage.next with ⟨hnil, -⟩ | ⟨last, -, hlast, hnext⟩
    · exact absurd hnil (LogSink.snapshot_ne_nil hrecord hle hlimit)
    · have hcursor : (follower.tailLogs world.sink limit).cursor = last.seq + 1 := hnext
      have hstart : follower.cursor ≤ last.seq := hlast
      omega
  · have hstart : follower.cursor ≤ (follower.tailLogs world.sink limit).cursor := hpage.start_le
    omega

theorem Ordered.cursor_step (h : world.Ordered) (client : Nat) (action : LogAction)
    (hrecord : record ∈ world.sink.ring) :
    min ((world.followers client).cursor + if action.isTailOf client then 1 else 0)
        (record.seq + 1) ≤ ((world.step action).followers client).cursor := by
  cases action with
  | draw now level target message => exact Nat.min_le_left _ _
  | append i =>
    have hsame : (world.step (.append i)).followers = world.followers := by
      unfold LogWorld.step
      dsimp only
      split <;> rfl
    rw [hsame]
    exact Nat.min_le_left _ _
  | tail other limit positive =>
    show _ ≤ (Function.update world.followers other _ client).cursor
    by_cases hclient : client = other
    · subst hclient
      rw [Function.update_self, LogAction.isTailOf, decide_eq_true rfl, if_pos rfl]
      exact h.cursor_tailLogs _ hrecord positive
    · rw [Function.update_of_ne hclient]
      rw [LogAction.isTailOf, decide_eq_false (Ne.symm hclient), if_neg Bool.false_ne_true]
      exact Nat.min_le_left _ _

theorem Ordered.cursor_run (h : world.Ordered) {actions : List LogAction} (client : Nat)
    (horder : Meets LogWorld.step InOrder world actions)
    (hstays : Along LogWorld.step (fun world => record ∈ world.sink.ring) world actions) :
    min ((world.followers client).cursor + actions.countP (·.isTailOf client)) (record.seq + 1) ≤
      ((actions.foldl LogWorld.step world).followers client).cursor := by
  induction actions generalizing world with
  | nil => exact Nat.min_le_left _ _
  | cons action actions ih =>
    have hrest := ih (h.step horder.1) horder.2 hstays.2
    have hcall := h.cursor_step client action hstays.1
    rw [List.countP_cons, List.foldl_cons]
    omega

end LogWorld

/-- In a run in which the records come to the lock in the order of their numbers, a client receives
records in this order and none of them twice; and a record that stays in the ring is received when
the client makes more calls than the number of the record is ahead of its cursor. -/
theorem log_tail_complete (client : Nat) (actions : List LogAction)
    (horder : Meets LogWorld.step LogWorld.InOrder .new actions) :
    Along LogWorld.step (fun world => Increasing (world.followers client).received) .new actions ∧
      ∀ earlier later record, actions = earlier ++ later →
        Along LogWorld.step (fun world => record ∈ world.sink.ring)
          (earlier.foldl LogWorld.step .new) later →
        record.seq < ((earlier.foldl LogWorld.step .new).followers client).cursor +
          later.countP (·.isTailOf client) →
        record ∈ ((actions.foldl LogWorld.step .new).followers client).received := by
  have hordered : Along LogWorld.step LogWorld.Ordered .new actions :=
    along_of_meets (fun _ _ h => h.step) LogWorld.new_ordered horder
  refine ⟨hordered.imp fun world h => (h.follows client).increasing, ?_⟩
  rintro earlier later record rfl hstays hcalls
  obtain ⟨hearlier, hlater⟩ := meets_append.mp horder
  have hmiddle : LogWorld.Ordered (earlier.foldl LogWorld.step .new) :=
    (along_of_meets (fun _ _ h => h.step) LogWorld.new_ordered hearlier).last
  have hcursor := hmiddle.cursor_run client hlater hstays
  have hlast := hordered.last
  rw [List.foldl_append] at hlast ⊢
  refine (hlast.follows client).passed record hstays.last ?_
  omega

/-! ### Two threads that log -/

def twoDraws : List LogAction := [.draw 0 .info "core" "first", .draw 0 .info "core" "second"]

def firstRecord : LogRecord := ⟨1, 0, .info, "core", "first"⟩

def secondRecord : LogRecord := ⟨2, 0, .info, "core", "second"⟩

def twoCalls : List LogAction := [.tail 0 10 (Nat.succ_pos 9), .tail 0 10 (Nat.succ_pos 9)]

def orderlyRun : List LogAction := twoDraws ++ [.append 0, .append 0] ++ twoCalls

theorem orderly_log_followed :
    Meets LogWorld.step LogWorld.InOrder .new orderlyRun ∧
      Along LogWorld.step (fun world => Increasing (world.followers 0).received) .new orderlyRun ∧
      ((orderlyRun.foldl LogWorld.step .new).followers 0).received =
        [firstRecord, secondRecord] := by
  have horder : Meets LogWorld.step LogWorld.InOrder .new orderlyRun := by
    refine ⟨trivial, trivial, ?_, ?_, trivial, trivial, trivial⟩
    · rintro record ⟨⟩
      decide
    · rintro record ⟨⟩
      decide
  exact ⟨horder, (log_tail_complete 0 orderlyRun horder).1, by decide +kernel⟩

/-- The second record comes to the lock first, and the client calls between the two: it does not
get the first record in any later call, although that stays in the ring. -/
def lateRun : List LogAction := twoDraws ++ [.append 1, .tail 0 10 (Nat.succ_pos 9), .append 0]

/-- The second record comes to the lock first, and the client calls after both: it gets them in the
wrong order and one of them again. -/
def swappedRun : List LogAction := twoDraws ++ [.append 1, .append 0] ++ twoCalls

theorem records_missed_or_repeated :
    (Along LogWorld.step (fun world => firstRecord ∈ world.sink.ring)
        (lateRun.foldl LogWorld.step .new) twoCalls ∧
      firstRecord.seq < twoCalls.countP (·.isTailOf 0) ∧
      firstRecord ∉ (((lateRun ++ twoCalls).foldl LogWorld.step .new).followers 0).received) ∧
    ((swappedRun.foldl LogWorld.step .new).followers 0).received =
        [secondRecord, firstRecord, secondRecord] ∧
      ¬Increasing ((swappedRun.foldl LogWorld.step .new).followers 0).received := by
  have hreceived : ((swappedRun.foldl LogWorld.step .new).followers 0).received =
      [secondRecord, firstRecord, secondRecord] := by decide +kernel
  refine ⟨⟨⟨?_, ?_, ?_⟩, by decide, by decide +kernel⟩, hreceived, ?_⟩
  · decide +kernel
  · decide +kernel
  · show firstRecord ∈ ((lateRun ++ twoCalls).foldl LogWorld.step .new).sink.ring
    decide +kernel
  · rw [hreceived]
    intro hincreasing
    exact absurd (List.rel_of_pairwise_cons hincreasing List.mem_cons_self) (by decide)

end Skattr.Core.Daemon
