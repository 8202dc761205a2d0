import Skattr.Core.Daemon.Redelivery

/-!
# At most one row for each envelope

`receive` checks the timestamp of an envelope, deduplicates it by its seen row and stores it, in one
transaction. Seen rows are swept after a day and messages are pruned by age or number, so the two
tables forget at different times. Over every sequence of receives, sweeps, prunes and restarts a
group still holds one row for an envelope id, and `received_once` says what one more receive does:
it writes the message with its seen row, or nothing.
-/

namespace Skattr.Core.Receiver

open Lib Lib.Fallible Daemon

variable {G : Type}

/-- An envelope that reaches the receiver. Card updates are handled before it. -/
structure Arrival where
  sender : PublicKey
  groupId : GroupId
  envelope : Envelope
  nowMs : Int
  mlsGeneration : Nat
  tsDaemonRecv : Int
  enforceTsWindow : Bool
  budget : Option Nat
  message : envelope.kind.isCardUpdate = false

def Arrival.Timely (arrival : Arrival) : Prop :=
  ¬(arrival.enforceTsWindow ∧ outsideWindow arrival.envelope.ts arrival.nowMs)

def Arrival.messageKey (arrival : Arrival) : GroupId × MessageId :=
  (arrival.groupId, arrival.envelope.id)

def Arrival.seenKey (arrival : Arrival) : PublicKey × MessageId :=
  (arrival.sender, arrival.envelope.id)

def Arrival.row (arrival : Arrival) : MessageRow :=
  ⟨arrival.sender, arrival.envelope, arrival.mlsGeneration, arrival.tsDaemonRecv⟩

def receive (deps : Deps G) (arrival : Arrival) (tables : Tables) :
    Except CoreError ReceiveOutcome × Tables :=
  Pool.transaction arrival.budget
    (receiveInTx deps arrival.sender arrival.groupId arrival.envelope arrival.nowMs
      arrival.mlsGeneration arrival.tsDaemonRecv arrival.enforceTsWindow) tables

/-- Keep the newest messages of a group and delete the rest. Rows are stored in the order of their
row ids. -/
def pruneKeepLast (groupId : GroupId) (keep : Nat) (tables : Tables) : Tables :=
  let newest := (tables.messages.keys.filter (·.1 = groupId)).reverse.take keep
  { tables with
    messages := tables.messages.deleteWhere fun key _ => key.1 = groupId && !newest.contains key }

/-- What happens to the two tables. A sweep or prune whose statement fails does nothing. -/
inductive Action where
  | receive (arrival : Arrival)
  | sweepSeen (cutoff : Int)
  | pruneBefore (groupId : Option GroupId) (beforeTsRecv : Int)
  | pruneKeepLast (groupId : GroupId) (keep : Nat)
  | restart

def step (deps : Deps G) (tables : Tables) : Action → Tables
  | .receive arrival => (receive deps arrival tables).2
  | .sweepSeen cutoff => SeenMessagesRepo.sweepOlderThan cutoff tables
  | .pruneBefore groupId beforeTsRecv =>
    { tables with messages := MessageRepo.pruneBefore groupId beforeTsRecv tables.messages }
  | .pruneKeepLast groupId keep => pruneKeepLast groupId keep tables
  | .restart => tables

/-! ### What a receive does -/

def Records (arrival : Arrival) (before after : Tables) : Prop :=
  ∃ messages seen,
    before.messages.insert arrival.messageKey arrival.row = some messages ∧
    before.seenMessages.insert arrival.seenKey arrival.nowMs = some seen ∧
    after = { before with messages := messages, seenMessages := seen }

variable {arrival : Arrival} {before after tables : Tables} {deps : Deps G}

theorem Records.ne (h : Records arrival before after) : after ≠ before := by
  obtain ⟨messages, seen, hmessages, -, rfl⟩ := h
  intro hsame
  have hrows := congrArg (fun tables => tables.messages.rows.length) hsame
  simp [(Table.insert_eq_some hmessages).2] at hrows

theorem does_receiveInTx {s t : Tables} {outcome : ReceiveOutcome}
    (h : Tx.Does (receiveInTx deps arrival.sender arrival.groupId arrival.envelope arrival.nowMs
      arrival.mlsGeneration arrival.tsDaemonRecv arrival.enforceTsWindow) s outcome t) :
    (outcome = .new ∧ Records arrival s t) ∨ (outcome ≠ .new ∧ t = s) := by
  unfold receiveInTx at h
  split at h
  · obtain ⟨rfl, rfl⟩ := Tx.does_pure h
    exact .inr ⟨by rintro ⟨⟩, rfl⟩
  · obtain ⟨isNew, seen, hseen, hrest⟩ := Tx.does_bind h
    have hstatement := Tx.does_statement hseen
    split at hrest
    · next hnew =>
      obtain ⟨_, _, hensure, hrest⟩ := Tx.does_bind hrest
      obtain ⟨-, rfl⟩ := Tx.does_ensure hensure
      obtain ⟨_, inserted, hinsert, hpure⟩ := Tx.does_bind hrest
      obtain ⟨rfl, rfl⟩ := Tx.does_pure hpure
      obtain ⟨messages, hmessages, rfl⟩ := does_insertMessage hinsert
      cases hstatement
      have hfree : s.seenMessages.get arrival.seenKey = none := of_decide_eq_true hnew
      refine .inl ⟨rfl, messages, s.seenMessages.push arrival.seenKey arrival.nowMs hfree,
        hmessages, dif_pos hfree, ?_⟩
      congr 1
      exact dif_pos hfree
    · next hold =>
      obtain ⟨rfl, rfl⟩ := Tx.does_pure hrest
      cases hstatement
      have hknown : s.seenMessages.get arrival.seenKey ≠ none :=
        fun hfree => hold (decide_eq_true hfree)
      refine .inr ⟨by rintro ⟨⟩, ?_⟩
      show { s with seenMessages := _ } = s
      congr 1
      exact dif_neg hknown

theorem receive_cases {outcome : Except CoreError ReceiveOutcome}
    (h : receive deps arrival before = (outcome, after)) :
    (outcome = .ok .new ∧ Records arrival before after) ∨
      (outcome ≠ .ok .new ∧ after = before) := by
  cases outcome with
  | error e => exact .inr ⟨nofun, Tx.run_error h⟩
  | ok outcome =>
    rcases does_receiveInTx (Tx.run_ok h) with ⟨rfl, hrecords⟩ | ⟨hold, hsame⟩
    · exact .inl ⟨rfl, hrecords⟩
    · exact .inr ⟨fun hnew => hold (Except.ok.inj hnew), hsame⟩

theorem receive_seen (deps : Deps G) (arrival : Arrival) (before : Tables)
    (hfault : ∀ n, arrival.budget = some n → 2 ≤ n) (htimely : arrival.Timely)
    (hseen : before.seenMessages.get arrival.seenKey ≠ none) :
    (receive deps arrival before).1 = .ok .duplicate := by
  have hbudget : arrival.budget ≠ some 0 := fun h => absurd (hfault 0 h) (by omega)
  have hcommit : arrival.budget.map Nat.pred ≠ some 0 := by
    intro h
    obtain ⟨n, hn, hzero⟩ := Option.map_eq_some_iff.mp h
    have := hfault n hn
    simp only [Nat.pred_eq_sub_one] at hzero
    omega
  have hbody : exec (receiveInTx deps arrival.sender arrival.groupId arrival.envelope arrival.nowMs
      arrival.mlsGeneration arrival.tsDaemonRecv arrival.enforceTsWindow) ⟨before, arrival.budget⟩ =
      (.ok .duplicate, ⟨{ before with
        seenMessages := before.seenMessages.insertOrIgnore arrival.seenKey arrival.nowMs },
        arrival.budget.map Nat.pred⟩) := by
    rw [receiveInTx, if_neg htimely, exec_bind, SeenMessagesRepo.insertInTx,
      Tx.exec_statement_ok hbudget rfl]
    have hold : decide (before.seenMessages.get (arrival.sender, arrival.envelope.id) = none) =
        false := decide_eq_false hseen
    simp only [hold]
    rfl
  unfold receive Pool.transaction Tx.run
  rw [hbody]
  simp only [if_neg hcommit]

/-! ### Runs -/

def Keyed (tables : Tables) : Prop :=
  ∀ row ∈ tables.messages.rows, row.1.2 = row.2.envelope.id

theorem Keyed.of_subset (h : Keyed before)
    (hsub : ∀ row ∈ after.messages.rows, row ∈ before.messages.rows) : Keyed after :=
  fun row hrow => h row (hsub row hrow)

theorem Keyed.records (h : Keyed before) (hrecords : Records arrival before after) :
    Keyed after := by
  obtain ⟨messages, seen, hmessages, -, rfl⟩ := hrecords
  intro row hrow
  have hrows : messages.rows = before.messages.rows ++ [(arrival.messageKey, arrival.row)] :=
    (Table.insert_eq_some hmessages).2
  have hmem : row ∈ messages.rows := hrow
  rw [hrows, List.mem_append, List.mem_singleton] at hmem
  rcases hmem with hold | rfl
  · exact h row hold
  · rfl

theorem Keyed.step (deps : Deps G) (action : Action) (h : Keyed tables) :
    Keyed (step deps tables action) := by
  cases action with
  | receive arrival =>
    show Keyed (receive deps arrival tables).2
    rcases hreceive : receive deps arrival tables with ⟨outcome, after⟩
    rcases receive_cases hreceive with ⟨-, hrecords⟩ | ⟨-, rfl⟩
    · exact h.records hrecords
    · exact h
  | sweepSeen | restart => exact h
  | pruneBefore | pruneKeepLast =>
    exact h.of_subset fun row hrow => (Table.mem_deleteWhere.mp hrow).1

def OneRow (tables : Tables) : Prop :=
  ∀ row ∈ tables.messages.rows, ∀ other ∈ tables.messages.rows,
    row.1.1 = other.1.1 → row.2.envelope.id = other.2.envelope.id → row = other

theorem Keyed.oneRow (h : Keyed tables) : OneRow tables := by
  intro row hrow other hother hgroup hid
  refine Table.row_unique hrow hother (Prod.ext hgroup ?_)
  rw [h row hrow, h other hother, hid]

/-- What a receive did, whatever came before it. -/
structure Once (arrival : Arrival) (before after : Tables)
    (outcome : Except CoreError ReceiveOutcome) : Prop where
  oneRow : OneRow after
  together : Records arrival before after ∨ after = before
  new_iff : outcome = .ok .new ↔ Records arrival before after
  repeated : (∀ n, arrival.budget = some n → 2 ≤ n) → arrival.Timely →
    before.seenMessages.get arrival.seenKey ≠ none → outcome = .ok .duplicate

theorem Keyed.once (h : Keyed tables) :
    Once arrival tables (receive deps arrival tables).2 (receive deps arrival tables).1 := by
  have hafter : Keyed (receive deps arrival tables).2 :=
    h.step deps (.receive arrival)
  have hrepeated := receive_seen deps arrival tables
  rcases hreceive : receive deps arrival tables with ⟨outcome, after⟩
  rw [hreceive] at hafter hrepeated
  rcases receive_cases hreceive with ⟨hnew, hrecords⟩ | ⟨hold, hsame⟩
  · exact ⟨hafter.oneRow, .inl hrecords, ⟨fun _ => hrecords, fun _ => hnew⟩, hrepeated⟩
  · refine ⟨hafter.oneRow, .inr hsame, ⟨fun hnew => absurd hnew hold, ?_⟩, hrepeated⟩
    intro hrecords
    exact absurd hsame hrecords.ne

/-- After any sequence of receives, sweeps, prunes and restarts, one more receive writes the message
with its seen row or nothing, reports it as new exactly when it wrote them, and reports a timely
envelope that has a seen row as a duplicate. -/
theorem received_once (deps : Deps G) (actions : List Action) (arrival : Arrival) :
    OneRow (actions.foldl (step deps) Tables.empty) ∧
    Once arrival (actions.foldl (step deps) Tables.empty)
      (receive deps arrival (actions.foldl (step deps) Tables.empty)).2
      (receive deps arrival (actions.foldl (step deps) Tables.empty)).1 := by
  have hempty : Keyed Tables.empty := fun row hrow => nomatch hrow
  have hkeyed : Keyed (actions.foldl (step deps) Tables.empty) :=
    foldl_invariant (fun _ action h => h.step deps action) actions hempty
  exact ⟨hkeyed.oneRow, hkeyed.once⟩

/-- A text message with timestamp 0 that arrives at this time on the direct lane. -/
def textArrival (nowMs : Int) : Arrival :=
  ⟨.fill 32 1, List.replicate 32 7, ⟨1, .fill 16 5, 0, none, .text "hi"⟩, nowMs, 0, nowMs / 1000,
    true, none, rfl⟩

/-- A repeated envelope that arrives two hours late is rejected although its row and its seen row
exist, and one whose seen row was swept is an error although its row exists. -/
theorem repeated_not_duplicate :
    (receive counterDeps (textArrival 7200000)
        ([Action.receive (textArrival 0)].foldl (step counterDeps) Tables.empty)).1 =
      .ok (.rejected "ts outside ±1h window: envelope ts=0, now=7200000") ∧
    ([Action.receive (textArrival 0)].foldl (step counterDeps) Tables.empty).seenMessages.get
      (textArrival 7200000).seenKey = some 0 ∧
    (receive counterDeps (textArrival 1000)
        ([Action.receive (textArrival 0), .sweepSeen 1].foldl (step counterDeps) Tables.empty)).1 =
      .error .duplicateMessage ∧
    ([Action.receive (textArrival 0), .sweepSeen 1].foldl (step counterDeps)
      Tables.empty).messages.get (textArrival 1000).messageKey = some (textArrival 0).row := by
  refine ⟨?_, ?_, ?_, ?_⟩ <;> decide

end Skattr.Core.Receiver
