import Skattr.Core.Daemon.History
import Skattr.Core.Daemon.Logs
import Skattr.Core.Delivery.FrameSize

/-!
# Replies over the IPC connection

The replies of `RecentMessages`, `ExportHistory` and `TailLogs` are as long as the records in
them. The encoder refuses a frame that is longer than the cap, and the connection handler takes
that for a lost client: it leaves the loop and sends only the terminal frame. The page limits
count records, not bytes.

`replySize` adds up what a page takes from the stored rows, the log records and the limit of the
request. `answered_iff_fits` says that every command that is executed on a connection with a reading
client is answered, once and before the terminal frame, exactly when no page is longer than the cap.
`long_export_unanswered` is an export that is never answered.
-/

namespace Skattr.Core.Daemon

open Lib Lib.Cbor

def LogLevel.toCbor : LogLevel → Bytes
  | .trace => text "trace"
  | .debug => text "debug"
  | .info => text "info"
  | .warn => text "warn"
  | .error => text "error"

def LogRecord.toCbor (record : LogRecord) : Bytes :=
  Cbor.map [("seq", uint record.seq),
    ("ts_unix_ms", uint record.tsUnixMs),
    ("level", record.level.toCbor),
    ("target", text record.target),
    ("message", text record.message)]

end Skattr.Core.Daemon

namespace Skattr.Core.Daemon.History

open Lib Lib.Cbor Ipc
open Delivery (letters utf8ByteSize_letters)

/-! ### Encodings -/

def hexDigit (n : UInt8) : UInt8 := if n < 10 then 48 + n else 87 + n

def hexText (bs : Bytes) : Bytes :=
  head 3 (2 * bs.length) ++ (bs.map fun b => [hexDigit (b / 16), hexDigit (b % 16)]).flatten

def optionalCbor {α : Type} (encode : α → Bytes) : Option α → Bytes
  | none => [0xf6]
  | some a => encode a

def MessageDirection.toCbor : MessageDirection → Bytes
  | .incoming => text "incoming"
  | .outgoing => text "outgoing"

def MessageRecord.toCbor (record : MessageRecord) : Bytes :=
  Cbor.map [("row_id", int record.rowId),
    ("message_id", hexText record.messageId.bytes),
    ("contact", byteSeq record.contact.bytes),
    ("direction", record.direction.toCbor),
    ("kind", record.kind.toCbor),
    ("mls_generation", uint record.mlsGeneration),
    ("ts_daemon_recv", uint record.tsDaemonRecv),
    ("ts_envelope", int record.tsEnvelope),
    ("delivered_at", optionalCbor uint record.deliveredAt),
    ("dismissed_at", optionalCbor uint record.dismissedAt),
    ("failed_reason", optionalCbor text record.failedReason)]

inductive PageResult where
  | history (reply : HistoryReply)
  | logs (records : List LogRecord) (nextSinceSeq : Nat)
  deriving DecidableEq

def taggedCbor (tag : String) (data : Bytes) : Bytes :=
  Cbor.map [("result", text tag), ("data", data)]

def pageCbor (records : List Bytes) (cursorName : String) (cursor : Bytes) : Bytes :=
  Cbor.map [("records", array records), (cursorName, cursor)]

def PageResult.toCbor : PageResult → Bytes
  | .history (.messages records) => taggedCbor "messages" (array (records.map MessageRecord.toCbor))
  | .history (.messagesPage records next) =>
    taggedCbor "messages_page"
      (pageCbor (records.map MessageRecord.toCbor) "next_before_id" (optionalCbor int next))
  | .history (.exportPage records next) =>
    taggedCbor "export_page"
      (pageCbor (records.map MessageRecord.toCbor) "next_after_id" (optionalCbor int next))
  | .logs records next =>
    taggedCbor "logs" (pageCbor (records.map LogRecord.toCbor) "next_since_seq" (uint next))

/-- The response frame's body. An unknown contact is the only error of the three commands. -/
def responseCbor : Except CoreError PageResult → Bytes
  | .ok result => Cbor.map [("resp", text "ok"), ("data", result.toCbor)]
  | .error _ =>
    Cbor.map [("resp", text "err"),
      ("data", Cbor.map [("err", text "daemon"),
        ("data", Cbor.map [("kind", text "contact_not_found")])])]

/-- The size of a page, from the sizes of its records, with its cursor of `cursor` bytes and `fixed`
bytes of tags. -/
def pageSize (fixed : Nat) (records : List Nat) (cursor : Nat) : Nat :=
  fixed + headSize records.length + records.sum + cursor

def cursorSize (next : Option Int) : Nat := (optionalCbor int next).length

def recordSizes (records : List MessageRecord) : List Nat :=
  records.map fun record => record.toCbor.length

def logSizes (records : List LogRecord) : List Nat := records.map fun record => record.toCbor.length

def responseSize : Except CoreError PageResult → Nat
  | .ok (.history (.messages records)) => pageSize 36 (recordSizes records) 0
  | .ok (.history (.messagesPage records next)) =>
    pageSize 65 (recordSizes records) (cursorSize next)
  | .ok (.history (.exportPage records next)) => pageSize 62 (recordSizes records) (cursorSize next)
  | .ok (.logs records next) => pageSize 56 (logSizes records) (headSize next)
  | .error _ => 56

theorem length_taggedCbor (tag : String) (data : Bytes) :
    (taggedCbor tag data).length =
      13 + (headSize tag.utf8ByteSize + tag.utf8ByteSize) + data.length := by
  simp only [taggedCbor, length_map, List.map_cons, List.map_nil, List.sum_cons, List.sum_nil,
    length_text]
  show 1 + (1 + 6 + (headSize _ + _) + (1 + 4 + _ + 0)) = _
  omega

theorem length_pageCbor (records : List Bytes) (cursorName : String) (cursor : Bytes) :
    (pageCbor records cursorName cursor).length =
      9 + (headSize records.length + (records.map List.length).sum) +
        (headSize cursorName.utf8ByteSize + cursorName.utf8ByteSize) + cursor.length := by
  simp only [pageCbor, length_map, List.map_cons, List.map_nil, List.sum_cons, List.sum_nil,
    length_text, length_array]
  show 1 + (1 + 7 + (headSize _ + _) + (headSize _ + _ + _ + 0)) = _
  omega

variable (outcome : Except CoreError PageResult)

theorem length_responseCbor : (responseCbor outcome).length = responseSize outcome := by
  have hok : ∀ result : PageResult,
      (responseCbor (.ok result)).length = 14 + result.toCbor.length := by
    intro result
    simp only [responseCbor, length_map, List.map_cons, List.map_nil, List.sum_cons, List.sum_nil,
      length_text]
    show 1 + (1 + 4 + (1 + 2) + (1 + 4 + _ + 0)) = _
    omega
  cases outcome with
  | error e => rfl
  | ok result =>
    rw [hok]
    cases result with
    | history reply =>
      cases reply with
      | messages records =>
        simp only [PageResult.toCbor, length_taggedCbor, length_array, responseSize, pageSize,
          recordSizes, List.map_map, Function.comp_def, List.length_map]
        show 14 + (13 + (1 + 8) + (headSize _ + _)) = _
        omega
      | messagesPage records next =>
        simp only [PageResult.toCbor, length_taggedCbor, length_pageCbor, responseSize, pageSize,
          recordSizes, cursorSize, List.map_map, Function.comp_def, List.length_map]
        show 14 + (13 + (1 + 13) + (9 + (headSize _ + _) + (1 + 14) + _)) = _
        omega
      | exportPage records next =>
        simp only [PageResult.toCbor, length_taggedCbor, length_pageCbor, responseSize, pageSize,
          recordSizes, cursorSize, List.map_map, Function.comp_def, List.length_map]
        show 14 + (13 + (1 + 11) + (9 + (headSize _ + _) + (1 + 13) + _)) = _
        omega
    | logs records next =>
      simp only [PageResult.toCbor, length_taggedCbor, length_pageCbor, length_uint, responseSize,
        pageSize, logSizes, List.map_map, Function.comp_def, List.length_map]
      show 14 + (13 + (1 + 4) + (9 + (headSize _ + _) + (1 + 14) + _)) = _
      omega

theorem MessageRecord.kind_le_length_toCbor (record : MessageRecord) :
    record.kind.toCbor.length ≤ record.toCbor.length := by
  simp only [MessageRecord.toCbor, length_map, List.map_cons, List.map_nil, List.sum_cons]
  omega

/-! ### The commands -/

inductive PageCommand where
  | recentMessages (contact : Option PublicKey) (limit : UInt32) (beforeId : Option Int)
      (paged : Bool)
  | exportHistory (contact : PublicKey) (afterId : Option Int) (limit : UInt32)
  | tailLogs (sinceSeq : Option Nat) (limit : UInt32)
  deriving DecidableEq

structure DaemonView where
  archive : Archive
  logs : LogSink

def tailLogs (logs : LogSink) (sinceSeq : Option Nat) (limit : UInt32) : PageResult :=
  let (records, nextSinceSeq) := logs.snapshot sinceSeq limit.toNat
  .logs records nextSinceSeq

def DaemonView.execute (env : HistoryEnv) (view : DaemonView) :
    PageCommand → Except CoreError PageResult
  | .recentMessages contact limit beforeId paged =>
    (recentMessages env view.archive contact limit beforeId paged).map .history
  | .exportHistory contact afterId limit =>
    (exportHistory env view.archive contact afterId limit).map .history
  | .tailLogs sinceSeq limit => .ok (tailLogs view.logs sinceSeq limit)

/-! ### The size of a page -/

/-- The size of the page that some rows of a contact make. Rows that do not decode are left out. -/
def HistoryEnv.rowsSize (env : HistoryEnv) (fixed : Nat) (peer : PublicKey)
    (rows : List StoredMessage) (cursor : Nat) : Nat :=
  pageSize fixed (rows.filterMap fun row => (env.record peer row).map fun record =>
    record.toCbor.length) cursor

def lastId (full : Bool) (rows : List StoredMessage) : Option Int :=
  if full then rows.getLast?.map StoredMessage.id else none

/-- The size of the reply to a command, from the rows that are stored for the contact, the records
of the log and the limit of the command. -/
def DaemonView.replySize (env : HistoryEnv) (view : DaemonView) : PageCommand → Nat
  | .recentMessages none _ _ _ => 56
  | .recentMessages (some peer) limit beforeId paged =>
    match view.archive.groupOf peer with
    | .ok groupId =>
      let rows := (view.archive.messages.newest groupId beforeId).take limit.toNat
      let full := rows.length = limit.toNat ∧ ∀ row ∈ rows, (env.record peer row).isSome
      if paged then env.rowsSize 65 peer rows (cursorSize (lastId full rows))
      else env.rowsSize 36 peer rows 0
    | .error _ => 56
  | .exportHistory peer afterId limit =>
    match view.archive.groupOf peer with
    | .ok groupId =>
      let lim := min limit.toNat EXPORT_PAGE_MAX
      let rows := (view.archive.messages.oldest groupId afterId).take lim
      env.rowsSize 62 peer rows (cursorSize (lastId (rows.length = lim ∧ 0 < lim) rows))
    | .error _ => 56
  | .tailLogs sinceSeq limit =>
    let records := (view.logs.ring.filter fun record => record.seq ≥ sinceSeq.getD 0).take
      (min limit.toNat 1000)
    pageSize 56 (logSizes records)
      (headSize (records.getLast?.elim (sinceSeq.getD 0) fun record => record.seq + 1))

theorem recordSizes_filterMap (env : HistoryEnv) (peer : PublicKey) (rows : List StoredMessage) :
    recordSizes (rows.filterMap (env.record peer)) = rows.filterMap fun row =>
      (env.record peer row).map fun record => record.toCbor.length := by
  rw [recordSizes, List.map_filterMap]

theorem recent_cursor (env : HistoryEnv) (peer : PublicKey) {rows : List StoredMessage}
    {limit : Nat} (hrows : rows.length ≤ limit) :
    (if (rows.filterMap (env.record peer)).length = limit then
      (rows.filterMap (env.record peer)).getLast?.map MessageRecord.rowId else none) =
      lastId (rows.length = limit ∧ ∀ row ∈ rows, (env.record peer row).isSome) rows := by
  have hle := List.length_filterMap_le (env.record peer) rows
  have hall : (rows.filterMap (env.record peer)).length = rows.length ↔
      ∀ row ∈ rows, (env.record peer row).isSome := by
    rw [List.length_filterMap_eq_countP, List.countP_eq_length]
  unfold lastId
  by_cases hfull : (rows.filterMap (env.record peer)).length = limit
  · have hlength : (rows.filterMap (env.record peer)).length = rows.length := by omega
    rw [if_pos hfull, if_pos (decide_eq_true ⟨by omega, hall.mp hlength⟩),
      Paging.getLast?_filterMap hlength]
    cases hlast : rows.getLast? with
    | none => rfl
    | some row =>
      obtain ⟨record, hrecord⟩ := Option.isSome_iff_exists.mp
        (hall.mp hlength row (List.mem_of_getLast? hlast))
      simp [hrecord, HistoryEnv.record_rowId hrecord]
  · rw [if_neg hfull, if_neg]
    intro h
    obtain ⟨hlength, hsome⟩ := of_decide_eq_true h
    exact hfull ((hall.mpr hsome).trans hlength)

theorem responseSize_execute (env : HistoryEnv) (view : DaemonView) (cmd : PageCommand) :
    responseSize (view.execute env cmd) = view.replySize env cmd := by
  cases cmd with
  | recentMessages contact limit beforeId paged =>
    cases contact with
    | none => rfl
    | some peer =>
      simp only [DaemonView.execute, recentMessages, DaemonView.replySize]
      cases view.archive.groupOf peer with
      | error e => rfl
      | ok groupId =>
        have hcursor := recent_cursor env peer (List.length_take_le limit.toNat
          (view.archive.messages.newest groupId beforeId))
        have hsizes := recordSizes_filterMap env peer
          ((view.archive.messages.newest groupId beforeId).take limit.toNat)
        simp only [HistoryEnv.rowsSize, ← hsizes, ← hcursor]
        cases beforeId <;> cases paged <;> rfl
  | exportHistory peer afterId limit =>
    simp only [DaemonView.execute, exportHistory, DaemonView.replySize, HistoryEnv.rowsSize,
      ← recordSizes_filterMap]
    cases view.archive.groupOf peer with
    | error e => rfl
    | ok groupId =>
      simp only [lastId, decide_eq_true_eq]
      rfl
  | tailLogs sinceSeq limit => rfl

/-! ### The connection -/

def ReplyFits (outcome : Except CoreError PageResult) : Prop :=
  (responseCbor outcome).length ≤ MAX_IPC_BODY

instance (outcome : Except CoreError PageResult) : Decidable (ReplyFits outcome) :=
  inferInstanceAs (Decidable (_ ≤ _))

theorem replyFits_iff : ReplyFits outcome ↔ responseSize outcome ≤ MAX_IPC_BODY := by
  rw [ReplyFits, length_responseCbor]

/-- A request that the reader hands to the handler, with what the daemon holds at that time. -/
structure Turn where
  request : IpcRequest PageCommand
  view : DaemonView
  torStatus : Bool

/-- The client keeps reading, so that a write fails only when the encoder refuses the frame. -/
def Turn.env (env : HistoryEnv) (turn : Turn) : Ipc.Env PageCommand PageResult CoreError where
  execute := turn.view.execute env
  wipe := false
  torStatus := turn.torStatus
  writeOk :=
    match turn.request with
    | .execute cmd => ReplyFits (turn.view.execute env cmd)
    | _ => true
  replayOk := true

def Turn.outcomes (env : HistoryEnv) (turn : Turn) : List (Except CoreError PageResult) :=
  match turn.request with
  | .execute cmd => [turn.view.execute env cmd]
  | _ => []

/-- A connection with the outcomes of the commands that were executed on it. -/
structure Session where
  conn : Conn PageCommand PageResult CoreError
  outcomes : List (Except CoreError PageResult)

def Session.init : Session := ⟨.init, []⟩

def Session.serve (env : HistoryEnv) (session : Session) (turn : Turn) : Session :=
  if session.conn.isOpen then
    { conn := session.conn.handle turn.request (turn.env env)
      outcomes := session.outcomes ++ turn.outcomes env }
  else session

def replyTo : Except CoreError PageResult → IpcResponse PageResult CoreError
  | .ok result => .result result
  | .error e => .err (.executor e)

def isReply : IpcResponse PageResult CoreError → Bool
  | .result _ => true
  | .err (.executor _) => true
  | _ => false

/-- Every executed command was answered once, in order, and before the terminal frame, which a
closed connection ends with. -/
def Session.Answered (session : Session) : Prop :=
  ∃ body, session.conn.written = body ++ (if session.conn.isOpen then [] else [.bye]) ∧
    .bye ∉ body ∧ body.filter isReply = session.outcomes.map replyTo

/-- What is stored makes a reply within the cap for a command that an open connection executes. -/
def Session.Fitting (env : HistoryEnv) (session : Session) (turn : Turn) : Prop :=
  session.conn.isOpen → ∀ cmd, turn.request = .execute cmd →
    turn.view.replySize env cmd ≤ MAX_IPC_BODY

theorem Turn.fits_iff (env : HistoryEnv) (turn : Turn) :
    (∀ outcome ∈ turn.outcomes env, ReplyFits outcome) ↔
      ∀ cmd, turn.request = .execute cmd → turn.view.replySize env cmd ≤ MAX_IPC_BODY := by
  cases hrequest : turn.request <;>
    simp [Turn.outcomes, hrequest, replyFits_iff, responseSize_execute]

/-! ### What a turn writes -/

theorem handle_refused {env : HistoryEnv} {cmd : PageCommand} {view : DaemonView}
    (hrefused : ¬ReplyFits (view.execute env cmd)) (torStatus : Bool)
    (conn : Conn PageCommand PageResult CoreError) :
    (conn.handle (.execute cmd) (Turn.env env ⟨.execute cmd, view, torStatus⟩)).written =
        conn.written ++ [.bye] ∧
      (conn.handle (.execute cmd) (Turn.env env ⟨.execute cmd, view, torStatus⟩)).isOpen =
        false := by
  cases houtcome : view.execute env cmd with
  | ok | error =>
    rw [houtcome] at hrefused
    simp [Conn.handle, Turn.env, houtcome, hrefused, Conn.write, Conn.close]

/-- A turn on an open connection writes frames and then, when it closes the connection, the
terminal frame. A command's reply is among the frames exactly when it fits. -/
theorem written_handle (env : HistoryEnv) (turn : Turn)
    {conn : Conn PageCommand PageResult CoreError} (hopen : conn.isOpen) :
    ∃ added, .bye ∉ added ∧
      (conn.handle turn.request (turn.env env)).written = conn.written ++ added ++
        (if (conn.handle turn.request (turn.env env)).isOpen then [] else [.bye]) ∧
      added.filter isReply =
        ((turn.outcomes env).filter fun outcome => ReplyFits outcome).map replyTo := by
  obtain ⟨request, view, torStatus⟩ := turn
  cases request with
  | execute cmd =>
    by_cases hfits : ReplyFits (view.execute env cmd)
    · refine ⟨[replyTo (view.execute env cmd)], ?_⟩
      cases houtcome : view.execute env cmd with
      | ok result =>
        rw [houtcome] at hfits
        cases hsubscribed : conn.subscribed <;>
          simp [Turn.outcomes, Conn.handle, Turn.env, houtcome, hfits, Conn.write, Conn.close,
            hopen, hsubscribed, replyTo, isReply]
      | error e =>
        rw [houtcome] at hfits
        simp [Turn.outcomes, Conn.handle, Turn.env, houtcome, hfits, Conn.write, Conn.close,
          hopen, replyTo, isReply]
    · obtain ⟨hwritten, hclosed⟩ := handle_refused hfits torStatus conn
      refine ⟨[], List.not_mem_nil, ?_, by simp [Turn.outcomes, hfits]⟩
      rw [hwritten, hclosed, List.append_nil]
      rfl
  | subscribe filter =>
    simp only [Conn.handle, Turn.env, Conn.write, if_true]
    split
    · exact ⟨[.subscribed, .event .torStatusChanged], by simp [Turn.outcomes, isReply]⟩
    · exact ⟨[.subscribed], by simp [Turn.outcomes, isReply]⟩
  | shutdown =>
    exact ⟨[.ok], by simp [Turn.outcomes, Conn.handle, Conn.write, Conn.close, isReply]⟩

theorem Session.serve_answered_iff (env : HistoryEnv) (session : Session) (turn : Turn)
    (h : session.Answered) :
    (session.serve env turn).Answered ↔ session.Fitting env turn := by
  unfold Session.serve Session.Fitting
  split
  · next hopen =>
    obtain ⟨body, hwritten, hbye, hreplies⟩ := h
    rw [if_pos hopen, List.append_nil] at hwritten
    obtain ⟨added, hadded, hnext, hfilter⟩ := written_handle env turn hopen
    rw [hwritten] at hnext
    constructor
    · rintro ⟨next, hwritten', -, hreplies'⟩ -
      refine (turn.fits_iff env).mp fun outcome houtcome => ?_
      -- what stands before the terminal frame is what the turns wrote
      have hbody : next = body ++ added :=
        List.append_cancel_right (hwritten'.symm.trans hnext)
      rw [hbody, List.filter_append, hreplies, hfilter, List.map_append,
        List.append_cancel_left_eq] at hreplies'
      have hlength := congrArg List.length hreplies'
      rw [List.length_map, List.length_map] at hlength
      exact of_decide_eq_true (List.length_filter_eq_length_iff.mp hlength outcome houtcome)
    · intro hfits
      refine ⟨body ++ added, hnext, ?_, ?_⟩
      · rw [List.mem_append, not_or]
        exact ⟨hbye, hadded⟩
      · have hall : ((turn.outcomes env).filter fun outcome => ReplyFits outcome) =
            turn.outcomes env :=
          List.filter_eq_self.mpr fun outcome houtcome =>
            decide_eq_true ((turn.fits_iff env).mpr (hfits hopen) outcome houtcome)
        rw [List.filter_append, hreplies, hfilter, hall, List.map_append]
  · next hclosed => exact ⟨fun _ hopen => absurd hopen hclosed, fun _ => h⟩

/-- Every command that is executed on a connection with a reading client is answered, once and
before the terminal frame, in every state of a run exactly when what is stored makes no page longer
than the cap. -/
theorem answered_iff_fits (env : HistoryEnv) (turns : List Turn) :
    Along (Session.serve env) Session.Answered .init turns ↔
      Meets (Session.serve env) (Session.Fitting env) .init turns := by
  have hinit : Session.Answered .init := ⟨[], rfl, List.not_mem_nil, rfl⟩
  constructor
  · intro halong
    refine meets_of_along ?_ halong halong
    intro session turn h _ hnext
    exact (session.serve_answered_iff env turn h).mp hnext
  · intro hmeets
    refine along_of_meets ?_ hinit hmeets
    intro session turn h hfits
    exact (session.serve_answered_iff env turn h).mpr hfits

/-! ### An export without an answer -/

def longText (id : UInt8) : Envelope := ⟨1, .fill 16 id, 0, none, .text (letters 60000)⟩

def longRow (n : Nat) : StoredMessage :=
  ⟨n + 1, [9], [], "text", some (longText (.ofNat n)).toCbor, 0, none, 0, 0, none, none⟩

theorem longRows_ascending :
    ((List.range 18).map longRow).Pairwise fun row later => row.id < later.id := by
  rw [List.pairwise_map]
  refine List.pairwise_lt_range.imp ?_
  intro n m hlt
  show (n : Int) + 1 < (m : Int) + 1
  omega

theorem longRows_positive : ∀ row ∈ (List.range 18).map longRow, 0 < row.id := by
  intro row hrow
  obtain ⟨n, -, rfl⟩ := List.mem_map.mp hrow
  show 0 < (n : Int) + 1
  omega

def longArchive : Archive where
  groupIds := Table.empty.put (.fill 32 2) [9]
  messages := ⟨(List.range 18).map longRow, longRows_ascending, longRows_positive⟩

/-- Every body decodes; the first byte of the message id stands behind the head of its field. -/
def longEnv : HistoryEnv where
  decode blob := some (longText (blob.getD 8 0))
  myPubkey := .fill 32 1

theorem longArchive_oldest :
    longArchive.messages.oldest [9] none = (List.range 18).map longRow := by
  rw [MessageStore.oldest_eq, List.filter_eq_self.mpr]
  · rfl
  · intro row hrow
    have hpositive := longRows_positive row hrow
    obtain ⟨n, -, rfl⟩ := List.mem_map.mp hrow
    exact decide_eq_true ⟨rfl, hpositive⟩

theorem longEnv_record (peer : PublicKey) (n : Nat) :
    ∃ record, longEnv.record peer (longRow n) = some record ∧ 60000 ≤ record.toCbor.length := by
  refine ⟨_, rfl, ?_⟩
  refine le_trans ?_ (MessageRecord.kind_le_length_toCbor _)
  show 60000 ≤ (Kind.text (letters 60000)).toCbor.length
  rw [Kind.length_toCbor_text, utf8ByteSize_letters]
  omega

def longExport : Turn :=
  ⟨.execute (.exportHistory (.fill 32 2) none 1000), ⟨longArchive, .new⟩, false⟩

theorem sum_le_replySize {env : HistoryEnv} {view : DaemonView} {peer : PublicKey}
    {groupId : GroupId} (hgroup : view.archive.groupOf peer = .ok groupId) (afterId : Option Int)
    (limit : UInt32) :
    (recordSizes (((view.archive.messages.oldest groupId afterId).take
      (min limit.toNat EXPORT_PAGE_MAX)).filterMap (env.record peer))).sum ≤
      view.replySize env (.exportHistory peer afterId limit) := by
  simp only [DaemonView.replySize, hgroup, HistoryEnv.rowsSize, pageSize, ← recordSizes_filterMap]
  omega

theorem longExport_size :
    MAX_IPC_BODY <
      longExport.view.replySize longEnv (.exportHistory (.fill 32 2) none 1000) := by
  have hgroup : longExport.view.archive.groupOf (.fill 32 2) = .ok [9] := by decide
  have hle : _ ≤ longExport.view.replySize longEnv _ := sum_le_replySize hgroup none 1000
  rw [show longExport.view.archive = longArchive from rfl, longArchive_oldest,
    List.take_of_length_le (by decide)] at hle
  have hlong : ∀ size ∈ recordSizes (((List.range 18).map longRow).filterMap
      (longEnv.record (.fill 32 2))), 60000 ≤ size := by
    intro size hsize
    obtain ⟨record, hmem, rfl⟩ := List.mem_map.mp hsize
    obtain ⟨row, hrow, hsome⟩ := List.mem_filterMap.mp hmem
    obtain ⟨n, -, rfl⟩ := List.mem_map.mp hrow
    obtain ⟨other, hother, hother_le⟩ := longEnv_record (.fill 32 2) n
    cases hother.symm.trans hsome
    exact hother_le
  have hsum := List.card_nsmul_le_sum _ 60000 hlong
  have hcount : (((List.range 18).map longRow).filterMap
      (longEnv.record (.fill 32 2))).length = 18 := rfl
  rw [recordSizes, List.length_map, hcount, smul_eq_mul, ← recordSizes] at hsum
  have hcap : MAX_IPC_BODY = 1048576 := rfl
  omega

/-- The export of eighteen long messages is executed and never answered: the client receives only
the terminal frame. -/
theorem long_export_unanswered :
    (Session.serve longEnv .init longExport).conn.executed = [longExport.request] ∧
      (Session.serve longEnv .init longExport).conn.written = [.bye] ∧
      ¬(Session.serve longEnv .init longExport).Answered := by
  have hrefused : ¬Session.Fitting longEnv .init longExport := by
    intro hfits
    exact absurd (hfits rfl _ rfl) (Nat.not_le.mpr longExport_size)
  have hinit : Session.Answered .init := ⟨[], rfl, List.not_mem_nil, rfl⟩
  have hunfit : ¬ReplyFits
      (longExport.view.execute longEnv (.exportHistory (.fill 32 2) none 1000)) :=
    fun hfits => absurd (responseSize_execute longEnv _ _ ▸ (replyFits_iff _).mp hfits)
      (Nat.not_le.mpr longExport_size)
  refine ⟨?_, ?_, fun h => hrefused ((Session.serve_answered_iff _ _ _ hinit).mp h)⟩
  · exact (Conn.handle_spec Conn.init longExport.request (longExport.env longEnv)).2
  · exact (handle_refused hunfit false Conn.init).1

end Skattr.Core.Daemon.History
