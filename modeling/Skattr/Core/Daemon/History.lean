import Skattr.Core.Basic
import Skattr.Lib.Paging
import Skattr.Lib.Table
import Mathlib.Data.List.Sort

/-!
# Reading the history in pages

`RecentMessages` pages through the messages of a contact from the newest one on, and
`ExportHistory` from the oldest one on. Both skip rows whose stored body does not decode. The
cursor of an export page comes from the rows of the page, that of a page of recent messages from
the records that are left of them.

`recent_complete_iff` says that an export always shows every decodable message, once and in order,
and that the recent messages do so exactly when no page that shows fewer messages than it may is
followed by a decodable one. `undecodable_row_ends_paging` is a history whose older messages are
never shown.
-/

namespace Skattr.Core.Daemon.History

open Lib Lib.Paging

/-- A row of `messages` as the repository reads it. -/
structure StoredMessage where
  id : Int
  groupId : GroupId
  sender : Bytes
  kind : String
  bodyBlob : Option Bytes
  ts : Int
  deliveredAt : Option Int
  mlsGeneration : Int
  tsDaemonRecv : Int
  dismissedAt : Option Int
  failedReason : Option String
  deriving DecidableEq

/-- The table in row order. SQLite counts the row ids up from 1 and uses none twice. -/
structure MessageStore where
  rows : List StoredMessage
  ascending : rows.Pairwise fun row later => row.id < later.id
  positive : ∀ row ∈ rows, 0 < row.id

namespace MessageStore

def newerFirst (a b : StoredMessage) : Prop :=
  b.mlsGeneration < a.mlsGeneration ∨ (b.mlsGeneration = a.mlsGeneration ∧ b.id ≤ a.id)

instance : DecidableRel newerFirst :=
  fun a b => inferInstanceAs (Decidable (b.mlsGeneration < a.mlsGeneration ∨ _))

def olderFirst (a b : StoredMessage) : Prop := a.id ≤ b.id

instance : DecidableRel olderFirst := fun a b => inferInstanceAs (Decidable (a.id ≤ b.id))

def recent (store : MessageStore) (groupId : GroupId) (limit : Nat) : List StoredMessage :=
  ((store.rows.filter fun row => row.groupId = groupId).insertionSort newerFirst).take limit

/-- The messages of a group with a smaller row id, in the order of `recent`. -/
def recentBefore (store : MessageStore) (groupId : GroupId) (beforeId : Int) (limit : Nat) :
    List StoredMessage :=
  ((store.rows.filter fun row => row.groupId = groupId ∧ row.id < beforeId).insertionSort
    newerFirst).take limit

def exportPage (store : MessageStore) (groupId : GroupId) (afterId : Option Int) (limit : Nat) :
    List StoredMessage :=
  ((store.rows.filter fun row => row.groupId = groupId ∧ row.id > afterId.getD 0).insertionSort
    olderFirst).take limit

end MessageStore

/-- The direction of a message relative to the local identity. -/
inductive MessageDirection where
  | incoming
  | outgoing
  deriving DecidableEq

structure MessageRecord where
  rowId : Int
  messageId : MessageId
  contact : PublicKey
  direction : MessageDirection
  kind : Kind
  mlsGeneration : Nat
  tsDaemonRecv : Nat
  tsEnvelope : Int
  deliveredAt : Option Nat
  dismissedAt : Option Nat
  failedReason : Option String
  deriving DecidableEq

def unsignedTime (time : Option Int) : Option Nat :=
  time.bind fun t => if 0 ≤ t then some t.toNat else none

namespace MessageRecord

def project (rowId : Int) (envelope : Envelope) (contact : PublicKey) (mlsGeneration : Nat)
    (tsDaemonRecv : Int) (direction : MessageDirection) (deliveredAt : Option Int) :
    MessageRecord where
  rowId := rowId
  messageId := envelope.id
  contact := contact
  direction := direction
  kind := envelope.kind
  mlsGeneration := mlsGeneration
  tsDaemonRecv := tsDaemonRecv.toNat
  tsEnvelope := envelope.ts
  deliveredAt := unsignedTime deliveredAt
  dismissedAt := none
  failedReason := none

def withPersistedStatus (record : MessageRecord) (dismissedAt : Option Int)
    (failedReason : Option String) : MessageRecord :=
  { record with dismissedAt := unsignedTime dismissedAt, failedReason := failedReason }

end MessageRecord

/-- The decoder of envelopes and the local identity. -/
structure HistoryEnv where
  decode : Bytes → Option Envelope
  myPubkey : PublicKey

variable (env : HistoryEnv)

/-- The record of a row, if its body decodes. A sender of the wrong length counts as zeros. -/
def HistoryEnv.record (peer : PublicKey) (row : StoredMessage) : Option MessageRecord :=
  (env.decode (row.bodyBlob.getD [])).map fun envelope =>
    let sender := (ByteArr.ofBytes? 32 row.sender).getD (.fill 32 0)
    let direction := if sender = env.myPubkey then .outgoing else .incoming
    (MessageRecord.project row.id envelope peer row.mlsGeneration.toNat row.tsDaemonRecv direction
      row.deliveredAt).withPersistedStatus row.dismissedAt row.failedReason

/-- The contacts with the group that each is linked to, and the messages. -/
structure Archive where
  groupIds : Table PublicKey GroupId
  messages : MessageStore

inductive HistoryReply where
  | messages (records : List MessageRecord)
  | messagesPage (records : List MessageRecord) (nextBeforeId : Option Int)
  | exportPage (records : List MessageRecord) (nextAfterId : Option Int)
  deriving DecidableEq

def Archive.groupOf (archive : Archive) (peer : PublicKey) : Except CoreError GroupId :=
  match archive.groupIds.get peer with
  | some groupId => if groupId ≠ [] then .ok groupId else .error .contactNotFound
  | none => .error .contactNotFound

def recentMessages (archive : Archive) (contact : Option PublicKey) (limit : UInt32)
    (beforeId : Option Int) (paged : Bool) : Except CoreError HistoryReply :=
  match contact with
  | none => .error .contactNotFound
  | some peer => do
      let groupId ← archive.groupOf peer
      let rows :=
        match beforeId with
        | some b => archive.messages.recentBefore groupId b limit.toNat
        | none => archive.messages.recent groupId limit.toNat
      let records := rows.filterMap (env.record peer)
      if paged then
        -- the records are counted, not the rows
        let nextBeforeId :=
          if records.length = limit.toNat then records.getLast?.map MessageRecord.rowId else none
        pure (.messagesPage records nextBeforeId)
      else pure (.messages records)

def EXPORT_PAGE_MAX : Nat := 1000

def exportHistory (archive : Archive) (contact : PublicKey) (afterId : Option Int)
    (limit : UInt32) : Except CoreError HistoryReply := do
  let lim := min limit.toNat EXPORT_PAGE_MAX
  let groupId ← archive.groupOf contact
  let rows := archive.messages.exportPage groupId afterId lim
  let records := rows.filterMap (env.record contact)
  let nextAfterId :=
    if rows.length = lim ∧ lim > 0 then rows.getLast?.map StoredMessage.id else none
  pure (.exportPage records nextAfterId)

/-! ### What a client does -/

def recentPage (archive : Archive) (peer : PublicKey) (limit : UInt32) (beforeId : Option Int) :
    Option (List MessageRecord × Option Int) :=
  match recentMessages env archive (some peer) limit beforeId true with
  | .ok (.messagesPage records next) => some (records, next)
  | _ => none

def exportedPage (archive : Archive) (peer : PublicKey) (limit : UInt32) (afterId : Option Int) :
    Option (List MessageRecord × Option Int) :=
  match exportHistory env archive peer afterId limit with
  | .ok (.exportPage records next) => some (records, next)
  | _ => none

/-- The rows that are left of the recent messages at a cursor, in the promised order. -/
def MessageStore.newest (store : MessageStore) (groupId : GroupId) :
    Option Int → List StoredMessage
  | none => (store.rows.filter fun row => row.groupId = groupId).insertionSort newerFirst
  | some b =>
    (store.rows.filter fun row => row.groupId = groupId ∧ row.id < b).insertionSort newerFirst

/-- The rows that are left of an export at a cursor, in the promised order. -/
def MessageStore.oldest (store : MessageStore) (groupId : GroupId) (cursor : Option Int) :
    List StoredMessage :=
  (store.rows.filter fun row => row.groupId = groupId ∧ row.id > cursor.getD 0).insertionSort
    olderFirst

/-- The epoch that is stored with a message of the group never falls from one row to a later
one. -/
def MessageStore.EpochsAscend (store : MessageStore) (groupId : GroupId) : Prop :=
  (store.rows.filter fun row => row.groupId = groupId).Pairwise fun row later =>
    row.mlsGeneration ≤ later.mlsGeneration

/-! ### The order of the pages -/

namespace MessageStore

instance : Std.Total newerFirst where
  total a b := by
    unfold newerFirst
    omega

instance : IsTrans StoredMessage newerFirst where
  trans a b c := by
    unfold newerFirst
    omega

theorem insertionSort_newerFirst {rows : List StoredMessage}
    (hids : rows.Pairwise fun row later => row.id < later.id)
    (hepochs : rows.Pairwise fun row later => row.mlsGeneration ≤ later.mlsGeneration) :
    rows.insertionSort newerFirst = rows.reverse := by
  have hreverse : rows.reverse.Pairwise newerFirst := by
    rw [List.pairwise_reverse]
    refine (hids.and hepochs).imp ?_
    intro row later hlater
    unfold newerFirst
    omega
  have hperm : (rows.insertionSort newerFirst).Perm rows.reverse :=
    (List.perm_insertionSort _ rows).trans (List.reverse_perm rows).symm
  refine hperm.eq_of_pairwise ?_ (List.pairwise_insertionSort _ rows) hreverse
  intro a b ha hb hab hba
  -- rows with the same id are the same row
  have hid : a.id = b.id := by
    unfold newerFirst at hab hba
    omega
  have hnodup : (rows.map StoredMessage.id).Nodup :=
    List.pairwise_map.mpr (hids.imp fun hlt heq => by omega)
  exact List.inj_on_of_nodup_map hnodup ((List.mem_insertionSort newerFirst).mp ha)
    (List.mem_reverse.mp hb) hid

variable {store : MessageStore} {groupId : GroupId} {cursor : Option Int} {row : StoredMessage}
  {size : Nat}

theorem newest_eq (hepochs : store.EpochsAscend groupId) (cursor : Option Int) :
    store.newest groupId cursor = (store.rows.filter fun row =>
      row.groupId = groupId ∧ ∀ b ∈ cursor, row.id < b).reverse := by
  have hsorted : ∀ p : StoredMessage → Bool, (∀ row, p row → row.groupId = groupId) →
      (store.rows.filter p).insertionSort newerFirst = (store.rows.filter p).reverse := by
    intro p hp
    refine insertionSort_newerFirst (store.ascending.sublist List.filter_sublist) ?_
    refine hepochs.sublist ?_
    have hfilter : store.rows.filter p =
        (store.rows.filter fun row => row.groupId = groupId).filter p := by
      rw [List.filter_filter]
      refine List.filter_congr fun row _ => ?_
      cases hrow : p row with
      | false => simp
      | true => simp [hp row hrow]
    rw [hfilter]
    exact List.filter_sublist
  cases cursor with
  | none =>
    simp only [newest]
    rw [hsorted _ (by simp)]
    simp
  | some b =>
    simp only [newest]
    rw [hsorted _ (by simp +contextual)]
    simp

theorem oldest_eq (cursor : Option Int) :
    store.oldest groupId cursor =
      store.rows.filter fun row => row.groupId = groupId ∧ row.id > cursor.getD 0 := by
  refine List.Pairwise.insertionSort_eq ?_
  refine (store.ascending.sublist List.filter_sublist).imp ?_
  intro row later hlater
  unfold olderFirst
  omega

theorem newest_after (hepochs : store.EpochsAscend groupId)
    (hlast : ((store.newest groupId cursor).take size).getLast? = some row) :
    store.newest groupId (some row.id) = (store.newest groupId cursor).drop size := by
  have hdescending : (store.newest groupId cursor).Pairwise fun row later => later.id < row.id := by
    rw [newest_eq hepochs, List.pairwise_reverse]
    exact store.ascending.sublist List.filter_sublist
  have hasymm : Std.Asymm fun row later : StoredMessage => later.id < row.id :=
    ⟨fun _ _ h => by omega⟩
  have hrow : row ∈ store.newest groupId cursor :=
    List.mem_of_mem_take (List.mem_of_getLast? hlast)
  rw [newest_eq hepochs, List.mem_reverse, List.mem_filter, decide_eq_true_eq] at hrow
  rw [← filter_after_last hdescending hlast, newest_eq hepochs, newest_eq hepochs,
    List.filter_reverse, List.filter_filter]
  congr 1
  refine List.filter_congr fun other _ => ?_
  simp only [Option.mem_def, Option.some.injEq, forall_eq', ← Bool.decide_and, decide_eq_decide]
  constructor
  · rintro ⟨hgroup, hlt⟩
    exact ⟨hlt, hgroup, fun b hb => lt_trans hlt (hrow.2.2 b hb)⟩
  · rintro ⟨hlt, hgroup, -⟩
    exact ⟨hgroup, hlt⟩

theorem oldest_after (hlast : ((store.oldest groupId cursor).take size).getLast? = some row) :
    store.oldest groupId (some row.id) = (store.oldest groupId cursor).drop size := by
  have hascending : (store.oldest groupId cursor).Pairwise fun row later => row.id < later.id := by
    rw [oldest_eq]
    exact store.ascending.sublist List.filter_sublist
  have hasymm : Std.Asymm fun row later : StoredMessage => row.id < later.id :=
    ⟨fun _ _ h => by omega⟩
  have hrow : row ∈ store.oldest groupId cursor :=
    List.mem_of_mem_take (List.mem_of_getLast? hlast)
  rw [oldest_eq, List.mem_filter, decide_eq_true_eq] at hrow
  rw [← filter_after_last hascending hlast, oldest_eq, oldest_eq, List.filter_filter]
  refine List.filter_congr fun other _ => ?_
  simp only [Option.getD_some, ← Bool.decide_and, decide_eq_decide]
  constructor
  · rintro ⟨hgroup, hlt⟩
    exact ⟨hlt, hgroup, lt_trans hrow.2.2 hlt⟩
  · rintro ⟨hlt, hgroup, -⟩
    exact ⟨hgroup, hlt⟩

end MessageStore

/-! ### The pages of a contact -/

section Pages

variable {env : HistoryEnv} {archive : Archive} {peer : PublicKey} {groupId : GroupId}
  {limit : UInt32}

theorem HistoryEnv.record_rowId {row : StoredMessage} {record : MessageRecord}
    (h : env.record peer row = some record) : record.rowId = row.id := by
  obtain ⟨envelope, -, rfl⟩ := Option.map_eq_some_iff.mp h
  rfl

theorem Archive.groupOf_eq (hgroup : archive.groupIds.get peer = some groupId)
    (hlinked : groupId ≠ []) : archive.groupOf peer = .ok groupId := by
  simp [Archive.groupOf, hgroup, hlinked]

theorem recentPage_eq (hgroup : archive.groupOf peer = .ok groupId) (cursor : Option Int) :
    recentPage env archive peer limit cursor =
      some (((archive.messages.newest groupId cursor).take limit.toNat).filterMap
          (env.record peer),
        if (((archive.messages.newest groupId cursor).take limit.toNat).filterMap
            (env.record peer)).length = limit.toNat
        then (((archive.messages.newest groupId cursor).take limit.toNat).filterMap
            (env.record peer)).getLast?.map MessageRecord.rowId
        else none) := by
  unfold recentPage recentMessages
  dsimp only
  rw [hgroup]
  cases cursor <;> rfl

theorem exportedPage_eq (hgroup : archive.groupOf peer = .ok groupId) (cursor : Option Int) :
    exportedPage env archive peer limit cursor =
      some (((archive.messages.oldest groupId cursor).take
          (min limit.toNat EXPORT_PAGE_MAX)).filterMap (env.record peer),
        if ((archive.messages.oldest groupId cursor).take
            (min limit.toNat EXPORT_PAGE_MAX)).length = min limit.toNat EXPORT_PAGE_MAX ∧
              min limit.toNat EXPORT_PAGE_MAX > 0
        then ((archive.messages.oldest groupId cursor).take
          (min limit.toNat EXPORT_PAGE_MAX)).getLast?.map StoredMessage.id
        else none) := by
  unfold exportedPage exportHistory
  rw [hgroup]
  rfl

theorem paged_recent (hgroup : archive.groupOf peer = .ok groupId) (hlimit : 0 < limit.toNat)
    (hepochs : archive.messages.EpochsAscend groupId) :
    Paged (recentPage env archive peer limit) (archive.messages.newest groupId)
      (env.record peer) limit.toNat
      (fun page => (page.filterMap (env.record peer)).length = limit.toNat) where
  last cursor hstop := by
    rw [recentPage_eq hgroup, if_neg hstop]
  more cursor hfull := by
    have hpage : ((archive.messages.newest groupId cursor).take limit.toNat).length =
        limit.toNat := by
      have hle := List.length_filterMap_le (env.record peer)
        ((archive.messages.newest groupId cursor).take limit.toNat)
      have htake := List.length_take_le limit.toNat (archive.messages.newest groupId cursor)
      omega
    have hlast := getLast?_filterMap (hfull.trans hpage.symm)
    obtain ⟨row, hrow⟩ : ∃ row,
        ((archive.messages.newest groupId cursor).take limit.toNat).getLast? = some row := by
      rw [← Option.isSome_iff_exists, List.getLast?_isSome, ← List.length_pos_iff]
      omega
    obtain ⟨record, hrecord⟩ : ∃ record, (((archive.messages.newest groupId cursor).take
        limit.toNat).filterMap (env.record peer)).getLast? = some record := by
      rw [← Option.isSome_iff_exists, List.getLast?_isSome, ← List.length_pos_iff]
      omega
    rw [hrecord, hrow, Option.bind_some] at hlast
    refine ⟨row.id, ?_, ?_, MessageStore.newest_after hepochs hrow⟩
    · rw [recentPage_eq hgroup, if_pos hfull, hrecord, Option.map_some,
        HistoryEnv.record_rowId hlast.symm]
    · exact List.ne_nil_of_mem (List.mem_of_mem_take (List.mem_of_getLast? hrow))

theorem paged_export (hgroup : archive.groupOf peer = .ok groupId)
    (hlimit : 0 < min limit.toNat EXPORT_PAGE_MAX) :
    Paged (exportedPage env archive peer limit) (archive.messages.oldest groupId)
      (env.record peer) (min limit.toNat EXPORT_PAGE_MAX)
      (fun page => page.length = min limit.toNat EXPORT_PAGE_MAX) where
  last cursor hstop := by
    rw [exportedPage_eq hgroup, if_neg fun hfull => hstop hfull.1]
  more cursor hfull := by
    obtain ⟨row, hrow⟩ : ∃ row, ((archive.messages.oldest groupId cursor).take
        (min limit.toNat EXPORT_PAGE_MAX)).getLast? = some row := by
      rw [← Option.isSome_iff_exists, List.getLast?_isSome, ← List.length_pos_iff]
      omega
    refine ⟨row.id, ?_, ?_, MessageStore.oldest_after hrow⟩
    · rw [exportedPage_eq hgroup, if_pos ⟨hfull, hlimit⟩, hrow, Option.map_some]
    · exact List.ne_nil_of_mem (List.mem_of_mem_take (List.mem_of_getLast? hrow))

end Pages

/-- An export shows every decodable message of the group once, from the oldest one on. The recent
messages end too, and show every decodable message once, in their order, exactly when no page that
shows fewer messages than its limit is followed by a decodable one. -/
theorem recent_complete_iff (env : HistoryEnv) (archive : Archive) (peer : PublicKey)
    (groupId : GroupId) (limit : UInt32) (hgroup : archive.groupIds.get peer = some groupId)
    (hlinked : groupId ≠ []) (hlimit : 1 ≤ limit)
    (hepochs : archive.messages.EpochsAscend groupId) :
    (∃ fuel, follow (exportedPage env archive peer limit) fuel none =
        some ((archive.messages.rows.filter fun row => row.groupId = groupId).filterMap
          (env.record peer))) ∧
      ∃ fuel records, follow (recentPage env archive peer limit) fuel none = some records ∧
        (records = (archive.messages.newest groupId none).filterMap (env.record peer) ↔
          ∀ k, (((archive.messages.newest groupId none).drop (k * limit.toNat)).take
              limit.toNat |>.filterMap (env.record peer)).length ≠ limit.toNat →
            ((archive.messages.newest groupId none).drop ((k + 1) * limit.toNat)).filterMap
              (env.record peer) = []) := by
  have hof := Archive.groupOf_eq hgroup hlinked
  have hpos : 0 < limit.toNat := UInt32.le_iff_toNat_le.mp hlimit
  constructor
  · have hmin : 0 < min limit.toNat EXPORT_PAGE_MAX := lt_min hpos (by decide)
    have hpaged : Paged (exportedPage env archive peer limit) _ _ _ _ := paged_export hof hmin
    obtain ⟨fuel, records, hfollow, hrecords⟩ := hpaged.follow_spec hmin none
    refine ⟨fuel, ?_⟩
    rw [hfollow, hrecords.mpr complete_of_full, MessageStore.oldest_eq]
    -- row ids start at 1, so the first page starts with the first row
    congr 2
    refine List.filter_congr fun row hrow => ?_
    simpa using fun _ => archive.messages.positive row hrow
  · exact (paged_recent hof hpos hepochs).follow_spec hpos none

def gapArchive : Archive where
  groupIds := Table.empty.put (.fill 32 2) [9]
  messages :=
    { rows := [⟨1, [9], [], "text", some [1], 0, none, 0, 0, none, none⟩,
        ⟨2, [9], [], "text", some [2], 0, none, 0, 0, none, none⟩,
        ⟨3, [9], [], "text", none, 0, none, 0, 0, none, none⟩]
      ascending := by decide
      positive := by decide }

/-- A body decodes to a text whose id repeats its first byte; an empty one does not decode. -/
def gapEnv : HistoryEnv where
  decode
    | [] => none
    | b :: _ => some ⟨1, .fill 16 b, 0, none, .text "hello"⟩
  myPubkey := .fill 32 1

/-- With pages of two messages, the first page shows one message and has no cursor, so the oldest
message is never shown, although it decodes; an export shows it. -/
theorem undecodable_row_ends_paging :
    (recentPage gapEnv gapArchive (.fill 32 2) 2 none).map
        (fun page => (page.1.map MessageRecord.rowId, page.2)) = some ([2], none) ∧
      ((gapArchive.messages.newest [9] none).filterMap (gapEnv.record (.fill 32 2))).map
        MessageRecord.rowId = [2, 1] ∧
      (follow (exportedPage gapEnv gapArchive (.fill 32 2) 2) 3 none).map
        (List.map MessageRecord.rowId) = some [1, 2] ∧
      gapArchive.messages.EpochsAscend [9] := by
  refine ⟨by decide, by decide, by decide, ?_⟩
  unfold MessageStore.EpochsAscend
  decide

theorem recent_complete_iff_at_gap :
    ∃ fuel, follow (exportedPage gapEnv gapArchive (.fill 32 2) 2) fuel none =
      some ((gapArchive.messages.rows.filter fun row => row.groupId = [9]).filterMap
        (gapEnv.record (.fill 32 2))) :=
  (recent_complete_iff gapEnv gapArchive (.fill 32 2) [9] 2 (by decide) (by decide) (by decide)
    (by unfold MessageStore.EpochsAscend; decide)).1

end Skattr.Core.Daemon.History
