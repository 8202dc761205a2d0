import Skattr.Core.Daemon.History
import Skattr.Lib.Run

/-!
# The view of a conversation

Pages, replies of sends and events of the daemon arrive in any order and change one list. The page
of an opened conversation is dropped when another one was opened or closed since, an older page only
when the contact is another one, and an event is appended as it comes.

`view_exact` says that the rows shown are those of the contact's history from the oldest page that
was loaded to the newest row that the view was told of, in every run in which an older page comes to
the place that it was asked for, and events and replies tell of the contact's rows one after the
other. `page_after_event` shows a row that is shown twice, and one that is left out.
-/

namespace Skattr.Ui

open Skattr.Core Skattr.Core.Daemon.History Lib

/-- A stored message; row ids are issued in order. -/
structure Row where
  rowId : Nat
  contact : PublicKey
  deriving DecidableEq

/-- An entry of the list: a stored row, or a message whose send has not been answered. -/
inductive Item where
  | stored (row : Row)
  | placeholder (tempId : Nat)
  deriving DecidableEq

def Item.rows (items : List Item) : List Row :=
  items.filterMap fun item => match item with
    | .stored row => some row
    | .placeholder _ => none

/-- The messages of the daemon, and the conversation store. The last two fields record what the view
was told of the active contact: the first row of the oldest page that was loaded, or 0 when it
reaches back to the first message, and the newest row of a page, an event or a reply, or 0. -/
structure Chat where
  history : List Row
  nextRowId : Nat
  contact : Option PublicKey
  messages : List Item
  nextBeforeId : Option Nat
  loadingOlder : Bool
  loadToken : Nat
  oldest : Nat
  newest : Nat

/-- What happens: the daemon stores a message, the user opens, closes, scrolls or sends, and replies
and events come in. The page of an opened conversation was read when the daemon had `readAt`
messages; the rows before a stored one do not change, so it does not matter when an older page was
read. A load that is not `ok` is an error, and a record that is `none` stands for an error or for a
send that the daemon knew. -/
inductive ChatEvent where
  | store (contact : PublicKey)
  | openConversation
  | opened (token : Nat) (contact : PublicKey) (readAt : Nat)
  | closeConversation
  | loadOlder
  | loaded (contact : PublicKey) (beforeId : Nat) (ok : Bool)
  | send (contact : PublicKey) (tempId : Nat)
  | sent (contact : PublicKey) (tempId : Nat) (record : Option Row)
  | messageReceived (record : Row)

def rowsOf (history : List Row) (contact : PublicKey) : List Row :=
  history.filter fun row => row.contact = contact

/-- The newest fifty of some rows, the newest one first, and the cursor to the rest. -/
def recentMessages (rows : List Row) : List Row × Option Nat :=
  let records := rows.reverse.take 50
  (records, if records.length = 50 then records.getLast?.map Row.rowId else none)

def Row.ofRecord (record : MessageRecord) : Row := ⟨record.rowId.toNat, record.contact⟩

def Row.ofStored (peer : PublicKey) (row : StoredMessage) : Row := ⟨row.id.toNat, peer⟩

theorem recentPage_rows (env : HistoryEnv) {archive : Archive} {peer : PublicKey}
    {groupId : GroupId} (hgroup : archive.groupOf peer = .ok groupId)
    (hepochs : archive.messages.EpochsAscend groupId)
    (hdecodes : ∀ row ∈ archive.messages.newest groupId none, (env.record peer row).isSome)
    (cursor : Option Int) :
    (recentPage env archive peer 50 cursor).map
        (Prod.map (List.map Row.ofRecord) (Option.map Int.toNat)) =
      some (recentMessages ((archive.messages.rows.filter fun row =>
        row.groupId = groupId ∧ ∀ b ∈ cursor, row.id < b).map (Row.ofStored peer))) := by
  have hpage : (((archive.messages.newest groupId cursor).take 50).filterMap
      (env.record peer)).map Row.ofRecord =
        ((archive.messages.newest groupId cursor).take 50).map (Row.ofStored peer) := by
    rw [List.map_filterMap, ← List.filterMap_eq_map]
    refine List.filterMap_congr fun row hrow => ?_
    have hmem := List.mem_of_mem_take hrow
    simp only [MessageStore.newest_eq hepochs, List.mem_reverse, List.mem_filter, decide_eq_true_eq]
      at hmem hdecodes
    obtain ⟨record, hrecord⟩ := Option.isSome_iff_exists.mp
      (hdecodes row ⟨hmem.1, hmem.2.1, nofun⟩)
    obtain ⟨envelope, -, rfl⟩ := Option.map_eq_some_iff.mp hrecord
    rw [hrecord]
    rfl
  rw [recentPage_eq hgroup, recentMessages, ← List.map_reverse, ← MessageStore.newest_eq hepochs,
    ← List.map_take, ← hpage, List.length_map, List.getLast?_map]
  simp only [Option.map_some, Prod.map, apply_ite (Option.map Int.toNat), Option.map_map]
  rfl

def newestId (records : List Row) : Nat := (records.head?.map Row.rowId).getD 0

namespace Chat

def step (chat : Chat) : ChatEvent → Chat
  | .store contact =>
    { chat with
      history := chat.history ++ [⟨chat.nextRowId, contact⟩], nextRowId := chat.nextRowId + 1 }
  | .openConversation => { chat with loadToken := chat.loadToken + 1 }
  | .opened token contact readAt =>
    if token ≠ chat.loadToken then chat
    else
      let page := recentMessages (rowsOf (chat.history.take readAt) contact)
      { chat with
        contact := some contact, messages := page.1.reverse.map .stored, nextBeforeId := page.2
        loadingOlder := false, oldest := page.2.getD 0, newest := newestId page.1 }
  | .closeConversation =>
    { chat with
      loadToken := chat.loadToken + 1, contact := none, messages := [], nextBeforeId := none
      loadingOlder := false, oldest := 0, newest := 0 }
  | .loadOlder =>
    if chat.loadingOlder ∨ chat.nextBeforeId = none ∨ chat.contact = none then chat
    else { chat with loadingOlder := true }
  | .loaded contact beforeId ok =>
    if chat.contact ≠ some contact then chat
    else if ok then
      let page := recentMessages
        ((rowsOf chat.history contact).filter fun row => row.rowId < beforeId)
      { chat with
        messages := page.1.reverse.map .stored ++ chat.messages, nextBeforeId := page.2
        loadingOlder := false, oldest := min chat.oldest (page.2.getD 0)
        newest := max chat.newest (newestId page.1) }
    else { chat with loadingOlder := false }
  | .send contact tempId =>
    if chat.contact = some contact then
      { chat with messages := chat.messages ++ [.placeholder tempId] }
    else chat
  | .sent contact tempId record =>
    match record with
    | none => chat
    | some record =>
      if chat.contact ≠ some contact then chat
      else
        { chat with
          messages := chat.messages.replace (.placeholder tempId) (.stored record)
          newest := max chat.newest record.rowId }
  | .messageReceived record =>
    if chat.contact = some record.contact then
      { chat with
        messages := chat.messages ++ [.stored record], newest := max chat.newest record.rowId }
    else chat

def shown (chat : Chat) : List Row := Item.rows chat.messages

/-- The ids ascend. -/
abbrev Ascending (rows : List Row) : Prop := rows.Pairwise fun row later => row.rowId < later.rowId

def between (lo hi : Nat) (rows : List Row) : List Row :=
  rows.filter fun row => lo ≤ row.rowId ∧ row.rowId ≤ hi

/-- The rows shown are those of the contact's history from the oldest page to the newest row that
the view was told of, both of which are shown. The ids of the history ascend, so none is shown
twice. -/
structure Exact (chat : Chat) : Prop where
  ascending : Ascending chat.history
  run : ∀ contact, chat.contact = some contact →
    chat.shown = between chat.oldest chat.newest (rowsOf chat.history contact)
  oldest : 0 < chat.oldest → chat.oldest ∈ chat.shown.map Row.rowId
  newest : 0 < chat.newest → chat.newest ∈ chat.shown.map Row.rowId
  closed : chat.contact = none → chat.shown = []

/-- The row is the first one of its contact that the view was not told of. -/
def Next (chat : Chat) (record : Row) : Prop :=
  record ∈ chat.history ∧ chat.newest < record.rowId ∧
    ∀ row ∈ rowsOf chat.history record.contact, chat.newest < row.rowId → record.rowId ≤ row.rowId

/-- An older page comes to the place it was asked for. Events and replies tell of the contact's rows
one after the other; the reply of a send comes before other rows, or after a page with its row. -/
def InPlace (chat : Chat) : ChatEvent → Prop
  | .loaded contact beforeId true => chat.contact = some contact →
      chat.nextBeforeId = some beforeId
  | .sent contact tempId (some record) => chat.contact = some contact → record.contact = contact ∧
      if .placeholder tempId ∈ chat.messages then chat.Next record ∧
        Item.rows (chat.messages.dropWhile (· ≠ .placeholder tempId)) = []
      else record.rowId ≤ chat.newest
  | .messageReceived record => chat.contact = some record.contact → chat.Next record
  | _ => True

structure Inv (chat : Chat) : Prop where
  exact : chat.Exact
  issued : ∀ row ∈ chat.history, 0 < row.rowId ∧ row.rowId < chat.nextRowId
  first : 0 < chat.nextRowId
  cursor : chat.oldest = chat.nextBeforeId.getD 0

variable {chat : Chat} {contact : PublicKey} {messages : List Item} {rows : List Row}

theorem rows_append (items more : List Item) :
    Item.rows (items ++ more) = Item.rows items ++ Item.rows more :=
  List.filterMap_append

theorem rows_stored (rows : List Row) : Item.rows (rows.map .stored) = rows := by
  rw [Item.rows, List.filterMap_map]
  exact List.filterMap_some

theorem rows_replace {items : List Item} {tempId : Nat} (record : Row)
    (hmem : .placeholder tempId ∈ items)
    (hlast : Item.rows (items.dropWhile (· ≠ .placeholder tempId)) = []) :
    Item.rows (items.replace (.placeholder tempId) (.stored record)) =
      Item.rows items ++ [record] := by
  induction items with
  | nil => cases hmem
  | cons item items ih =>
    by_cases heq : item = .placeholder tempId
    · subst heq
      rw [List.dropWhile_cons_of_neg (by simp)] at hlast
      have hnone : Item.rows items = [] := hlast
      rw [List.replace_cons_self, show Item.rows (.placeholder tempId :: items) = [] from hnone]
      exact congrArg (record :: ·) hnone
    · rw [List.dropWhile_cons_of_pos (by simpa using heq)] at hlast
      have hrest := ih ((List.mem_cons.mp hmem).resolve_left (Ne.symm heq)) hlast
      rw [List.replace_cons, beq_false_of_ne (Ne.symm heq)]
      cases item with
      | stored row => exact congrArg (row :: ·) hrest
      | placeholder other => exact hrest

theorem Ascending.ext {others : List Row} (h : Ascending rows) (hothers : Ascending others)
    (hmem : ∀ row, row ∈ rows ↔ row ∈ others) : rows = others := by
  have hirrefl : Std.Irrefl fun row later : Row => row.rowId < later.rowId :=
    ⟨fun row => lt_irrefl row.rowId⟩
  have hantisymm : Std.Antisymm fun row later : Row => row.rowId < later.rowId :=
    ⟨fun row later hlt hgt => absurd hgt hlt.asymm⟩
  exact h.eq_of_mem_iff hothers hmem

theorem Ascending.eq_of_rowId (h : Ascending rows) {row other : Row} (hrow : row ∈ rows)
    (hother : other ∈ rows) (hid : row.rowId = other.rowId) : row = other :=
  List.inj_on_of_nodup_map (List.pairwise_map.mpr (h.imp fun hlt => hlt.ne)) hrow hother hid

theorem newestId_mem {records : List Row} (hpos : 0 < newestId records) :
    newestId records ∈ records.map Row.rowId := by
  cases records with
  | nil => cases hpos
  | cons row records => exact List.mem_cons_self

/-- A page holds the rows from its cursor on, and none is newer than its first one. -/
structure IsPage (rows records : List Row) (next : Option Nat) : Prop where
  suffix : records.reverse <:+ rows
  mem_iff : ∀ row, row ∈ records ↔ row ∈ rows ∧ next.getD 0 ≤ row.rowId
  cursor : 0 < next.getD 0 → next.getD 0 ∈ records.map Row.rowId
  newest : ∀ row ∈ rows, row.rowId ≤ newestId records

theorem recentMessages_cases (rows : List Row) :
    (recentMessages rows = (rows.reverse, none)) ∨
      ∃ oldest init, recentMessages rows = (init ++ [oldest], some oldest.rowId) := by
  unfold recentMessages
  by_cases hfull : (rows.reverse.take 50).length = 50
  · refine .inr ?_
    rcases List.eq_nil_or_concat (rows.reverse.take 50) with hnil | ⟨init, oldest, hconcat⟩
    · rw [hnil] at hfull
      cases hfull
    · rw [List.concat_eq_append] at hconcat
      rw [hconcat] at hfull ⊢
      exact ⟨oldest, init, by simp only [if_pos hfull, List.getLast?_concat, Option.map_some]⟩
  · refine .inl ?_
    simp only [hfull, if_false, Prod.mk.injEq, and_true]
    refine List.take_of_length_le ?_
    rw [List.length_take] at hfull
    omega

theorem recentMessages_isPage (h : Ascending rows) :
    IsPage rows (recentMessages rows).1 (recentMessages rows).2 := by
  have hsuffix : (recentMessages rows).1.reverse <:+ rows := by
    have hreverse := (List.take_prefix 50 rows.reverse).reverse
    rwa [List.reverse_reverse] at hreverse
  refine ⟨hsuffix, fun row => ?_, fun hpos => ?_, fun row hrow => ?_⟩
  · rcases recentMessages_cases rows with hall | ⟨oldest, init, hpage⟩
    · simp [hall]
    · obtain ⟨front, hfront⟩ := hsuffix
      rw [hpage, List.reverse_append] at hfront
      subst hfront
      obtain ⟨-, hrest, hbefore⟩ := List.pairwise_append.mp h
      simp only [hpage, List.mem_append, List.mem_reverse, Option.getD_some, List.mem_singleton]
        at hbefore ⊢
      constructor
      · intro hrow
        refine ⟨.inr hrow.symm, ?_⟩
        rcases hrow with hinit | rfl
        · exact ((List.pairwise_cons.mp hrest).1 row (List.mem_reverse.mpr hinit)).le
        · exact le_refl _
      · rintro ⟨hfirst | hrow, hle⟩
        · exact absurd (hbefore row hfirst oldest (.inl rfl)) (Nat.not_lt.mpr hle)
        · exact hrow.symm
  · rcases recentMessages_cases rows with hall | ⟨oldest, init, hpage⟩
    · rw [hall] at hpos
      cases hpos
    · simp [hpage]
  · rcases List.eq_nil_or_concat rows with rfl | ⟨init, newest, rfl⟩
    · cases hrow
    · rw [List.concat_eq_append] at h hrow ⊢
      have hnewest : newestId (recentMessages (init ++ [newest])).1 = newest.rowId := by
        simp [newestId, recentMessages]
      rw [hnewest]
      rcases List.mem_append.mp hrow with hinit | hlast
      · exact ((List.pairwise_append.mp h).2.2 row hinit newest (List.mem_singleton_self _)).le
      · rw [List.mem_singleton.mp hlast]

theorem Ascending.rowsOf {history : List Row} (h : Ascending history) (contact : PublicKey) :
    Ascending (rowsOf history contact) :=
  h.sublist List.filter_sublist

theorem mem_between {lo hi : Nat} {row : Row} :
    row ∈ between lo hi rows ↔ row ∈ rows ∧ lo ≤ row.rowId ∧ row.rowId ≤ hi := by
  simp [between]

theorem Exact.mem_shown (h : chat.Exact) (hcontact : chat.contact = some contact) {row : Row} :
    row ∈ chat.shown ↔
      row ∈ rowsOf chat.history contact ∧ chat.oldest ≤ row.rowId ∧ row.rowId ≤ chat.newest := by
  rw [h.run contact hcontact, mem_between]

theorem Exact.ascending_shown (h : chat.Exact) (hcontact : chat.contact = some contact) :
    Ascending chat.shown := by
  rw [h.run contact hcontact]
  exact (h.ascending.rowsOf contact).sublist List.filter_sublist

theorem Exact.oldest_le (h : chat.Exact) (hcontact : chat.contact = some contact) :
    chat.oldest ≤ chat.newest := by
  rcases Nat.eq_zero_or_pos chat.oldest with hzero | hpos
  · omega
  · obtain ⟨row, hrow, hid⟩ := List.mem_map.mp (h.oldest hpos)
    have hends := ((h.mem_shown hcontact).mp hrow).2
    omega

theorem Inv.shows (h : chat.Inv) {nextBeforeId : Option Nat} {newest : Nat} (loadingOlder : Bool)
    (hrows : Ascending rows) (hmessages : Item.rows messages = rows)
    (hmem : ∀ row, row ∈ rows ↔ row ∈ rowsOf chat.history contact ∧
      nextBeforeId.getD 0 ≤ row.rowId ∧ row.rowId ≤ newest)
    (holdest : 0 < nextBeforeId.getD 0 → nextBeforeId.getD 0 ∈ rows.map Row.rowId)
    (hnewest : 0 < newest → newest ∈ rows.map Row.rowId) :
    Inv { chat with
      contact := some contact, messages, nextBeforeId, loadingOlder
      oldest := nextBeforeId.getD 0, newest } := by
  subst hmessages
  refine ⟨⟨h.exact.ascending, fun key hkey => ?_, holdest, hnewest, nofun⟩, h.issued, h.first, rfl⟩
  cases hkey
  exact hrows.ext ((h.exact.ascending.rowsOf contact).sublist List.filter_sublist) fun row =>
    (hmem row).trans mem_between.symm

theorem Inv.store (h : chat.Inv) (contact : PublicKey) : (chat.step (.store contact)).Inv := by
  have hnewest : chat.newest < chat.nextRowId := by
    rcases Nat.eq_zero_or_pos chat.newest with hzero | hpos
    · exact hzero ▸ h.first
    · obtain ⟨row, hrow, hid⟩ := List.mem_map.mp (h.exact.newest hpos)
      cases hcontact : chat.contact with
      | none =>
        rw [h.exact.closed hcontact] at hrow
        cases hrow
      | some key =>
        rw [← hid]
        have hrow := ((h.exact.mem_shown hcontact).mp hrow).1
        exact (h.issued row (List.mem_of_mem_filter hrow)).2
  refine ⟨⟨?_, fun other hother => ?_, h.exact.oldest, h.exact.newest, h.exact.closed⟩,
    fun row hrow => ?_, Nat.succ_pos _, h.cursor⟩
  · refine List.pairwise_append.mpr
      ⟨h.exact.ascending, List.pairwise_singleton _ _, fun row hrow last hlast => ?_⟩
    rw [List.mem_singleton.mp hlast]
    exact (h.issued row hrow).2
  · -- the new row is newer than the newest one that the view was told of
    have hlast :
        between chat.oldest chat.newest (rowsOf [⟨chat.nextRowId, contact⟩] other) = [] := by
      refine List.filter_eq_nil_iff.mpr fun row hrow hbetween => ?_
      have hrow := List.mem_singleton.mp (List.mem_of_mem_filter hrow)
      have hle := (of_decide_eq_true hbetween).2
      rw [hrow] at hle
      exact absurd hnewest (Nat.not_lt.mpr hle)
    have hsplit : between chat.oldest chat.newest
        (rowsOf (chat.history ++ [⟨chat.nextRowId, contact⟩]) other) =
          between chat.oldest chat.newest (rowsOf chat.history other) ++
            between chat.oldest chat.newest (rowsOf [⟨chat.nextRowId, contact⟩] other) := by
      simp only [rowsOf, between, List.filter_append]
    rw [hlast, List.append_nil] at hsplit
    exact (h.exact.run other hother).trans hsplit.symm
  · rcases List.mem_append.mp hrow with hold | hlast
    · exact ⟨(h.issued row hold).1, (h.issued row hold).2.trans (Nat.lt_succ_self _)⟩
    · rw [List.mem_singleton.mp hlast]
      exact ⟨h.first, Nat.lt_succ_self _⟩

theorem Inv.opened (h : chat.Inv) (contact : PublicKey) (readAt : Nat) :
    let page := recentMessages (rowsOf (chat.history.take readAt) contact)
    Inv { chat with
      contact := some contact, messages := page.1.reverse.map .stored, nextBeforeId := page.2
      loadingOlder := false, oldest := page.2.getD 0, newest := newestId page.1 } := by
  intro page
  have hinitial : rowsOf (chat.history.take readAt) contact <+: rowsOf chat.history contact :=
    (List.take_prefix readAt chat.history).filter _
  have hascending := h.exact.ascending.rowsOf contact
  have hpage : IsPage _ page.1 page.2 :=
    recentMessages_isPage (hascending.sublist hinitial.sublist)
  refine h.shows false
    (hascending.sublist (hpage.suffix.sublist.trans hinitial.sublist)) (rows_stored _)
    (fun row => ?_) (fun hpos => ?_) (fun hpos => ?_)
  · rw [List.mem_reverse, hpage.mem_iff]
    constructor
    · rintro ⟨hrow, hle⟩
      exact ⟨hinitial.mem hrow, hle, hpage.newest row hrow⟩
    · rintro ⟨hrow, hle, hnewest⟩
      refine ⟨?_, hle⟩
      have hpositive := (h.issued row (List.mem_of_mem_filter hrow)).1
      obtain ⟨last, hlast, hid⟩ := List.mem_map.mp (newestId_mem (hpositive.trans_le hnewest))
      obtain ⟨later, hlater⟩ := hinitial
      rw [← hlater] at hascending hrow
      refine (List.mem_append.mp hrow).resolve_right fun hafter => ?_
      -- a row after the page is newer than all of its rows
      have hlt := (List.pairwise_append.mp hascending).2.2 last ((hpage.mem_iff last).mp hlast).1
        row hafter
      omega
  · rw [List.map_reverse, List.mem_reverse]
    exact hpage.cursor hpos
  · rw [List.map_reverse, List.mem_reverse]
    exact newestId_mem hpos

theorem Inv.older (h : chat.Inv) {beforeId : Nat} (hcontact : chat.contact = some contact)
    (hnext : chat.nextBeforeId = some beforeId) :
    let page := recentMessages
      ((rowsOf chat.history contact).filter fun row => row.rowId < beforeId)
    Inv { chat with
      messages := page.1.reverse.map .stored ++ chat.messages, nextBeforeId := page.2
      loadingOlder := false, oldest := min chat.oldest (page.2.getD 0)
      newest := max chat.newest (newestId page.1) } := by
  intro page
  have hascending := h.exact.ascending.rowsOf contact
  have hpage : IsPage _ page.1 page.2 :=
    recentMessages_isPage (hascending.sublist List.filter_sublist)
  have hbefore {row : Row} (hrow : row ∈ page.1) :
      row ∈ rowsOf chat.history contact ∧ row.rowId < chat.oldest := by
    have hfilter := List.mem_filter.mp ((hpage.mem_iff row).mp hrow).1
    rw [h.cursor, hnext]
    exact ⟨hfilter.1, of_decide_eq_true hfilter.2⟩
  have hends := h.exact.oldest_le hcontact
  have hold : page.2.getD 0 ≤ chat.oldest := by
    rcases Nat.eq_zero_or_pos (page.2.getD 0) with hzero | hpos
    · omega
    · obtain ⟨row, hrow, hid⟩ := List.mem_map.mp (hpage.cursor hpos)
      have hlt := (hbefore hrow).2
      omega
  have hnew : newestId page.1 ≤ chat.newest := by
    rcases Nat.eq_zero_or_pos (newestId page.1) with hzero | hpos
    · omega
    · obtain ⟨row, hrow, hid⟩ := List.mem_map.mp (newestId_mem hpos)
      have hlt := (hbefore hrow).2
      omega
  rw [Nat.min_eq_right hold, Nat.max_eq_left hnew]
  have hmessages : Item.rows (page.1.reverse.map .stored ++ chat.messages) =
      page.1.reverse ++ chat.shown := by
    rw [rows_append, rows_stored]
    rfl
  rw [hcontact]
  refine h.shows false ?_ hmessages (fun row => ?_) (fun hpos => ?_) (fun hpos => ?_)
  · refine List.pairwise_append.mpr ⟨?_, h.exact.ascending_shown hcontact,
      fun row hrow later hlater => ?_⟩
    · exact hascending.sublist (hpage.suffix.sublist.trans List.filter_sublist)
    · have hlater := ((h.exact.mem_shown hcontact).mp hlater).2.1
      exact (hbefore (List.mem_reverse.mp hrow)).2.trans_le hlater
  · rw [List.mem_append, List.mem_reverse, h.exact.mem_shown hcontact]
    constructor
    · rintro (hrow | ⟨hrow, hle, hle'⟩)
      · obtain ⟨hmem, hlt⟩ := hbefore hrow
        exact ⟨hmem, ((hpage.mem_iff row).mp hrow).2, by omega⟩
      · exact ⟨hrow, hold.trans hle, hle'⟩
    · rintro ⟨hrow, hle, hle'⟩
      by_cases hlt : row.rowId < chat.oldest
      · refine .inl ((hpage.mem_iff row).mpr ⟨List.mem_filter.mpr ⟨hrow, decide_eq_true ?_⟩, hle⟩)
        rw [h.cursor, hnext] at hlt
        exact hlt
      · exact .inr ⟨hrow, by omega, hle'⟩
  · rw [List.map_append, List.map_reverse, List.mem_append, List.mem_reverse]
    exact .inl (hpage.cursor hpos)
  · rw [List.map_append, List.mem_append]
    exact .inr (h.exact.newest hpos)

theorem Inv.append (h : chat.Inv) {record : Row} (hcontact : chat.contact = some record.contact)
    (hnext : chat.Next record) (hmessages : Item.rows messages = chat.shown ++ [record]) :
    Inv { chat with messages, newest := max chat.newest record.rowId } := by
  obtain ⟨hmem, hlt, hfirst⟩ := hnext
  have hascending := h.exact.ascending.rowsOf record.contact
  have hrecord : record ∈ rowsOf chat.history record.contact :=
    List.mem_filter.mpr ⟨hmem, decide_eq_true rfl⟩
  have hends := h.exact.oldest_le hcontact
  rw [Nat.max_eq_right hlt.le, hcontact, h.cursor]
  refine h.shows _ ?_ hmessages (fun row => ?_) (fun hpos => ?_) (fun _ => ?_)
  · refine List.pairwise_append.mpr ⟨h.exact.ascending_shown hcontact,
      List.pairwise_singleton _ _, fun row hrow last hlast => ?_⟩
    rw [List.mem_singleton.mp hlast]
    exact ((h.exact.mem_shown hcontact).mp hrow).2.2.trans_lt hlt
  · rw [List.mem_append, List.mem_singleton, h.exact.mem_shown hcontact, ← h.cursor]
    constructor
    · rintro (⟨hrow, hle, hle'⟩ | rfl)
      · exact ⟨hrow, hle, hle'.trans hlt.le⟩
      · exact ⟨hrecord, hends.trans hlt.le, le_refl _⟩
    · rintro ⟨hrow, hle, hle'⟩
      by_cases hknown : row.rowId ≤ chat.newest
      · exact .inl ⟨hrow, hle, hknown⟩
      · refine .inr (hascending.eq_of_rowId hrow hrecord ?_)
        exact le_antisymm hle' (hfirst row hrow (Nat.lt_of_not_le hknown))
  · rw [← h.cursor] at hpos ⊢
    rw [List.map_append, List.mem_append]
    exact .inl (h.exact.oldest hpos)
  · rw [List.map_append, List.mem_append]
    exact .inr (List.mem_singleton_self _)

theorem Inv.step (h : chat.Inv) {event : ChatEvent} (hplace : chat.InPlace event) :
    (chat.step event).Inv := by
  have hsame (loadToken : Nat) (loadingOlder : Bool) :
      Inv { chat with loadToken, loadingOlder } :=
    ⟨⟨h.exact.ascending, h.exact.run, h.exact.oldest, h.exact.newest, h.exact.closed⟩, h.issued,
      h.first, h.cursor⟩
  cases event with
  | store contact => exact h.store contact
  | openConversation => exact hsame _ _
  | opened token contact readAt =>
    unfold Chat.step
    dsimp only
    split
    · exact h
    · exact h.opened contact readAt
  | closeConversation =>
    exact ⟨⟨h.exact.ascending, nofun, nofun, nofun, fun _ => rfl⟩, h.issued, h.first, rfl⟩
  | loadOlder =>
    unfold Chat.step
    dsimp only
    split
    · exact h
    · exact hsame chat.loadToken true
  | loaded contact beforeId ok =>
    unfold Chat.step
    dsimp only
    split
    · exact h
    · next hcontact =>
      have hcontact := not_not.mp hcontact
      cases ok with
      | false => exact hsame chat.loadToken false
      | true => exact h.older hcontact (hplace hcontact)
  | send contact tempId =>
    unfold Chat.step
    dsimp only
    split
    · have hrows : Item.rows (chat.messages ++ [.placeholder tempId]) = chat.shown :=
        (rows_append ..).trans (List.append_nil _)
      refine ⟨⟨h.exact.ascending, ?_, ?_, ?_, ?_⟩, h.issued, h.first, h.cursor⟩ <;>
        simp only [shown, hrows]
      · exact h.exact.run
      · exact h.exact.oldest
      · exact h.exact.newest
      · exact h.exact.closed
    · exact h
  | sent contact tempId record =>
    cases record with
    | none => exact h
    | some record =>
      unfold Chat.step
      dsimp only
      split
      · exact h
      · next hcontact =>
        have hcontact := not_not.mp hcontact
        obtain ⟨rfl, hreply⟩ := hplace hcontact
        by_cases hmem : .placeholder tempId ∈ chat.messages
        · rw [if_pos hmem] at hreply
          exact h.append hcontact hreply.1 (rows_replace record hmem hreply.2)
        · rw [if_neg hmem] at hreply
          rw [List.replace_of_not_mem hmem, Nat.max_eq_left hreply]
          exact h
  | messageReceived record =>
    unfold Chat.step
    dsimp only
    split
    · next hcontact => exact h.append hcontact (hplace hcontact) (rows_append ..)
    · exact h

end Chat

def newChat : Chat := ⟨[], 1, none, [], none, false, 0, 0, 0⟩

theorem newChat_inv : newChat.Inv :=
  ⟨⟨.nil, nofun, nofun, nofun, fun _ => rfl⟩, fun _ hmem => absurd hmem List.not_mem_nil,
    Nat.one_pos, rfl⟩

/-- In every run in which pages and rows come to their places, the rows shown are those of the
contact's history from the oldest page that was loaded to the newest row that the view was told
of. -/
theorem view_exact (events : List ChatEvent)
    (hmeets : Meets Chat.step Chat.InPlace newChat events) :
    Along Chat.step Chat.Exact newChat events :=
  (along_of_meets (P := Chat.Inv) (fun _ _ h hplace => h.step hplace) newChat_inv hmeets).imp
    fun _ h => h.exact

def fourRows (key : PublicKey) : List ChatEvent :=
  [.store key, .store key, .openConversation, .opened 1 key 2, .store key,
    .messageReceived ⟨3, key⟩, .send key 7, .store key, .sent key 7 (some ⟨4, key⟩)]

theorem four_rows_shown :
    let key : PublicKey := .fill 32 1
    Along Chat.step Chat.Exact newChat (fourRows key) ∧
      ((fourRows key).foldl Chat.step newChat).shown =
        [⟨1, key⟩, ⟨2, key⟩, ⟨3, key⟩, ⟨4, key⟩] := by
  intro key
  refine ⟨view_exact _ ⟨trivial, trivial, trivial, trivial, trivial, fun _ => ?_, trivial, trivial,
    fun _ => ⟨rfl, ?_⟩, trivial⟩, by decide⟩
  · exact ⟨by decide, by decide, by decide⟩
  · rw [if_pos (by decide)]
    exact ⟨⟨by decide, by decide, by decide⟩, by decide⟩

/-- An event that comes after a page with its row shows the row twice. An event that comes before a
page without its row is dropped, and the next row is shown without it. -/
theorem page_after_event :
    let key : PublicKey := .fill 32 1
    ¬([.store key, .openConversation, .opened 1 key 1, .messageReceived ⟨1, key⟩].foldl Chat.step
      newChat).Exact ∧
    ¬([.store key, .store key, .openConversation, .messageReceived ⟨2, key⟩, .opened 1 key 1,
      .store key, .messageReceived ⟨3, key⟩].foldl Chat.step newChat).Exact := by
  intro key
  constructor
  · intro h
    have hrun := h.run key rfl
    revert hrun
    decide
  · intro h
    have hrun := h.run key rfl
    revert hrun
    decide

end Skattr.Ui
