import Skattr.Core.Daemon.RemoveContact

/-!
# What a hard removal leaves

A contact whose Welcome is pending is purged "so a fresh invite starts clean". The rows of a peer
are those that name it, those of a group that it was linked to at any time, and those of a file
that came from it or waits for it in a mailbox. `purge_clean_iff` says when the purge leaves no row
of the contact and every row of the other peers: the purge knows the group that is linked now, and
neither what was read of it, nor the dedup entries, nor the files.
-/

namespace Skattr.Core.Daemon

open Lib Lib.Fallible

/-! ### The rows of a peer -/

def everLinked (history : List Tables) (peer : PublicKey) : List GroupId :=
  (history.filterMap fun tables => ContactRepo.getGroupId tables peer).filter (· ≠ [])

/-- What a database holds about one peer, table by table. The cards are part of the contact. -/
structure PeerRows where
  contacts : List (PublicKey × ContactRow)
  groups : List (GroupId × GroupRow)
  messages : List ((GroupId × MessageId) × MessageRow)
  readState : List (GroupId × Nat)
  seenMessages : List ((PublicKey × MessageId) × Int)
  outbox : List ((PublicKey × MessageId) × OutboxRow)
  mailboxOutbox : List ((PublicKey × MessageId × Nat) × OutboxRow)
  attachments : List (AttachmentId × AttachmentRow)
  attachmentChunks : List ((AttachmentId × UInt32) × Unit)
  attachmentDeposits : List ((AttachmentId × UInt32) × ChunkDepositRow)
  pendingWelcomes : List (PublicKey × PendingWelcomeRow)
  firstContactAcks : List (KeyPackageRef × FirstContactAck)
  deriving DecidableEq

def PeerRows.none : PeerRows := ⟨[], [], [], [], [], [], [], [], [], [], [], []⟩

/-- The file came from the peer, or a chunk of it waits for the peer in a mailbox. -/
def isFileOf (tables : Tables) (peer : PublicKey) (id : AttachmentId) : Bool :=
  (tables.attachments.rows.any fun row => row.1 = id && row.2.peer = some peer) ||
    tables.attachmentDeposits.rows.any fun row => row.1.1 = id && row.2.recipient = peer

def rowsOf (tables : Tables) (linked : List GroupId) (peer : PublicKey) : PeerRows where
  contacts := tables.contacts.rows.filter fun row => row.1 = peer
  groups := tables.groups.rows.filter fun row => row.1 ∈ linked
  messages := tables.messages.rows.filter fun row => row.1.1 ∈ linked ∨ row.2.sender = peer
  readState := tables.readState.rows.filter fun row => row.1 ∈ linked
  seenMessages := tables.seenMessages.rows.filter fun row => row.1.1 = peer
  outbox := tables.outbox.rows.filter fun row => row.1.1 = peer
  mailboxOutbox := tables.mailboxOutbox.rows.filter fun row => row.1.1 = peer
  attachments := tables.attachments.rows.filter fun row => isFileOf tables peer row.1
  attachmentChunks := tables.attachmentChunks.rows.filter fun row => isFileOf tables peer row.1.1
  attachmentDeposits := tables.attachmentDeposits.rows.filter fun row =>
    isFileOf tables peer row.1.1
  pendingWelcomes := tables.pendingWelcomes.rows.filter fun row => row.1 = peer
  firstContactAcks := tables.firstContactAcks.rows.filter fun row => row.2.peerIdentity = peer

/-- No row is about the contact, and those of the other peers are as before; `me` is our own key,
which is the sender of messages too. -/
structure StartsClean (ever : PublicKey → List GroupId) (me contact : PublicKey)
    (before after : Tables) : Prop where
  purged : rowsOf after (ever contact) contact = .none
  others : ∀ other, other ≠ me → other ≠ contact →
    rowsOf after (ever other) other = rowsOf before (ever other) other

/-- The contact has nothing in the tables that the purge does not look at, and no row of an earlier
group. -/
structure OnlyPurged (linked : List GroupId) (contact : PublicKey) (groupId : GroupId)
    (tables : Tables) : Prop where
  groups : ∀ row ∈ tables.groups.rows, row.1 ∈ linked → row.1 = groupId
  messages : ∀ row ∈ tables.messages.rows, row.1.1 ∈ linked ∨ row.2.sender = contact →
    row.1.1 = groupId
  readState : ∀ row ∈ tables.readState.rows, row.1 ∉ linked
  seenMessages : ∀ row ∈ tables.seenMessages.rows, row.1.1 ≠ contact
  attachments : ∀ row ∈ tables.attachments.rows, row.2.peer ≠ some contact
  attachmentDeposits : ∀ row ∈ tables.attachmentDeposits.rows, row.2.recipient ≠ contact

/-- No other peer has a row in the group of the contact. -/
structure GroupUnshared (ever : PublicKey → List GroupId) (me contact : PublicKey)
    (groupId : GroupId) (tables : Tables) : Prop where
  groups : ∀ row ∈ tables.groups.rows, row.1 = groupId →
    ∀ other, other ≠ me → other ≠ contact → groupId ∉ ever other
  messages : ∀ row ∈ tables.messages.rows, row.1.1 = groupId →
    ∀ other, other ≠ me → other ≠ contact → groupId ∉ ever other ∧ row.2.sender ≠ other

/-! ### What the purge deletes -/

theorem isFileOf_purged (contact : PublicKey) (groupId : Option GroupId) (tables : Tables) :
    isFileOf (purged contact groupId tables) = isFileOf tables := rfl

variable {tables : Tables} {linked : List GroupId} {contact other peer : PublicKey}
  {groupId : GroupId}

theorem isFileOf_eq_true {id : AttachmentId} :
    isFileOf tables peer id = true ↔
      (∃ row ∈ tables.attachments.rows, row.1 = id ∧ row.2.peer = some peer) ∨
        ∃ row ∈ tables.attachmentDeposits.rows, row.1.1 = id ∧ row.2.recipient = peer := by
  simp [isFileOf]

theorem no_files_iff :
    ((tables.attachments.rows.filter fun row => isFileOf tables peer row.1) = [] ∧
      (tables.attachmentChunks.rows.filter fun row => isFileOf tables peer row.1.1) = [] ∧
      (tables.attachmentDeposits.rows.filter fun row => isFileOf tables peer row.1.1) = []) ↔
    (∀ row ∈ tables.attachments.rows, row.2.peer ≠ some peer) ∧
      ∀ row ∈ tables.attachmentDeposits.rows, row.2.recipient ≠ peer := by
  simp only [List.filter_eq_nil_iff]
  constructor
  · rintro ⟨hattachments, -, hdeposits⟩
    constructor
    · intro row hrow hpeer
      exact hattachments row hrow (isFileOf_eq_true.mpr (.inl ⟨row, hrow, rfl, hpeer⟩))
    · intro row hrow hrecipient
      exact hdeposits row hrow (isFileOf_eq_true.mpr (.inr ⟨row, hrow, rfl, hrecipient⟩))
  · rintro ⟨hattachments, hdeposits⟩
    have hnone : ∀ id, isFileOf tables peer id ≠ true := by
      intro id hfile
      rcases isFileOf_eq_true.mp hfile with ⟨row, hrow, -, hpeer⟩ | ⟨row, hrow, -, hrecipient⟩
      · exact hattachments row hrow hpeer
      · exact hdeposits row hrow hrecipient
    exact ⟨fun row _ => hnone row.1, fun row _ => hnone row.1.1, fun row _ => hnone row.1.1⟩

theorem purged_none_iff :
    rowsOf (purged contact (some groupId) tables) linked contact = .none ↔
      OnlyPurged linked contact groupId tables := by
  simp only [rowsOf, PeerRows.none, PeerRows.mk.injEq, isFileOf_purged]
  -- the tables that are keyed by the contact lose all its rows
  simp only [purged, Option.elim_some, Table.delete, Table.filter_deleteWhere_eq_nil,
    decide_eq_true_eq, decide_eq_false_iff_not, imp_self, implies_true, true_and, and_true]
  constructor
  · rintro ⟨hgroups, hmessages, hread, hseen, hattachments, hchunks, hdeposits⟩
    obtain ⟨hnone, hnever⟩ := no_files_iff.mp ⟨hattachments, hchunks, hdeposits⟩
    refine ⟨?_, ?_, ?_, ?_, hnone, hnever⟩
    · exact fun row hrow hlinked => not_imp_not.mp (hgroups row hrow) hlinked
    · exact fun row hrow hlinked => not_imp_not.mp (hmessages row hrow) hlinked
    · simpa [List.filter_eq_nil_iff] using hread
    · simpa [List.filter_eq_nil_iff] using hseen
  · intro h
    refine ⟨?_, ?_, ?_, ?_, no_files_iff.mpr ⟨h.attachments, h.attachmentDeposits⟩⟩
    · exact fun row hrow => mt (h.groups row hrow)
    · exact fun row hrow => mt (h.messages row hrow)
    · simpa [List.filter_eq_nil_iff] using h.readState
    · simpa [List.filter_eq_nil_iff] using h.seenMessages

theorem purged_other_iff (hother : other ≠ contact) :
    rowsOf (purged contact (some groupId) tables) linked other = rowsOf tables linked other ↔
      (∀ row ∈ tables.groups.rows, row.1 = groupId → groupId ∉ linked) ∧
        ∀ row ∈ tables.messages.rows, row.1.1 = groupId →
          groupId ∉ linked ∧ row.2.sender ≠ other := by
  simp only [rowsOf, PeerRows.mk.injEq, isFileOf_purged]
  -- the rows that are keyed by the other peer are not those of the contact
  have hkept : ∀ peer : PublicKey, (peer = other → ¬peer = contact) ↔ True :=
    fun _ => iff_true_intro fun hpeer => hpeer ▸ hother
  simp only [purged, Option.elim_some, Table.delete, Table.filter_deleteWhere_eq,
    decide_eq_true_eq, decide_eq_false_iff_not, hkept, implies_true, true_and, and_true]
  constructor
  · rintro ⟨hgroups, hmessages⟩
    constructor
    · rintro row hrow rfl hlinked
      exact hgroups row hrow hlinked rfl
    · rintro row hrow rfl
      exact ⟨fun hlinked => hmessages row hrow (.inl hlinked) rfl,
        fun hsender => hmessages row hrow (.inr hsender) rfl⟩
  · rintro ⟨hgroups, hmessages⟩
    constructor
    · rintro row hrow hlinked rfl
      exact hgroups row hrow rfl hlinked
    · rintro row hrow hof rfl
      obtain ⟨hlinked, hsender⟩ := hmessages row hrow rfl
      exact hof.elim hlinked hsender

/-! ### A hard removal -/

/-- When the removal of a pending contact was hard, it left no row about the contact, nor about any
group that the contact was ever linked to, and changed no row of another peer, exactly when before
it the contact had no read marker, no dedup entry, no file and no row of an earlier group, and
shared its group with no other peer. -/
theorem purge_clean_iff (env : RemoveEnv) (me contact : PublicKey) (history : List Tables)
    {s t : State} (h : exec (removeContact env contact) s = (.ok true, t)) :
    ∃ row, s.tables.contacts.get contact = some row ∧
      (StartsClean (everLinked (s.tables :: history)) me contact s.tables t.tables ↔
        OnlyPurged (everLinked (s.tables :: history) contact) contact row.groupId s.tables ∧
          GroupUnshared (everLinked (s.tables :: history)) me contact row.groupId s.tables) := by
  rcases removeContact_cases h with ⟨_, hresult, -⟩ | ⟨-, row, hrow, htables⟩ | ⟨hresult, -⟩
  · cases hresult
  · refine ⟨row, hrow, ?_⟩
    rw [htables]
    constructor
    · intro hclean
      refine ⟨purged_none_iff.mp hclean.purged, ?_, ?_⟩
      · intro group hgroup hid other hme hcontact
        exact ((purged_other_iff hcontact).mp (hclean.others other hme hcontact)).1 group hgroup hid
      · intro message hmessage hid other hme hcontact
        exact ((purged_other_iff hcontact).mp (hclean.others other hme hcontact)).2 message hmessage
          hid
    · rintro ⟨honly, hunshared⟩
      refine ⟨purged_none_iff.mpr honly, fun other hme hcontact => ?_⟩
      refine (purged_other_iff hcontact).mpr ⟨?_, ?_⟩
      · intro group hgroup hid
        exact hunshared.groups group hgroup hid other hme hcontact
      · intro message hmessage hid
        exact hunshared.messages message hmessage hid other hme hcontact
  · cases hresult

/-! ### A contact that is added again -/

/-- What an `AddContact` writes: the contact, linked to a new group, and its Welcome. -/
def addTo (groupId : GroupId) : DbTx Unit := do
  ContactRepo.upsertInTx (.fill 32 2) none 0
  MlsGroupRepo.putInTx groupId [] 0
  ContactRepo.setGroupIdInTx (.fill 32 2) groupId
  PendingWelcomeRepo.insertInTx (.fill 32 2) groupId [] 0 0

def talkAndArchive : DbTx Unit := do
  PendingWelcomeRepo.delete (.fill 32 2)
  let _ ← SeenMessagesRepo.insertInTx (.fill 32 2) (.fill 16 5) 0
  MessageRepo.insertInTx (fun _ => .ok []) [1]
    ⟨.fill 32 2, ⟨1, .fill 16 5, 0, none, .text "hi"⟩, 0, 0⟩
  ContactRepo.setHidden (.fill 32 2) true

def justAdded : Tables := (Pool.transaction none (addTo [1]) .empty).2

/-- The archived contact, with a message that was read and a file that was received. -/
def archivedContact : Tables :=
  { (Pool.transaction none talkAndArchive justAdded).2 with
    readState := Table.empty.put [1] 1
    attachments := Table.empty.put (.fill 16 6) ⟨.inbound, [], 1, .complete, 0, some (.fill 32 2)⟩
    attachmentChunks := Table.empty.put (.fill 16 6, 0) () }

def rejoining : Tables := (Pool.transaction none (addTo [2]) archivedContact).2

/-- The hard removal of a contact that was active before leaves the first group with its message
and read marker, the dedup entry, and the file with its chunk. -/
theorem earlier_history_stays :
    ∃ t, exec (removeContact removeFree (.fill 32 2)) ⟨rejoining, [], [], []⟩ = (.ok true, t) ∧
      (rowsOf t.tables (everLinked [rejoining, archivedContact, justAdded] (.fill 32 2))
        (.fill 32 2)).groups = [([1], ⟨[], 0⟩)] ∧
      t.tables.messages.keys = [([1], .fill 16 5)] ∧ t.tables.readState.keys = [[1]] ∧
      t.tables.seenMessages.keys = [(.fill 32 2, .fill 16 5)] ∧
      t.tables.attachments.keys = [.fill 16 6] ∧
      t.tables.attachmentChunks.keys = [(.fill 16 6, 0)] ∧
      ¬StartsClean (everLinked [rejoining, archivedContact, justAdded]) (.fill 32 1) (.fill 32 2)
        rejoining t.tables := by
  refine ⟨_, rfl, by decide, by decide, by decide, by decide, by decide, by decide, ?_⟩
  intro h
  have hgroups := congrArg PeerRows.groups h.purged
  revert hgroups
  decide

theorem everLinked_justAdded (hother : other ≠ .fill 32 2) :
    everLinked [justAdded, .empty] other = [] := by
  have hkeys : justAdded.contacts.keys = [.fill 32 2] := by decide
  have hunknown : ContactRepo.getGroupId justAdded other = none := by
    rw [ContactRepo.getGroupId, Option.map_eq_none_iff, Table.get_eq_none_iff, hkeys]
    exact fun hmem => hother (List.mem_singleton.mp hmem)
  simp only [everLinked, List.filterMap_cons, hunknown]
  rfl

/-- The hard removal of a contact that was just added starts clean. -/
theorem just_added_purged :
    ∃ t, exec (removeContact removeFree (.fill 32 2)) ⟨justAdded, [], [], []⟩ = (.ok true, t) ∧
      StartsClean (everLinked [justAdded, .empty]) (.fill 32 1) (.fill 32 2) justAdded
        t.tables := by
  refine ⟨_, rfl, ?_⟩
  obtain ⟨row, hrow, hclean⟩ := @purge_clean_iff removeFree (.fill 32 1) (.fill 32 2) [.empty]
    ⟨justAdded, [], [], []⟩ _ rfl
  cases hrow
  refine hclean.mpr ⟨⟨by decide, by decide, by decide, by decide, by decide, by decide⟩, ?_, ?_⟩
  · intro group _ _ other _ hother
    rw [everLinked_justAdded hother]
    exact List.not_mem_nil
  · intro message hmessage
    exact absurd hmessage List.not_mem_nil

end Skattr.Core.Daemon
