import Skattr.Core.Storage.Tables
import Skattr.Lib.Run
import Mathlib.Data.List.Perm.Lattice
import Mathlib.Order.Bounds.Defs

/-!
# The messages, their search index and the read cursors

The index is kept in step with the table by three triggers. `search_exact_iff` says that after any
statements it holds one entry for each text row with a text, and that a search finds what is stored
exactly when its query has no NUL: FTS5 reads the expression as a C string, and a NUL leaves a
quoted word open (`nul_query_refused`). The read cursor of a group is overwritten by every
`MarkRead`: `read_state_forward_iff` says that it is the largest id ever marked exactly when no
request is behind it, and `stale_mark_unreads` shows a stale one.
-/

namespace Skattr.Core.Storage

open Lib

/-- A row of `messages`; `isText` stands for the kind `text`. -/
structure Message where
  id : Nat
  groupId : GroupId
  envelopeId : Option MessageId
  isText : Bool
  bodyBlob : Option Bytes
  bodyText : Option String
  tsDaemonRecv : Int
  deriving DecidableEq

def Message.entry (row : Message) : Option (Nat × String) :=
  if row.isText then row.bodyText.map (row.id, ·) else none

/-- The index. A delete that does not repeat an indexed text corrupts it. -/
structure FtsIndex where
  entries : List (Nat × String)
  corrupt : Bool
  deriving DecidableEq

/-- What a trigger does for a row: delete the old entry, insert the new one. -/
def FtsIndex.replace (fts : FtsIndex) (old new : Option (Nat × String)) : FtsIndex where
  entries := (old.elim fts.entries fts.entries.erase) ++ new.toList
  corrupt := fts.corrupt || old.any (· ∉ fts.entries)

def FtsIndex.apply (fts : FtsIndex)
    (changes : List (Option (Nat × String) × Option (Nat × String))) : FtsIndex :=
  changes.foldl (fun fts change => fts.replace change.1 change.2) fts

/-- The tables; `marked` records what was ever marked as read. -/
structure MessageDb where
  rows : List Message
  nextId : Nat
  fts : FtsIndex
  readState : Table GroupId Int
  marked : List (GroupId × Int)

namespace MessageDb

variable {db : MessageDb}

/-- A statement that deletes or changes the rows of a condition, and what the triggers do. -/
def alter (p : Message → Bool) (f : Message → Option Message) (db : MessageDb) : MessageDb :=
  { db with
    rows := db.rows.filterMap fun row => if p row then f row else some row
    fts := db.fts.apply
      ((db.rows.filter p).map fun row => (row.entry, (f row).bind Message.entry)) }

def deleteWhere (p : Message → Bool) (db : MessageDb) : MessageDb := db.alter p fun _ => none

def setBodyText (id : Nat) (text : String) (db : MessageDb) : MessageDb :=
  db.alter (fun row => row.id = id) fun row => some { row with bodyText := some text }

/-- `UPDATE messages SET envelope_id = ?1 WHERE id = ?2`, which fires no trigger. -/
def setEnvelopeId (id : Nat) (envelopeId : MessageId) (db : MessageDb) : MessageDb :=
  { db with rows := db.rows.map fun row =>
      if row.id = id then { row with envelopeId := some envelopeId } else row }

def hasEnvelope (db : MessageDb) (groupId : GroupId) (envelopeId : MessageId) : Bool :=
  db.rows.any fun row => row.groupId = groupId && row.envelopeId = some envelopeId

def insertInTx (groupId : GroupId) (envelope : Envelope) (body : Bytes) (tsDaemonRecv : Int)
    (db : MessageDb) : MessageDb :=
  if db.hasEnvelope groupId envelope.id then db
  else
    let bodyText := match envelope.kind with
      | .text text => some text
      | _ => none
    let row := ⟨db.nextId, groupId, some envelope.id, bodyText.isSome, some body, bodyText,
      tsDaemonRecv⟩
    { db with
      rows := db.rows ++ [row], nextId := db.nextId + 1, fts := db.fts.apply [(none, row.entry)] }

/-- Fill in the text of the text rows without one; a row without a body fails the call. -/
def backfillBodyText (decode : Bytes → Option Envelope) (db : MessageDb) : MessageDb :=
  let candidates := db.rows.filter fun row => row.isText && row.bodyText.isNone
  if candidates.any (·.bodyBlob.isNone) then db
  else
    candidates.foldl (fun db row =>
      match (decode (row.bodyBlob.getD [])).map Envelope.kind with
      | some (.text text) => db.setBodyText row.id text
      | _ => db) db

def backfillEnvelopeId (decode : Bytes → Option Envelope) (db : MessageDb) : MessageDb :=
  let candidates := db.rows.filter (·.envelopeId.isNone)
  if candidates.any (·.bodyBlob.isNone) then db
  else
    candidates.foldl (fun db row =>
      match decode (row.bodyBlob.getD []) with
      | none => db
      | some envelope =>
        if db.hasEnvelope row.groupId envelope.id then db.deleteWhere (·.id = row.id)
        else db.setEnvelopeId row.id envelope.id) db

def pruneBefore (groupId : Option GroupId) (beforeTsRecv : Int) (db : MessageDb) : MessageDb :=
  db.deleteWhere fun row => groupId.all (· = row.groupId) && row.tsDaemonRecv < beforeTsRecv

/-- The rows are those of the table that deduplication and retention work on. -/
def Holds (db : MessageDb) (messages : Table (GroupId × MessageId) MessageRow) : Prop :=
  db.rows.map (fun row => (row.groupId, row.envelopeId, row.tsDaemonRecv)) =
    messages.rows.map fun row => (row.1.1, some row.1.2, row.2.tsDaemonRecv)

theorem rows_deleteWhere (p : Message → Bool) :
    (db.deleteWhere p).rows = db.rows.filter fun row => !p row := by
  rw [← List.filterMap_eq_filter]
  refine List.filterMap_congr fun row _ => ?_
  cases hp : p row <;> simp [Option.guard, hp]

theorem Holds.pruneBefore {messages : Table (GroupId × MessageId) MessageRow}
    (h : db.Holds messages) (groupId : Option GroupId) (beforeTsRecv : Int) :
    (db.pruneBefore groupId beforeTsRecv).Holds
      (MessageRepo.pruneBefore groupId beforeTsRecv messages) := by
  -- both deletions see the columns of the map only
  have hkept := congrArg (List.filter fun (columns : GroupId × Option MessageId × Int) =>
    !(groupId.all (· = columns.1) && columns.2.2 < beforeTsRecv)) h
  rw [List.filter_map, List.filter_map] at hkept
  rw [Holds, MessageDb.pruneBefore, rows_deleteWhere]
  refine hkept.trans (congrArg (List.map _) (List.filter_congr fun row _ => ?_))
  simp

/-- Keep the newest rows of the group: delete up to the first row that is not among them. -/
def pruneKeepLast (groupId : GroupId) (keep : Nat) (db : MessageDb) : MessageDb :=
  let last := (db.rows.filter fun row => row.groupId = groupId).reverse[keep]?
  db.deleteWhere fun row => row.groupId = groupId && last.any fun last => row.id ≤ last.id

/-- The cursor of the contact's group is overwritten; a contact without a group is not found. -/
def markRead (groupId : Option GroupId) (upToMessageId : Int) (db : MessageDb) : MessageDb :=
  match groupId.filter (· ≠ []) with
  | none => db
  | some groupId =>
    { db with
      readState := db.readState.put groupId upToMessageId
      marked := db.marked ++ [(groupId, upToMessageId)] }

def isUnread (db : MessageDb) (row : Message) : Bool :=
  (db.readState.get row.groupId).all fun cursor => cursor < (row.id : Int)

def unreadCount (db : MessageDb) (groupId : GroupId) : Nat :=
  (db.rows.filter fun row => row.groupId = groupId && db.isUnread row).length

end MessageDb

/-- What is done to the messages. A mark names the group that the contact has at that time. -/
inductive MessageOp where
  | insert (groupId : GroupId) (envelope : Envelope) (body : Bytes) (tsDaemonRecv : Int)
  | backfillBodyText
  | backfillEnvelopeId
  | pruneBefore (groupId : Option GroupId) (beforeTsRecv : Int)
  | pruneKeepLast (groupId : GroupId) (keep : Nat)
  | deleteByGroup (groupId : GroupId)
  | markRead (groupId : Option GroupId) (upToMessageId : Int)

def MessageDb.step (decode : Bytes → Option Envelope) (db : MessageDb) : MessageOp → MessageDb
  | .insert groupId envelope body tsDaemonRecv => db.insertInTx groupId envelope body tsDaemonRecv
  | .backfillBodyText => db.backfillBodyText decode
  | .backfillEnvelopeId => db.backfillEnvelopeId decode
  | .pruneBefore groupId beforeTsRecv => db.pruneBefore groupId beforeTsRecv
  | .pruneKeepLast groupId keep => db.pruneKeepLast groupId keep
  | .deleteByGroup groupId => db.deleteWhere fun row => row.groupId = groupId
  | .markRead groupId upToMessageId => db.markRead groupId upToMessageId

/-! ### Queries -/

def splitWhitespace (query : List Char) : List (List Char) :=
  (query.splitOnP isWhitespace).filter (· ≠ [])

def escapeQuotes (word : List Char) : List Char :=
  word.flatMap fun c => if c = '"' then ['"', '"'] else [c]

def joinWords (words : List (List Char)) : List Char :=
  [' ', 'A', 'N', 'D', ' '].intercalate (words.map fun word => '"' :: escapeQuotes word ++ ['"'])

/-- The expression that asks for every word, or nothing for a blank query. -/
def fts5TokenizeAndAnd (query : List Char) : Option (List Char) :=
  match splitWhitespace query with
  | [] => none
  | words => some (joinWords words)

/-- A token of the expression language: a quoted string or the operator. -/
inductive FtsToken where
  | string (text : List Char)
  | and
  deriving DecidableEq

/-- Read the tokens, inside a string that began with the given text or outside of strings. Two
quotes in a string stand for one. -/
def lexMatch : Option (List Char) → List Char → Option (List FtsToken)
  | none, [] => some []
  | none, ' ' :: rest => lexMatch none rest
  | none, 'A' :: 'N' :: 'D' :: ' ' :: rest => (lexMatch none rest).map (.and :: ·)
  | none, '"' :: rest => lexMatch (some []) rest
  | none, _ => none
  | some _, [] => none
  | some text, '"' :: '"' :: rest => lexMatch (some (text ++ ['"'])) rest
  | some text, '"' :: rest => (lexMatch none rest).map (.string text :: ·)
  | some text, c :: rest => lexMatch (some (text ++ [c])) rest

def conjuncts : List FtsToken → Option (List (List Char))
  | [.string text] => some [text]
  | .string text :: .and :: rest => (conjuncts rest).map (text :: ·)
  | _ => none

def NUL : Char := Char.ofNat 0

def cString (expr : List Char) : List Char := expr.takeWhile (· ≠ NUL)

/-- Search the index; a syntax error fails. The hits are joined with their rows, and not ordered or
paged yet. -/
def MessageDb.search (satisfies : List (List Char) → String → Bool) (db : MessageDb)
    (query : List Char) (groupId : Option GroupId) : Option (List Message) :=
  match fts5TokenizeAndAnd query with
  | none => some []
  | some expr => ((lexMatch none (cString expr)).bind conjuncts).map fun words =>
      (db.fts.entries.filter fun entry => satisfies words entry.2).flatMap fun entry =>
        db.rows.filter fun row => row.id = entry.1 && groupId.all (· = row.groupId)

/-! ### The index -/

theorem FtsIndex.apply_perm {fts : FtsIndex} {rest : List (Nat × String)}
    (changes : List (Option (Nat × String) × Option (Nat × String)))
    (h : fts.entries.Perm (rest ++ changes.filterMap Prod.fst)) :
    (fts.apply changes).corrupt = fts.corrupt ∧
      (fts.apply changes).entries.Perm (rest ++ changes.filterMap Prod.snd) := by
  induction changes generalizing fts rest with
  | nil => exact ⟨rfl, h⟩
  | cons change changes ih =>
    obtain ⟨old, new⟩ := change
    have hnew : ((old, new) :: changes).filterMap Prod.snd =
        new.toList ++ changes.filterMap Prod.snd := by
      cases new <;> rfl
    obtain ⟨hold, hintact⟩ : (old.elim fts.entries fts.entries.erase).Perm
          (rest ++ changes.filterMap Prod.fst) ∧ old.any (· ∉ fts.entries) = false := by
      cases old with
      | none => exact ⟨h, rfl⟩
      | some entry =>
        have hfirst : fts.entries.Perm (entry :: (rest ++ changes.filterMap Prod.fst)) :=
          h.trans List.perm_middle
        refine ⟨?_, decide_eq_false (not_not.mpr (hfirst.mem_iff.mpr List.mem_cons_self))⟩
        have herase := hfirst.erase entry
        rwa [List.erase_cons_head] at herase
    have hreplaced : (fts.replace old new).entries.Perm
        (rest ++ new.toList ++ changes.filterMap Prod.fst) := by
      refine (hold.append_right new.toList).trans ?_
      rw [List.append_assoc, List.append_assoc]
      exact List.perm_append_comm.append_left rest
    obtain ⟨hcorrupt, hentries⟩ := ih hreplaced
    refine ⟨hcorrupt.trans ?_, ?_⟩
    · rw [FtsIndex.replace, hintact, Bool.or_false]
    · rw [hnew, ← List.append_assoc]
      exact hentries

namespace MessageDb

variable {db : MessageDb}

/-- The row ids grow and were issued, and the index holds one entry for each row with a text. -/
structure Sound (db : MessageDb) : Prop where
  ids : db.rows.Pairwise fun row later => row.id < later.id
  issued : ∀ row ∈ db.rows, row.id < db.nextId
  indexed : db.fts.entries.Perm (db.rows.filterMap Message.entry)
  intact : db.fts.corrupt = false

theorem Sound.alter (h : db.Sound) (p : Message → Bool) {f : Message → Option Message}
    (hf : ∀ row, ∀ new ∈ f row, new.id = row.id) : (db.alter p f).Sound := by
  set g : Message → Option Message := fun row => if p row then f row else some row with hg
  have hid (row new : Message) (hnew : g row = some new) : new.id = row.id := by
    rw [hg] at hnew
    dsimp only at hnew
    split at hnew
    · exact hf row new hnew
    · cases hnew
      rfl
  -- the rows apart from those of the condition stay indexed as they are
  have hsplit (e : Message → Option (Nat × String)) : (db.rows.filterMap e).Perm
      ((db.rows.filter fun row => !p row).filterMap e ++ (db.rows.filter p).filterMap e) := by
    rw [← List.filterMap_append]
    exact ((List.filter_append_perm p db.rows).symm.trans List.perm_append_comm).filterMap e
  obtain ⟨hcorrupt, hentries⟩ := FtsIndex.apply_perm
    ((db.rows.filter p).map fun row => (row.entry, (f row).bind Message.entry))
    (by rw [List.filterMap_map]; exact h.indexed.trans (hsplit Message.entry))
  refine ⟨?_, fun new hnew => ?_, ?_, hcorrupt.trans h.intact⟩
  · refine h.ids.filterMap g fun row later hlt new hnew next hnext => ?_
    rw [hid row new hnew, hid later next hnext]
    exact hlt
  · obtain ⟨row, hrow, hnew⟩ := List.mem_filterMap.mp hnew
    rw [hid row new hnew]
    exact h.issued row hrow
  · show (db.fts.apply _).entries.Perm ((db.rows.filterMap g).filterMap Message.entry)
    rw [List.filterMap_filterMap]
    refine hentries.trans (List.Perm.trans ?_ (hsplit _).symm)
    rw [List.filterMap_map]
    refine .of_eq (congrArg₂ (· ++ ·) (List.filterMap_congr fun row hrow => ?_)
      (List.filterMap_congr fun row hrow => ?_))
    · have hnot : p row = false := Bool.not_eq_true' _ |>.mp (List.mem_filter.mp hrow).2
      rw [hg]
      simp only [hnot, Bool.false_eq_true, if_false, Option.bind_some]
    · rw [hg]
      simp only [(List.mem_filter.mp hrow).2, if_true, Function.comp_apply]

theorem Sound.deleteWhere (h : db.Sound) (p : Message → Bool) : (db.deleteWhere p).Sound :=
  h.alter p fun _ _ hnone => nomatch hnone

theorem Sound.setBodyText (h : db.Sound) (id : Nat) (text : String) :
    (db.setBodyText id text).Sound :=
  h.alter _ fun _ _ hnew => by cases hnew; rfl

theorem Sound.setEnvelopeId (h : db.Sound) (id : Nat) (envelopeId : MessageId) :
    (db.setEnvelopeId id envelopeId).Sound := by
  have hsame (row : Message) :
      (if row.id = id then { row with envelopeId := some envelopeId } else row).entry = row.entry ∧
      (if row.id = id then { row with envelopeId := some envelopeId } else row).id = row.id := by
    split <;> exact ⟨rfl, rfl⟩
  refine ⟨?_, fun new hnew => ?_, ?_, h.intact⟩
  · refine List.pairwise_map.mpr (h.ids.imp fun {row later} hlt => ?_)
    rw [(hsame row).2, (hsame later).2]
    exact hlt
  · obtain ⟨row, hrow, rfl⟩ := List.mem_map.mp hnew
    rw [(hsame row).2]
    exact h.issued row hrow
  · show db.fts.entries.Perm ((db.rows.map _).filterMap Message.entry)
    rw [List.filterMap_map]
    refine h.indexed.trans (.of_eq (List.filterMap_congr fun row _ => ?_))
    exact (hsame row).1.symm

theorem Sound.insertInTx (h : db.Sound) (groupId : GroupId) (envelope : Envelope) (body : Bytes)
    (tsDaemonRecv : Int) : (db.insertInTx groupId envelope body tsDaemonRecv).Sound := by
  unfold MessageDb.insertInTx
  split
  · exact h
  dsimp only
  set row : Message := ⟨db.nextId, groupId, some envelope.id, _, some body, _, tsDaemonRecv⟩
  have hindexed : db.fts.entries.Perm (db.rows.filterMap Message.entry ++
      [((none : Option (Nat × String)), row.entry)].filterMap Prod.fst) := by
    rw [List.filterMap_cons_none rfl, List.filterMap_nil, List.append_nil]
    exact h.indexed
  obtain ⟨hcorrupt, hentries⟩ := FtsIndex.apply_perm _ hindexed
  refine ⟨?_, fun other hother => ?_, ?_, hcorrupt.trans h.intact⟩
  · refine List.pairwise_append.mpr
      ⟨h.ids, List.pairwise_singleton _ _, fun other hother last hlast => ?_⟩
    rw [List.mem_singleton.mp hlast]
    exact h.issued other hother
  · rcases List.mem_append.mp hother with hold | hlast
    · exact (h.issued other hold).trans (Nat.lt_succ_self _)
    · rw [List.mem_singleton.mp hlast]
      exact Nat.lt_succ_self _
  · rw [List.filterMap_append]
    exact hentries

theorem Sound.step (decode : Bytes → Option Envelope) (op : MessageOp) (h : db.Sound) :
    (db.step decode op).Sound := by
  cases op with
  | insert groupId envelope body tsDaemonRecv =>
    exact h.insertInTx groupId envelope body tsDaemonRecv
  | backfillBodyText =>
    show (MessageDb.backfillBodyText ..).Sound
    unfold MessageDb.backfillBodyText
    dsimp only
    split
    · exact h
    · refine foldl_invariant (fun db row hdb => ?_) _ h
      split
      · exact hdb.setBodyText _ _
      · exact hdb
  | backfillEnvelopeId =>
    show (MessageDb.backfillEnvelopeId ..).Sound
    unfold MessageDb.backfillEnvelopeId
    dsimp only
    split
    · exact h
    · refine foldl_invariant (fun db row hdb => ?_) _ h
      split
      · exact hdb
      · split
        · exact hdb.deleteWhere _
        · exact hdb.setEnvelopeId _ _
  | pruneBefore | pruneKeepLast | deleteByGroup => exact h.deleteWhere _
  | markRead groupId upToMessageId =>
    show (MessageDb.markRead ..).Sound
    unfold MessageDb.markRead
    split
    · exact h
    · exact ⟨h.ids, h.issued, h.indexed, h.intact⟩

theorem Sound.filter_id (h : db.Sound) {row : Message} (hrow : row ∈ db.rows)
    (p : Message → Bool) :
    db.rows.filter (fun other => other.id = row.id && p other) = [row].filter p := by
  obtain ⟨before, after, hrows⟩ := List.append_of_mem hrow
  have hids := h.ids
  rw [hrows, List.pairwise_append, List.pairwise_cons] at hids
  obtain ⟨-, ⟨hafter, -⟩, hbefore⟩ := hids
  have hone : db.rows.filter (fun other => decide (other.id = row.id)) = [row] := by
    have hnone : before.filter (fun other => decide (other.id = row.id)) = [] :=
      List.filter_eq_nil_iff.mpr fun other hother heq =>
        (hbefore other hother row List.mem_cons_self).ne (of_decide_eq_true heq)
    have hrest : after.filter (fun other => decide (other.id = row.id)) = [] :=
      List.filter_eq_nil_iff.mpr fun other hother heq =>
        (hafter other hother).ne' (of_decide_eq_true heq)
    rw [hrows, List.filter_append, hnone, List.filter_cons, hrest, decide_eq_true rfl, if_pos rfl]
    rfl
  rw [← hone, List.filter_filter]
  exact List.filter_congr fun other _ => Bool.and_comm _ _

theorem Sound.join_eq (h : db.Sound) (satisfied : String → Bool) (p : Message → Bool)
    {rows : List Message} (hrows : rows ⊆ db.rows) :
    (((rows.filterMap Message.entry).filter fun entry => satisfied entry.2).flatMap fun entry =>
        db.rows.filter fun row => row.id = entry.1 && p row) =
      rows.filter fun row => (row.isText && row.bodyText.any satisfied) && p row := by
  induction rows with
  | nil => rfl
  | cons row rows ih =>
    have ih := ih fun other hother => hrows (List.mem_cons_of_mem _ hother)
    have hid := h.filter_id (hrows List.mem_cons_self) p
    cases hentry : row.entry with
    | none =>
      have hnot : (row.isText && row.bodyText.any satisfied) = false := by
        unfold Message.entry at hentry
        split at hentry
        · rw [Option.map_eq_none_iff.mp hentry, Option.any_none, Bool.and_false]
        · rename_i hkind
          rw [(Bool.not_eq_true _).mp hkind, Bool.false_and]
      rw [List.filterMap_cons_none hentry, ih, List.filter_cons, hnot, Bool.false_and]
      rfl
    | some entry =>
      obtain ⟨hkind, text, htext, rfl⟩ : row.isText = true ∧
          ∃ text, row.bodyText = some text ∧ (row.id, text) = entry := by
        unfold Message.entry at hentry
        split at hentry
        · exact ⟨‹_›, Option.map_eq_some_iff.mp hentry⟩
        · cases hentry
      rw [List.filterMap_cons_some hentry]
      cases hsat : satisfied text with
      | false =>
        rw [List.filter_cons_of_neg (by rw [hsat]; exact Bool.false_ne_true), ih,
          List.filter_cons_of_neg]
        rw [htext, Option.any_some, hsat, Bool.and_false, Bool.false_and]
        exact Bool.false_ne_true
      | true =>
        rw [List.filter_cons_of_pos (by exact hsat), List.flatMap_cons, hid, ih]
        rw [List.filter_cons, List.filter_cons, hkind, htext, Option.any_some, hsat]
        cases p row <;> rfl

end MessageDb

/-! ### Which queries are refused -/

theorem lexMatch_escapeQuotes (word text rest : List Char)
    (hrest : rest.head? ≠ some '"') : lexMatch (some text) (escapeQuotes word ++ '"' :: rest) =
      (lexMatch none rest).map (.string (text ++ word) :: ·) := by
  induction word generalizing text with
  | nil =>
    rw [List.append_nil]
    show lexMatch (some text) ('"' :: rest) = _
    exact lexMatch.eq_8 text rest fun other hother => hrest (hother ▸ rfl)
  | cons c word ih =>
    have hstep : lexMatch (some text) (escapeQuotes (c :: word) ++ '"' :: rest) =
        lexMatch (some (text ++ [c])) (escapeQuotes word ++ '"' :: rest) := by
      rw [escapeQuotes, List.flatMap_cons]
      split
      · rename_i hc
        rw [hc]
        rfl
      · rename_i hc
        show lexMatch (some text) (c :: (escapeQuotes word ++ '"' :: rest)) = _
        exact lexMatch.eq_9 text c _ (fun _ hquote _ => hc hquote) hc
    rw [hstep, ih (text ++ [c]), List.append_assoc]
    rfl

theorem joinWords_singleton (word : List Char) :
    joinWords [word] = '"' :: (escapeQuotes word ++ ['"']) := List.append_nil _

theorem joinWords_cons (word next : List Char) (words : List (List Char)) :
    joinWords (word :: next :: words) = '"' :: (escapeQuotes word ++
      '"' :: ' ' :: 'A' :: 'N' :: 'D' :: ' ' :: joinWords (next :: words)) := by
  simp [joinWords, List.intercalate]

theorem conjuncts_lexMatch (word : List Char) (words : List (List Char)) :
    (lexMatch none (joinWords (word :: words))).bind conjuncts = some (word :: words) := by
  induction words generalizing word with
  | nil =>
    rw [joinWords_singleton, lexMatch, lexMatch_escapeQuotes word [] [] nofun]
    rfl
  | cons next words ih =>
    obtain ⟨tokens, htokens, hwords⟩ := Option.bind_eq_some_iff.mp (ih next)
    rw [joinWords_cons, lexMatch, lexMatch_escapeQuotes word [] _ (by simp), lexMatch, lexMatch,
      htokens]
    show (conjuncts tokens).map (word :: ·) = _
    rw [hwords]
    rfl

theorem ne_nul_of_mem_escapeQuotes {word : List Char} (h : NUL ∉ word) :
    ∀ c ∈ escapeQuotes word, decide (c ≠ NUL) = true := by
  intro c hc
  obtain ⟨d, hd, hmem⟩ := List.mem_flatMap.mp hc
  refine decide_eq_true fun hnul => ?_
  subst hnul
  split at hmem
  · exact absurd hmem (by decide)
  · exact h (List.mem_singleton.mp hmem ▸ hd)

theorem cString_escapeQuotes {word : List Char} (h : NUL ∈ word) (rest : List Char) :
    ∃ cut, cString (escapeQuotes word ++ rest) = escapeQuotes cut := by
  refine ⟨word.takeWhile (· ≠ NUL), ?_⟩
  induction word with
  | nil => cases h
  | cons c word ih =>
    by_cases hc : c = NUL
    · subst hc
      rfl
    · have hrest := ih ((List.mem_cons.mp h).resolve_left (Ne.symm hc))
      have hcut : (c :: word).takeWhile (· ≠ NUL) = c :: word.takeWhile (· ≠ NUL) :=
        List.takeWhile_cons_of_pos (decide_eq_true hc)
      rw [hcut, escapeQuotes, escapeQuotes, List.flatMap_cons, List.flatMap_cons,
        List.append_assoc, cString, List.takeWhile_append_of_pos]
      · exact congrArg _ hrest
      · intro d hd
        split at hd <;> simp_all [NUL]

theorem lexMatch_open (text cut : List Char) : lexMatch (some text) (escapeQuotes cut) = none := by
  induction cut generalizing text with
  | nil => rfl
  | cons c cut ih =>
    rw [escapeQuotes, List.flatMap_cons]
    split
    · exact ih _
    · next hc =>
      show lexMatch (some text) (c :: escapeQuotes cut) = _
      rw [lexMatch.eq_9 text c _ (fun _ hquote _ => hc hquote) hc, ih]

theorem cString_word {word : List Char} (h : NUL ∉ word) (rest : List Char) :
    cString ('"' :: (escapeQuotes word ++ rest)) = '"' :: (escapeQuotes word ++ cString rest) :=
  congrArg _ (List.takeWhile_append_of_pos (ne_nul_of_mem_escapeQuotes h))

theorem lexMatch_cut {word : List Char} (h : NUL ∈ word) (rest : List Char) :
    lexMatch none (cString ('"' :: (escapeQuotes word ++ rest))) = none := by
  obtain ⟨cut, hcut⟩ := cString_escapeQuotes h rest
  show lexMatch none ('"' :: cString (escapeQuotes word ++ rest)) = none
  rw [hcut, lexMatch, lexMatch_open]

theorem cString_joinWords {words : List (List Char)} (h : ∀ word ∈ words, NUL ∉ word) :
    cString (joinWords words) = joinWords words := by
  match words with
  | [] => rfl
  | [word] =>
    rw [joinWords_singleton, cString_word (h word List.mem_cons_self)]
    rfl
  | word :: next :: words =>
    have hrest := cString_joinWords fun other hother => h other (List.mem_cons_of_mem _ hother)
    rw [joinWords_cons, cString_word (h word List.mem_cons_self)]
    exact congrArg (fun rest => '"' :: (escapeQuotes word ++
      '"' :: ' ' :: 'A' :: 'N' :: 'D' :: ' ' :: rest)) hrest

theorem lexMatch_joinWords_of_nul {words : List (List Char)} (h : ∃ word ∈ words, NUL ∈ word) :
    lexMatch none (cString (joinWords words)) = none := by
  match words with
  | [] => simp at h
  | [word] =>
    rw [joinWords_singleton]
    exact lexMatch_cut (by simpa using h) _
  | word :: next :: words =>
    rw [joinWords_cons]
    by_cases hfirst : NUL ∈ word
    · exact lexMatch_cut hfirst _
    · have hrest : lexMatch none (cString (joinWords (next :: words))) = none :=
        lexMatch_joinWords_of_nul (by simpa [hfirst] using h)
      rw [cString_word hfirst]
      show lexMatch (some []) (escapeQuotes word ++
        '"' :: ' ' :: 'A' :: 'N' :: 'D' :: ' ' :: cString (joinWords (next :: words))) = none
      rw [lexMatch_escapeQuotes word [] _ (by simp), lexMatch, lexMatch, hrest]
      rfl

theorem mem_splitOnP {p : Char → Bool} {c : Char} (hc : p c = false) (query : List Char) :
    (∃ word ∈ query.splitOnP p, c ∈ word) ↔ c ∈ query := by
  induction query with
  | nil => simp
  | cons d query ih =>
    rw [List.splitOnP_cons_eq_if_modifyHead]
    split
    · next hd =>
      have hne : c ≠ d := fun heq => by rw [heq, hd] at hc; cases hc
      simp [← ih, hne]
    · obtain ⟨first, words, hwords⟩ := List.exists_cons_of_ne_nil (List.splitOnP_ne_nil p query)
      rw [hwords] at ih ⊢
      simp [← ih, or_assoc]

theorem nul_mem_splitWhitespace (query : List Char) :
    (∃ word ∈ splitWhitespace query, NUL ∈ word) ↔ NUL ∈ query := by
  rw [← mem_splitOnP (p := isWhitespace) (by decide)]
  constructor
  · rintro ⟨word, hword, hnul⟩
    exact ⟨word, (List.mem_filter.mp hword).1, hnul⟩
  · rintro ⟨word, hword, hnul⟩
    exact ⟨word, List.mem_filter.mpr ⟨hword, decide_eq_true (List.ne_nil_of_mem hnul)⟩, hnul⟩

namespace MessageDb

variable {db : MessageDb} (decode : Bytes → Option Envelope)

theorem Sound.search_iff (h : db.Sound) (satisfies : List (List Char) → String → Bool)
    (query : List Char) (groupId : Option GroupId) :
    (∃ hits, db.search satisfies query groupId = some hits ∧
      hits.Perm (if splitWhitespace query = [] then [] else db.rows.filter fun row =>
        (row.isText && row.bodyText.any (satisfies (splitWhitespace query))) &&
          groupId.all (· = row.groupId))) ↔ NUL ∉ query := by
  rw [← nul_mem_splitWhitespace]
  unfold search fts5TokenizeAndAnd
  cases hwords : splitWhitespace query with
  | nil => simp
  | cons word words =>
    constructor
    · rintro ⟨hits, hhits, -⟩ hnul
      simp [lexMatch_joinWords_of_nul hnul] at hhits
    · intro hnone
      have hread : (lexMatch none (cString (joinWords (word :: words)))).bind conjuncts =
          some (word :: words) := by
        rw [cString_joinWords fun other hother hnul => hnone ⟨other, hother, hnul⟩,
          conjuncts_lexMatch]
      refine ⟨_, congrArg (Option.map _) hread, ?_⟩
      refine ((h.indexed.filter _).flatMap_right _).trans (.of_eq ?_)
      rw [if_neg (List.cons_ne_nil _ _)]
      exact h.join_eq (satisfies (word :: words)) _ (List.Subset.refl _)

/-- After any statements the index is intact and holds one entry for each text row with a text, and
a search finds the rows whose text satisfies the words of its query, and these only, exactly when
the query has no NUL. -/
theorem search_exact_iff (decode : Bytes → Option Envelope)
    (satisfies : List (List Char) → String → Bool) (db : MessageDb) (h : db.Sound)
    (ops : List MessageOp) :
    Along (step decode) (fun db => db.fts.corrupt = false ∧
      db.fts.entries.Perm (db.rows.filterMap Message.entry) ∧
      ∀ query groupId, (∃ hits, db.search satisfies query groupId = some hits ∧
        hits.Perm (if splitWhitespace query = [] then [] else db.rows.filter fun row =>
          (row.isText && row.bodyText.any (satisfies (splitWhitespace query))) &&
            groupId.all (· = row.groupId))) ↔ NUL ∉ query) db ops :=
  (along_of_step (fun _ op => Sound.step decode op) h ops).imp fun _ hdb =>
    ⟨hdb.intact, hdb.indexed, hdb.search_iff satisfies⟩

/-- A row from before the index existed is found once its text is filled in. -/
theorem old_row_found :
    let message : Envelope := ⟨1, ⟨List.replicate 16 0, rfl⟩, 0, none, .text "hi"⟩
    let old : Message := ⟨1, [1], none, true, some [], none, 0⟩
    let db : MessageDb := ⟨[old], 2, ⟨[], false⟩, .empty, []⟩
    db.Sound ∧ ∃ hits, (db.step (fun _ => some message) .backfillBodyText).search
      (fun _ _ => true) ['h', ' ', '"'] none = some hits ∧
        hits.Perm [{ old with bodyText := some "hi" }] := by
  intro message old db
  have hsound : db.Sound := ⟨List.pairwise_singleton _ _, by decide, .refl _, rfl⟩
  have hafter := (search_exact_iff (fun _ => some message) (fun _ _ => true) db hsound
    [.backfillBodyText]).2
  obtain ⟨hits, hsearch, hperm⟩ := (hafter.2.2 ['h', ' ', '"'] none).mpr (by decide)
  exact ⟨hsound, hits, hsearch, hperm.trans (.of_eq (by decide))⟩

/-- The expression of a word with a NUL is a syntax error, be the stored text what it may. -/
theorem nul_query_refused :
    fts5TokenizeAndAnd ['h', NUL] = some ['"', 'h', NUL, '"'] ∧
      (⟨[⟨1, [1], none, true, some [], some "h", 0⟩], 2, ⟨[(1, "h")], false⟩, .empty, []⟩ :
        MessageDb).search (fun _ _ => true) ['h', NUL] none = none := by
  decide

/-! ### Read cursors -/

def CursorIsLargest (db : MessageDb) : Prop :=
  ∀ groupId, match db.readState.get groupId with
    | none => ∀ id, (groupId, id) ∉ db.marked
    | some cursor => IsGreatest {id | (groupId, id) ∈ db.marked} cursor

/-- A mark of a contact with a group is not behind the cursor of the group. -/
def MarksForward (db : MessageDb) (op : MessageOp) : Prop :=
  ∀ groupId upTo, op = .markRead (some groupId) upTo → groupId ≠ [] →
    ∀ cursor ∈ db.readState.get groupId, cursor ≤ upTo

def cursors (db : MessageDb) : Table GroupId Int × List (GroupId × Int) := (db.readState, db.marked)

theorem cursors_foldl {step : MessageDb → Message → MessageDb}
    (hstep : ∀ db row, (step db row).cursors = db.cursors) (db : MessageDb) (rows : List Message) :
    (rows.foldl step db).cursors = db.cursors := by
  induction rows generalizing db with
  | nil => rfl
  | cons row rows ih => exact (ih (step db row)).trans (hstep db row)

theorem step_cursors (db : MessageDb) (op : MessageOp) :
    ((db.step decode op).cursors = db.cursors ∧
        ∀ groupId upTo, op = .markRead (some groupId) upTo → groupId = []) ∨
      ∃ groupId upTo, op = .markRead (some groupId) upTo ∧ groupId ≠ [] ∧
        (db.step decode op).cursors =
          (db.readState.put groupId upTo, db.marked ++ [(groupId, upTo)]) := by
  cases op with
  | insert =>
    refine .inl ⟨?_, nofun⟩
    show (insertInTx ..).cursors = _
    unfold insertInTx
    split <;> rfl
  | backfillBodyText =>
    refine .inl ⟨?_, nofun⟩
    show (MessageDb.backfillBodyText ..).cursors = _
    unfold MessageDb.backfillBodyText
    dsimp only
    split
    · rfl
    · refine cursors_foldl (fun db row => ?_) db _
      split <;> rfl
  | backfillEnvelopeId =>
    refine .inl ⟨?_, nofun⟩
    show (MessageDb.backfillEnvelopeId ..).cursors = _
    unfold MessageDb.backfillEnvelopeId
    dsimp only
    split
    · rfl
    · refine cursors_foldl (fun db row => ?_) db _
      repeat' split
      all_goals rfl
  | pruneBefore | pruneKeepLast | deleteByGroup => exact .inl ⟨rfl, nofun⟩
  | markRead groupId upTo =>
    rw [show db.step decode (.markRead groupId upTo) = db.markRead groupId upTo from rfl,
      MessageDb.markRead]
    cases hgroup : groupId.filter (· ≠ []) with
    | none =>
      refine .inl ⟨rfl, ?_⟩
      rintro group _ ⟨⟩
      exact of_not_not fun hne => Option.filter_eq_none_iff.mp hgroup group rfl (decide_eq_true hne)
    | some group =>
      obtain ⟨rfl, hne⟩ := Option.filter_eq_some_iff.mp hgroup
      exact .inr ⟨group, upTo, rfl, of_decide_eq_true hne, rfl⟩

theorem cursorIsLargest_step_iff (op : MessageOp) (h : db.CursorIsLargest) :
    (db.step decode op).CursorIsLargest ↔ db.MarksForward op := by
  rcases step_cursors decode db op with ⟨hsame, hempty⟩ | ⟨group, upTo, rfl, hne, hnext⟩
  · obtain ⟨hstate, hmarked⟩ := Prod.mk.inj hsame
    refine iff_of_true ?_ fun groupId upTo hop hne => absurd (hempty groupId upTo hop) hne
    intro groupId
    rw [hstate, hmarked]
    exact h groupId
  obtain ⟨hstate, hmarked⟩ := Prod.mk.inj hnext
  constructor
  · rintro hnew _ _ ⟨⟩ - cursor hcursor
    have hold := h group
    have hnew := hnew group
    rw [hcursor] at hold
    rw [hstate, Table.get_put_self, hmarked] at hnew
    exact hnew.2 (List.mem_append_left _ hold.1)
  · intro hforward groupId
    rw [hstate, hmarked]
    by_cases hkey : groupId = group
    · subst hkey
      rw [Table.get_put_self]
      refine ⟨List.mem_append_right _ List.mem_cons_self, fun id hid => ?_⟩
      rcases List.mem_append.mp hid with hid | hid
      · have hold := h groupId
        cases hcursor : db.readState.get groupId with
        | none =>
          rw [hcursor] at hold
          exact absurd hid (hold id)
        | some cursor =>
          rw [hcursor] at hold
          exact Int.le_trans (hold.2 hid) (hforward groupId upTo rfl hne cursor hcursor)
      · cases List.mem_singleton.mp hid
        exact Int.le_refl _
    · have hold := h groupId
      have hmem (id : Int) : (groupId, id) ∈ db.marked ++ [(group, upTo)] ↔
          (groupId, id) ∈ db.marked := by
        simp [hkey]
      rw [Table.get_put_ne _ _ hkey]
      simpa only [hmem] using hold

theorem MarksForward.keeps_read {op : MessageOp} (h : db.MarksForward op) {row : Message}
    (hread : db.isUnread row = false) : (db.step decode op).isUnread row = false := by
  unfold isUnread at hread ⊢
  rcases step_cursors decode db op with ⟨hsame, -⟩ | ⟨group, upTo, rfl, hne, hnext⟩
  · rw [(Prod.mk.inj hsame).1]
    exact hread
  rw [(Prod.mk.inj hnext).1]
  by_cases hkey : row.groupId = group
  · subst hkey
    rw [Table.get_put_self]
    cases hcursor : db.readState.get row.groupId with
    | none =>
      rw [hcursor] at hread
      cases hread
    | some cursor =>
      rw [hcursor] at hread
      have hle := h row.groupId upTo rfl hne cursor hcursor
      have hpast := of_decide_eq_false hread
      exact decide_eq_false (by omega)
  · rw [Table.get_put_ne _ _ hkey]
    exact hread

/-- In every run the cursors stay the largest marked ids and no read message becomes unread exactly
when no mark is behind the cursor of its group. -/
theorem read_state_forward_iff (decode : Bytes → Option Envelope) (db : MessageDb)
    (h : db.CursorIsLargest) (ops : List MessageOp) :
    Along (step decode) CursorIsLargest db ops ∧
        Meets (step decode) (fun db op => ∀ row, db.isUnread row = false →
          (db.step decode op).isUnread row = false) db ops ↔
      Meets (step decode) MarksForward db ops := by
  have hstep (db : MessageDb) (op : MessageOp) (hdb : db.CursorIsLargest)
      (hforward : db.MarksForward op) : (db.step decode op).CursorIsLargest :=
    (cursorIsLargest_step_iff decode op hdb).mpr hforward
  constructor
  · rintro ⟨halong, -⟩
    exact meets_of_along (fun _ op _ hdb hnew => (cursorIsLargest_step_iff decode op hdb).mp hnew)
      halong halong
  · intro hmeets
    exact ⟨along_of_meets hstep h hmeets, meets_of_meets hstep
      (fun _ _ _ hforward _ => hforward.keeps_read decode) h hmeets⟩

/-- A mark of each group, and a second one further on. -/
theorem marks_kept_forward :
    let db : MessageDb := ⟨[], 1, ⟨[], false⟩, .empty, []⟩
    db.CursorIsLargest ∧ Along (step fun _ => none) CursorIsLargest db
      [.markRead (some [1]) 1, .markRead (some [2]) 1, .markRead (some [1]) 3] := by
  intro db
  have hdb : db.CursorIsLargest := fun _ _ hmarked => nomatch hmarked
  refine ⟨hdb, ((read_state_forward_iff (fun _ => none) db hdb
    [.markRead (some [1]) 1, .markRead (some [2]) 1, .markRead (some [1]) 3]).mpr
      ⟨?_, ?_, ?_, trivial⟩).1⟩
  · rintro _ _ ⟨⟩ - cursor hcursor
    cases hcursor
  · rintro _ _ ⟨⟩ - cursor hcursor
    cases hcursor
  · rintro _ _ ⟨⟩ - cursor hcursor
    cases hcursor
    decide

/-- A message is inserted and read, and a stale request makes it unread again. -/
theorem stale_mark_unreads :
    let message : Envelope := ⟨1, ⟨List.replicate 16 0, rfl⟩, 0, none, .text "hi"⟩
    let db := [.insert [1] message [] 0, .markRead (some [1]) 1].foldl (step fun _ => none)
      ⟨[], 1, ⟨[], false⟩, .empty, []⟩
    db.unreadCount [1] = 0 ∧
      (db.step (fun _ => none) (.markRead (some [1]) 0)).unreadCount [1] = 1 := by
  decide

end MessageDb

end Skattr.Core.Storage
