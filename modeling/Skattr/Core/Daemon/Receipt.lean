import Skattr.Core.Daemon.Redelivery

/-!
# What a dispatch leaves behind

A dispatch that fails should leave no trace, and one that succeeds should have saved the ratchet.
Both hold on the path of an ordinary message, whose writes are one transaction. Around it they
fail: the manifest of a file is staged before the transaction, so `failed_dispatch_unchanged_iff`
excludes a file that is staged, and a card update is stored without the group, so
`ratchet_durable_iff` excludes it.
-/

namespace Skattr.Core.Daemon

open Lib Lib.Fallible Core.Mls

variable {G : Type}

/-! ### Failed dispatches -/

/-- The manifest of a file passes the checks, and its attachment is not known yet. -/
def Admits (deps : Deps G) (env : Env) (tables : Tables) (manifest : Bytes) : Prop :=
  ∃ m, AttachmentManifest.fromCbor deps.manifest manifest = .ok m ∧
    m.totalSize ≤ MAX_ATTACHMENT_BYTES ∧ m.chunks ≠ [] ∧ env.staging ≠ some 0 ∧
    tables.attachments.get m.attachmentId = none

variable {deps : Deps G} {env : Env} {sender : PublicKey} {groupId : GroupId}
  {group next : Mls.Group G} {envelope : Envelope} {enforce : Bool} {s t : State} {e : CoreError}
  {content : Option Envelope} {result : Except CoreError MessageId} {ciphertext : Bytes}
  {addressee : Bytes → Option GroupId} {card : ContactCard} {before after : Tables} {id : MessageId}

theorem stageAttachment_eq_self_iff {manifest : Bytes} {state : State} :
    stageAttachment deps env sender manifest state = state ↔
      ¬Admits deps env state.tables manifest := by
  unfold stageAttachment
  cases hdecode : AttachmentManifest.fromCbor deps.manifest manifest with
  | error e =>
    refine ⟨fun _ hadmits => ?_, fun _ => rfl⟩
    obtain ⟨m, hm, -⟩ := hadmits
    rw [hdecode] at hm
    cases hm
  | ok m =>
    dsimp only
    split
    · next hchecks =>
      split
      · next hknown =>
        refine ⟨fun _ hadmits => ?_, fun _ => rfl⟩
        obtain ⟨m', hm', -, -, -, hfree⟩ := hadmits
        rw [hdecode] at hm'
        cases hm'
        rw [Table.insert, dif_pos hfree] at hknown
        cases hknown
      · next attachments hinsert =>
        have hfree := (Table.insert_eq_some hinsert).1
        constructor
        · intro hsame
          have hbegins := congrArg (fun s => s.begins.length) hsame
          simp at hbegins
        · intro hnot
          exact absurd ⟨m, hdecode, hchecks.1, hchecks.2.1, hchecks.2.2, hfree⟩ hnot
    · next hchecks =>
      refine ⟨fun _ hadmits => ?_, fun _ => rfl⟩
      obtain ⟨m', hm', hsize, hchunks, hstaging, -⟩ := hadmits
      rw [hdecode] at hm'
      cases hm'
      exact hchecks ⟨hsize, hchunks, hstaging⟩

def staged (deps : Deps G) (env : Env) (sender : PublicKey) (state : State) :
    Option Envelope → State
  | none => state
  | some envelope =>
    match envelope.kind with
    | .file manifest => stageAttachment deps env sender manifest state
    | _ => state

theorem receiveMessage_error
    (h : exec (receiveMessage deps env sender groupId group envelope enforce) s = (.error e, t)) :
    t = s := by
  rcases transactWithin_bind_cases h with ⟨_, -, rfl⟩ | ⟨outcome, tables, -, hrest⟩
  · rfl
  · cases outcome <;> cases hrest

theorem receiveCard_error (h : exec (receiveCard deps env sender id card) s = (.error e, t)) :
    t = s := by
  rcases attempt_bind_cases h with ⟨_, -, -, rfl⟩ | ⟨claimed, -, hrest⟩
  · rfl
  rcases ensure_bind_cases hrest with ⟨-, -, rfl⟩ | ⟨-, hrest⟩
  · rfl
  rcases transactWithin_bind_cases hrest with ⟨_, -, rfl⟩ | ⟨_, tables, -, hrest⟩
  · rfl
  · cases hrest

theorem receiveCommit_error (h : exec (receiveCommit deps env group) s = (.error e, t)) :
    t = s := by
  rcases transactWithin_bind_cases h with ⟨_, -, rfl⟩ | ⟨_, tables, -, hrest⟩
  · rfl
  · cases hrest

theorem receive_error
    (h : exec (receive deps env sender groupId group enforce content) s = (.error e, t)) :
    t = staged deps env sender s content := by
  cases content with
  | none => exact receiveCommit_error h
  | some envelope =>
    simp only [receive] at h
    simp only [staged]
    cases hkind : envelope.kind with
    | contactCardUpdate card =>
      rw [hkind] at h
      exact receiveCard_error h
    | file manifest =>
      rw [hkind] at h
      exact receiveMessage_error h
    | text | reaction | edit | delete | typing =>
      rw [hkind] at h
      exact receiveMessage_error h

def State.transfers (state : State) := (state.tables.transfers, state.begins)

theorem receiveMessage_transfers
    (h : exec (receiveMessage deps env sender groupId group envelope enforce) s = (result, t)) :
    t.transfers = s.transfers := by
  rcases transactWithin_bind_cases h with ⟨_, -, rfl⟩ | ⟨outcome, tables, hdoes, hrest⟩
  · rfl
  have hafter : t.transfers = (tables.transfers, s.begins) := by
    cases outcome <;> (cases hrest; rfl)
  rw [hafter, does_persistReceived_frame hdoes]
  rfl

theorem receiveCard_transfers (h : exec (receiveCard deps env sender id card) s = (result, t)) :
    t.transfers = s.transfers := by
  rcases attempt_bind_cases h with ⟨_, -, -, rfl⟩ | ⟨claimed, -, hrest⟩
  · rfl
  rcases ensure_bind_cases hrest with ⟨-, -, rfl⟩ | ⟨-, hrest⟩
  · rfl
  rcases transactWithin_bind_cases hrest with ⟨_, -, rfl⟩ | ⟨_, tables, hdoes, hrest⟩
  · rfl
  cases hrest
  show (tables.transfers, s.begins) = s.transfers
  rw [does_putCardInTx_frame hdoes]
  rfl

theorem receive_transfers
    (h : exec (receive deps env sender groupId group enforce content) s = (result, t)) :
    t.transfers = (staged deps env sender s content).transfers := by
  cases content with
  | none =>
    rcases transactWithin_bind_cases h with ⟨_, -, rfl⟩ | ⟨_, tables, hdoes, hrest⟩
    · rfl
    · cases hrest
      cases does_saveInTx hdoes
      rfl
  | some envelope =>
    simp only [receive] at h
    simp only [staged]
    cases hkind : envelope.kind with
    | contactCardUpdate card =>
      rw [hkind] at h
      exact receiveCard_transfers h
    | file manifest =>
      rw [hkind] at h
      exact receiveMessage_transfers h
    | text | reaction | edit | delete | typing =>
      rw [hkind] at h
      exact receiveMessage_transfers h

/-- The group opens the ciphertext as the announcement of a file that passes the checks. -/
def StagesFile (deps : Deps G) (env : Env) (tables : Tables) (groupId : GroupId)
    (ciphertext : Bytes) : Prop :=
  groupId.length = 32 ∧ ∃ envelope next manifest,
    Opens deps tables groupId ciphertext (some envelope) next ∧ envelope.kind = .file manifest ∧
      Admits deps env tables manifest

theorem Opens.functional {tables : Tables} {content' : Option Envelope} {next' : Mls.Group G}
    (h : Opens deps tables groupId ciphertext content next)
    (h' : Opens deps tables groupId ciphertext content' next') :
    content = content' ∧ next = next' := by
  obtain ⟨group, hload, hdecrypt⟩ := h
  obtain ⟨group', hload', hdecrypt'⟩ := h'
  cases hload.symm.trans hload'
  cases hdecrypt.symm.trans hdecrypt'
  exact ⟨rfl, rfl⟩

theorem dispatchForGroup_opens
    (h : exec (dispatchForGroup deps env sender groupId ciphertext enforce) s = (result, t)) :
    (t = s ∧ (∃ e, result = .error e) ∧ (groupId.length ≠ 32 ∨
      ∀ content next, ¬Opens deps s.tables groupId ciphertext content next)) ∨
    groupId.length = 32 ∧ ∃ content next, Opens deps s.tables groupId ciphertext content next ∧
      exec (receive deps env sender groupId next enforce content) s = (result, t) := by
  rcases ensure_bind_cases h with ⟨hlength, herror, rfl⟩ | ⟨hlength, hrest⟩
  · exact .inl ⟨rfl, ⟨_, herror⟩, .inl hlength⟩
  rw [exec_bind, exec_get] at hrest
  rcases attempt_bind_cases hrest with ⟨e, hload, herror, rfl⟩ | ⟨group, hload, hrest⟩
  · refine .inl ⟨rfl, ⟨e, herror⟩, .inr ?_⟩
    rintro content next ⟨group, hgroup, -⟩
    rw [loadGroup, hgroup] at hload
    cases hload
  rcases attempt_bind_cases hrest with ⟨e, hfail, herror, rfl⟩ | ⟨⟨content, next⟩, hdecrypt, hrest⟩
  · refine .inl ⟨rfl, ⟨e, herror⟩, .inr ?_⟩
    rintro content next ⟨group', hgroup, hdecrypt⟩
    cases (loadGroup_ok hload).symm.trans hgroup
    rw [hfail] at hdecrypt
    cases hdecrypt
  · exact .inr ⟨hlength, content, next, ⟨group, loadGroup_ok hload, hdecrypt⟩, hrest⟩

/-- A failed dispatch leaves the whole state as it was, the tables as well as the queue of
announced attachments, exactly when it did not come to stage a file. -/
theorem failed_dispatch_unchanged_iff (deps : Deps G) (env : Env) (sender : PublicKey)
    (groupId : GroupId) (ciphertext : Bytes) (enforce : Bool) (before after : State)
    (e : CoreError)
    (h : exec (dispatchForGroup deps env sender groupId ciphertext enforce) before =
      (.error e, after)) :
    after = before ↔ ¬StagesFile deps env before.tables groupId ciphertext := by
  rcases dispatchForGroup_opens h with
    ⟨rfl, -, hclosed⟩ | ⟨hlength, content, next, hopens, hreceive⟩
  · refine ⟨fun _ hstages => ?_, fun _ => rfl⟩
    obtain ⟨hlength, envelope, next, manifest, hopens, -⟩ := hstages
    rcases hclosed with hshort | hclosed
    · exact hshort hlength
    · exact hclosed _ _ hopens
  · rw [receive_error hreceive]
    have hunstaged (hother : ∀ envelope manifest, content = some envelope →
        envelope.kind ≠ .file manifest) :
        ¬StagesFile deps env before.tables groupId ciphertext := by
      rintro ⟨-, envelope, next', manifest, hopens', hkind, -⟩
      exact hother envelope manifest (hopens.functional hopens').1 hkind
    cases content with
    | none => exact ⟨fun _ => hunstaged (fun _ _ hnone => nomatch hnone), fun _ => rfl⟩
    | some envelope =>
      simp only [staged]
      split
      · next manifest hkind =>
        rw [stageAttachment_eq_self_iff]
        refine not_congr ⟨fun hadmits => ?_, ?_⟩
        · exact ⟨hlength, envelope, next, manifest, hopens, hkind, hadmits⟩
        · rintro ⟨-, envelope', next', manifest', hopens', hkind', hadmits⟩
          cases (hopens.functional hopens').1
          cases hkind.symm.trans hkind'
          exact hadmits
      · next hfile =>
        refine ⟨fun _ => hunstaged ?_, fun _ => rfl⟩
        intro envelope' manifest hsome hkind
        cases hsome
        exact hfile manifest hkind

/-- A manifest that decodes and has chunks was staged for its attachment, and its fetch queued. -/
def Stages (deps : Deps G) (env : Env) (before after : State) : Prop :=
  ∃ sender manifest m attachments, AttachmentManifest.fromCbor deps.manifest manifest = .ok m ∧
    m.chunks ≠ [] ∧ before.tables.attachments.insert m.attachmentId
      (stagedRow env sender manifest m.chunks) = some attachments ∧
    after.transfers =
      ((attachments, before.tables.transfers.2), before.begins ++ [(sender, m)])

theorem stageAttachment_transfers (deps : Deps G) (env : Env) (sender : PublicKey)
    (manifest : Bytes) (state : State) :
    (stageAttachment deps env sender manifest state).transfers = state.transfers ∨
      Stages deps env state (stageAttachment deps env sender manifest state) := by
  unfold stageAttachment
  split
  · exact .inl rfl
  · next m hdecode =>
    split
    · next hchecks =>
      split
      · exact .inl rfl
      · next attachments hinsert =>
        exact .inr ⟨sender, manifest, m, attachments, hdecode, hchecks.2.1, hinsert, rfl⟩
    · exact .inl rfl

theorem Lane.dispatch_transfers (deps : Deps G) (env : Env) (ciphertext : Bytes) (state : State)
    (lane : Lane) :
    (lane.dispatch deps env ciphertext state).2.transfers = state.transfers ∨
      Stages deps env state (lane.dispatch deps env ciphertext state).2 := by
  rcases lane.dispatch_cases deps env ciphertext state with
    hnone | ⟨sender, groupId, enforce, hdispatch⟩
  · rw [hnone]
    exact .inl rfl
  · rw [hdispatch]
    rcases hexec : exec (dispatchForGroup deps env sender groupId ciphertext enforce) state with
      ⟨result, after⟩
    show after.transfers = _ ∨ Stages deps env state after
    unfold Stages
    rcases dispatchForGroup_opens hexec with ⟨rfl, -⟩ | ⟨-, content, next, -, hreceive⟩
    · exact .inl rfl
    · rw [receive_transfers hreceive]
      cases content with
      | none => exact .inl rfl
      | some envelope =>
        simp only [staged]
        split
        · exact stageAttachment_transfers deps env sender _ state
        · exact .inl rfl

theorem Lane.dispatch_attachments (deps : Deps G) (env : Env) (ciphertext : Bytes) (state : State)
    (lane : Lane) {id : AttachmentId} {row : AttachmentRow}
    (hrow : state.tables.attachments.get id = some row) :
    (lane.dispatch deps env ciphertext state).2.tables.attachments.get id = some row := by
  rcases lane.dispatch_transfers deps env ciphertext state with
    hsame | ⟨sender, manifest, m, attachments, -, -, hinsert, hafter⟩
  · have hattachments : _ = state.tables.attachments := congrArg (fun t => t.1.1) hsame
    rw [← hattachments] at hrow
    exact hrow
  · have hattachments : _ = attachments := congrArg (fun t => t.1.1) hafter
    have hkept := Table.get_insert_of_some hinsert hrow
    rw [← hattachments] at hkept
    exact hkept

def oneChunkManifest : AttachmentManifest :=
  ⟨1, .fill 16 3, "note.txt", "text/plain", 4, CHUNK_SIZE, .fill 32 4, [⟨0, .fill 32 6, 20⟩]⟩

/-- A daemon over the counter groups that decodes every plaintext as the announcement of that file,
sent at time 0. -/
def fileDeps : Deps Counter where
  mls := counterMls
  codec := ⟨fun _ => .ok [], fun _ => .ok ⟨1, .fill 16 5, 0, none, .file []⟩⟩
  manifest _ := .ok oneChunkManifest
  verifyCbor _ _ _ := true

/-- A contact's file announcement arrives two hours late: the dispatch is refused, but the
attachment is in the table and its fetch is queued. -/
theorem late_file_staged :
    (exec (dispatchForGroup fileDeps ⟨7200000, .fill 16 0, none, none⟩ (.fill 32 1)
        (List.replicate 32 7) firstMessage true) ⟨linkedTables, [], [], []⟩).1 =
      .error (.delivery "inbound: rejected: ts outside ±1h window: envelope ts=0, now=7200000") ∧
    linkedTables.attachments.get (.fill 16 3) = none ∧
    (exec (dispatchForGroup fileDeps ⟨7200000, .fill 16 0, none, none⟩ (.fill 32 1)
        (List.replicate 32 7) firstMessage true)
          ⟨linkedTables, [], [], []⟩).2.tables.attachments.get (.fill 16 3) =
      some ⟨.inbound, [], 1, .pending, 7200, some (.fill 32 1)⟩ ∧
    (exec (dispatchForGroup fileDeps ⟨7200000, .fill 16 0, none, none⟩ (.fill 32 1)
        (List.replicate 32 7) firstMessage true) ⟨linkedTables, [], [], []⟩).2.begins =
      [(.fill 32 1, oneChunkManifest)] := by
  refine ⟨?_, ?_, ?_, ?_⟩ <;> decide

/-- A text message that arrives two hours late leaves nothing behind. -/
theorem late_text_unchanged :
    exec (dispatchForGroup counterDeps ⟨7200000, .fill 16 0, none, none⟩ (.fill 32 1)
        (List.replicate 32 7) firstMessage true) ⟨linkedTables, [], [], []⟩ =
      (.error (.delivery "inbound: rejected: ts outside ±1h window: envelope ts=0, now=7200000"),
        ⟨linkedTables, [], [], []⟩) ∧
    ¬StagesFile counterDeps ⟨7200000, .fill 16 0, none, none⟩ linkedTables
      (List.replicate 32 7) firstMessage :=
  have hfailed : exec (dispatchForGroup counterDeps ⟨7200000, .fill 16 0, none, none⟩ (.fill 32 1)
      (List.replicate 32 7) firstMessage true) ⟨linkedTables, [], [], []⟩ =
      (.error (.delivery "inbound: rejected: ts outside ±1h window: envelope ts=0, now=7200000"),
        ⟨linkedTables, [], [], []⟩) := by
    decide
  ⟨hfailed, (failed_dispatch_unchanged_iff counterDeps ⟨7200000, .fill 16 0, none, none⟩
    (.fill 32 1) (List.replicate 32 7) firstMessage true _ _ _ hfailed).mp rfl⟩

/-! ### Durable receipts -/

/-- The database holds the group as the decryption of a message left it: a daemon that starts from
these tables cannot open the message again, and opens everything that the group can open. -/
structure Durable (deps : Deps G) (tables : Tables) (groupId : GroupId) (ciphertext : Bytes)
    (next : Mls.Group G) : Prop where
  saved : Stored deps.mls tables groupId next.inner
  consumed : ∀ content again, ¬Opens deps tables groupId ciphertext content again
  later : ∀ later content opened,
    next.decrypt deps.mls deps.codec later = .ok (content, opened) →
      ∃ reopened, Opens deps tables groupId later content reopened ∧
        reopened.inner = opened.inner

theorem load_of_put {mls : OpenMls G} (hmls : mls.Lawful addressee)
    (hid : mls.groupId next.inner = next.id)
    (hgroups : after.groups = before.groups.put next.id (groupRow mls next)) :
    Mls.Group.load mls next.id (MlsGroupRepo.get after next.id) =
      .ok (some ⟨next.id, .active (mls.epoch next.inner), next.inner⟩) := by
  have hsnapshot := hmls.load_snapshot next.inner
  rw [hid] at hsnapshot
  rw [MlsGroupRepo.get, hgroups, Table.get_put_self]
  simp only [Option.map_some, Mls.Group.load, groupRow, hsnapshot]

theorem durable_of_put (hmls : deps.mls.Lawful addressee) (honce : deps.mls.SingleUse)
    (hopens : Opens deps before groupId ciphertext (some envelope) next)
    (hgroups : after.groups = before.groups.put next.id (groupRow deps.mls next)) :
    Durable deps after groupId ciphertext next := by
  have hspent := spent_of_opens hmls honce hopens hgroups
  obtain ⟨group, hload, hdecrypt⟩ := hopens
  obtain ⟨stored, -, hinner, hgroup, -⟩ := Mls.Group.load_ok hload
  have hid : next.id = groupId := (Mls.Group.decrypt_ok hdecrypt).1.trans hgroup
  have hinnerId : deps.mls.groupId next.inner = next.id := by
    rw [(Mls.Group.decrypt_later hdecrypt).groupId hmls, hmls.load_groupId hinner, hid]
  have hreload := load_of_put hmls hinnerId hgroups
  rw [hid] at hreload
  refine ⟨?_, fun content again => hspent.not_opens, ?_⟩
  · obtain ⟨blob, hblob, hstored, -, -⟩ := Mls.Group.load_ok hreload
    exact ⟨blob, hblob, hstored⟩
  · intro later content opened hopened
    let restored : Mls.Group G := ⟨groupId, .active (deps.mls.epoch next.inner), next.inner⟩
    obtain ⟨reopened, hreopened, hsame⟩ :=
      Mls.Group.decrypt_of_inner hopened (rfl : restored.inner = next.inner) rfl
    exact ⟨reopened, ⟨_, hreload, hreopened⟩, hsame⟩

/-- The receipt of an application message that a dispatch acknowledged is durable exactly when the
message was not a card update: after a restart the message cannot be opened again, and all later
ones still can. -/
theorem ratchet_durable_iff (deps : Deps G) (addressee : Bytes → Option GroupId)
    (hmls : deps.mls.Lawful addressee) (honce : deps.mls.SingleUse) (env : Env)
    (sender : PublicKey) (groupId : GroupId) (ciphertext : Bytes) (enforce : Bool)
    (before after : State) (id : MessageId) (envelope : Envelope) (next : Mls.Group G)
    (hopens : Opens deps before.tables groupId ciphertext (some envelope) next)
    (h : exec (dispatchForGroup deps env sender groupId ciphertext enforce) before =
      (.ok id, after)) :
    Durable deps (step deps after .restart).tables groupId ciphertext next ↔
      envelope.kind.isCardUpdate = false := by
  show Durable deps after.tables groupId ciphertext next ↔ _
  rcases dispatchForGroup_cases h with ⟨-, e, herror⟩ | ⟨content, opened, hopened, hreceives⟩
  · cases herror
  obtain ⟨rfl, rfl⟩ := hopened.functional hopens
  have hdelivery := hreceives.delivery
  cases hkind : envelope.kind.isCardUpdate with
  | false =>
    refine ⟨fun _ => rfl, fun _ => durable_of_put hmls honce hopens ?_⟩
    have hsaves : savesGroup (some envelope) (.ok id) = true := by
      simp [savesGroup, hkind, Except.isOk, Except.toBool]
    rw [hsaves, if_pos rfl] at hdelivery
    exact congrArg Prod.fst hdelivery
  | true =>
    -- the stored group is the one before the message, so it opens the message again
    refine ⟨fun hdurable => ?_, fun hfalse => Bool.noConfusion hfalse⟩
    have hsaves : savesGroup (some envelope) (.ok id) = false := by
      simp [savesGroup, hkind]
    rw [hsaves, if_neg Bool.false_ne_true] at hdelivery
    have hsame : after.tables.groups = before.tables.groups := congrArg Prod.fst hdelivery
    refine absurd ?_ (hdurable.consumed (some envelope) opened)
    obtain ⟨group, hload, hdecrypt⟩ := hopens
    refine ⟨group, ?_, hdecrypt⟩
    rw [MlsGroupRepo.get, hsame]
    exact hload

/-- The text of the first message cannot be opened again after a restart. -/
theorem firstMessage_durable :
    Durable counterDeps (step counterDeps afterFirst .restart).tables (List.replicate 32 7)
      firstMessage ⟨List.replicate 32 7, .active 0, ⟨List.replicate 32 7, 0, 1⟩⟩ :=
  (ratchet_durable_iff counterDeps _ counterMls_lawful counterMls_singleUse
    ⟨0, .fill 16 0, none, none⟩ (.fill 32 1) (List.replicate 32 7) firstMessage true
    ⟨linkedTables, [], [], []⟩ afterFirst (.fill 16 5) ⟨1, .fill 16 5, 0, none, .text "hi"⟩ _
    ⟨⟨List.replicate 32 7, .active 0, ⟨List.replicate 32 7, 0, 0⟩⟩, rfl, rfl⟩ rfl).mpr rfl

/-- A daemon over the counter groups that decodes every plaintext as a card of the contact. -/
def cardDeps : Deps Counter where
  mls := counterMls
  codec := ⟨fun _ => .ok [], fun _ =>
    .ok ⟨1, .fill 16 5, 0, none, .contactCardUpdate
      ⟨⟨.fill 32 1, "peer.onion", [], 2, 3600⟩, .fill 64 9⟩⟩⟩
  manifest _ := .error "no manifest"
  verifyCbor _ _ _ := true

def afterCard : State :=
  (exec (dispatchForGroup cardDeps ⟨0, .fill 16 0, none, none⟩ (.fill 32 1) (List.replicate 32 7)
    firstMessage true) ⟨linkedTables, [], [], []⟩).2

/-- A contact's card is received and acknowledged, and after a restart the same ciphertext still
opens: the group in the database has not moved. -/
theorem card_update_opens_again :
    exec (dispatchForGroup cardDeps ⟨0, .fill 16 0, none, none⟩ (.fill 32 1) (List.replicate 32 7)
      firstMessage true) ⟨linkedTables, [], [], []⟩ = (.ok (.fill 16 5), afterCard) ∧
    MlsGroupRepo.get (step cardDeps afterCard .restart).tables (List.replicate 32 7) =
      MlsGroupRepo.get linkedTables (List.replicate 32 7) ∧
    ∃ content next, Opens cardDeps (step cardDeps afterCard .restart).tables
      (List.replicate 32 7) firstMessage content next := by
  refine ⟨rfl, by decide, _, _, ⟨List.replicate 32 7, .active 0, ⟨List.replicate 32 7, 0, 0⟩⟩,
    rfl, rfl⟩

end Skattr.Core.Daemon
