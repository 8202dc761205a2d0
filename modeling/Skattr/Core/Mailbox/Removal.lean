import Mathlib.Data.List.Induction
import Skattr.Core.Mailbox.Supervision
import Skattr.Lib.Run

/-!
# Removing a mailbox

Removing a mailbox only asks the supervisor to stop its poller, and no writer of the status looks at
what it overwrites. A removed mailbox stays removed if it is finalised with nothing left that is
about to use it, and if a starting daemon does not list the mailboxes while a removed row is there:
it starts a poller for every row of ours, whatever its status.
-/

namespace Skattr.Core.Removal

open Lib

/-! ### What removing promises -/

def stillRemoved (history : List Event) (id : Nat) : Bool :=
  history.foldl (fun removed event =>
    match event with
    | .added key => if key = id then false else removed
    | .finalised key => if key = id then true else removed
    | _ => removed) false

/-- The event polls the mailbox, gives it a status of a mailbox in use, or advertises it. -/
def Event.Uses (id : Nat) (onion : String) : Event → Prop
  | .polled key => key = id
  | .status key reported => key = id ∧ (reported = .reachable ∨ reported = .unreachable)
  | .advertised onions => onion ∈ onions
  | .added _ | .finalised _ => False

/-- No mailbox of ours is used between its removal and its being added again. -/
def StaysRemoved (world : World) : Prop :=
  ∀ before event after, world.history = before ++ event :: after →
    ∀ id row, world.mailboxes.rows.get id = some row → row.role = .mine →
      stillRemoved before id = true → ¬event.Uses id row.onion

def World.Gone (world : World) (id : Nat) (row : MailboxRow) : Prop :=
  world.mailboxes.rows.get id = some row ∧ row.role = .mine ∧ stillRemoved world.history id = true

/-- The command is about to use the mailbox: to start its poller, to drain it, or to advertise
it. -/
def Call.Touches (id : Nat) (onion : String) : Call → Prop
  | .addNotifying key | .removeFinding key | .removeMarking key | .removeDraining key => key = id
  | .publishSigning onions => onion ∈ onions
  | .addProbing _ | .addInserting _ | .addMarking _ | .removeNotifying _ | .removeFinalising _
  | .publishListing | .finished => False

/-- The poller may still poll or report: it is in a tick, or was not told to stop. -/
def Poller.Active (shutdown : Bool) : Poller → Prop
  | .starting | .located _ | .waiting _ _ _ => shutdown = false
  | .connecting _ _ _ | .polling _ _ _ | .reporting _ _ _ _ => True
  | .exited => False

/-- Something is about to use the mailbox: its poller is active, or is to be started, or a command
is under way. -/
def World.Exposed (world : World) (id : Nat) (onion : String) : Prop :=
  (∃ poller shutdown, world.pollers id = some (poller, shutdown) ∧ poller.Active shutdown) ∨
    .addMailbox id ∈ world.queue ∨ ∃ call ∈ world.calls, call.Touches id onion

/-- A removal is finalised only when nothing is about to use the mailbox any more, a removed
mailbox is not removed again, and no starting supervisor lists the mailboxes while there is a
removed one. -/
def Orderly (world : World) : Action → Prop
  | .call i choice => ∀ id row, world.calls[i]? = some (.removeFinalising id) →
      choice.writeOk = true → world.mailboxes.rows.get id = some row → row.role = .mine →
      ¬world.Exposed id row.onion
  | .removeMailbox id => ∀ row, ¬world.Gone id row
  | .supervise listOk => world.supervisor = .listing → listOk = true →
      ∀ id row, ¬world.Gone id row
  | .addMailbox _ | .publish | .ensureTheirs _ | .poller _ _ | .restart => True

/-! ### What a step does -/

theorem stillRemoved_append (history : List Event) (event : Event) (id : Nat) :
    stillRemoved (history ++ [event]) id =
      match event with
      | .added key => if key = id then false else stillRemoved history id
      | .finalised key => if key = id then true else stillRemoved history id
      | _ => stillRemoved history id := by
  unfold stillRemoved
  rw [List.foldl_append]
  rfl

variable {id : Nat} {event : Event} {entry : Option (Poller × Bool)} {history : List Event}

theorem mem_of_stillRemoved (h : stillRemoved history id = true) : .finalised id ∈ history := by
  induction history using List.reverseRecOn with
  | nil => cases h
  | append_singleton history event ih =>
    rw [stillRemoved_append] at h
    rw [List.mem_append, List.mem_singleton]
    cases event with
    | added key =>
      dsimp only at h
      split at h
      · cases h
      · exact .inl (ih h)
    | finalised key =>
      dsimp only at h
      split at h
      · next hkey => exact .inr (hkey ▸ rfl)
      · exact .inl (ih h)
    | polled | status | advertised => exact .inl (ih h)

def Call.Found (id : Nat) : Call → Prop
  | .removeMarking key | .removeDraining key | .removeNotifying key | .removeFinalising key =>
    key = id
  | .addProbing _ | .addInserting _ | .addMarking _ | .addNotifying _ | .removeFinding _
  | .publishListing | .publishSigning _ | .finished => False

/-- What a step does to the removed mailboxes, and the event that it notes. What is not said is
unchanged. -/
structure Change (before after : World) (noted : Option Event) : Prop where
  history : after.history = before.history ++ noted.toList := by exact (List.append_nil _).symm
  rows : before.mailboxes.Grows after.mailboxes := by exact .refl _
  found : ∀ call ∈ after.calls, ∀ id, call.Found id → call ∈ before.calls ∨
    before.mailboxes.rows.get id ≠ none := by exact fun _ hcall _ _ => .inl hcall
  finalised : ∀ id, noted = some (.finalised id) → before.mailboxes.rows.get id ≠ none ∧
    ∀ row, after.mailboxes.rows.get id = some row → row.role = .mine →
      ¬after.Exposed id row.onion ∧ row.status ≠ .reachable := by exact nofun
  exposed : ∀ id row, before.Gone id row → noted ≠ some (.added id) →
    after.Exposed id row.onion → before.Exposed id row.onion := by exact fun _ _ _ _ h => h
  reachable : ∀ id row row', before.Gone id row → noted ≠ some (.added id) →
    after.mailboxes.rows.get id = some row' → row'.status = .reachable →
      row.status = .reachable ∨ before.Exposed id row.onion := by
      exact fun _ _ _ hgone _ hrow h => .inl (Option.some.inj (hrow.symm.trans hgone.1) ▸ h)
  used : ∀ event, noted = some event → ∀ id row, before.Gone id row → event.Uses id row.onion →
    before.Exposed id row.onion := by exact nofun

/-- What holds in every state: nothing is about to use a removed mailbox. -/
structure Inv (world : World) : Prop where
  removed : ∀ id, .finalised id ∈ world.history → world.mailboxes.rows.get id ≠ none
  found : ∀ call ∈ world.calls, ∀ id, call.Found id → world.mailboxes.rows.get id ≠ none
  quiet : ∀ id row, world.Gone id row → ¬world.Exposed id row.onion ∧ row.status ≠ .reachable
  staysRemoved : StaysRemoved world

variable {before after world : World} {noted : Option Event}

theorem Change.of_exposed (hhistory : after.history = before.history)
    (hrows : after.mailboxes = before.mailboxes)
    (hfound : ∀ call ∈ after.calls, ∀ id, call.Found id → call ∈ before.calls ∨
      before.mailboxes.rows.get id ≠ none)
    (hexposed : ∀ id row, before.Gone id row → after.Exposed id row.onion →
      before.Exposed id row.onion) : Change before after none where
  history := hhistory.trans (List.append_nil _).symm
  rows := by
    rw [hrows]
    exact .refl _
  found := hfound
  finalised := nofun
  exposed := fun id row hgone _ => hexposed id row hgone
  reachable := by
    intro id row row' hgone _ hrow hreachable
    rw [hrows, hgone.1] at hrow
    cases hrow
    exact .inl hreachable
  used := nofun

theorem Change.gone (h : Change before after noted) (hinv : Inv before) {row : MailboxRow}
    (hgone : after.Gone id row) :
    noted = some (.finalised id) ∨ noted ≠ some (.added id) ∧
      ∃ old, before.Gone id old ∧ row.onion = old.onion := by
  obtain ⟨hrow, hmine, hremoved⟩ := hgone
  rw [h.history] at hremoved
  have hold : stillRemoved before.history id = true →
      ∃ old, before.Gone id old ∧ row.onion = old.onion := by
    intro hbefore
    have hthere := hinv.removed id (mem_of_stillRemoved hbefore)
    obtain ⟨old, hget⟩ := Option.ne_none_iff_exists'.mp hthere
    obtain ⟨row', hrow', honion, hrole⟩ := h.rows id old hget
    obtain rfl := Option.some.inj (hrow'.symm.trans hrow)
    exact ⟨old, ⟨hget, hrole ▸ hmine, hbefore⟩, honion⟩
  cases noted with
  | none =>
    rw [Option.toList_none, List.append_nil] at hremoved
    exact .inr ⟨nofun, hold hremoved⟩
  | some event =>
    rw [Option.toList_some, stillRemoved_append] at hremoved
    cases event with
    | added key =>
      dsimp only at hremoved
      split at hremoved
      · cases hremoved
      · next hkey =>
        refine .inr ⟨fun hsame => ?_, hold hremoved⟩
        cases hsame
        exact hkey rfl
    | finalised key =>
      dsimp only at hremoved
      split at hremoved
      · next hkey => exact .inl (hkey ▸ rfl)
      · exact .inr ⟨nofun, hold hremoved⟩
    | polled | status | advertised => exact .inr ⟨nofun, hold hremoved⟩

theorem inv_init : Inv .init where
  removed := nofun
  found := nofun
  quiet := by
    rintro id row ⟨hrow, -⟩
    cases hrow
  staysRemoved := by
    rintro before event after hhistory
    cases before <;> cases hhistory

theorem split_cases {earlier later : List Event}
    (h : history ++ noted.toList = earlier ++ event :: later) :
    (earlier = history ∧ noted = some event) ∨ ∃ later', history = earlier ++ event :: later' := by
  cases noted with
  | none =>
    rw [Option.toList_none, List.append_nil] at h
    exact .inr ⟨later, h⟩
  | some last =>
    rw [Option.toList_some] at h
    rcases List.eq_nil_or_concat later with rfl | ⟨later', last', rfl⟩
    · obtain ⟨hhistory, hlast⟩ := List.append_inj' h rfl
      cases hlast
      exact .inl ⟨hhistory.symm, rfl⟩
    · rw [List.concat_eq_append, ← List.cons_append, ← List.append_assoc] at h
      exact .inr ⟨later', (List.append_inj' h rfl).1⟩

theorem Inv.change (h : Inv before) (hchange : Change before after noted) : Inv after where
  removed := by
    intro id hid
    rw [hchange.history, List.mem_append, Option.mem_toList] at hid
    have hthere : before.mailboxes.rows.get id ≠ none := by
      rcases hid with hold | hnew
      · exact h.removed id hold
      · exact (hchange.finalised id hnew).1
    obtain ⟨row, hrow⟩ := Option.ne_none_iff_exists'.mp hthere
    obtain ⟨row', hrow', -⟩ := hchange.rows id row hrow
    rw [hrow']
    exact Option.some_ne_none row'
  found := by
    intro call hcall id hfound
    have hthere : before.mailboxes.rows.get id ≠ none := by
      rcases hchange.found call hcall id hfound with hold | hnew
      · exact h.found call hold id hfound
      · exact hnew
    obtain ⟨row, hrow⟩ := Option.ne_none_iff_exists'.mp hthere
    obtain ⟨row', hrow', -⟩ := hchange.rows id row hrow
    rw [hrow']
    exact Option.some_ne_none row'
  quiet := by
    intro id row hgone
    rcases hchange.gone h hgone with hnew | ⟨hkept, old, hold, honion⟩
    · exact (hchange.finalised id hnew).2 row hgone.1 hgone.2.1
    · obtain ⟨hunexposed, hunreachable⟩ := h.quiet id old hold
      rw [honion]
      refine ⟨fun hexposed => hunexposed (hchange.exposed id old hold hkept hexposed), ?_⟩
      intro hreachable
      rcases hchange.reachable id old row hold hkept hgone.1 hreachable with hwas | hexposed
      · exact hunreachable hwas
      · exact hunexposed hexposed
  staysRemoved := by
    intro earlier event later hhistory id row hrow hmine hremoved huses
    rw [hchange.history] at hhistory
    -- the row was there when the mailbox was removed, with the onion that it has now
    have hearlier : .finalised id ∈ before.history := by
      have hmem := mem_of_stillRemoved hremoved
      rcases split_cases hhistory with ⟨rfl, -⟩ | ⟨later', hbefore⟩
      · exact hmem
      · rw [hbefore]
        exact List.mem_append_left _ hmem
    obtain ⟨old, hold⟩ := Option.ne_none_iff_exists'.mp (h.removed id hearlier)
    obtain ⟨row', hrow', honion, hrole⟩ := hchange.rows id old hold
    obtain rfl := Option.some.inj (hrow'.symm.trans hrow)
    rw [honion] at huses
    rw [hrole] at hmine
    rcases split_cases hhistory with ⟨rfl, hnoted⟩ | ⟨later', hbefore⟩
    · have hgone : before.Gone id old := ⟨hold, hmine, hremoved⟩
      exact (h.quiet id old hgone).1 (hchange.used event hnoted id old hgone huses)
    · exact h.staysRemoved earlier event later' hbefore id old hold hmine hremoved huses

/-! ### The steps -/

variable {mid : World} {i : Nat} {old call : Call} {queue : List PollerCtrl} {message : PollerCtrl}
  {poller : Poller} {onion : String}

theorem exposed_of_become (h : (mid.become i call).Exposed id onion)
    (hi : world.calls[i]? = some old) (hcalls : mid.calls = world.calls)
    (hpollers : mid.pollers = world.pollers)
    (hqueue : .addMailbox id ∈ mid.queue → .addMailbox id ∈ world.queue ∨ old.Touches id onion) :
    call.Touches id onion ∨ world.Exposed id onion := by
  rcases h with hpoller | hqueued | ⟨other, hother, htouches⟩
  · exact .inr (.inl (hpollers ▸ hpoller))
  · refine .inr (.inr ((hqueue hqueued).imp_right fun htouches => ?_))
    exact ⟨old, List.mem_of_getElem? hi, htouches⟩
  · rcases List.mem_or_eq_of_mem_set hother with hold | rfl
    · exact .inr (.inr (.inr ⟨other, hcalls ▸ hold, htouches⟩))
    · exact .inl htouches

theorem found_of_become (hcalls : mid.calls = world.calls)
    (hfound : ∀ id, call.Found id → world.mailboxes.rows.get id ≠ none) :
    ∀ other ∈ (mid.become i call).calls, ∀ id, other.Found id →
      other ∈ world.calls ∨ world.mailboxes.rows.get id ≠ none := by
  intro other hother id hfinds
  rcases List.mem_or_eq_of_mem_set hother with hold | rfl
  · exact .inl (hcalls ▸ hold)
  · exact .inr (hfound id hfinds)

theorem change_become (hi : world.calls[i]? = some old)
    (hfound : ∀ id, call.Found id → world.mailboxes.rows.get id ≠ none)
    (htouches : ∀ id row, world.Gone id row → call.Touches id row.onion →
      world.Exposed id row.onion) : Change world (world.become i call) none := by
  refine .of_exposed rfl rfl (found_of_become rfl hfound) fun id row hgone hexposed => ?_
  rcases exposed_of_become hexposed hi rfl rfl .inl with htouch | hbefore
  · exact htouches id row hgone htouch
  · exact hbefore

theorem change_finish (hi : world.calls[i]? = some old) :
    Change world (world.become i .finished) none :=
  change_become hi (fun _ => False.elim) (fun _ _ _ => False.elim)

theorem change_mark (hi : world.calls[i]? = some old) {status : MailboxStatus}
    (hfound : ∀ key, call.Found key → world.mailboxes.rows.get key ≠ none)
    (hfinalised : ∀ key, event = .finalised key → world.mailboxes.rows.get key ≠ none ∧ ∀ row,
      ((world.markStatus id status).mailboxes).rows.get key = some row → row.role = .mine →
      ¬(((world.markStatus id status).note event).become i call).Exposed key row.onion ∧ row.status
      ≠ .reachable)
    (htouches : ∀ key onion, event ≠ .added key → call.Touches key onion → old.Touches key onion)
    (hreachable : status = .reachable → event = .added id)
    (hused : ∀ key onion, ¬event.Uses key onion) :
    Change world (((world.markStatus id status).note event).become i call) (some event) where
  history := rfl
  rows := Mailboxes.grows_markStatus _ _ _
  found := found_of_become rfl hfound
  finalised := fun key hevent => hfinalised key (Option.some.inj hevent)
  exposed := by
    intro key row _ hkept hexposed
    rcases exposed_of_become hexposed hi rfl rfl .inl with htouch | hbefore
    · refine .inr (.inr ⟨old, List.mem_of_getElem? hi, htouches key _ ?_ htouch⟩)
      exact fun hevent => hkept (congrArg some hevent)
    · exact hbefore
  reachable := by
    intro key row row' hgone hkept hrow' hstatus
    rcases Mailboxes.reachable_of_markStatus hgone.1 hrow' hstatus with hwas | ⟨rfl, hmarked⟩
    · exact .inl hwas
    · exact absurd (congrArg some (hreachable hmarked)) hkept
  used := by
    rintro _ ⟨⟩ key row _ huses
    exact absurd huses (hused key row.onion)

theorem change_use (hi : world.calls[i]? = some old)
    (hfound : ∀ id, call.Found id → world.mailboxes.rows.get id ≠ none)
    (hidle : ∀ id onion, ¬call.Touches id onion) (hfinalised : ∀ id, event ≠ .finalised id)
    (hused : ∀ id onion, event.Uses id onion → old.Touches id onion) :
    Change world ((world.note event).become i call) (some event) where
  history := rfl
  found := found_of_become rfl hfound
  finalised := fun id hevent => absurd (Option.some.inj hevent) (hfinalised id)
  exposed := by
    intro id row _ _ hexposed
    rcases exposed_of_become hexposed hi rfl rfl .inl with htouch | hbefore
    · exact absurd htouch (hidle id _)
    · exact hbefore
  used := by
    rintro _ ⟨⟩ id row _ huses
    exact .inr (.inr ⟨old, List.mem_of_getElem? hi, hused id _ huses⟩)

theorem change_send (hi : world.calls[i]? = some old)
    (hfound : ∀ id, call.Found id → world.mailboxes.rows.get id ≠ none)
    (hidle : ∀ id onion, ¬call.Touches id onion)
    (hmessage : ∀ id onion, message = .addMailbox id → old.Touches id onion) :
    Change world ({ world with queue := world.queue ++ [message] }.become i call) none := by
  refine .of_exposed rfl rfl (found_of_become rfl hfound) fun id row _ hexposed => ?_
  refine (exposed_of_become hexposed hi rfl rfl fun hqueued => ?_).resolve_left (hidle id _)
  rcases List.mem_append.mp hqueued with hold | hnew
  · exact .inl hold
  · exact .inr (hmessage id _ (List.mem_singleton.mp hnew).symm)

theorem change_ensure (world : World) (onion : String) (role : MailboxRole) :
    Change world { world with mailboxes := (world.mailboxes.ensure onion role).2 } none where
  rows := Mailboxes.grows_ensure _ _ _
  reachable := by
    intro id row row' hgone _ hrow' hstatus
    rcases Mailboxes.get_ensure world.mailboxes onion role id with hsame | ⟨hnew, -⟩
    · obtain rfl := Option.some.inj ((hsame.symm.trans hrow').symm.trans hgone.1)
      exact .inl hstatus
    · exact absurd (world.mailboxes.issued hgone.1) (by omega)

theorem change_finalise (h : Inv world) (hi : world.calls[i]? = some (.removeFinalising id))
    (horderly : ∀ row, world.mailboxes.rows.get id = some row → row.role = .mine → ¬world.Exposed id
      row.onion) :
    Change world (((world.markStatus id .removed).note (.finalised id)).become i .publishListing)
      (some (.finalised id)) := by
  refine change_mark hi (fun _ => False.elim) ?_ (fun _ _ _ => False.elim) nofun
    (fun _ _ => False.elim)
  rintro _ ⟨⟩
  have hthere := h.found _ (List.mem_of_getElem? hi) id rfl
  refine ⟨hthere, fun row hrow hmine => ?_⟩
  obtain ⟨old, hold⟩ := Option.ne_none_iff_exists'.mp hthere
  change (world.mailboxes.markStatus id .removed).rows.get id = some row at hrow
  rw [Mailboxes.get_markStatus, if_pos rfl, hold] at hrow
  cases hrow
  refine ⟨fun hexposed => horderly old hold hmine ?_, nofun⟩
  exact (exposed_of_become hexposed hi rfl rfl .inl).resolve_left False.elim

theorem Inv.advance (h : Inv world) (hi : world.calls[i]? = some old) {choice : Choice}
    (horderly : Orderly world (.call i choice)) : Inv (world.advance i choice old) := by
  have hfinish := h.change (change_finish hi)
  have hmem := List.mem_of_getElem? hi
  have hfound := h.found old hmem
  unfold World.advance
  split
  · -- `addProbing`
    split
    · exact h.change (change_become hi (fun _ => False.elim) (fun _ _ _ => False.elim))
    · exact hfinish
  · -- `addInserting`
    next onion =>
      split
      · have hensured := h.change (change_ensure world onion .mine)
        exact hensured.change (change_become hi (fun _ => False.elim) fun _ _ _ => False.elim)
      · exact hfinish
  · -- `addMarking`
    split
    · refine h.change (change_mark hi (fun _ => False.elim) nofun (fun key onion hkept htouch => ?_)
        (fun _ => rfl) (fun _ _ => False.elim))
      cases htouch
      exact absurd rfl hkept
    · exact hfinish
  · -- `addNotifying`
    refine h.change (change_send hi (fun _ => False.elim) (fun _ _ => False.elim) ?_)
    rintro _ _ ⟨⟩
    rfl
  · -- `removeFinding`
    next id =>
      split
      · split
        · next row hrow =>
          refine h.change (change_become hi (fun key hkey => ?_) fun key row _ htouch => ?_)
          · cases hkey
            rw [hrow]
            exact Option.some_ne_none row
          · exact .inr (.inr ⟨_, hmem, htouch⟩)
        · exact hfinish
      · exact hfinish
  · -- `removeMarking`
    split
    · refine h.change (change_mark hi hfound nofun (fun _ _ _ htouch => htouch) nofun
        (fun key onion huses => ?_))
      rcases huses.2 with hreported | hreported <;> cases hreported
    · exact hfinish
  · -- `removeDraining`
    split
    · exact h.change (change_use hi hfound (fun _ _ => False.elim) nofun (fun _ _ huses => huses))
    · exact h.change (change_become hi hfound fun _ _ _ => False.elim)
  · -- `removeNotifying`
    exact h.change (change_send hi hfound (fun _ _ => False.elim) nofun)
  · -- `removeFinalising`
    next id =>
      split
      · next hwrite => exact h.change (change_finalise h hi fun row => horderly id row hi hwrite)
      · exact hfinish
  · -- `publishListing`: a removed mailbox is not reachable
    split
    · refine h.change (change_become hi (fun _ => False.elim) fun id row hgone htouch => ?_)
      exact absurd ((Mailboxes.mem_reachable hgone.1 hgone.2.1).mp htouch) (h.quiet id row hgone).2
    · exact hfinish
  · -- `publishSigning`
    split
    · exact h.change (change_use hi (fun _ => False.elim) (fun _ _ => False.elim) nofun
        (fun _ _ huses => huses))
    · exact hfinish
  · exact h

/-! ### The supervisor and the pollers -/

theorem exposed_of_setPoller (world : World) {key : Nat}
    (h : (mid.setPoller id entry).Exposed key onion) (hcalls : mid.calls = world.calls)
    (hpollers : mid.pollers = world.pollers)
    (hqueue : ∀ message ∈ mid.queue, message ∈ world.queue) :
    (key = id ∧ ∃ poller shutdown, entry = some (poller, shutdown) ∧ poller.Active shutdown) ∨
      world.Exposed key onion := by
  rcases h with ⟨poller, shutdown, hpoller, hactive⟩ | hqueued | htouched
  · rcases update_eq_some_cases hpoller with ⟨hkey, hentry⟩ | ⟨-, hold⟩
    · exact .inl ⟨hkey, poller, shutdown, hentry, hactive⟩
    · exact .inr (.inl ⟨poller, shutdown, hpollers ▸ hold, hactive⟩)
  · exact .inr (.inr (.inl (hqueue _ hqueued)))
  · exact .inr (.inr (.inr (hcalls ▸ htouched)))

theorem change_setPoller
    (hentry : ∀ poller shutdown onion, entry = some (poller, shutdown) → poller.Active shutdown →
      world.Exposed id onion) (hqueue : ∀ message ∈ queue, message ∈ world.queue)
    {supervisor : Supervisor} :
    Change world ({ world with queue, supervisor }.setPoller id entry) none := by
  refine .of_exposed rfl rfl (fun _ hcall _ _ => .inl hcall) fun key row _ hexposed => ?_
  rcases exposed_of_setPoller world hexposed rfl rfl hqueue with
    ⟨rfl, poller, shutdown, hsome, hactive⟩ | hbefore
  · exact hentry poller shutdown row.onion hsome hactive
  · exact hbefore

theorem change_skip (hqueue : world.queue = message :: queue) :
    Change world { world with queue } none := by
  refine .of_exposed rfl rfl (fun _ hcall _ _ => .inl hcall) fun id row _ hexposed => ?_
  rcases hexposed with hpoller | hqueued | htouched
  · exact .inl hpoller
  · refine .inr (.inl ?_)
    rw [hqueue]
    exact List.mem_cons_of_mem _ hqueued
  · exact .inr (.inr htouched)

theorem Poller.Active.of_stopped (h : poller.Active true) (shutdown : Bool) :
    poller.Active shutdown := by
  cases poller with
  | starting | located | waiting => cases h
  | connecting | polling | reporting => trivial
  | exited => exact h

theorem change_bootstrap (hnone : ∀ id row, ¬world.Gone id row) :
    Change world
      { world with supervisor := .receiving, pollers := World.bootstrap world.mailboxes } none :=
  .of_exposed rfl rfl (fun _ hcall _ _ => .inl hcall) fun id row hgone =>
    absurd hgone (hnone id row)

theorem Inv.supervise (h : Inv world) {listOk : Bool}
    (horderly : Orderly world (.supervise listOk)) : Inv (world.supervise listOk) := by
  unfold World.supervise
  split
  · next hlisting =>
    split
    · next hok => exact h.change (change_bootstrap (horderly hlisting hok))
    · have hsame : Change world { world with supervisor := .receiving } none :=
        .of_exposed rfl rfl (fun _ hcall _ _ => .inl hcall) fun _ _ _ hexposed => hexposed
      exact h.change hsame
  · split
    · refine h.change (change_setPoller ?_ fun _ hmem => hmem)
      exact nofun
    · refine h.change (change_setPoller ?_ fun _ hmem => hmem)
      exact nofun
    · exact h
  · split
    · exact h
    · next id queue hqueue =>
      have htail : ∀ message ∈ queue, message ∈ world.queue := fun message hmem =>
        hqueue ▸ List.mem_cons_of_mem _ hmem
      split
      · -- the mailbox of a new poller was exposed by the message that starts it
        refine h.change (change_setPoller (fun _ _ onion _ _ => .inr (.inl ?_)) htail)
        rw [hqueue]
        exact List.mem_cons_self
      · exact h.change (change_skip hqueue)
    · next id queue hqueue =>
      have htail : ∀ message ∈ queue, message ∈ world.queue := fun message hmem =>
        hqueue ▸ List.mem_cons_of_mem _ hmem
      split
      · exact h.change (change_skip hqueue)
      · next poller shutdown hpoller =>
        refine h.change (change_setPoller ?_ htail)
        rintro _ _ onion ⟨⟩ hactive
        exact .inl ⟨poller, shutdown, hpoller, hactive.of_stopped shutdown⟩

theorem change_poll (mid : World) (noted : Option Event)
    (hexposed : ∀ onion, world.Exposed id onion) (hcalls : mid.calls = world.calls)
    (hpollers : mid.pollers = world.pollers) (hqueue : mid.queue = world.queue)
    (hhistory : mid.history = world.history ++ noted.toList)
    (hrows : mid.mailboxes = world.mailboxes ∨ ∃ status, mid.mailboxes = world.mailboxes.markStatus
      id status)
    (hnoted : ∀ event, noted = some event → event = .polled id ∨ ∃ status, event = .status id
      status) :
    Change world (mid.setPoller id entry) noted where
  history := hhistory
  rows := by
    show world.mailboxes.Grows mid.mailboxes
    rcases hrows with hsame | ⟨status, hmarked⟩
    · rw [hsame]
      exact .refl _
    · rw [hmarked]
      exact Mailboxes.grows_markStatus _ _ _
  found := fun call hcall _ _ => .inl (hcalls ▸ hcall)
  finalised := by
    intro key hevent
    rcases hnoted _ hevent with hpolled | ⟨status, hstatus⟩
    · cases hpolled
    · cases hstatus
  exposed := by
    intro key row _ _ hafter
    rcases exposed_of_setPoller world hafter hcalls hpollers (hqueue ▸ fun _ h => h) with
      ⟨rfl, -⟩ | hbefore
    · exact hexposed row.onion
    · exact hbefore
  reachable := by
    intro key row row' hgone _ hrow' hstatus
    change mid.mailboxes.rows.get key = some row' at hrow'
    rcases hrows with hsame | ⟨status, hmarked⟩
    · rw [hsame, hgone.1] at hrow'
      cases hrow'
      exact .inl hstatus
    · rw [hmarked] at hrow'
      rcases Mailboxes.reachable_of_markStatus hgone.1 hrow' hstatus with hwas | ⟨rfl, -⟩
      · exact .inl hwas
      · exact .inr (hexposed row.onion)
  used := by
    intro event hevent key row _ huses
    rcases hnoted event hevent with rfl | ⟨status, rfl⟩
    · cases huses
      exact hexposed row.onion
    · cases huses.1
      exact hexposed row.onion

theorem Inv.poll (h : Inv world) {shutdown : Bool}
    (hpoller : world.pollers id = some (poller, shutdown)) (choice : Choice) :
    Inv (world.poll id choice shutdown poller) := by
  have hexposed (hactive : poller.Active shutdown) (onion : String) : world.Exposed id onion :=
    .inl ⟨poller, shutdown, hpoller, hactive⟩
  have hmove (next : Poller) (hnext : next.Active shutdown → poller.Active shutdown) :
      Inv (world.setPoller id (some (next, shutdown))) := by
    refine h.change (change_setPoller ?_ fun _ hmem => hmem)
    rintro _ _ onion ⟨⟩ hactive
    exact hexposed (hnext hactive) onion
  unfold World.poll
  split
  · -- `starting`
    split
    · split
      · exact hmove _ fun hactive => hactive
      · exact hmove _ False.elim
    · exact hmove _ False.elim
  · -- `located`
    exact hmove _ fun hactive => hactive
  · -- `waiting`
    split
    · exact hmove _ False.elim
    · next hrunning => exact hmove _ fun _ => Bool.eq_false_iff.mpr hrunning
  · -- `connecting`
    split <;> exact hmove _ fun _ => trivial
  · -- `polling`
    refine h.change (change_poll (world.note (.polled id)) (some (.polled id)) (hexposed trivial)
      rfl rfl rfl rfl (.inl rfl) ?_)
    rintro _ ⟨⟩
    exact .inl rfl
  · -- `reporting`
    dsimp only [World.reportStatus]
    split
    · exact hmove _ fun _ => trivial
    · split
      · refine h.change (change_poll ((world.markStatus id _).note (.status id _))
          (some (.status id _)) (hexposed trivial) rfl rfl rfl rfl (.inr ⟨_, rfl⟩) ?_)
        rintro _ ⟨⟩
        exact .inr ⟨_, rfl⟩
      · refine h.change (change_poll (world.note (.status id _)) (some (.status id _))
          (hexposed trivial) rfl rfl rfl rfl (.inl rfl) ?_)
        rintro _ ⟨⟩
        exact .inr ⟨_, rfl⟩
  · exact h

/-! ### Whole runs -/

theorem change_arrive (hfound : ∀ id, ¬call.Found id)
    (htouches : ∀ id row, world.Gone id row → ¬call.Touches id row.onion) :
    Change world { world with calls := world.calls ++ [call] } none := by
  refine .of_exposed rfl rfl (fun other hother id hfinds => ?_) fun id row hgone hexposed => ?_
  · rcases List.mem_append.mp hother with hold | hnew
    · exact .inl hold
    · obtain rfl := List.mem_singleton.mp hnew
      exact absurd hfinds (hfound id)
  · rcases hexposed with hpoller | hqueued | ⟨other, hother, htouch⟩
    · exact .inl hpoller
    · exact .inr (.inl hqueued)
    · rcases List.mem_append.mp hother with hold | hnew
      · exact .inr (.inr ⟨other, hold, htouch⟩)
      · obtain rfl := List.mem_singleton.mp hnew
        exact absurd htouch (htouches id row hgone)

theorem change_restart (world : World) : Change world (step world .restart) none := by
  refine .of_exposed rfl rfl nofun fun id row _ hexposed => ?_
  rcases hexposed with ⟨poller, shutdown, hpoller, -⟩ | hqueued | ⟨call, hcall, -⟩
  · cases hpoller
  · cases hqueued
  · cases hcall

theorem Inv.step (h : Inv world) {action : Action} (horderly : Orderly world action) :
    Inv (step world action) := by
  cases action with
  | addMailbox onion =>
    exact h.change (change_arrive (fun _ => False.elim) fun _ _ _ => False.elim)
  | removeMailbox id =>
    refine h.change (change_arrive (fun _ => False.elim) fun key row hgone htouch => ?_)
    cases htouch
    exact horderly row hgone
  | publish => exact h.change (change_arrive (fun _ => False.elim) fun _ _ _ => False.elim)
  | ensureTheirs onion => exact h.change (change_ensure world onion .theirs)
  | call i choice =>
    dsimp only [Removal.step]
    split
    · next call hi => exact h.advance hi horderly
    · exact h
  | supervise listOk => exact h.supervise horderly
  | poller id choice =>
    dsimp only [Removal.step]
    split
    · next poller shutdown hpoller => exact h.poll hpoller choice
    · exact h
  | restart => exact h.change (change_restart world)

/-- In every run in which each removal is finalised when nothing is about to use its mailbox, no
removed mailbox is removed again, and no starting supervisor lists the mailboxes while there is a
removed one, a removed mailbox is not polled, does not become reachable or unreachable, and is not
advertised, until it is added again. -/
theorem removed_stays_removed (actions : List Action) (h : Meets step Orderly .init actions) :
    Along step StaysRemoved .init actions := by
  have hinv : Along step Inv .init actions :=
    along_of_meets (P := Inv) (fun _ _ h horderly => h.step horderly) inv_init h
  exact hinv.imp fun _ h => h.staysRemoved

def Choice.lucky : Choice := ⟨true, false, true⟩

/-- A mailbox is added, its poller starts, and the supervisor stops it before its removal is
finalised. -/
def orderlyRemoval : List Action :=
  List.flatten [[.supervise true, .addMailbox "box"], List.replicate 6 (.call 0 .lucky),
    [.supervise true, .removeMailbox 0], List.replicate 4 (.call 1 .lucky),
    [.supervise true], List.replicate 3 (.call 1 .lucky)]

theorem orderly_orderlyRemoval : Meets step Orderly .init orderlyRemoval := by
  refine ⟨?_, trivial, nofun, nofun, nofun, nofun, nofun, nofun, nofun, ?_, nofun, nofun, nofun,
    nofun, nofun, ?_, nofun, nofun, trivial⟩
  · rintro - - id row ⟨-, -, hremoved⟩
    cases hremoved
  · rintro row ⟨-, -, hremoved⟩
    cases hremoved
  · rintro id row hcall - - - hexposed
    cases hcall
    rcases hexposed with ⟨poller, shutdown, hpoller, hactive⟩ | hqueued | ⟨call, hcall, htouch⟩
    · cases hpoller
      cases hactive
    · cases hqueued
    · change call ∈ [Call.finished, Call.removeFinalising 0] at hcall
      rw [List.mem_cons, List.mem_singleton] at hcall
      rcases hcall with rfl | rfl <;> exact htouch

/-- The removed mailbox is not used any more, and the next card does not list it. -/
theorem orderly_removal_stays :
    stillRemoved (run .init orderlyRemoval).history 0 = true ∧
      (run .init orderlyRemoval).history.getLast? = some (.advertised []) ∧
      Along step StaysRemoved .init orderlyRemoval :=
  ⟨by decide, by decide, removed_stays_removed orderlyRemoval orderly_orderlyRemoval⟩

/-- After an orderly removal the daemon restarts, and the new poller of the mailbox runs. -/
def removalThenRestart : List Action :=
  List.flatten [orderlyRemoval, [.restart, .supervise true], List.replicate 6 (.poller 0 .lucky),
    [.publish, .call 0 .lucky, .call 0 .lucky]]

def removalDuringTick : List Action :=
  List.flatten [[.supervise true, .addMailbox "box"], List.replicate 6 (.call 0 .lucky),
    [.supervise true], List.replicate 4 (.poller 0 .lucky), [.removeMailbox 0],
    List.replicate 5 (.call 1 .lucky), [.poller 0 .lucky]]

/-- The restart polls the removed mailbox, marks it reachable and advertises it; the tick polls
it. -/
theorem removed_mailbox_returns :
    (run .init removalThenRestart).history =
      [.added 0, .advertised ["box"], .status 0 .pendingRemoval, .polled 0, .finalised 0,
        .advertised [], .polled 0, .status 0 .reachable, .advertised ["box"]] ∧
    ¬StaysRemoved (run .init removalThenRestart) ∧
    (run .init removalDuringTick).history =
      [.added 0, .advertised ["box"], .status 0 .pendingRemoval, .polled 0, .finalised 0,
        .polled 0] ∧
    ¬StaysRemoved (run .init removalDuringTick) := by
  have hrestart : (run .init removalThenRestart).history =
      [.added 0, .advertised ["box"], .status 0 .pendingRemoval, .polled 0, .finalised 0,
        .advertised [], .polled 0, .status 0 .reachable, .advertised ["box"]] := by decide
  have htick : (run .init removalDuringTick).history =
      [.added 0, .advertised ["box"], .status 0 .pendingRemoval, .polled 0, .finalised 0,
        .polled 0] := by decide
  refine ⟨hrestart, fun hstays => ?_, htick, fun hstays => ?_⟩
  · exact hstays _ (.polled 0) _ (hrestart.trans (List.take_append_drop 6 _).symm) 0
      ⟨"box", .mine, .reachable⟩ (by decide) rfl rfl rfl
  · exact hstays _ (.polled 0) _ (htick.trans (List.take_append_drop 5 _).symm) 0
      ⟨"box", .mine, .removed⟩ (by decide) rfl rfl rfl

end Skattr.Core.Removal
