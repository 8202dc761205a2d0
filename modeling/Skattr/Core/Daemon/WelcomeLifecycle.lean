import Mathlib.Data.UInt
import Skattr.Core.Daemon.Binding
import Skattr.Core.Daemon.PendingWelcome

/-!
# The life of a pending Welcome

The sweep that sends pending Welcomes hands each row that it has read to the actor of the peer and
waits for the acknowledgement, which the actor matches by the id of the Welcome. When the wait ends,
the row is deleted, failed or rescheduled by its peer alone. `welcome_lifecycle` says that each of
this happens for its own reason only, as long as no contact whose row the sweep still holds is added
anew and no wait ends before the actor has taken the Welcome; and that a peer which joined from a
Welcome acknowledges every further copy without joining again.
-/

namespace Skattr.Core.Daemon

open Lib Lib.Fallible Core.Mls Core.Delivery

variable {P G : Type}

/-! ### The sender -/

/-- The row in turn is not handed over yet, its Welcome is in the queue of the actor or was written
to the connection, or the actor has reported an acknowledgement or a failure. -/
inductive Wait where
  | idle
  | queued
  | written
  | acked
  | failed
  deriving DecidableEq

/-- A Welcome in the queue of an actor, and whether the sweep still waits for it. -/
structure WelcomeJob where
  peer : PublicKey
  welcomeBytes : Bytes
  awaited : Bool

/-- The daemon with its sweep, the queues of the actors, and the acknowledgements that arrived. -/
structure WelcomeWorld where
  contacts : ContactsWorld
  wait : Wait
  jobs : List WelcomeJob
  acks : List (PublicKey × MessageId)

inductive WelcomeAction where
  | addContact (env : AddEnv) (url : List Char)
  | removeContact (env : RemoveEnv) (contact : PublicKey)
  | startSweep (now : Int) (batch : Nat)
  /-- The sweep hands the Welcome of its row to the actor of the peer. -/
  | sendWelcome
  /-- The actor of the peer takes its next Welcome, and writes it or cannot. -/
  | takeJob (peer : PublicKey) (written : Bool)
  | ack (peer : PublicKey) (id : MessageId)
  | connectionLost (peer : PublicKey)
  /-- The wait of the sweep ends, by what the actor reported or by the timeout. -/
  | waitEnds (budget : Option Nat)
  | restart

/-- The rows that the sweep has read and not finished; the first one is in turn. -/
def ContactsWorld.rows (contacts : ContactsWorld) : List PendingWelcomeDue :=
  (contacts.sweeping.map Prod.snd).getD []

def ContactsWorld.pending (contacts : ContactsWorld) : Table PublicKey PendingWelcomeRow :=
  contacts.daemon.tables.pendingWelcomes

def WelcomeWorld.init : WelcomeWorld := ⟨ContactsWorld.init, .idle, [], []⟩

/-- The Welcome in turn was written, is waited for and meets the condition. -/
def WelcomeWorld.awaits (world : WelcomeWorld) (p : PendingWelcomeDue → Bool) : Bool :=
  world.wait = .written && world.contacts.rows.head?.any p

def welcomeStep (deps : InviteDeps P G) (world : WelcomeWorld) : WelcomeAction → WelcomeWorld
  | .addContact env url =>
    { world with contacts := contactsStep deps world.contacts (.addContact env url) }
  | .removeContact env contact =>
    { world with contacts := contactsStep deps world.contacts (.removeContact env contact) }
  | .startSweep now batch =>
    { world with contacts := contactsStep deps world.contacts (.startSweep now batch) }
  | .sendWelcome =>
    match world.wait, world.contacts.rows with
    | .idle, row :: _ =>
      { world with wait := .queued, jobs := world.jobs ++ [⟨row.peer, row.welcomeBytes, true⟩] }
    | _, _ => world
  | .takeJob peer written =>
    match world.jobs.find? (·.peer = peer) with
    | none => world
    | some job =>
      { world with
        jobs := world.jobs.eraseP (·.peer = peer)
        wait := if job.awaited then if written then .written else .failed else world.wait }
  | .ack peer id =>
    { world with
      acks := (peer, id) :: world.acks
      wait := if world.awaits fun row =>
        row.peer = peer ∧ welcomeMsgId deps.blake2s row.welcomeBytes = id then .acked
        else world.wait }
  | .connectionLost peer =>
    { world with wait := if world.awaits (·.peer = peer) then .failed else world.wait }
  | .waitEnds budget =>
    match world.wait, world.contacts.rows with
    | .idle, _ :: _ => world
    | wait, _ =>
      { world with
        contacts := contactsStep deps world.contacts (.sweepNext (wait = .acked) budget)
        wait := .idle
        jobs := world.jobs.map fun job => { job with awaited := false } }
  | .restart => ⟨contactsStep deps world.contacts .restart, .idle, [], world.acks⟩

def transmits (world : WelcomeWorld) : WelcomeAction → Option (PublicKey × Bytes)
  | .takeJob peer true =>
    (world.jobs.find? (·.peer = peer)).map fun job => (job.peer, job.welcomeBytes)
  | _ => none

/-- What a step may do to the pending Welcomes: a row is deleted by the removal of its contact or
after an acknowledgement of its Welcome from its peer, it fails when it has reached its age, and
the Welcome of a failed row is not sent. -/
structure Justified (deps : InviteDeps P G) (world : WelcomeWorld) (action : WelcomeAction) :
    Prop where
  deleted : ∀ peer row, world.contacts.pending.get peer = some row →
    (welcomeStep deps world action).contacts.pending.get peer = none →
    (∃ env, action = .removeContact env peer) ∨
      (peer, welcomeMsgId deps.blake2s row.welcomeBytes) ∈ world.acks
  failed : ∀ peer row after, world.contacts.pending.get peer = some row →
    (welcomeStep deps world action).contacts.pending.get peer = some after →
    after.failed = true → row.failed = true ∨ ∃ now rows,
      world.contacts.sweeping = some (now, rows) ∧
        MAX_WELCOME_AGE_MS ≤ saturate (now - row.createdAt)
  unsent : ∀ peer row, world.contacts.pending.get peer = some row → row.failed = true →
    transmits world action ≠ some (peer, row.welcomeBytes)

/-- The step adds a contact anew whose row the sweep still holds, or ends the wait for a Welcome
that the actor has not taken. -/
def overtakes (deps : InviteDeps P G) (world : WelcomeWorld) : WelcomeAction → Bool
  | .addContact env url =>
    match InviteLink.fromUrl deps.codec deps.verifyLink url env.now with
    | .ok link => world.contacts.rows.any (·.peer = link.inviter) &&
        !PendingWelcomeRepo.isPending world.contacts.daemon.tables link.inviter
    | .error _ => false
  | .waitEnds _ => world.wait = .queued
  | _ => false

/-! ### The rows of the sweep -/

/-- The rows of the sweep are of different peers, and are those that the peers still have, if
any. -/
structure Held (contacts : ContactsWorld) : Prop where
  nodup : (contacts.rows.map (·.peer)).Nodup
  stored : ∀ row ∈ contacts.rows, ∀ found, contacts.pending.get row.peer = some found →
    found.welcomeBytes = row.welcomeBytes ∧ found.createdAt = row.createdAt ∧ found.failed = false

section Rows

variable {contacts : ContactsWorld}

theorem addContact_pending (deps : InviteDeps P G) (env : AddEnv) (url : List Char) (s : State) :
    (exec (addContact deps env url) s).2.tables.pendingWelcomes = s.tables.pendingWelcomes ∨
      ∃ link new, InviteLink.fromUrl deps.codec deps.verifyLink url env.now = .ok link ∧
        (exec (addContact deps env url) s).2.tables.pendingWelcomes =
          s.tables.pendingWelcomes.insertOrIgnore link.inviter new := by
  rcases h : exec (addContact deps env url) s with ⟨result, t⟩
  cases result with
  | error e =>
    rcases addContact_error h with rfl | ⟨link, -, hrecorded⟩
    · exact .inl rfl
    · rw [hrecorded.tables]
      exact .inl rfl
  | ok added =>
    obtain ⟨link, contact, hparse, -, -, -, -, hpending⟩ := addContact_ok h
    exact .inr ⟨link, _, hparse, hpending⟩

theorem removeContact_pending (env : RemoveEnv) (contact : PublicKey) (s : State) :
    (exec (removeContact env contact) s).2.tables.pendingWelcomes = s.tables.pendingWelcomes ∨
      (exec (removeContact env contact) s).2.tables.pendingWelcomes =
        s.tables.pendingWelcomes.delete contact := by
  rcases h : exec (removeContact env contact) s with ⟨result, t⟩
  rcases removeContact_cases h with ⟨_, -, rfl⟩ | ⟨-, row, -, htables⟩ | ⟨-, _, -, -, hpending⟩
  · exact .inl rfl
  · rw [htables]
    exact .inr rfl
  · exact hpending

theorem due_stored (tables : Tables) (now : Int) (batch : Nat) :
    ((PendingWelcomeRepo.due tables now batch).map (·.peer)).Nodup ∧
      ∀ row ∈ PendingWelcomeRepo.due tables now batch, ∀ found,
        tables.pendingWelcomes.get row.peer = some found →
          found.welcomeBytes = row.welcomeBytes ∧ found.createdAt = row.createdAt ∧
            found.failed = false := by
  unfold PendingWelcomeRepo.due
  constructor
  · rw [List.map_map]
    refine List.Nodup.sublist ((List.take_sublist ..).map _) ?_
    refine (((List.perm_insertionSort ..).map _).nodup_iff).mpr ?_
    exact tables.pendingWelcomes.nodup.sublist (List.filter_sublist.map _)
  · intro row hrow found hfound
    obtain ⟨entry, hentry, rfl⟩ := List.mem_map.mp hrow
    have hmem := (List.mem_insertionSort _).mp (List.mem_of_mem_take hentry)
    obtain ⟨hmem, hdue⟩ := List.mem_filter.mp hmem
    cases (Table.get_eq_some_iff.mpr hmem).symm.trans hfound
    exact ⟨rfl, rfl, (of_decide_eq_true hdue).2⟩

theorem Held.step (h : Held contacts) (deps : InviteDeps P G) (action : ContactsAction)
    (hfree : ∀ env url link, action = .addContact env url →
      InviteLink.fromUrl deps.codec deps.verifyLink url env.now = .ok link →
        ∀ row ∈ contacts.rows, row.peer = link.inviter →
          PendingWelcomeRepo.isPending contacts.daemon.tables link.inviter = true) :
    Held (contactsStep deps contacts action) := by
  cases action with
  | addContact env url =>
    refine ⟨h.nodup, fun row hrow found hfound => h.stored row hrow found ?_⟩
    rw [ContactsWorld.pending, contactsStep] at hfound
    rcases addContact_pending deps env url contacts.daemon with hsame | ⟨link, new, hparse, hins⟩
    · rwa [hsame] at hfound
    rw [hins, Table.get_insertOrIgnore] at hfound
    split at hfound
    · next hpeer =>
      obtain ⟨before, hbefore⟩ := Option.isSome_iff_exists.mp
        (hfree env url link rfl hparse row hrow hpeer)
      rw [hbefore] at hfound
      rw [ContactsWorld.pending, hpeer, hbefore]
      exact hfound
    · exact hfound
  | startSweep now batch =>
    rw [contactsStep]
    split
    · exact ⟨(due_stored ..).1, (due_stored ..).2⟩
    · exact ⟨h.nodup, h.stored⟩
  | sweepNext acked budget =>
    rw [contactsStep]
    split
    · next now row rest hsweeping =>
      have hrows : contacts.rows = row :: rest := by rw [ContactsWorld.rows, hsweeping]; rfl
      have hnodup := hrows ▸ h.nodup
      rw [List.map_cons, List.nodup_cons] at hnodup
      refine ⟨hnodup.2, fun other hother found hfound =>
        h.stored other (hrows ▸ List.mem_cons_of_mem row hother) found ?_⟩
      -- the turn touches the row of its own peer only
      have hpeer : other.peer ≠ row.peer := by
        intro heq
        exact hnodup.1 (heq ▸ List.mem_map_of_mem hother)
      obtain ⟨pending, htables, hpending⟩ := sweepRow_cases now acked budget row contacts.daemon
      rw [ContactsWorld.pending, htables] at hfound
      obtain rfl | ⟨-, rfl⟩ | ⟨f, rfl, -⟩ := hpending
      · exact hfound
      · rwa [Table.get_delete_ne _ hpeer] at hfound
      · rwa [Table.get_modify_ne _ _ hpeer] at hfound
    · exact ⟨List.nodup_nil, fun _ hrow => absurd hrow List.not_mem_nil⟩
  | removeContact env contact =>
    refine ⟨h.nodup, fun row hrow found hfound => h.stored row hrow found ?_⟩
    rw [ContactsWorld.pending, contactsStep] at hfound
    rcases removeContact_pending env contact contacts.daemon with hsame | hdelete
    · rwa [hsame] at hfound
    · rw [hdelete] at hfound
      exact (Table.get_delete_eq_some.mp hfound).2
  | restart => exact ⟨List.nodup_nil, fun _ hrow => absurd hrow List.not_mem_nil⟩

end Rows

/-! ### The actors -/

/-- Only the Welcome in turn is in a queue, while the sweep waits for it, and what the sweep takes
for an acknowledgement is one of the Welcome in turn. -/
structure Matched (deps : InviteDeps P G) (world : WelcomeWorld) : Prop where
  queued : world.jobs = [] ∨ world.wait = .queued ∧ ∃ row ∈ world.contacts.rows.head?,
    world.jobs = [⟨row.peer, row.welcomeBytes, true⟩]
  acked : world.wait = .acked → ∃ row ∈ world.contacts.rows.head?,
    (row.peer, welcomeMsgId deps.blake2s row.welcomeBytes) ∈ world.acks

section Actors

variable {deps : InviteDeps P G} {world : WelcomeWorld}

theorem Matched.of_rows (h : Matched deps world) {contacts : ContactsWorld}
    (hrows : ∀ row ∈ world.contacts.rows.head?, row ∈ contacts.rows.head?) :
    Matched deps { world with contacts } := by
  constructor
  · rcases h.queued with hnil | ⟨hwait, row, hrow, hjobs⟩
    · exact .inl hnil
    · exact .inr ⟨hwait, row, hrows row hrow, hjobs⟩
  · intro hwait
    obtain ⟨row, hrow, hack⟩ := h.acked hwait
    exact ⟨row, hrows row hrow, hack⟩

theorem Matched.report (h : Matched deps world) {p : PendingWelcomeDue → Bool} {result : Wait}
    {acks : List (PublicKey × MessageId)} (hsub : ∀ ack ∈ world.acks, ack ∈ acks)
    (hresult : result = .acked → ∀ row, p row = true →
      (row.peer, welcomeMsgId deps.blake2s row.welcomeBytes) ∈ acks) :
    Matched deps { world with
      acks, wait := if world.awaits p then result else world.wait } := by
  cases hawaits : world.awaits p with
  | true =>
    obtain ⟨hwritten, hhead⟩ := (Bool.and_eq_true _ _).mp hawaits
    refine ⟨.inl (h.queued.resolve_right fun hqueued => ?_), fun hacked => ?_⟩
    · rw [of_decide_eq_true hwritten] at hqueued
      exact nomatch hqueued.1
    · obtain ⟨row, hrow, hp⟩ := Option.any_eq_true _ _ |>.mp hhead
      exact ⟨row, hrow, hresult hacked row hp⟩
  | false =>
    refine ⟨h.queued, fun hacked => ?_⟩
    obtain ⟨row, hrow, hack⟩ := h.acked hacked
    exact ⟨row, hrow, hsub _ hack⟩

theorem Matched.step (h : Matched deps world) (action : WelcomeAction)
    (hguard : overtakes deps world action = false) :
    Matched deps (welcomeStep deps world action) := by
  cases action with
  | addContact | removeContact => exact h.of_rows fun _ hrow => hrow
  | startSweep now batch =>
    refine h.of_rows fun row hrow => ?_
    rw [contactsStep]
    split
    · next hnone =>
      rw [ContactsWorld.rows, hnone] at hrow
      cases hrow
    · exact hrow
  | sendWelcome =>
    rw [welcomeStep]
    split
    · next row rest hwait hrows =>
      have hjobs : world.jobs = [] := h.queued.resolve_right fun hqueued => by
        rw [hwait] at hqueued
        cases hqueued.1
      exact ⟨.inr ⟨rfl, row, by rw [hrows]; rfl, by rw [hjobs]; rfl⟩, fun hacked => by cases hacked⟩
    · exact h
  | takeJob peer written =>
    rw [welcomeStep]
    split
    · exact h
    · next job hjob =>
      rcases h.queued with hnil | ⟨hwait, row, hrow, hjobs⟩
      · rw [hnil] at hjob
        cases hjob
      · have hmem := List.mem_of_find?_eq_some hjob
        have hpeer := List.find?_some hjob
        rw [hjobs, List.mem_singleton] at hmem
        subst hmem
        refine ⟨.inl ?_, fun hacked => ?_⟩
        · rw [hjobs]
          exact List.eraseP_cons_of_pos (p := fun job : WelcomeJob => job.peer = peer) hpeer
        · cases written <;> cases hacked
  | ack peer id =>
    refine h.report (fun _ hack => List.mem_cons_of_mem _ hack) fun _ row hrow => ?_
    obtain ⟨rfl, rfl⟩ := of_decide_eq_true hrow
    exact List.mem_cons_self
  | connectionLost peer => exact h.report (fun _ hack => hack) fun hacked => by cases hacked
  | waitEnds budget =>
    rw [welcomeStep]
    split
    · exact h
    · have hjobs : world.jobs = [] := h.queued.resolve_right fun hqueued =>
        of_decide_eq_false hguard hqueued.1
      exact ⟨.inl (by rw [hjobs]; rfl), fun hacked => by cases hacked⟩
  | restart => exact ⟨.inl rfl, fun hacked => by cases hacked⟩

theorem Held.welcomeStep (h : Held world.contacts) (action : WelcomeAction)
    (hguard : overtakes deps world action = false) :
    Held (Daemon.welcomeStep deps world action).contacts := by
  cases action with
  | addContact env url =>
    refine h.step deps (.addContact env url) fun env' url' link haction hparse row hrow hpeer => ?_
    cases haction
    have hany : world.contacts.rows.any (·.peer = link.inviter) = true :=
      List.any_eq_true.mpr ⟨row, hrow, decide_eq_true hpeer⟩
    simpa only [overtakes, hparse, hany, Bool.true_and, Bool.not_eq_false'] using hguard
  | removeContact env contact =>
    exact h.step deps (.removeContact env contact) fun _ _ _ haction => nomatch haction
  | startSweep now batch =>
    exact h.step deps (.startSweep now batch) fun _ _ _ haction => nomatch haction
  | sendWelcome | takeJob =>
    rw [Daemon.welcomeStep]
    split <;> exact h
  | ack | connectionLost => exact h
  | waitEnds budget =>
    rw [Daemon.welcomeStep]
    split
    · exact h
    · exact h.step deps (.sweepNext (world.wait = .acked) budget) fun _ _ _ haction =>
        nomatch haction
  | restart => exact h.step deps .restart fun _ _ _ haction => nomatch haction

theorem step_row (deps : InviteDeps P G) (action : WelcomeAction) {peer : PublicKey}
    {row : PendingWelcomeRow} (hrow : world.contacts.pending.get peer = some row) :
    (welcomeStep deps world action).contacts.pending.get peer = some row ∨
    ((welcomeStep deps world action).contacts.pending.get peer = none ∧
      ∃ env, action = .removeContact env peer) ∨
    ∃ now due rest, world.contacts.sweeping = some (now, due :: rest) ∧ due.peer = peer ∧
      ((welcomeStep deps world action).contacts.pending.get peer = none ∧ world.wait = .acked ∨
        ∃ after, (welcomeStep deps world action).contacts.pending.get peer = some after ∧
          (after.failed = true → row.failed = true ∨
            MAX_WELCOME_AGE_MS ≤ saturate (now - due.createdAt))) := by
  have hstored : world.contacts.daemon.tables.pendingWelcomes.get peer = some row := hrow
  cases action with
  | addContact env url =>
    refine .inl ?_
    rw [welcomeStep, contactsStep, ContactsWorld.pending]
    rcases addContact_pending deps env url world.contacts.daemon with hsame | ⟨link, new, -, hins⟩
    · rwa [hsame]
    · rw [hins, Table.get_insertOrIgnore]
      split
      · next hpeer => rw [← hpeer, hstored, Option.getD_some]
      · exact hrow
  | removeContact env contact =>
    rw [welcomeStep, contactsStep, ContactsWorld.pending]
    rcases removeContact_pending env contact world.contacts.daemon with hsame | hdelete
    · exact .inl (by rwa [hsame])
    · by_cases hpeer : peer = contact
      · refine .inr (.inl ⟨?_, env, by rw [hpeer]⟩)
        rw [hdelete, hpeer, Table.get_delete_self]
      · refine .inl ?_
        rw [hdelete, Table.get_delete_ne _ hpeer]
        exact hrow
  | startSweep now batch =>
    refine .inl ?_
    rw [welcomeStep, contactsStep]
    split <;> exact hrow
  | sendWelcome | takeJob =>
    refine .inl ?_
    rw [welcomeStep]
    split <;> exact hrow
  | ack | connectionLost | restart => exact .inl hrow
  | waitEnds budget =>
    rw [welcomeStep]
    split
    · exact .inl hrow
    rw [contactsStep]
    split
    · next now due rest hsweeping =>
      obtain ⟨pending, htables, hpending⟩ :=
        sweepRow_cases now (world.wait = .acked) budget due world.contacts.daemon
      rw [ContactsWorld.pending, htables]
      by_cases hpeer : peer = due.peer
      · subst hpeer
        obtain rfl | ⟨hacked, rfl⟩ | ⟨f, rfl, ⟨hf, hage⟩ | hf⟩ := hpending
        · exact .inl hrow
        · exact .inr (.inr ⟨now, due, rest, hsweeping, rfl,
            .inl ⟨Table.get_delete_self .., of_decide_eq_true hacked⟩⟩)
        · refine .inr (.inr ⟨now, due, rest, hsweeping, rfl, .inr ⟨f row, ?_, fun _ => .inr hage⟩⟩)
          rw [Table.get_modify_self, hstored, Option.map_some]
        · refine .inr (.inr ⟨now, due, rest, hsweeping, rfl, .inr ⟨f row, ?_, fun hfailed => ?_⟩⟩)
          · rw [Table.get_modify_self, hstored, Option.map_some]
          · rw [hf] at hfailed
            exact .inl hfailed
      · refine .inl ?_
        obtain rfl | ⟨-, rfl⟩ | ⟨f, rfl, -⟩ := hpending
        · exact hrow
        · rwa [Table.get_delete_ne _ hpeer]
        · rwa [Table.get_modify_ne _ _ hpeer]
    · exact .inl hrow

def Tracked (deps : InviteDeps P G) (world : WelcomeWorld) : Prop :=
  Held world.contacts ∧ Matched deps world

theorem Tracked.justified (h : Tracked deps world) (action : WelcomeAction) :
    Justified deps world action := by
  obtain ⟨hheld, hmatched⟩ := h
  have hturn {now : Int} {due : PendingWelcomeDue} {rest : List PendingWelcomeDue}
      (h : world.contacts.sweeping = some (now, due :: rest)) :
      world.contacts.rows = due :: rest := by
    rw [ContactsWorld.rows, h]
    rfl
  refine ⟨fun peer row hrow hnone => ?_, fun peer row after hrow hafter hfailed => ?_,
    fun peer row hrow hfailed htransmits => ?_⟩
  · rcases step_row deps action hrow with hsame | ⟨-, hremoved⟩ |
      ⟨now, due, rest, hsweeping, rfl, ⟨-, hacked⟩ | ⟨_, hsome, -⟩⟩
    · rw [hsame] at hnone
      cases hnone
    · exact .inl hremoved
    · obtain ⟨head, hhead, hack⟩ := hmatched.acked hacked
      rw [hturn hsweeping] at hhead
      cases hhead
      rw [(hheld.stored due (hturn hsweeping ▸ List.mem_cons_self) row hrow).1]
      exact .inr hack
    · rw [hsome] at hnone
      cases hnone
  · rcases step_row deps action hrow with hsame | ⟨hnone, -⟩ |
      ⟨now, due, rest, hsweeping, rfl, ⟨hnone, -⟩ | ⟨found, hsome, hfound⟩⟩
    · rw [hsame] at hafter
      cases hafter
      exact .inl hfailed
    · rw [hnone] at hafter
      cases hafter
    · rw [hnone] at hafter
      cases hafter
    · rw [hsome] at hafter
      cases hafter
      refine (hfound hfailed).imp_right fun hage => ⟨now, _, hsweeping, ?_⟩
      rwa [(hheld.stored due (hturn hsweeping ▸ List.mem_cons_self) row hrow).2.1]
  · unfold transmits at htransmits
    split at htransmits
    · obtain ⟨job, hjob, hsent⟩ := Option.map_eq_some_iff.mp htransmits
      rcases hmatched.queued with hnil | ⟨-, due, hdue, hjobs⟩
      · rw [hnil] at hjob
        cases hjob
      · have hmem := List.mem_of_find?_eq_some hjob
        rw [hjobs, List.mem_singleton] at hmem
        subst hmem
        obtain ⟨rfl, -⟩ := Prod.mk.inj hsent
        rw [(hheld.stored due (List.mem_of_mem_head? hdue) row hrow).2.2] at hfailed
        cases hfailed
    · cases htransmits

end Actors

/-! ### The receiver -/

/-- A Welcome arrives on a connection, or another part of the daemon changes the tables. -/
inductive ReceiverAction where
  | welcome (env : JoinEnv) (conn : Connection) (bytes : Bytes)
  | elsewhere (tables : Tables)

def receiverStep (deps : JoinDeps P G) (state : State) : ReceiverAction → State
  | .welcome env conn bytes => (welcomeOn deps env conn bytes state).2
  | .elsewhere tables => { state with tables }

/-- Copies of the Welcome come from the peer that it was joined with, over a connection that is
attributed to that peer or to nobody, and are looked up without a fault; the record of the join is
not purged. -/
def Resent (welcome : Bytes) (x : ByteArr 32) (identity : PublicKey) (state : State) :
    ReceiverAction → Prop
  | .welcome env conn bytes => bytes = welcome → env.ackFault = false ∧ conn.peerX25519 = x ∧
      (conn.peer = none ∨ conn.peer = some identity)
  | .elsewhere tables => tables.firstContactAcks = state.tables.firstContactAcks

/-- A copy of the Welcome is acknowledged as one that was joined before, and changes nothing. -/
def Reacked (deps : JoinDeps P G) (welcome : Bytes) (identity : PublicKey) (state : State) :
    ReceiverAction → Prop
  | .welcome env conn bytes =>
    bytes = welcome → welcomeOn deps env conn bytes state = (.known identity, state)
  | .elsewhere _ => True

def OnRecord (deps : JoinDeps P G) (welcome : Bytes) (x : ByteArr 32) (identity : PublicKey)
    (state : State) : Prop :=
  ∃ kpRef, parseWelcomeKpHash deps.mls welcome = .ok kpRef ∧
    state.tables.firstContactAcks.get kpRef = some ⟨x, identity⟩

section Receiver

variable {deps : JoinDeps P G} {welcome : Bytes} {x : ByteArr 32} {identity : PublicKey}
  {state : State} {action : ReceiverAction} {conn : Connection} {env : JoinEnv}

theorem welcomeOn_cases (deps : JoinDeps P G) (env : JoinEnv) (conn : Connection) (welcome : Bytes)
    (state : State) :
    (∃ join bindX25519, parseWelcomeKpHash deps.mls welcome = .ok join.kpRef ∧
      (conn.peer = none → bindX25519 = some conn.peerX25519) ∧
      (welcomeOn deps env conn welcome state).1 = .joined join.derived ∧
      (welcomeOn deps env conn welcome state).2.tables =
        joinTables deps bindX25519 join state.tables) ∨
    (∀ derived, (welcomeOn deps env conn welcome state).1 ≠ .joined derived) ∧
      (welcomeOn deps env conn welcome state).2 = state := by
  rcases h : welcomeOn deps env conn welcome state with ⟨outcome, after⟩
  unfold welcomeOn at h
  split at h
  · next peer hpeer =>
    rcases receiveWelcome_cases h with ⟨join, hjoin, houtcome, htables⟩ | hrefused
    · obtain ⟨_, _, _, -, hparse, -⟩ := prepareJoin_ok hjoin
      refine .inl ⟨join, none, hparse, fun hnone => ?_, houtcome, htables⟩
      cases hpeer.symm.trans hnone
    · exact .inr hrefused
  · rcases receiveWelcome_cases h with ⟨join, hjoin, houtcome, htables⟩ | hrefused
    · obtain ⟨_, _, _, -, hparse, -⟩ := prepareJoin_ok hjoin
      exact .inl ⟨join, _, hparse, fun _ => rfl, houtcome, htables⟩
    · exact .inr hrefused

theorem welcomeOn_known {kpRef : KpRef} {ack : FirstContactAck}
    (hparse : parseWelcomeKpHash deps.mls welcome = .ok kpRef) (hfault : env.ackFault = false)
    (hack : state.tables.firstContactAcks.get kpRef = some ack) :
    welcomeOn deps env conn welcome state =
      (if conn.peer.elim (decide (ack.peerX25519 = conn.peerX25519)) (ack.peerIdentity = ·) then
        .known ack.peerIdentity else .refused, state) := by
  have hlookup : ackLookup deps env state.tables welcome = some ack := by
    simp only [ackLookup, hparse, hfault, hack, Bool.false_eq_true, if_false]
  unfold welcomeOn
  split
  · next peer hpeer => simp [receiveWelcome, hlookup, hpeer]
  · next hpeer => simp [receiveWelcome, hlookup, hpeer]

theorem get_joinTables_acks (deps : JoinDeps P G) (bindX25519 : Option (ByteArr 32))
    (join : Prepared G) (tables : Tables) (kpRef : KpRef) :
    (joinTables deps bindX25519 join tables).firstContactAcks.get kpRef =
      (tables.firstContactAcks.get kpRef).or
        (if kpRef = join.kpRef then bindX25519.map (⟨·, join.derived⟩) else none) := by
  cases bindX25519 with
  | none => cases hack : tables.firstContactAcks.get kpRef <;> simp [joinTables, hack]
  | some x =>
    show (Table.insertOrIgnore ..).get _ = _
    rw [Table.get_insertOrIgnore]
    split
    · next hkp => cases hack : tables.firstContactAcks.get kpRef <;> simp [← hkp, hack]
    · cases hack : tables.firstContactAcks.get kpRef <;> simp

theorem onRecord_of_joined (hfault : env.ackFault = false) (hconn : conn.peer = none)
    (h : (welcomeOn deps env conn welcome state).1 = .joined identity) :
    OnRecord deps welcome conn.peerX25519 identity (welcomeOn deps env conn welcome state).2 := by
  rcases welcomeOn_cases deps env conn welcome state with
    ⟨join, bindX25519, hparse, hbind, houtcome, htables⟩ | ⟨hnot, -⟩
  · cases houtcome.symm.trans h
    refine ⟨join.kpRef, hparse, ?_⟩
    rw [htables, get_joinTables_acks, if_pos rfl, hbind hconn]
    cases hack : state.tables.firstContactAcks.get join.kpRef with
    | none => rfl
    | some ack =>
      -- an earlier record would have kept the Welcome from being joined
      rw [welcomeOn_known hparse hfault hack] at h
      dsimp only at h
      split at h <;> cases h
  · exact absurd h (hnot identity)

theorem OnRecord.step (h : OnRecord deps welcome x identity state)
    (hguard : Resent welcome x identity state action) :
    OnRecord deps welcome x identity (receiverStep deps state action) := by
  obtain ⟨kpRef, hparse, hack⟩ := h
  refine ⟨kpRef, hparse, ?_⟩
  cases action with
  | welcome env conn bytes =>
    rw [receiverStep]
    rcases welcomeOn_cases deps env conn bytes state with ⟨join, _, -, -, -, htables⟩ | ⟨-, hsame⟩
    · rw [htables, get_joinTables_acks, hack, Option.some_or]
    · rwa [hsame]
  | elsewhere tables =>
    show tables.firstContactAcks.get kpRef = _
    rwa [show tables.firstContactAcks = _ from hguard]

theorem OnRecord.reacked (h : OnRecord deps welcome x identity state)
    (hguard : Resent welcome x identity state action) :
    Reacked deps welcome identity state action := by
  obtain ⟨kpRef, hparse, hack⟩ := h
  cases action with
  | elsewhere tables => trivial
  | welcome env conn bytes =>
    rintro rfl
    obtain ⟨hfault, hx, hpeer⟩ := hguard rfl
    rw [welcomeOn_known hparse hfault hack]
    rcases hpeer with hpeer | hpeer <;> simp [hpeer, hx]

end Receiver

/-- In every run of the sender whose steps add no contact anew that the sweep holds a row of, and
end no wait before the actor has taken the Welcome, a pending Welcome is deleted only by an
acknowledgement of it from its peer or with its contact, fails only at its age, and is not sent
once it has failed. At the receiver every further copy of a Welcome that was joined on the
bootstrap path is acknowledged and changes nothing. -/
theorem welcome_lifecycle (deps : InviteDeps P G) :
    (∀ actions, Meets (welcomeStep deps) (fun world action => overtakes deps world action = false)
        WelcomeWorld.init actions →
      Meets (welcomeStep deps) (Justified deps) WelcomeWorld.init actions) ∧
    ∀ (env : JoinEnv) (conn : Connection) (welcome : Bytes) (state : State) (identity : PublicKey),
      env.ackFault = false → conn.peer = none →
      (welcomeOn deps.toJoinDeps env conn welcome state).1 = .joined identity →
      ∀ later, Meets (receiverStep deps.toJoinDeps) (Resent welcome conn.peerX25519 identity)
          (welcomeOn deps.toJoinDeps env conn welcome state).2 later →
        Meets (receiverStep deps.toJoinDeps) (Reacked deps.toJoinDeps welcome identity)
          (welcomeOn deps.toJoinDeps env conn welcome state).2 later := by
  constructor
  · intro actions h
    have hinit : Tracked deps WelcomeWorld.init :=
      ⟨⟨List.nodup_nil, fun _ hrow => nomatch hrow⟩, .inl rfl, fun hacked => nomatch hacked⟩
    exact meets_of_meets (fun _ action hinv hguard =>
        ⟨hinv.1.welcomeStep action hguard, hinv.2.step action hguard⟩)
      (fun _ action hinv _ => hinv.justified action) hinit h
  · intro env conn welcome state identity hfault hconn hjoined later h
    exact meets_of_meets (fun _ _ hinv hguard => hinv.step hguard)
      (fun _ _ hinv hguard => hinv.reacked hguard) (onRecord_of_joined hfault hconn hjoined) h

/-! ### Runs between alice and bob -/

def summing (self : PublicKey) : InviteDeps Keyring Roster :=
  { rosterDeps self alice with blake2s := fun bytes => .fill 32 bytes.sum }

def handedOver (now : Int) : List WelcomeAction :=
  [.addContact firstAdd (aliceInvites.getD 0 []), .startSweep now 32, .sendWelcome]

def runWelcome (actions : List WelcomeAction) : WelcomeWorld :=
  actions.foldl (welcomeStep (summing bob)) WelcomeWorld.init

def firstId : MessageId :=
  welcomeMsgId (summing bob).blake2s
    (((runWelcome (handedOver 0)).contacts.pending.get alice).elim [] (·.welcomeBytes))

def ackedInTime : List WelcomeAction :=
  handedOver 0 ++ [.takeJob alice true, .ack alice firstId, .waitEnds none]

/-- While the Welcome is waited for, bob removes alice and adds alice with another invite. -/
def addedAnew : List WelcomeAction :=
  handedOver 0 ++ [.takeJob alice true, .removeContact removeFree alice,
    .addContact { quietAdd (.fill 32 6) with random := .fill 32 19 } (aliceInvites.getD 1 []),
    .ack alice firstId]

/-- The Welcome is a day old and the wait for it ends while it is in the queue. -/
def endedInQueue : List WelcomeAction := handedOver 86400000 ++ [.waitEnds none]

def copyOn (peer : Option PublicKey) (psks : List (Bytes × ByteArr 32)) : ReceiverAction :=
  .welcome quietJoin ⟨bob, .fill 32 5, peer⟩ (welcomeOf bob psks).encode

/-- The Welcome of bob to alice: it is acknowledged once and its row deleted, and alice acknowledges
two further copies. -/
theorem first_contact_finished :
    Meets (welcomeStep (summing bob)) (Justified (summing bob)) WelcomeWorld.init ackedInTime ∧
    (runWelcome ackedInTime).contacts.pending.get alice = none ∧
    Meets (receiverStep (summing alice).toJoinDeps)
      (Reacked (summing alice).toJoinDeps (welcomeOf bob (honestPsks (.fill 32 5))).encode bob)
      (welcomeOn (summing alice).toJoinDeps quietJoin ⟨bob, .fill 32 5, none⟩
        (welcomeOf bob (honestPsks (.fill 32 5))).encode
        (oneInvite.foldl (inviteStep (summing alice)) State.init)).2
      [copyOn none (honestPsks (.fill 32 5)), copyOn (some bob) (honestPsks (.fill 32 5))] := by
  refine ⟨(welcome_lifecycle (summing bob)).1 _ (by decide +kernel), by decide +kernel, ?_⟩
  refine (welcome_lifecycle (summing alice)).2 quietJoin _ _ _ bob rfl rfl (by decide +kernel) _ ?_
  exact ⟨fun _ => ⟨rfl, rfl, .inl rfl⟩, fun _ => ⟨rfl, rfl, .inr rfl⟩, trivial⟩

/-- The acknowledgement of the first Welcome deletes the row of the second one, a Welcome whose row
has failed is sent, and a Welcome that was joined on an established connection is not acknowledged
again. -/
theorem acked_for_another_welcome :
    ((runWelcome addedAnew).acks = [(alice, firstId)] ∧
      ¬Justified (summing bob) (runWelcome addedAnew) (.waitEnds none)) ∧
    ¬Justified (summing bob) (runWelcome endedInQueue) (.takeJob alice true) ∧
    (welcomeOn (summing alice).toJoinDeps quietJoin ⟨bob, .fill 32 5, some bob⟩
      (welcomeOf bob []).encode (oneInvite.foldl (inviteStep (summing alice)) State.init)).1 =
        .joined bob ∧
    (welcomeOn (summing alice).toJoinDeps quietJoin ⟨bob, .fill 32 5, some bob⟩
      (welcomeOf bob []).encode (receiverStep (summing alice).toJoinDeps
        (oneInvite.foldl (inviteStep (summing alice)) State.init) (copyOn (some bob) []))).1 =
        .refused := by
  refine ⟨⟨by decide +kernel, fun h => ?_⟩, fun h => ?_, by decide +kernel, by decide +kernel⟩
  · have hnew : ((runWelcome addedAnew).contacts.pending.get alice).any (fun row =>
        (alice, welcomeMsgId (summing bob).blake2s row.welcomeBytes) ∉
          (runWelcome addedAnew).acks) = true := by
      decide +kernel
    obtain ⟨row, hrow, hunacked⟩ := (Option.any_eq_true _ _).mp hnew
    rcases h.deleted alice row hrow (by decide +kernel) with ⟨env, hremoved⟩ | hacked
    · cases hremoved
    · exact of_decide_eq_true hunacked hacked
  · have hfailed : ((runWelcome endedInQueue).contacts.pending.get alice).any (fun row =>
        row.failed ∧ transmits (runWelcome endedInQueue) (.takeJob alice true) =
          some (alice, row.welcomeBytes)) = true := by
      decide +kernel
    obtain ⟨row, hrow, hsent⟩ := (Option.any_eq_true _ _).mp hfailed
    exact h.unsent alice row hrow (of_decide_eq_true hsent).1 (of_decide_eq_true hsent).2

end Skattr.Core.Daemon
