import Skattr.Core.Daemon.Redelivery

/-!
# Concurrent critical sections on the ratchet

Sending a message, sending a card and receiving all load a group's snapshot, advance it in memory
and save it, under the group's lock. Here these calls are threads that take one step at a time in
any order, any storage step may fail, and the process may crash and restart. `no_ratchet_reuse`
says that in every such run two ciphertexts that left the daemon were encrypted at different
places of the key schedule, and that no save replaces a snapshot that it did not start from.
-/

namespace Skattr.Core.Daemon.Interleaving

open Lib Lib.Fallible Core.Mls

variable {G : Type}

inductive Task where
  | message (env : Env) (self contact : PublicKey) (kind : Kind)
  | card (env : Env) (card : ContactCard) (peer : PublicKey)
  | inbound (env : Env) (sender : PublicKey) (groupId : GroupId) (ciphertext : Bytes)
      (enforceTsWindow : Bool)

/-- An advanced group in memory, with what is to be persisted with it. -/
inductive Work (G : Type) where
  | message (env : Env) (self contact : PublicKey) (kind : Kind) (ciphertext : Bytes)
      (next : Mls.Group G)
  | card (env : Env) (peer : PublicKey) (ciphertext : Bytes) (next : Mls.Group G)
  | inbound (env : Env) (sender : PublicKey) (enforceTsWindow : Bool) (content : Option Envelope)
      (next : Mls.Group G)

def Work.next : Work G → Mls.Group G
  | .message _ _ _ _ _ next => next
  | .card _ _ _ next => next
  | .inbound _ _ _ _ next => next

/-- A ciphertext on its way to the hub. -/
structure Parcel where
  peer : PublicKey
  id : MessageId
  ciphertext : Bytes
  deriving DecidableEq

def Work.parcel : Work G → Option Parcel
  | .message env _ contact _ ciphertext _ => some ⟨contact, env.freshId, ciphertext⟩
  | .card env peer ciphertext _ => some ⟨peer, env.freshId, ciphertext⟩
  | .inbound .. => none

/-- The program points of a call. From `locked` to `saved` the thread holds the group's lock;
`version` counts the saves of the group at the time of the load. -/
inductive Thread (G : Type) where
  | idle
  | start (task : Task)
  | locking (task : Task) (groupId : GroupId)
  | locked (task : Task) (groupId : GroupId)
  | loaded (task : Task) (groupId : GroupId) (version : Nat) (group : Mls.Group G)
  | ready (groupId : GroupId) (version : Nat) (base : G) (work : Work G)
  | saved (groupId : GroupId) (parcel : Option Parcel)
  | handing (parcel : Parcel)

/-- A ciphertext that was persisted for delivery, with the snapshot it was encrypted from. -/
structure Release (G : Type) where
  groupId : GroupId
  base : G
  ciphertext : Bytes

/-- A save of a group: the version that its call had loaded and the version that it replaced. -/
structure Save where
  groupId : GroupId
  loaded : Nat
  replaced : Nat

/-- The daemon with its threads and group locks, and the history of its saves and releases. -/
structure World (G : Type) where
  daemon : State
  threads : Nat → Thread G
  locks : GroupId → Option Nat
  versions : GroupId → Nat
  saves : List Save
  emitted : List (Release G)

def World.init (tables : Tables) : World G :=
  ⟨⟨tables, [], [], []⟩, fun _ => .idle, fun _ => none, fun _ => 0, [], []⟩

/-! ### The steps of a call -/

/-- The group whose lock the call takes; `none` when the call ends before. -/
def resolve (tables : Tables) : Task → Option GroupId
  | .message _ _ contact kind =>
    if kind.isCardUpdate then none
    else (linkedGroup tables contact).toOption.filter (·.length = 32)
  | .card _ _ peer =>
    if isPeerPending tables peer then none
    else (linkedGroup tables peer).toOption.filter (·.length = 32)
  | .inbound _ _ groupId _ _ => (some groupId).filter (·.length = 32)

/-- Advance the loaded group in memory; `none` when the call ends with an error. -/
def prepare (deps : Deps G) (tables : Tables) (group : Mls.Group G) : Task → Option (Work G)
  | .message env self contact kind =>
    -- a message makes this check under the lock, a card made it before in `resolve`
    if isPeerPending tables contact then none
    else
      match group.encrypt deps.mls deps.codec (newEnvelope env kind) with
      | .ok (ciphertext, next) => some (.message env self contact kind ciphertext next)
      | .error _ => none
  | .card env card peer =>
    match group.encrypt deps.mls deps.codec (newEnvelope env (.contactCardUpdate card)) with
    | .ok (ciphertext, next) => some (.card env peer ciphertext next)
    | .error _ => none
  | .inbound env sender _ ciphertext enforceTsWindow =>
    match group.decrypt deps.mls deps.codec ciphertext with
    | .ok (content, next) => some (.inbound env sender enforceTsWindow content next)
    | .error _ => none

/-- Persist the work; the result tells whether the snapshot was saved. `budget` is the number of
statements before a storage fault. -/
def persist (deps : Deps G) (budget : Option Nat) (daemon : State) : Work G → Bool × State
  | .message env self contact kind ciphertext next =>
    match persistSentOnce deps { env with budget := budget } self contact next
        (newEnvelope env kind) ciphertext daemon.tables with
    | (.ok true, tables) => (true, { daemon with tables := tables })
    | (_, tables) => (false, { daemon with tables := tables })
  | .card _ _ _ next =>
    match Pool.transaction budget (saveInTx deps.mls next) daemon.tables with
    | (.ok _, tables) => (true, { daemon with tables := tables })
    | (.error _, tables) => (false, { daemon with tables := tables })
  | .inbound env sender enforceTsWindow content next =>
    match exec (receive deps { env with budget := budget } sender next.id next enforceTsWindow
        content) daemon with
    | (result, daemon) => (savesGroup content result, daemon)

def World.set (world : World G) (i : Nat) (thread : Thread G) : World G :=
  { world with threads := Function.update world.threads i thread }

def World.unlock (world : World G) (i : Nat) (groupId : GroupId) (thread : Thread G) : World G :=
  { world.set i thread with locks := Function.update world.locks groupId none }

def released (groupId : GroupId) (base : G) (work : Work G) : List (Release G) :=
  (work.parcel.map fun parcel => ⟨groupId, base, parcel.ciphertext⟩).toList

/-- The world after a save, with the save and its releases in the history. -/
def World.afterSave (world : World G) (i : Nat) (groupId : GroupId) (version : Nat) (base : G)
    (work : Work G) (daemon : State) : World G :=
  { world with
    daemon := daemon
    threads := Function.update world.threads i (.saved groupId work.parcel)
    versions := Function.update world.versions groupId (world.versions groupId + 1)
    saves := world.saves ++ [⟨groupId, version, world.versions groupId⟩]
    emitted := world.emitted ++ released groupId base work }

def World.persist (deps : Deps G) (world : World G) (i : Nat) (budget : Option Nat)
    (groupId : GroupId) (version : Nat) (base : G) (work : Work G) : World G :=
  match Interleaving.persist deps budget world.daemon work with
  | (true, daemon) => world.afterSave i groupId version base work daemon
  | (false, daemon) => { world with daemon := daemon }.unlock i groupId .idle

/-- The next step of a thread. `fault` makes a storage read, or the hand-off, fail. -/
def World.advance (deps : Deps G) (world : World G) (i : Nat) (fault : Bool)
    (budget : Option Nat) : World G :=
  match world.threads i with
  | .idle => world
  | .start task =>
    match resolve world.daemon.tables task with
    | some groupId => if fault then world.set i .idle else world.set i (.locking task groupId)
    | none => world.set i .idle
  | .locking task groupId =>
    match world.locks groupId with
    | none => { world.set i (.locked task groupId) with
        locks := Function.update world.locks groupId (some i) }
    | some _ => world
  | .locked task groupId =>
    match loadGroup deps.mls world.daemon.tables groupId .groupCorrupt with
    | .ok group =>
      if fault then world.unlock i groupId .idle
      else world.set i (.loaded task groupId (world.versions groupId) group)
    | .error _ => world.unlock i groupId .idle
  | .loaded task groupId version group =>
    match prepare deps world.daemon.tables group task with
    | some work =>
      if fault then world.unlock i groupId .idle
      else world.set i (.ready groupId version group.inner work)
    | none => world.unlock i groupId .idle
  | .ready groupId version base work => world.persist deps i budget groupId version base work
  | .saved groupId parcel =>
    -- the guard is dropped before the hand-off, so that hand-offs may overtake one another
    world.unlock i groupId (match parcel with | some parcel => .handing parcel | none => .idle)
  | .handing parcel =>
    if fault then world.set i .idle
    else { world.set i .idle with
      daemon := { world.daemon with
        handed := world.daemon.handed ++ [(parcel.peer, parcel.id, parcel.ciphertext)] } }

/-- What can happen: a call starts on a free thread, a thread takes a step, or the process crashes
and restarts. -/
inductive Action where
  | spawn (i : Nat) (task : Task)
  | advance (i : Nat) (fault : Bool) (budget : Option Nat)
  | crash

/-- One action. A crash ends every thread, and with it the locks; the database stays. -/
def step (deps : Deps G) (world : World G) : Action → World G
  | .spawn i task =>
    match world.threads i with
    | .idle => world.set i (.start task)
    | _ => world
  | .advance i fault budget => world.advance deps i fault budget
  | .crash => { world with threads := fun _ => .idle, locks := fun _ => none }

/-! ### The place in the key schedule -/

def position (mls : OpenMls G) (generation : G → Nat) (g : G) : ℕ ×ₗ ℕ :=
  toLex (mls.epoch g, generation g)

variable {mls : OpenMls G} {before : World G} {thread : Thread G} {generation : G → Nat} {g' g : G}

theorem position_lt_created (hratchet : mls.Ratchets generation) {plaintext ciphertext : Bytes}
    (h : mls.createMessage g plaintext = .ok (ciphertext, g')) :
    position mls generation g < position mls generation g' := by
  obtain ⟨hepoch, hgeneration⟩ := hratchet.created h
  refine Prod.Lex.toLex_lt_toLex.mpr (.inr ⟨hepoch.symm, ?_⟩)
  show generation g < generation g'
  omega

theorem position_le_advances (hratchet : mls.Ratchets generation) (h : mls.Advances g g') :
    position mls generation g ≤ position mls generation g' := by
  cases h with
  | created h => exact (position_lt_created hratchet h).le
  | processed h =>
    obtain ⟨hepoch, hgeneration⟩ := hratchet.processed h
    rw [position, position, hepoch, hgeneration]
  | merged h => exact (Prod.Lex.toLex_lt_toLex.mpr (.inl (hratchet.merged h))).le

theorem position_le_later (hratchet : mls.Ratchets generation) (h : mls.Later g g') :
    position mls generation g ≤ position mls generation g' := by
  induction h with
  | refl => exact le_refl _
  | tail _ hstep ih => exact ih.trans (position_le_advances hratchet hstep)

/-! ### What the steps of a call do -/

def Work.From (mls : OpenMls G) (groupId : GroupId) (base : G) : Work G → Prop
  | .message _ _ _ _ ciphertext next => next.id = groupId ∧
      ∃ plaintext, mls.createMessage base plaintext = .ok (ciphertext, next.inner)
  | .card _ _ ciphertext next => next.id = groupId ∧
      ∃ plaintext, mls.createMessage base plaintext = .ok (ciphertext, next.inner)
  | .inbound _ _ _ _ next => next.id = groupId ∧ mls.Later base next.inner

variable {work : Work G} {groupId : GroupId} {initial : Tables} {world after : World G}
  {addressee : Bytes → Option GroupId} {deps : Deps G} {i : Nat} {base : G} {daemon : State}

theorem Work.From.next_id (h : work.From mls groupId base) : work.next.id = groupId := by
  cases work <;> exact h.1

theorem Work.From.later (h : work.From mls groupId base) : mls.Later base work.next.inner := by
  cases work with
  | message | card =>
    obtain ⟨-, plaintext, hcreate⟩ := h
    exact .single (.created hcreate)
  | inbound env sender enforce content next => exact h.2

theorem Work.From.created (h : work.From mls groupId base) {parcel : Parcel}
    (hparcel : work.parcel = some parcel) :
    ∃ plaintext, mls.createMessage base plaintext = .ok (parcel.ciphertext, work.next.inner) := by
  cases work with
  | message | card =>
    cases hparcel
    exact h.2
  | inbound env sender enforce content next => cases hparcel

theorem prepare_from {tables : Tables} {group : Mls.Group G} {task : Task}
    (h : prepare deps tables group task = some work) : work.From deps.mls group.id group.inner := by
  cases task with
  | message env self contact kind =>
    simp only [prepare] at h
    split at h
    · cases h
    split at h
    · next ciphertext next hencrypt =>
      cases h
      obtain ⟨plaintext, -, hcreate, hid⟩ := Mls.Group.encrypt_ok hencrypt
      exact ⟨hid, plaintext, hcreate⟩
    · cases h
  | card env card peer =>
    simp only [prepare] at h
    split at h
    · next ciphertext next hencrypt =>
      cases h
      obtain ⟨plaintext, -, hcreate, hid⟩ := Mls.Group.encrypt_ok hencrypt
      exact ⟨hid, plaintext, hcreate⟩
    · cases h
  | inbound env sender groupId ciphertext enforce =>
    simp only [prepare] at h
    split at h
    · next content next hdecrypt =>
      cases h
      exact ⟨(Mls.Group.decrypt_ok hdecrypt).1, Mls.Group.decrypt_later hdecrypt⟩
    · cases h

/-- What persisting does: the snapshot is written and at most the parcel is queued, or nothing of
the ratchet and the delivery changes. -/
structure Persists (mls : OpenMls G) (work : Work G) (saved : Bool) (before after : State) :
    Prop where
  groups : after.tables.groups =
    if saved then before.tables.groups.put work.next.id (groupRow mls work.next)
    else before.tables.groups
  outbox : ∀ key row, after.tables.outbox.get key = some row →
    before.tables.outbox.get key = some row ∨
      saved ∧ ∃ parcel, work.parcel = some parcel ∧ row.payload = parcel.ciphertext
  handed : after.handed = before.handed

theorem persist_persists {budget : Option Nat} {before after : State} {saved : Bool}
    (h : persist deps budget before work = (saved, after)) :
    Persists deps.mls work saved before after := by
  cases work with
  | message env self contact kind ciphertext next =>
    simp only [persist] at h
    split at h
    · next tables hpersist =>
      cases h
      rcases persistSentOnce_cases hpersist with ⟨-, hnot⟩ | ⟨-, u, hdoes⟩
      · exact absurd rfl hnot
      have hframe := does_persistSent_frame hdoes
      refine ⟨congrArg Tables.groups hframe, ?_, rfl⟩
      intro key row hrow
      have houtbox : tables.outbox = _ := congrArg Tables.outbox hframe
      simp only [houtbox, Table.get_insertOrIgnore] at hrow
      split at hrow
      · next hkey =>
        -- the insert is ignored where a row of this id is queued already
        subst hkey
        cases hget : before.tables.outbox.get (contact, (newEnvelope env kind).id) with
        | none =>
          rw [hget] at hrow
          cases hrow
          exact .inr ⟨rfl, _, rfl, rfl⟩
        | some old =>
          rw [hget] at hrow
          exact .inl hrow
      · exact .inl hrow
    · next tables hnot hpersist =>
      cases h
      rcases persistSentOnce_cases hpersist with ⟨rfl, -⟩ | ⟨hok, -⟩
      · exact ⟨rfl, fun key row hrow => .inl hrow, rfl⟩
      · exact absurd hok hnot
  | card env peer ciphertext next =>
    simp only [persist] at h
    split at h
    · next u tables hrun =>
      cases h
      have hsave := does_saveInTx (Tx.run_ok hrun)
      subst hsave
      exact ⟨rfl, fun key row hrow => .inl hrow, rfl⟩
    · next e tables hrun =>
      cases h
      rw [Tx.run_error hrun]
      exact ⟨rfl, fun key row hrow => .inl hrow, rfl⟩
  | inbound env sender enforce content next =>
    rcases hexec : exec (receive deps { env with budget := budget } sender next.id next enforce
      content) before with ⟨result, last⟩
    simp only [persist, hexec] at h
    cases h
    have hreceives := receive_receives hexec
    have hdelivery := hreceives.delivery
    refine ⟨?_, ?_, hreceives.handed⟩
    · split at hdelivery
      · next hsaves =>
        rw [if_pos hsaves]
        exact congrArg Prod.fst hdelivery
      · next hsaves =>
        rw [if_neg hsaves]
        exact congrArg Prod.fst hdelivery
    · intro key row hrow
      have houtbox : after.tables.outbox = before.tables.outbox := by
        split at hdelivery <;> exact congrArg Prod.snd hdelivery
      exact .inl (houtbox ▸ hrow)

/-! ### The invariant -/

/-- Two releases of a group from the same place of the key schedule are the same ciphertext. -/
def Distinct (mls : OpenMls G) (generation : G → Nat) (emitted : List (Release G)) : Prop :=
  ∀ a ∈ emitted, ∀ b ∈ emitted, a.groupId = b.groupId →
    mls.epoch a.base = mls.epoch b.base → generation a.base = generation b.base →
      a.ciphertext = b.ciphertext

/-- What the runs are to satisfy. Every release is an encryption from its base; two releases of a
group from the same place of the key schedule are the same ciphertext; what the hub and the outbox
hold was released, or was there at the start; and every save replaced the version that its call
had loaded. -/
structure NoReuse (mls : OpenMls G) (generation : G → Nat) (initial : Tables) (world : World G) :
    Prop where
  genuine : ∀ release ∈ world.emitted, ∃ plaintext next,
    mls.createMessage release.base plaintext = .ok (release.ciphertext, next)
  distinct : Distinct mls generation world.emitted
  handed : ∀ parcel ∈ world.daemon.handed, ∃ release ∈ world.emitted,
    release.ciphertext = parcel.2.2
  outbox : ∀ key row, world.daemon.tables.outbox.get key = some row →
    initial.outbox.get key = some row ∨ ∃ release ∈ world.emitted,
      release.ciphertext = row.payload
  saves : ∀ save ∈ world.saves, save.loaded = save.replaced

/-- What a thread may rely on: the lock it holds, that the group has not been saved since it was
loaded, and that its parcel was released. -/
def Thread.Ok (mls : OpenMls G) (world : World G) (i : Nat) : Thread G → Prop
  | .idle => True
  | .start _ => True
  | .locking _ _ => True
  | .locked _ groupId => world.locks groupId = some i
  | .loaded _ groupId version group => world.locks groupId = some i ∧
      version = world.versions groupId ∧ Stored mls world.daemon.tables groupId group.inner ∧
      group.id = groupId
  | .ready groupId version base work => world.locks groupId = some i ∧
      version = world.versions groupId ∧ Stored mls world.daemon.tables groupId base ∧
      work.From mls groupId base
  | .saved groupId parcel => world.locks groupId = some i ∧
      ∀ p ∈ parcel, ∃ release ∈ world.emitted, release.ciphertext = p.ciphertext
  | .handing parcel => ∃ release ∈ world.emitted, release.ciphertext = parcel.ciphertext

/-- The invariant of the runs. The stored group of every release is past the release's place. -/
structure Inv (mls : OpenMls G) (generation : G → Nat) (initial : Tables) (world : World G) :
    Prop where
  threads : ∀ i, (world.threads i).Ok mls world i
  past : ∀ release ∈ world.emitted, ∀ g, Stored mls world.daemon.tables release.groupId g →
    position mls generation release.base < position mls generation g
  noReuse : NoReuse mls generation initial world

/-- A change that a thread makes leaves the groups alone that other threads have locked. -/
structure Frame (mls : OpenMls G) (i : Nat) (before after : World G) : Prop where
  locks : ∀ j groupId, j ≠ i → before.locks groupId = some j → after.locks groupId = some j
  versions : ∀ j groupId, j ≠ i → before.locks groupId = some j →
    after.versions groupId = before.versions groupId
  stored : ∀ j groupId g, j ≠ i → before.locks groupId = some j →
    Stored mls before.daemon.tables groupId g → Stored mls after.daemon.tables groupId g
  emitted : ∀ release ∈ before.emitted, release ∈ after.emitted

theorem Thread.Ok.frame {j : Nat} (hframe : Frame mls i before after) (hj : j ≠ i)
    (h : thread.Ok mls before j) : thread.Ok mls after j := by
  cases thread with
  | idle | start | locking => trivial
  | locked task groupId => exact hframe.locks j groupId hj h
  | loaded task groupId version group =>
    obtain ⟨hlock, hversion, hstored, hid⟩ := h
    exact ⟨hframe.locks j groupId hj hlock,
      hversion.trans (hframe.versions j groupId hj hlock).symm,
      hframe.stored j groupId _ hj hlock hstored, hid⟩
  | ready groupId version base work =>
    obtain ⟨hlock, hversion, hstored, hfrom⟩ := h
    exact ⟨hframe.locks j groupId hj hlock,
      hversion.trans (hframe.versions j groupId hj hlock).symm,
      hframe.stored j groupId _ hj hlock hstored, hfrom⟩
  | saved groupId parcel =>
    obtain ⟨hlock, hparcel⟩ := h
    refine ⟨hframe.locks j groupId hj hlock, fun p hp => ?_⟩
    obtain ⟨release, hmem, hct⟩ := hparcel p hp
    exact ⟨release, hframe.emitted release hmem, hct⟩
  | handing parcel =>
    obtain ⟨release, hmem, hct⟩ := h
    exact ⟨release, hframe.emitted release hmem, hct⟩

theorem threads_ok_of_frame (hthreads : ∀ j, (before.threads j).Ok mls before j)
    (hframe : Frame mls i before after)
    (hafter : after.threads = Function.update before.threads i thread)
    (hthread : thread.Ok mls after i) (j : Nat) : (after.threads j).Ok mls after j := by
  rw [hafter]
  by_cases hj : j = i
  · subst hj
    rwa [Function.update_self]
  · rw [Function.update_of_ne hj]
    exact (hthreads j).frame hframe hj

theorem Inv.of_quiet {locks : GroupId → Option Nat} (h : Inv mls generation initial before)
    (hlocks : ∀ j groupId, j ≠ i → before.locks groupId = some j → locks groupId = some j)
    (hthread : thread.Ok mls { before.set i thread with locks := locks } i) :
    Inv mls generation initial { before.set i thread with locks := locks } where
  threads := threads_ok_of_frame h.threads
    ⟨hlocks, fun _ _ _ _ => rfl, fun _ _ _ _ _ hstored => hstored, fun _ hmem => hmem⟩ rfl hthread
  past := h.past
  noReuse := ⟨h.noReuse.genuine, h.noReuse.distinct, h.noReuse.handed, h.noReuse.outbox,
    h.noReuse.saves⟩

theorem Inv.set (h : Inv mls generation initial world)
    (hthread : thread.Ok mls (world.set i thread) i) :
    Inv mls generation initial (world.set i thread) :=
  h.of_quiet (fun _ _ _ hlock => hlock) hthread

theorem Inv.unlock (h : Inv mls generation initial world) (hlock : world.locks groupId = some i)
    (hthread : thread.Ok mls (world.unlock i groupId thread) i) :
    Inv mls generation initial (world.unlock i groupId thread) := by
  refine h.of_quiet (fun j other hj hother => ?_) hthread
  rw [Function.update_of_ne ?_]
  · exact hother
  · rintro rfl
    exact hj (Option.some.inj (hother.symm.trans hlock))

theorem stored_congr (mls : OpenMls G) {before after : Tables} (h : after.groups = before.groups)
    (groupId : GroupId) (g : G) : Stored mls after groupId g ↔ Stored mls before groupId g := by
  unfold Stored MlsGroupRepo.get
  rw [h]

theorem Thread.Ok.of_daemon (hgroups : daemon.tables.groups = world.daemon.tables.groups)
    (h : thread.Ok mls world i) : thread.Ok mls { world with daemon := daemon } i := by
  -- it is the frame of a thread that is not running
  have hframe : Frame mls (i + 1) world { world with daemon := daemon } :=
    ⟨fun _ _ _ hlock => hlock, fun _ _ _ _ => rfl,
      fun _ _ g _ _ hg => (stored_congr mls hgroups _ g).mpr hg, fun _ hmem => hmem⟩
  exact h.frame hframe (Nat.ne_of_lt (Nat.lt_succ_self i))

theorem Inv.of_unsaved (h : Inv mls generation initial world)
    (hpersists : Persists mls work false world.daemon daemon) :
    Inv mls generation initial { world with daemon := daemon } := by
  have hstored := stored_congr mls hpersists.groups
  refine ⟨fun i => (h.threads i).of_daemon hpersists.groups,
    fun release hmem g hg => h.past release hmem g ((hstored _ g).mp hg),
    h.noReuse.genuine, h.noReuse.distinct, ?_, ?_, h.noReuse.saves⟩
  · intro parcel hparcel
    exact h.noReuse.handed parcel (hpersists.handed ▸ hparcel)
  · intro key row hrow
    rcases hpersists.outbox key row hrow with hold | ⟨hfalse, -⟩
    · exact h.noReuse.outbox key row hold
    · cases hfalse

theorem mem_released {release : Release G} :
    release ∈ released groupId base work ↔
      ∃ parcel, work.parcel = some parcel ∧ release = ⟨groupId, base, parcel.ciphertext⟩ := by
  unfold released
  cases work.parcel <;> simp

theorem Distinct.append {emitted : List (Release G)} (h : Distinct mls generation emitted)
    (hpast : ∀ release ∈ emitted, release.groupId = groupId → position mls generation release.base
      < position mls generation base) :
    Distinct mls generation (emitted ++ released groupId base work) := by
  -- an earlier release and a new one are at different places
  have hapart : ∀ old ∈ emitted, ∀ new ∈ released groupId base work, old.groupId = new.groupId →
      mls.epoch old.base = mls.epoch new.base → generation old.base ≠ generation new.base := by
    intro old hold new hnew hgroup hepoch hgeneration
    obtain ⟨parcel, -, rfl⟩ := mem_released.mp hnew
    have hlt := hpast old hold hgroup
    rw [position, position, hepoch, hgeneration] at hlt
    exact lt_irrefl _ hlt
  intro a ha b hb hgroup hepoch hgeneration
  rcases List.mem_append.mp ha with ha | ha <;> rcases List.mem_append.mp hb with hb | hb
  · exact h a ha b hb hgroup hepoch hgeneration
  · exact absurd hgeneration (hapart a ha b hb hgroup hepoch)
  · exact absurd hgeneration.symm (hapart b hb a ha hgroup.symm hepoch.symm)
  · obtain ⟨parcel, hparcel, rfl⟩ := mem_released.mp ha
    obtain ⟨other, hother, rfl⟩ := mem_released.mp hb
    cases hparcel.symm.trans hother
    rfl

/-- What is known when a thread saves under the lock. -/
structure Saving (deps : Deps G) (addressee : Bytes → Option GroupId) (generation : G → Nat)
    (initial : Tables) (world : World G) (i : Nat) (groupId : GroupId) (version : Nat) (base : G)
    (work : Work G) (daemon : State) : Prop where
  lawful : deps.mls.Lawful addressee
  ratchets : deps.mls.Ratchets generation
  inv : Inv deps.mls generation initial world
  ready : (Thread.ready groupId version base work).Ok deps.mls world i
  persists : Persists deps.mls work true world.daemon daemon

section Saving

variable {deps : Deps G} {addressee : Bytes → Option GroupId} {generation : G → Nat}
  {initial : Tables} {world : World G} {i : Nat} {groupId : GroupId} {version : Nat} {base : G}
  {work : Work G} {daemon : State}

variable {other : GroupId}
  (h : Saving deps addressee generation initial world i groupId version base work daemon)

include h

theorem Saving.other_group {j : Nat} (hj : j ≠ i) (hlock : world.locks other = some j) :
    other ≠ groupId := by
  rintro rfl
  exact hj (Option.some.inj (hlock.symm.trans h.ready.1))

theorem Saving.stored (hstored : Stored deps.mls daemon.tables other g) :
    (other = groupId ∧ g = work.next.inner) ∨
      (other ≠ groupId ∧ Stored deps.mls world.daemon.tables other g) := by
  obtain ⟨-, -, ⟨blob, -, hload⟩, hfrom⟩ := h.ready
  have hnextId : deps.mls.groupId work.next.inner = work.next.id := by
    rw [hfrom.later.groupId h.lawful, h.lawful.load_groupId hload, hfrom.next_id]
  rw [← hfrom.next_id]
  exact hstored.of_put h.lawful hnextId h.persists.groups

theorem Saving.keeps_other (hne : other ≠ groupId)
    (hstored : Stored deps.mls world.daemon.tables other g) :
    Stored deps.mls daemon.tables other g := by
  obtain ⟨-, -, -, hfrom⟩ := h.ready
  obtain ⟨blob, hblob, hload⟩ := hstored
  refine ⟨blob, ?_, hload⟩
  have hgroups : daemon.tables.groups = _ := h.persists.groups
  simp only [MlsGroupRepo.get, hgroups, if_true, hfrom.next_id, Table.get_put_ne _ _ hne]
  exact hblob

theorem Saving.past_base :
    ∀ release ∈ world.emitted, release.groupId = groupId →
      position deps.mls generation release.base < position deps.mls generation base := by
  intro release hmem hsame
  exact h.inv.past release hmem base (hsame ▸ h.ready.2.2.1)

theorem Saving.past :
    ∀ release ∈ world.emitted ++ released groupId base work, ∀ g,
      Stored deps.mls daemon.tables release.groupId g →
        position deps.mls generation release.base < position deps.mls generation g := by
  obtain ⟨-, -, -, hfrom⟩ := h.ready
  intro release hmem g hg
  rcases List.mem_append.mp hmem with hold | hnew
  · rcases h.stored hg with ⟨hsame, rfl⟩ | ⟨-, hbefore⟩
    · exact (h.past_base release hold hsame).trans_le (position_le_later h.ratchets hfrom.later)
    · exact h.inv.past release hold g hbefore
  · obtain ⟨parcel, hparcel, rfl⟩ := mem_released.mp hnew
    obtain ⟨plaintext, hcreate⟩ := hfrom.created hparcel
    rcases h.stored hg with ⟨-, rfl⟩ | ⟨hne, -⟩
    · exact position_lt_created h.ratchets hcreate
    · exact absurd rfl hne

theorem Saving.frame :
    Frame deps.mls i world (world.afterSave i groupId version base work daemon) where
  locks _ _ _ hlock := hlock
  versions _ _ hj hlock := Function.update_of_ne (h.other_group hj hlock) _ _
  stored _ _ _ hj hlock hstored := h.keeps_other (h.other_group hj hlock) hstored
  emitted _ hmem := List.mem_append_left _ hmem

theorem Saving.noReuse :
    NoReuse deps.mls generation initial (world.afterSave i groupId version base work daemon) := by
  obtain ⟨-, hversion, -, hfrom⟩ := h.ready
  refine ⟨?_, h.inv.noReuse.distinct.append h.past_base, ?_, ?_, ?_⟩
  · intro release hmem
    rcases List.mem_append.mp hmem with hold | hnew
    · exact h.inv.noReuse.genuine release hold
    · obtain ⟨parcel, hparcel, rfl⟩ := mem_released.mp hnew
      obtain ⟨plaintext, hcreate⟩ := hfrom.created hparcel
      exact ⟨plaintext, _, hcreate⟩
  · intro parcel hparcel
    obtain ⟨release, hmem, hct⟩ := h.inv.noReuse.handed parcel (h.persists.handed ▸ hparcel)
    exact ⟨release, List.mem_append_left _ hmem, hct⟩
  · intro key row hrow
    rcases h.persists.outbox key row hrow with hold | ⟨-, parcel, hparcel, hpayload⟩
    · rcases h.inv.noReuse.outbox key row hold with hinitial | ⟨release, hmem, hct⟩
      · exact .inl hinitial
      · exact .inr ⟨release, List.mem_append_left _ hmem, hct⟩
    · exact .inr ⟨⟨groupId, base, parcel.ciphertext⟩,
        List.mem_append_right _ (mem_released.mpr ⟨parcel, hparcel, rfl⟩), hpayload.symm⟩
  · intro save hmem
    rcases List.mem_append.mp hmem with hold | hnew
    · exact h.inv.noReuse.saves save hold
    · cases List.mem_singleton.mp hnew
      exact hversion

theorem Saving.inv_after :
    Inv deps.mls generation initial (world.afterSave i groupId version base work daemon) := by
  refine ⟨threads_ok_of_frame h.inv.threads h.frame rfl ⟨h.ready.1, fun parcel hparcel => ?_⟩,
    h.past, h.noReuse⟩
  exact ⟨⟨groupId, base, parcel.ciphertext⟩,
    List.mem_append_right _ (mem_released.mpr ⟨parcel, hparcel, rfl⟩), rfl⟩

end Saving

theorem Inv.persist (hmls : deps.mls.Lawful addressee) (hratchet : deps.mls.Ratchets generation)
    (h : Inv deps.mls generation initial world) {version : Nat}
    (hready : (Thread.ready groupId version base work).Ok deps.mls world i) (budget : Option Nat) :
    Inv deps.mls generation initial (world.persist deps i budget groupId version base work) := by
  rcases hpersist : Interleaving.persist deps budget world.daemon work with ⟨saved, daemon⟩
  have hpersists := persist_persists hpersist
  cases saved with
  | false =>
    simp only [World.persist, hpersist]
    exact (h.of_unsaved hpersists).unlock hready.1 trivial
  | true =>
    simp only [World.persist, hpersist]
    exact Saving.inv_after ⟨hmls, hratchet, h, hready, hpersists⟩

theorem Inv.advance (hmls : deps.mls.Lawful addressee) (hratchet : deps.mls.Ratchets generation)
    (h : Inv deps.mls generation initial world) (i : Nat) (fault : Bool) (budget : Option Nat) :
    Inv deps.mls generation initial (world.advance deps i fault budget) := by
  have hok := h.threads i
  unfold World.advance
  cases hthread : world.threads i with
  | idle => exact h
  | start task =>
    dsimp only
    split
    · split
      · exact h.set trivial
      · exact h.set trivial
    · exact h.set trivial
  | locking task groupId =>
    dsimp only
    split
    · next hfree =>
      refine h.of_quiet (fun j other hj hother => ?_) (Function.update_self _ _ _)
      rw [Function.update_of_ne ?_]
      · exact hother
      · rintro rfl
        cases hfree.symm.trans hother
    · exact h
  | locked task groupId =>
    rw [hthread] at hok
    dsimp only
    split
    · next group hload =>
      split
      · exact h.unlock hok trivial
      · obtain ⟨blob, hget, hinner, hid, -⟩ := Mls.Group.load_ok (loadGroup_ok hload)
        exact h.set ⟨hok, rfl, ⟨blob, hget, hinner⟩, hid⟩
    · exact h.unlock hok trivial
  | loaded task groupId version group =>
    rw [hthread] at hok
    obtain ⟨hlock, hversion, hstored, hid⟩ := hok
    dsimp only
    split
    · next work hprepare =>
      split
      · exact h.unlock hlock trivial
      · exact h.set ⟨hlock, hversion, hstored, hid ▸ prepare_from hprepare⟩
    · exact h.unlock hlock trivial
  | ready groupId version base work =>
    rw [hthread] at hok
    exact h.persist hmls hratchet hok budget
  | saved groupId parcel =>
    rw [hthread] at hok
    obtain ⟨hlock, hparcel⟩ := hok
    cases parcel with
    | none => exact h.unlock hlock trivial
    | some parcel => exact h.unlock hlock (hparcel parcel rfl)
  | handing parcel =>
    rw [hthread] at hok
    dsimp only
    split
    · exact h.set trivial
    · have hset : Inv deps.mls generation initial (world.set i .idle) := h.set trivial
      refine ⟨fun j => (hset.threads j).of_daemon rfl, hset.past, hset.noReuse.genuine,
        hset.noReuse.distinct, ?_, hset.noReuse.outbox, hset.noReuse.saves⟩
      intro entry hentry
      rcases List.mem_append.mp hentry with hold | hnew
      · exact h.noReuse.handed entry hold
      · cases List.mem_singleton.mp hnew
        exact hok

theorem Inv.step (hmls : deps.mls.Lawful addressee) (hratchet : deps.mls.Ratchets generation)
    (world : World G) (action : Action) (h : Inv deps.mls generation initial world) :
    Inv deps.mls generation initial (step deps world action) := by
  cases action with
  | spawn i task =>
    simp only [Interleaving.step]
    split
    · exact h.set trivial
    · exact h
  | advance i fault budget => exact h.advance hmls hratchet i fault budget
  | crash =>
    exact ⟨fun _ => trivial, h.past, h.noReuse.genuine, h.noReuse.distinct, h.noReuse.handed,
      h.noReuse.outbox, h.noReuse.saves⟩

theorem inv_init (mls : OpenMls G) (generation : G → Nat) (tables : Tables) :
    Inv mls generation tables (World.init tables) where
  threads _ := trivial
  past _ hmem := by cases hmem
  noReuse := by
    refine ⟨?_, ?_, ?_, fun _ _ hrow => .inl hrow, ?_⟩
    · intro _ hmem
      cases hmem
    · intro _ hmem
      cases hmem
    · intro _ hmem
      cases hmem
    · intro _ hmem
      cases hmem

/-- No ratchet reuse: in every state of every interleaving of sends, card sends and receptions,
with failures at any storage step and crashes at any point, no two different ciphertexts were
released from the same place of a group's key schedule, and every save replaced the snapshot that
its call had loaded. -/
theorem no_ratchet_reuse (deps : Deps G) (addressee : Bytes → Option GroupId)
    (generation : G → Nat) (hmls : deps.mls.Lawful addressee)
    (hratchet : deps.mls.Ratchets generation) (tables : Tables) (actions : List Action) :
    Along (step deps) (NoReuse deps.mls generation tables) (World.init tables) actions :=
  (along_of_step (Inv.step hmls hratchet) (inv_init deps.mls generation tables) actions).imp
    fun _ h => h.noReuse

/-! ### Two interleaved sends and a crash -/

/-- Two threads send to the same contact. The second waits for the first one's lock, the process
crashes before the first hand-off, and a third send follows the restart. -/
def contendedSends : List Action :=
  let env : Nat → Env := fun n => ⟨0, .fill 16 (.ofNat n), none, none⟩
  let send : Nat → Task := fun n => .message (env n) (.fill 32 2) (.fill 32 1) (.text "hi")
  let go : Nat → Action := fun i => .advance i false none
  [.spawn 0 (send 0), .spawn 1 (send 1), go 0, go 1, go 0, go 1, go 0, go 0, go 1, go 0, .crash,
    .spawn 1 (send 2), go 1, go 1, go 1, go 1, go 1, go 1, go 1]

/-- The run is free of reuse, and it did release two messages. -/
theorem contendedSends_no_reuse :
    Along (step counterDeps) (NoReuse counterMls Counter.sent linkedTables)
        (World.init linkedTables) contendedSends ∧
      (contendedSends.foldl (step counterDeps) (World.init linkedTables)).emitted.length = 2 :=
  ⟨no_ratchet_reuse counterDeps _ Counter.sent counterMls_lawful counterMls_ratchets linkedTables
    contendedSends, rfl⟩

end Skattr.Core.Daemon.Interleaving
