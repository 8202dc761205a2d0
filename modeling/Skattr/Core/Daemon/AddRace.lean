import Skattr.Core.Daemon.AddContact
import Skattr.Lib.Run

/-!
# Concurrent calls of `addContact`

Calls of `addContact` are threads that take their steps in any order, of which any storage step, any
dial and any step of OpenMLS may fail. `addContact_all_or_nothing` says that a failed call leaves
nothing behind that stands in the way of a retry, and that in every interleaving at most one call
for an invite succeeds.
-/

namespace Skattr.Core.Daemon

open Lib Lib.Fallible Core.Mls

variable {P G : Type} (deps : InviteDeps P G)

/-- The program points of a call: before it looks for the recorded key package, before it records
it, before the early check, before the dial, and before the transaction. -/
inductive AddThread (G : Type) where
  | idle
  | start (env : AddEnv) (url : List Char)
  | recording (env : AddEnv) (link : InviteLink)
  | recorded (env : AddEnv) (link : InviteLink)
  | dialing (env : AddEnv) (link : InviteLink)
  | built (env : AddEnv) (link : InviteLink) (contact : FirstContact G)

structure Success (G : Type) where
  env : AddEnv
  link : InviteLink
  contact : FirstContact G

/-- The daemon with its calls, and the calls that have succeeded. -/
structure AddWorld (G : Type) where
  daemon : State
  threads : Nat → AddThread G
  added : List (Success G)

/-- A client submits an invite, or a call takes its next step. -/
inductive AddAction where
  | submit (thread : Nat) (env : AddEnv) (url : List Char)
  | advance (thread : Nat)

def AddWorld.init (tables : Tables) : AddWorld G := ⟨⟨tables, [], [], []⟩, fun _ => .idle, []⟩

def AddWorld.setThread (world : AddWorld G) (i : Nat) (thread : AddThread G) : AddWorld G :=
  { world with threads := Function.update world.threads i thread }

def lookUp (deps : InviteDeps P G) (tables : Tables) (env : AddEnv) (url : List Char) :
    AddThread G :=
  match InviteLink.fromUrl deps.codec deps.verifyLink url env.now with
  | .error _ => .idle
  | .ok link =>
    if env.getFault then .idle
    else if (tables.keyPackages.get (link.kpHash deps.mls.sha256)).isSome then .recorded env link
    else .recording env link

/-- Record the key package; another call may have recorded it since the lookup. -/
def record (deps : InviteDeps P G) (world : AddWorld G) (i : Nat) (env : AddEnv)
    (link : InviteLink) : AddWorld G :=
  match Pool.transaction env.recordBudget
    (KeyPackageRepo.insert (link.kpHash deps.mls.sha256) link.body.keyPackage .theirs)
    world.daemon.tables with
  | (.error _, _) => world.setThread i .idle
  | (.ok _, tables) =>
    { world.setThread i (.recorded env link) with
      daemon := { world.daemon with tables := tables } }

def commitContact (deps : InviteDeps P G) (world : AddWorld G) (i : Nat) (env : AddEnv)
    (link : InviteLink) (contact : FirstContact G) : AddWorld G :=
  match Pool.transaction env.commitBudget (persistContact deps env link contact)
    world.daemon.tables with
  | (.error _, _) => world.setThread i .idle
  | (.ok _, tables) =>
    { world.setThread i .idle with
      daemon := { world.daemon with
        tables := tables, events := world.daemon.events ++ [.contactUpdated link.inviter] }
      added := world.added ++ [⟨env, link, contact⟩] }

def advanceAdd (deps : InviteDeps P G) (world : AddWorld G) (i : Nat) : AddWorld G :=
  match world.threads i with
  | .idle => world
  | .start env url => world.setThread i (lookUp deps world.daemon.tables env url)
  | .recording env link => record deps world i env link
  | .recorded env link =>
    if env.consumedFault ∨
        InviteLink.isConsumed world.daemon.tables (link.kpHash deps.mls.sha256) then
      world.setThread i .idle
    else world.setThread i (.dialing env link)
  | .dialing env link =>
    match buildFirstContact deps env link with
    | .error _ => world.setThread i .idle
    | .ok contact => world.setThread i (.built env link contact)
  | .built env link contact => commitContact deps world i env link contact

def addStep (deps : InviteDeps P G) (world : AddWorld G) : AddAction → AddWorld G
  | .submit i env url =>
    match world.threads i with
    | .idle => world.setThread i (.start env url)
    | _ => world
  | .advance i => advanceAdd deps world i

/-! ### The calls that succeed -/

def Success.hash (deps : InviteDeps P G) (call : Success G) : ByteArr 32 :=
  call.link.kpHash deps.mls.sha256

/-- What the calls have done together: no two of them succeeded with the same invite, and the
contacts with their cards, the groups, the pending Welcomes and the consumed invites are what the
successful calls made of them. -/
structure AllOrNothing (deps : InviteDeps P G) (tables : Tables) (world : AddWorld G) : Prop where
  once : (world.added.map (Success.hash deps)).Nodup
  contacts : world.daemon.tables.contacts = world.added.foldl (fun contacts call =>
    addedContacts contacts call.env call.link call.contact.group.id) tables.contacts
  groups : world.daemon.tables.groups = world.added.foldl (fun groups call =>
    groups.put call.contact.group.id (groupRow deps.mls.toOpenMls call.contact.group)) tables.groups
  pending : world.daemon.tables.pendingWelcomes = world.added.foldl (fun pending call =>
    pending.insertOrIgnore call.link.inviter ⟨call.contact.group.id, call.contact.welcome,
      call.env.nowMs, 0, call.env.nowMs, false⟩) tables.pendingWelcomes
  consumed : ∀ hash, InviteLink.isConsumed world.daemon.tables hash = true ↔
    InviteLink.isConsumed tables hash = true ∨ hash ∈ world.added.map (Success.hash deps)

theorem allOrNothing_init (tables : Tables) : AllOrNothing deps tables (AddWorld.init tables) :=
  ⟨List.nodup_nil, rfl, rfl, rfl, fun hash => by simp [AddWorld.init]⟩

/-- What one step did: it changed no table, it recorded a key package, or it committed a call whose
invite was recorded and not consumed. -/
theorem addStep_cases (world : AddWorld G) (action : AddAction) :
    ((addStep deps world action).daemon = world.daemon ∧
      (addStep deps world action).added = world.added) ∨
    (∃ link, Recorded deps link world.daemon (addStep deps world action).daemon ∧
      (addStep deps world action).added = world.added) ∨
    ∃ call : Success G,
      InviteLink.isConsumed world.daemon.tables (call.hash deps) = false ∧
      (world.daemon.tables.keyPackages.get (call.hash deps)).isSome ∧
      (addStep deps world action).daemon.tables =
        addedTables deps call.env call.link call.contact world.daemon.tables ∧
      (addStep deps world action).added = world.added ++ [call] := by
  cases action with
  | submit i env url =>
    refine .inl ?_
    rw [addStep]
    split <;> exact ⟨rfl, rfl⟩
  | advance i =>
    rw [addStep, advanceAdd]
    split
    · exact .inl ⟨rfl, rfl⟩
    · exact .inl ⟨rfl, rfl⟩
    · next env link _ =>
      unfold record
      split
      · exact .inl ⟨rfl, rfl⟩
      · next tables hrun =>
        exact .inr (.inl ⟨link, .of_transaction hrun, rfl⟩)
    · refine .inl ?_
      split <;> exact ⟨rfl, rfl⟩
    · refine .inl ?_
      split <;> exact ⟨rfl, rfl⟩
    · next env link contact _ =>
      unfold commitContact
      split
      · exact .inl ⟨rfl, rfl⟩
      · next tables hrun =>
        obtain ⟨hconsumed, hknown, htables⟩ := does_persistContact (Tx.run_ok hrun)
        exact .inr (.inr ⟨⟨env, link, contact⟩, hconsumed, hknown, htables, rfl⟩)

theorem isConsumed_addedTables {deps : InviteDeps P G} {call : Success G} {tables : Tables}
    (hknown : (tables.keyPackages.get (call.hash deps)).isSome) (hash : ByteArr 32) :
    InviteLink.isConsumed (addedTables deps call.env call.link call.contact tables) hash = true ↔
      InviteLink.isConsumed tables hash = true ∨ hash = call.hash deps := by
  obtain ⟨row, hrow⟩ := Option.isSome_iff_exists.mp hknown
  unfold Success.hash at hrow ⊢
  simp only [InviteLink.isConsumed, addedTables, Table.get_modify]
  by_cases hhash : hash = call.link.kpHash deps.mls.sha256
  · rw [if_pos hhash, hhash, hrow]
    simp
  · rw [if_neg hhash]
    simp [hhash]

theorem step_allOrNothing (tables : Tables) (world : AddWorld G) (action : AddAction)
    (hinv : AllOrNothing deps tables world) :
    AllOrNothing deps tables (addStep deps world action) := by
  rcases addStep_cases deps world action with
    ⟨hdaemon, hadded⟩ | ⟨link, hrecorded, hadded⟩ | ⟨call, hconsumed, hknown, htables, hadded⟩
  · exact ⟨hadded ▸ hinv.once, by rw [hdaemon, hadded, hinv.contacts],
      by rw [hdaemon, hadded, hinv.groups], by rw [hdaemon, hadded, hinv.pending],
      by rw [hdaemon, hadded]; exact hinv.consumed⟩
  · have htables := hrecorded.tables
    exact ⟨hadded ▸ hinv.once, by rw [htables, hadded, ← hinv.contacts],
      by rw [htables, hadded, ← hinv.groups], by rw [htables, hadded, ← hinv.pending],
      fun hash => by rw [hrecorded.isConsumed, hadded]; exact hinv.consumed hash⟩
  -- the transaction checks again that the invite is not consumed, so no earlier call succeeded
  have hnew : call.hash deps ∉ world.added.map (Success.hash deps) := by
    intro hmem
    have hspent := (hinv.consumed _).mpr (.inr hmem)
    rw [hconsumed] at hspent
    cases hspent
  refine ⟨?_, ?_, ?_, ?_, fun hash => ?_⟩
  · rw [hadded, List.map_append]
    exact List.nodup_append.mpr ⟨hinv.once, List.nodup_singleton _, by simpa using hnew⟩
  · rw [htables, hadded, List.foldl_append, ← hinv.contacts]
    rfl
  · rw [htables, hadded, List.foldl_append, ← hinv.groups]
    rfl
  · rw [htables, hadded, List.foldl_append, ← hinv.pending]
    rfl
  · rw [htables, isConsumed_addedTables hknown, hinv.consumed, hadded, List.map_append]
    simp [or_assoc]

/-- A failed call leaves the contacts, their cards, the groups, the pending Welcomes and the
consumption of every invite as they were, and a call for the same invite that would have succeeded
before succeeds after it. And in every interleaving of calls at most one succeeds for an invite,
and those that do not succeed leave nothing behind. -/
theorem addContact_all_or_nothing (deps : InviteDeps P G) :
    (∀ {env url s t e}, exec (addContact deps env url) s = (.error e, t) →
      t.tables.contacts = s.tables.contacts ∧ t.tables.groups = s.tables.groups ∧
      t.tables.pendingWelcomes = s.tables.pendingWelcomes ∧
      (∀ hash, InviteLink.isConsumed t.tables hash = InviteLink.isConsumed s.tables hash) ∧
      ∀ {env' added u}, exec (addContact deps env' url) s = (.ok added, u) →
        exec (addContact deps env' url) t = (.ok added, u)) ∧
    ∀ tables actions,
      Along (addStep deps) (AllOrNothing deps tables) (AddWorld.init tables) actions := by
  refine ⟨fun {env url s t e} h => ?_, fun tables actions => ?_⟩
  · rcases addContact_error h with rfl | ⟨link, -, hrecorded⟩
    · exact ⟨rfl, rfl, rfl, fun _ => rfl, addContact_again h⟩
    · have htables := hrecorded.tables
      exact ⟨by rw [htables], by rw [htables], by rw [htables], hrecorded.isConsumed,
        addContact_again h⟩
  · exact along_of_step (step_allOrNothing deps tables) (allOrNothing_init deps tables) actions

/-- An invite whose inviter could not be dialed is accepted later. -/
theorem offline_inviter_added_later :
    (exec (addContact (rosterDeps bob alice) offlineAdd (aliceInvites.getD 0 [])) State.init).1 =
      .error .deliveryTimeout ∧
    (exec (addContact (rosterDeps bob alice) (quietAdd (.fill 32 5)) (aliceInvites.getD 0 []))
      (exec (addContact (rosterDeps bob alice) offlineAdd (aliceInvites.getD 0 []))
        State.init).2).1 = .ok ⟨alice, "self.onion", 0⟩ := by
  have hfailed : (exec (addContact (rosterDeps bob alice) offlineAdd (aliceInvites.getD 0 []))
      State.init).1 = .error .deliveryTimeout := by decide +kernel
  have hadded : (exec (addContact (rosterDeps bob alice) (quietAdd (.fill 32 5))
      (aliceInvites.getD 0 [])) State.init).1 = .ok ⟨alice, "self.onion", 0⟩ := by decide +kernel
  obtain ⟨-, -, -, -, hagain⟩ :=
    (addContact_all_or_nothing (rosterDeps bob alice)).1 (Prod.ext hfailed rfl)
  exact ⟨hfailed, congrArg Prod.fst (hagain (Prod.ext hadded rfl))⟩

end Skattr.Core.Daemon
