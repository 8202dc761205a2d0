import Skattr.Core.Daemon.AddContact
import Skattr.Core.Daemon.RemoveContact
import Skattr.Core.Delivery.WelcomeSweep
import Skattr.Lib.Run

/-!
# The pending Welcome and the linked group

The commands that add and remove contacts, interleaved with the sweep that sends the pending
Welcomes, which reads the rows that are due once and then takes its turns. `pending_welcome_linked`
says that the pending Welcome of a contact is the Welcome of its linked group as long as no inviter
is added whose Welcome is pending, and `refreshed_welcome_lost` that a contact which is added again
keeps the old Welcome.
-/

namespace Skattr.Core.Daemon

open Lib Lib.Fallible Core.Mls Core.Delivery

variable {P G : Type} {obs : Observation P G} {s : State}

/-- The daemon, the rows that a running sweep has not come to yet with the clock it started at, and
the inviter that the last step added with the clock of that call. -/
structure ContactsWorld where
  daemon : State
  sweeping : Option (Int × List PendingWelcomeDue)
  added : Option (PublicKey × Int)

/-- A client adds or removes a contact, the sweep starts or takes its next turn, or the daemon is
restarted. -/
inductive ContactsAction where
  | addContact (env : AddEnv) (url : List Char)
  | startSweep (now : Int) (batch : Nat)
  | sweepNext (acked : Bool) (budget : Option Nat)
  | removeContact (env : RemoveEnv) (contact : PublicKey)
  | restart

def ContactsWorld.init : ContactsWorld := ⟨State.init, none, none⟩

def addedBy (env : AddEnv) : Except CoreError ContactAdded → Option (PublicKey × Int)
  | .ok added => some (added.pubkey, env.nowMs)
  | .error _ => none

def contactsStep (deps : InviteDeps P G) (world : ContactsWorld) : ContactsAction → ContactsWorld
  | .addContact env url =>
    ⟨(exec (addContact deps env url) world.daemon).2, world.sweeping,
      addedBy env (exec (addContact deps env url) world.daemon).1⟩
  | .startSweep now batch =>
    -- one task sweeps, and starts again only when it is done
    match world.sweeping with
    | none =>
      ⟨world.daemon, some (now, PendingWelcomeRepo.due world.daemon.tables now batch), none⟩
    | some _ => ⟨world.daemon, world.sweeping, none⟩
  | .sweepNext acked budget =>
    match world.sweeping with
    | some (now, row :: rest) =>
      ⟨(exec (sweepRow now acked budget row) world.daemon).2, some (now, rest), none⟩
    | _ => ⟨world.daemon, none, none⟩
  | .removeContact env contact =>
    ⟨(exec (removeContact env contact) world.daemon).2, world.sweeping, none⟩
  | .restart => ⟨world.daemon, none, none⟩

/-- A pending Welcome is the Welcome of a group, and its peer is a contact that is linked to that
group. -/
def LinkedWelcome (obs : Observation P G) (tables : Tables) (peer : PublicKey)
    (row : PendingWelcomeRow) : Prop :=
  ContactRepo.getGroupId tables peer = some row.groupId ∧
    ∃ genesis, obs.genesis row.welcomeBytes = some genesis ∧ genesis.groupId = row.groupId

def AllLinked (obs : Observation P G) (tables : Tables) : Prop :=
  ∀ peer row, tables.pendingWelcomes.get peer = some row → LinkedWelcome obs tables peer row

/-- Every pending Welcome is linked, and that of a contact which was just added is due. -/
structure WelcomesLinked (obs : Observation P G) (world : ContactsWorld) : Prop where
  linked : AllLinked obs world.daemon.tables
  due : ∀ peer now, world.added = some (peer, now) →
    ∃ row, world.daemon.tables.pendingWelcomes.get peer = some row ∧
      row.nextRetryAt ≤ now ∧ row.failed = false

def addsPending (deps : InviteDeps P G) (world : ContactsWorld) : ContactsAction → Bool
  | .addContact env url =>
    match InviteLink.fromUrl deps.codec deps.verifyLink url env.now with
    | .ok link => PendingWelcomeRepo.isPending world.daemon.tables link.inviter
    | .error _ => false
  | _ => false

/-! ### The steps -/

theorem AllLinked.of_same {s t : Tables} (hlinked : AllLinked obs s)
    (hsame : SameWelcomes s.pendingWelcomes t.pendingWelcomes)
    (hgroups : ∀ peer row, t.pendingWelcomes.get peer = some row → ContactRepo.getGroupId t peer =
      ContactRepo.getGroupId s peer) : AllLinked obs t := by
  intro peer row hrow
  obtain ⟨before, hbefore, hgroupId, hbytes⟩ := hsame peer row hrow
  rw [LinkedWelcome, hgroups peer row hrow, hgroupId, hbytes]
  exact hlinked peer before hbefore

theorem sweepRow_linked (now : Int) (acked : Bool) (budget : Option Nat) (row : PendingWelcomeDue)
    (hlinked : AllLinked obs s.tables) :
    AllLinked obs (exec (sweepRow now acked budget row) s).2.tables := by
  obtain ⟨pending, htables, hsame⟩ := sweepRow_tables now acked budget row s
  rw [htables]
  exact hlinked.of_same hsame fun _ _ _ => rfl

theorem removeContact_linked (env : RemoveEnv) (contact : PublicKey)
    (hlinked : AllLinked obs s.tables) :
    AllLinked obs (exec (removeContact env contact) s).2.tables := by
  rcases h : exec (removeContact env contact) s with ⟨result, t⟩
  rcases removeContact_cases h with ⟨_, -, rfl⟩ | ⟨-, _, -, htables⟩ |
    ⟨-, row, hrow, hcontacts, hpending⟩
  · exact hlinked
  · rw [htables]
    refine hlinked.of_same (.delete _ _) fun peer row hrow => ?_
    -- the purged contact has no Welcome any more
    have hpeer : peer ≠ contact := (Table.get_delete_eq_some.mp hrow).1
    exact congrArg (Option.map _) (Table.get_delete_ne _ hpeer)
  · have hsame : SameWelcomes s.tables.pendingWelcomes t.tables.pendingWelcomes := by
      rcases hpending with hpending | hpending
      · exact hpending ▸ .refl _
      · exact hpending ▸ .delete _ _
    refine hlinked.of_same hsame fun peer _ _ => ?_
    -- hiding a contact keeps its group
    rw [ContactRepo.getGroupId, ContactRepo.getGroupId, hcontacts]
    by_cases hpeer : peer = contact
    · rw [hpeer, Table.get_put_self, hrow]
      rfl
    · rw [Table.get_put_ne _ _ hpeer]

section Add

variable {deps : InviteDeps P G} {obs : Observation P G} {env : AddEnv} {url : List Char}
  {s t : State} {added : ContactAdded}

theorem addContact_error_linked {e : CoreError}
    (h : exec (addContact deps env url) s = (.error e, t)) (hlinked : AllLinked obs s.tables) :
    AllLinked obs t.tables := by
  rcases addContact_error h with rfl | ⟨link, -, hrecorded⟩
  · exact hlinked
  · rw [hrecorded.tables]
    exact hlinked.of_same (.refl _) fun _ _ _ => rfl

theorem addContact_linked (hmls : deps.mls.Lawful obs)
    (h : exec (addContact deps env url) s = (.ok added, t)) (hlinked : AllLinked obs s.tables)
    (hfree : PendingWelcomeRepo.isPending s.tables added.pubkey = false) :
    AllLinked obs t.tables ∧
      ∃ row, t.tables.pendingWelcomes.get added.pubkey = some row ∧
        row.nextRetryAt ≤ env.nowMs ∧ row.failed = false := by
  obtain ⟨link, contact, -, hbuild, hpubkey, hcontacts, -, hpending⟩ := addContact_ok h
  obtain ⟨keyPackage, hTransport, -, -, hid, hgenesis⟩ := buildFirstContact_ok hmls hbuild
  rw [hpubkey] at hfree ⊢
  have hnone : s.tables.pendingWelcomes.get link.inviter = none := by
    simpa [PendingWelcomeRepo.isPending] using hfree
  have hget : ∀ peer, t.tables.pendingWelcomes.get peer = if peer = link.inviter then
      some ⟨contact.group.id, contact.welcome, env.nowMs, 0, env.nowMs, false⟩ else
        s.tables.pendingWelcomes.get peer := by
    intro peer
    rw [hpending, Table.get_insertOrIgnore, hnone, Option.getD_none]
  refine ⟨fun peer row hrow => ?_, _, (hget _).trans (if_pos rfl), le_refl _, rfl⟩
  rw [LinkedWelcome, getGroupId_added hcontacts]
  rw [hget] at hrow
  by_cases hpeer : peer = link.inviter
  · rw [if_pos hpeer] at hrow ⊢
    cases hrow
    exact ⟨rfl, _, hgenesis, hid.symm⟩
  · rw [if_neg hpeer] at hrow ⊢
    exact hlinked peer row hrow

theorem addContact_unlinked (hmls : deps.mls.Lawful obs)
    (h : exec (addContact deps env url) s = (.ok added, t)) {row : PendingWelcomeRow}
    (hrow : s.tables.pendingWelcomes.get added.pubkey = some row)
    (hfresh : row.groupId ≠ env.random.bytes) : ¬AllLinked obs t.tables := by
  obtain ⟨link, contact, -, hbuild, hpubkey, hcontacts, -, hpending⟩ := addContact_ok h
  obtain ⟨keyPackage, hTransport, -, -, hid, -⟩ := buildFirstContact_ok hmls hbuild
  rw [hpubkey] at hrow
  have hkept : t.tables.pendingWelcomes.get link.inviter = some row := by
    rw [hpending, Table.get_insertOrIgnore, if_pos rfl, hrow, Option.getD_some]
  intro hlinked
  have hgroup := (hlinked _ _ hkept).1
  rw [getGroupId_added hcontacts, if_pos rfl, hid] at hgroup
  exact hfresh (Option.some.inj hgroup).symm

end Add

theorem step_welcomesLinked (deps : InviteDeps P G) (hmls : deps.mls.Lawful obs)
    (world : ContactsWorld) (action : ContactsAction) (hinv : WelcomesLinked obs world)
    (hguard : addsPending deps world action = false) :
    WelcomesLinked obs (contactsStep deps world action) := by
  cases action with
  | addContact env url =>
    rcases h : exec (addContact deps env url) world.daemon with ⟨result, t⟩
    have hstep : contactsStep deps world (.addContact env url) =
        ⟨t, world.sweeping, addedBy env result⟩ := by
      rw [contactsStep, h]
    rw [hstep]
    cases result with
    | error e => exact ⟨addContact_error_linked h hinv.linked, fun _ _ h => by cases h⟩
    | ok added =>
      obtain ⟨link, _, hparse, -, hpubkey, -⟩ := addContact_ok h
      have hfree : PendingWelcomeRepo.isPending world.daemon.tables added.pubkey = false := by
        rw [hpubkey]
        simpa only [addsPending, hparse] using hguard
      obtain ⟨hlinked, hdue⟩ := addContact_linked hmls h hinv.linked hfree
      refine ⟨hlinked, fun peer now hadded => ?_⟩
      cases hadded
      exact hdue
  | startSweep now batch =>
    rw [contactsStep]
    split <;> exact ⟨hinv.linked, fun _ _ h => by cases h⟩
  | sweepNext acked budget =>
    rw [contactsStep]
    split
    · exact ⟨sweepRow_linked _ _ _ _ hinv.linked, fun _ _ h => by cases h⟩
    · exact ⟨hinv.linked, fun _ _ h => by cases h⟩
  | removeContact env contact =>
    exact ⟨removeContact_linked env contact hinv.linked, fun _ _ h => by cases h⟩
  | restart => exact ⟨hinv.linked, fun _ _ h => by cases h⟩

theorem welcomesLinked_init (obs : Observation P G) : WelcomesLinked obs ContactsWorld.init :=
  ⟨fun _ _ h => (by cases h), fun _ _ h => (by cases h)⟩

/-- In every run that adds no inviter whose Welcome is pending, every pending Welcome is the Welcome
of the group that its contact is linked to, and that of a contact which was just added is due. A
successful call that adds one anyway, with a fresh group, always ends this. -/
theorem pending_welcome_linked (deps : InviteDeps P G) {obs : Observation P G}
    (hmls : deps.mls.Lawful obs) :
    (∀ actions, Meets (contactsStep deps) (fun world action => addsPending deps world action =
      false)
        ContactsWorld.init actions →
      Along (contactsStep deps) (WelcomesLinked obs) ContactsWorld.init actions) ∧
    ∀ world env url added, (exec (addContact deps env url) world.daemon).1 = .ok added →
      (∀ row, world.daemon.tables.pendingWelcomes.get added.pubkey = some row →
        row.groupId ≠ env.random.bytes) →
      WelcomesLinked obs world →
      (WelcomesLinked obs (contactsStep deps world (.addContact env url)) ↔
        PendingWelcomeRepo.isPending world.daemon.tables added.pubkey = false) := by
  refine ⟨fun actions h =>
      along_of_meets (step_welcomesLinked deps hmls) (welcomesLinked_init obs) h,
    fun world env url added hadded hfresh hinv => ⟨fun hlinked => ?_, fun hfree => ?_⟩⟩
  · rw [PendingWelcomeRepo.isPending, Option.isSome_eq_false_iff, Option.isNone_iff_eq_none]
    by_contra hsome
    obtain ⟨row, hrow⟩ := Option.ne_none_iff_exists'.mp hsome
    exact addContact_unlinked hmls (Prod.ext hadded rfl) hrow (hfresh row hrow) hlinked.linked
  · obtain ⟨link, _, hparse, -, hpubkey, -⟩ := addContact_ok (Prod.ext hadded rfl)
    refine step_welcomesLinked deps hmls world _ hinv ?_
    simp only [addsPending, hparse]
    rw [← hpubkey]
    exact hfree

/-! ### An inviter that is added again -/

def firstAdd : AddEnv := quietAdd (.fill 32 5)

def laterAdd : AddEnv :=
  { quietAdd (.fill 32 6) with now := 172800, random := .fill 32 19, nowMs := 172800000 }

/-- Bob adds alice, whose Welcome is never acknowledged, removes the contact and adds it again. -/
def removedBetween : List ContactsAction :=
  [.addContact firstAdd (aliceInvites.getD 0 []), .startSweep 86400000 32, .sweepNext false none,
    .removeContact removeFree alice, .addContact laterAdd (aliceInvites.getD 1 [])]

/-- Bob adds alice, whose Welcome is never acknowledged, and adds the contact again. -/
def addedAgain : List ContactsAction :=
  [.addContact firstAdd (aliceInvites.getD 0 []), .startSweep 86400000 32, .sweepNext false none,
    .addContact laterAdd (aliceInvites.getD 1 [])]

/-- When the failed contact is removed first, its new Welcome is linked and due. -/
theorem removed_contact_added :
    (removedBetween.foldl (contactsStep (rosterDeps bob alice)) ContactsWorld.init).added =
      some (alice, 172800000) ∧
    Along (contactsStep (rosterDeps bob alice)) (WelcomesLinked rosterObservation)
      ContactsWorld.init removedBetween :=
  ⟨by decide +kernel,
    (pending_welcome_linked (rosterDeps bob alice) rosterMls_lawful).1 _ (by decide +kernel)⟩

/-- When it is not, the contact is linked to the new group, but the Welcome of the old one stays
pending and failed. -/
theorem refreshed_welcome_lost :
    (addedAgain.foldl (contactsStep (rosterDeps bob alice)) ContactsWorld.init).added =
      some (alice, 172800000) ∧
    ContactRepo.getGroupId (addedAgain.foldl (contactsStep (rosterDeps bob alice))
      ContactsWorld.init).daemon.tables alice = some (List.replicate 32 19) ∧
    ((addedAgain.foldl (contactsStep (rosterDeps bob alice))
      ContactsWorld.init).daemon.tables.pendingWelcomes.get alice).map
        (fun row => (row.groupId, row.failed)) = some (List.replicate 32 9, true) ∧
    ¬Along (contactsStep (rosterDeps bob alice)) (WelcomesLinked rosterObservation)
      ContactsWorld.init addedAgain := by
  refine ⟨by decide +kernel, by decide +kernel, by decide +kernel, fun hlinked => ?_⟩
  -- the Welcome of the contact that was just added would be due, but it has failed
  obtain ⟨row, hrow, -, hfailed⟩ := hlinked.last.due alice 172800000 (by decide +kernel)
  have hmarked : ((addedAgain.foldl (contactsStep (rosterDeps bob alice))
      ContactsWorld.init).daemon.tables.pendingWelcomes.get alice).map (·.failed) = some true := by
    decide +kernel
  rw [hrow, Option.map_some, hfailed] at hmarked
  cases hmarked

end Skattr.Core.Daemon
