import Skattr.Core.Daemon.CreateInvite
import Skattr.Core.Mailbox.Supervision
import Skattr.Lib.Run

/-!
# Concurrent self-cards

Whoever signs a self-card, an invite or a publication, reads the mailboxes first and takes the
version in a transaction of its own. The versions are distinct in every interleaving.
`card_reads_ordered` says so, and that they follow the reads if no card is signed after one whose
mailboxes were read later; `older_list_wins` is a pair of publications where the older list gets the
higher version.
-/

namespace Skattr.Core.Daemon

open Lib Lib.Fallible

variable {P G : Type}

/-- A self-card, and the number of the read that its mailboxes come from. -/
structure SignedCard where
  readAt : Nat
  card : ContactCard

/-- The daemon, its mailboxes, how often they were read, the builders that have read them, with the
number of the read, and the cards signed so far. -/
structure CardWorld where
  daemon : State
  mailboxes : Removal.Mailboxes
  reads : Nat
  builders : Nat → Option (Nat × List String)
  signed : List SignedCard

inductive CardStep where
  /-- A mailbox is added or removed, or its status changes. -/
  | mailboxes (next : Removal.Mailboxes)
  | read (builder : Nat)
  | sign (builder : Nat) (env : CreateEnv) (onion : String)

namespace CardWorld

def step (deps : InviteDeps P G) (world : CardWorld) : CardStep → CardWorld
  | .mailboxes next => { world with mailboxes := next }
  | .read builder =>
    { world with
      reads := world.reads + 1
      builders := Function.update world.builders builder
        (some (world.reads, world.mailboxes.reachable)) }
  | .sign builder env onion =>
    match world.builders builder with
    | none => world
    | some (readAt, mailboxes) =>
      let builders := Function.update world.builders builder none
      match exec (buildNextSelfCard deps env onion mailboxes DEFAULT_TTL_SECS)
        world.daemon with
      | (.error _, daemon) => { world with daemon, builders }
      | (.ok card, daemon) =>
        { world with daemon, builders, signed := world.signed ++ [⟨readAt, card⟩] }

/-- The versions of the cards are distinct. -/
def Distinct (world : CardWorld) : Prop :=
  (world.signed.map fun signed => signed.card.body.version).Nodup

def FollowsReads (world : CardWorld) : Prop :=
  ∀ first ∈ world.signed, ∀ second ∈ world.signed,
    first.card.body.version < second.card.body.version → first.readAt ≤ second.readAt

/-- No card has been signed whose mailboxes were read after those of this builder. -/
def NotOvertaken (world : CardWorld) : CardStep → Prop
  | .sign builder _ _ => ∀ readAt mailboxes, world.builders builder = some (readAt, mailboxes) →
      ∀ signed ∈ world.signed, signed.readAt ≤ readAt
  | _ => True

def Inv (world : CardWorld) : Prop :=
  world.Distinct ∧
    ∀ signed ∈ world.signed, signed.card.body.version ≤ world.daemon.tables.selfCardVersion

variable {deps : InviteDeps P G} {world : CardWorld}

theorem buildNextSelfCard_version {env : CreateEnv} {onion : String} {mailboxes : List String}
    {ttlSecs : Nat} {s t : State} {result : Except CoreError ContactCard}
    (h : exec (buildNextSelfCard deps env onion mailboxes ttlSecs) s = (result, t)) :
    s.tables.selfCardVersion ≤ t.tables.selfCardVersion ∧
      ∀ card, result = .ok card → s.tables.selfCardVersion < card.body.version ∧
        card.body.version ≤ t.tables.selfCardVersion := by
  rcases transactWithin_bind_cases h with ⟨e, rfl, rfl⟩ | ⟨version, tables, hdoes, h⟩
  · exact ⟨Nat.le_refl _, nofun⟩
  obtain ⟨_, bumped, hupdate, hselect⟩ := Tx.does_bind hdoes
  cases Tx.does_update hupdate
  obtain ⟨rfl, rfl⟩ := Tx.does_select hselect
  obtain ⟨hresult, rfl⟩ := Prod.mk.inj h
  refine ⟨Nat.le_succ _, fun card hcard => ?_⟩
  obtain ⟨_, -, hsign⟩ := bind_eq_ok.mp (hresult.trans hcard)
  obtain ⟨_, -, hsign⟩ := bind_eq_ok.mp hsign
  obtain ⟨_, -, hsign⟩ := bind_eq_ok.mp hsign
  cases hsign
  exact ⟨Nat.lt_succ_self _, Nat.le_refl _⟩

theorem step_cases (h : world.Inv) (step : CardStep) :
    (world.step deps step).Inv ∧ ((world.step deps step).signed = world.signed ∨
      ∃ builder env onion readAt mailboxes card, step = .sign builder env onion ∧
        world.builders builder = some (readAt, mailboxes) ∧
        (world.step deps step).signed = world.signed ++ [⟨readAt, card⟩] ∧
        ∀ signed ∈ world.signed, signed.card.body.version < card.body.version) := by
  cases step with
  | mailboxes next => exact ⟨h, .inl rfl⟩
  | read builder => exact ⟨h, .inl rfl⟩
  | sign builder env onion =>
    simp only [CardWorld.step]
    split
    · exact ⟨h, .inl rfl⟩
    · rename_i readAt mailboxes hbuilder
      split
      · rename_i daemon hbuild
        have hversion := (buildNextSelfCard_version hbuild).1
        exact ⟨⟨h.1, fun signed hsigned => (h.2 signed hsigned).trans hversion⟩, .inl rfl⟩
      · rename_i card daemon hbuild
        obtain ⟨hle, hcard⟩ := buildNextSelfCard_version hbuild
        obtain ⟨hlt, hstored⟩ := hcard card rfl
        have hnewer : ∀ signed ∈ world.signed, signed.card.body.version < card.body.version :=
          fun signed hsigned => (h.2 signed hsigned).trans_lt hlt
        refine ⟨⟨?_, fun signed hsigned => ?_⟩,
          .inr ⟨builder, env, onion, readAt, mailboxes, card, rfl, hbuilder, rfl, hnewer⟩⟩
        · unfold Distinct
          rw [List.map_append, List.nodup_append]
          refine ⟨h.1, List.nodup_singleton _, fun version hversion _ hnew heq => ?_⟩
          obtain ⟨signed, hsigned, rfl⟩ := List.mem_map.mp hversion
          exact (hnewer signed hsigned).ne (heq.trans (List.mem_singleton.mp hnew))
        · rcases List.mem_append.mp hsigned with hold | hnew
          · exact (h.2 signed hold).trans hle
          · rw [List.mem_singleton.mp hnew]
            exact hstored

theorem followsReads_step (h : world.Inv) (hfollows : world.FollowsReads) {step : CardStep}
    (hfree : world.NotOvertaken step) : (world.step deps step).FollowsReads := by
  rcases (step_cases (G := G) h step).2 with hsame | ⟨builder, env, onion, readAt, mailboxes, card,
    rfl, hbuilder, hsigned, hnewer⟩
  · unfold FollowsReads
    rw [hsame]
    exact hfollows
  · unfold FollowsReads
    rw [hsigned]
    intro first hfirst second hsecond hlt
    rcases List.mem_append.mp hsecond with hold | hnew
    · rcases List.mem_append.mp hfirst with hfirst | hfirst
      · exact hfollows first hfirst second hold hlt
      · rw [List.mem_singleton.mp hfirst] at hlt
        exact absurd (hnewer second hold) (Nat.lt_asymm hlt)
    · rw [List.mem_singleton.mp hnew] at hlt ⊢
      rcases List.mem_append.mp hfirst with hfirst | hfirst
      · exact hfree readAt mailboxes hbuilder first hfirst
      · rw [List.mem_singleton.mp hfirst]

def init (daemon : State) (mailboxes : Removal.Mailboxes) : CardWorld :=
  ⟨daemon, mailboxes, 0, fun _ => none, []⟩

/-- The versions of all cards are distinct, and follow the reads of the mailboxes if no card is
signed after one with a later read. -/
theorem card_reads_ordered (deps : InviteDeps P G) (daemon : State) (mailboxes : Removal.Mailboxes)
    (steps : List CardStep) :
    Along (step deps) Distinct (init daemon mailboxes) steps ∧
      (Meets (step deps) NotOvertaken (init daemon mailboxes) steps →
        Along (step deps) FollowsReads (init daemon mailboxes) steps) := by
  have hinit : (init daemon mailboxes).Inv := ⟨List.nodup_nil, nofun⟩
  have hinv : Along (step deps) Inv (init daemon mailboxes) steps :=
    along_of_step (P := Inv) (fun world step h => (step_cases h step).1) hinit steps
  refine ⟨hinv.imp fun _ h => h.1, fun hmeets => ?_⟩
  have hruns := along_of_meets (P := fun world => world.Inv ∧ world.FollowsReads)
    (fun world step h hfree => ⟨(step_cases h.1 step).1, followsReads_step h.1 h.2 hfree⟩)
    ⟨hinit, nofun⟩ hmeets
  exact hruns.imp fun _ h => h.2

def oneReachable : Removal.Mailboxes :=
  (Removal.Mailboxes.empty.ensure "m.onion" .mine).2.markStatus 0 .reachable

/-- A second publication after the first. -/
theorem two_publications_ordered :
    Along (step (rosterDeps alice alice)) FollowsReads (init State.init .empty)
      [.read 0, .sign 0 quietCreate "a.onion", .mailboxes oneReachable, .read 1,
        .sign 1 quietCreate "a.onion"] := by
  refine (card_reads_ordered (rosterDeps alice alice) State.init .empty _).2
    ⟨trivial, nofun, trivial, trivial, fun readAt _ h signed hsigned => ?_, trivial⟩
  cases h
  cases List.mem_singleton.mp hsigned
  decide

/-- Two publications at a time: the list without the new mailbox gets the higher version. -/
theorem older_list_wins :
    (([.read 0, .mailboxes oneReachable, .read 1, .sign 1 quietCreate "a.onion",
        .sign 0 quietCreate "a.onion"] : List CardStep).foldl (step (rosterDeps alice alice))
          (init State.init .empty)).signed.map
        (fun signed => (signed.readAt, signed.card.body.version, signed.card.body.mailboxes)) =
      [(1, 1, ["m.onion"]), (0, 2, [])] := by
  decide +kernel

end CardWorld

end Skattr.Core.Daemon
