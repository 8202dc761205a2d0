import Skattr.Core.Daemon.Binding

/-!
# Concurrent bootstrap Welcomes

Every connection of an unknown peer has a handler of its own, and the handlers take their steps in
any order: the lookup of an earlier join, the lookup of the invite with the join in memory, and the
transaction. The lookup of the invite is outside the transaction that consumes it. The per-group
lock around the transaction is keyed by the new group's id and does not order two joins of one
invite. `single_use_of_outstanding` says that an invite is single use in every run in which each
transaction still finds the invite that it consumes.
-/

namespace Skattr.Core.Daemon

open Lib Lib.Fallible Core.Mls

variable {P G : Type} (deps : JoinDeps P G)

/-- A Welcome on the connection of an unknown peer. -/
structure Arrival where
  env : JoinEnv
  peerX25519 : ByteArr 32
  hTransport : ByteArr 32
  welcome : Bytes

/-- The program points of a handler: before the lookup of an earlier join, before the lookup of the
invite, and before the transaction. -/
inductive Handler (G : Type) where
  | idle
  | arrived (arrival : Arrival)
  | unseen (arrival : Arrival)
  | joined (arrival : Arrival) (join : Prepared G)

/-- The daemon with its handlers, and the joins that were committed. -/
structure RaceWorld (G : Type) where
  daemon : State
  handlers : Nat → Handler G
  joins : List (Prepared G)

/-- A Welcome arrives at a handler that is free, or a handler takes its next step. -/
inductive RaceAction where
  | arrive (handler : Nat) (arrival : Arrival)
  | advance (handler : Nat)

def RaceWorld.init (tables : Tables) : RaceWorld G := ⟨⟨tables, [], [], []⟩, fun _ => .idle, []⟩

def RaceWorld.setHandler (world : RaceWorld G) (i : Nat) (handler : Handler G) : RaceWorld G :=
  { world with handlers := Function.update world.handlers i handler }

def commitJoin (deps : JoinDeps P G) (world : RaceWorld G) (i : Nat) (arrival : Arrival)
    (join : Prepared G) : RaceWorld G :=
  match Pool.transaction arrival.env.budget
    (persistJoin deps (some arrival.peerX25519) join) world.daemon.tables with
  | (.error _, _) => world.setHandler i .idle
  | (.ok _, tables) =>
    { world.setHandler i .idle with
      daemon := { world.daemon with
        tables := tables, events := world.daemon.events ++ [.contactUpdated join.derived] }
      joins := world.joins ++ [join] }

def advance (deps : JoinDeps P G) (world : RaceWorld G) (i : Nat) : RaceWorld G :=
  match world.handlers i with
  | .idle => world
  | .arrived arrival =>
    match ackLookup deps arrival.env world.daemon.tables arrival.welcome with
    | some _ => world.setHandler i .idle
    | none => world.setHandler i (.unseen arrival)
  | .unseen arrival =>
    match prepareJoin deps arrival.env world.daemon.tables arrival.welcome
      (some arrival.peerX25519) (some arrival.hTransport) with
    | .error _ => world.setHandler i .idle
    | .ok join => world.setHandler i (.joined arrival join)
  -- the invite is not looked up again: the transaction deletes its row, present or not
  | .joined arrival join => commitJoin deps world i arrival join

def raceStep (deps : JoinDeps P G) (world : RaceWorld G) : RaceAction → RaceWorld G
  | .arrive i arrival =>
    match world.handlers i with
    | .idle => world.setHandler i (.arrived arrival)
    | _ => world
  | .advance i => advance deps world i

/-! ### Single use -/

def joinGroups (deps : JoinDeps P G) (groups : Table GroupId GroupRow) (join : Prepared G) :
    Table GroupId GroupRow :=
  groups.put join.group.id (groupRow deps.mls.toOpenMls join.group)

/-- No two committed joins consumed the same invite, and the contacts with their cards and the
groups are what the committed joins made of them: no other Welcome has left a trace. -/
structure SingleUse (deps : JoinDeps P G) (tables : Tables) (world : RaceWorld G) : Prop where
  once : (world.joins.map Prepared.kpRef).Nodup
  contacts : world.daemon.tables.contacts = world.joins.foldl joinContacts tables.contacts
  groups : world.daemon.tables.groups = world.joins.foldl (joinGroups deps) tables.groups

def outstanding (world : RaceWorld G) : RaceAction → Bool
  | .arrive _ _ => true
  | .advance i =>
    match world.handlers i with
    | .joined _ join => (world.daemon.tables.outstandingInvites.get join.kpRef).isSome
    | _ => true

/-- Single use, and what carries it: the invites of the committed joins are gone. -/
structure RaceInv (deps : JoinDeps P G) (tables : Tables) (world : RaceWorld G) : Prop
    extends SingleUse deps tables world where
  consumed : ∀ join ∈ world.joins, world.daemon.tables.outstandingInvites.get join.kpRef = none

theorem raceInv_init (tables : Tables) : RaceInv deps tables (RaceWorld.init tables) :=
  ⟨⟨List.nodup_nil, rfl, rfl⟩, fun _ hmem => absurd hmem List.not_mem_nil⟩

theorem raceStep_cases (world : RaceWorld G) (action : RaceAction) :
    ((raceStep deps world action).daemon = world.daemon ∧
      (raceStep deps world action).joins = world.joins) ∨
    ∃ i arrival join, action = .advance i ∧ world.handlers i = .joined arrival join ∧
      (raceStep deps world action).daemon.tables =
        joinTables deps (some arrival.peerX25519) join world.daemon.tables ∧
      (raceStep deps world action).joins = world.joins ++ [join] := by
  cases action with
  | arrive i arrival =>
    refine .inl ?_
    rw [raceStep]
    split <;> exact ⟨rfl, rfl⟩
  | advance i =>
    rw [raceStep, advance]
    cases hhandler : world.handlers i with
    | idle => exact .inl ⟨rfl, rfl⟩
    | arrived arrival =>
      refine .inl ?_
      dsimp only
      split <;> exact ⟨rfl, rfl⟩
    | unseen arrival =>
      refine .inl ?_
      dsimp only
      split <;> exact ⟨rfl, rfl⟩
    | joined arrival join =>
      dsimp only
      unfold commitJoin
      split
      · exact .inl ⟨rfl, rfl⟩
      · next tables hrun =>
        exact .inr ⟨i, arrival, join, rfl, hhandler, does_persistJoin (Tx.run_ok hrun), rfl⟩

theorem step_raceInv (tables : Tables) (world : RaceWorld G) (action : RaceAction)
    (hinv : RaceInv deps tables world) (hguard : outstanding world action = true) :
    RaceInv deps tables (raceStep deps world action) := by
  rcases raceStep_cases deps world action with
    ⟨hdaemon, hjoins⟩ | ⟨i, arrival, join, rfl, hhandler, htables, hjoins⟩
  · exact ⟨⟨hjoins ▸ hinv.once, by rw [hdaemon, hjoins, hinv.contacts],
      by rw [hdaemon, hjoins, hinv.groups]⟩, by rw [hdaemon, hjoins]; exact hinv.consumed⟩
  -- a join was committed; its invite is still there, so no earlier join has consumed it
  have houtstanding : (world.daemon.tables.outstandingInvites.get join.kpRef).isSome := by
    simpa [outstanding, hhandler] using hguard
  have hnew : join.kpRef ∉ world.joins.map Prepared.kpRef := by
    intro hmem
    obtain ⟨earlier, hearlier, hkp⟩ := List.mem_map.mp hmem
    rw [← hkp, hinv.consumed earlier hearlier] at houtstanding
    cases houtstanding
  refine ⟨⟨?_, ?_, ?_⟩, ?_⟩
  · rw [hjoins, List.map_append]
    exact List.nodup_append.mpr ⟨hinv.once, List.nodup_singleton _, by simpa using hnew⟩
  · rw [htables, hjoins, List.foldl_append, ← hinv.contacts]
    rfl
  · rw [htables, hjoins, List.foldl_append, ← hinv.groups]
    rfl
  · intro other hother
    rw [htables, get_joinTables_invites]
    split
    · rfl
    · next hne =>
      rw [hjoins] at hother
      rcases List.mem_append.mp hother with hold | hlast
      · exact hinv.consumed other hold
      · exact absurd (congrArg Prepared.kpRef (List.mem_singleton.mp hlast)) hne

/-- In every interleaving of bootstrap Welcomes in which each transaction still finds the invite
that it consumes, at most one join is committed for each invite, and the other Welcomes leave the
contacts, their cards and the groups unchanged. -/
theorem single_use_of_outstanding (deps : JoinDeps P G) (tables : Tables)
    (actions : List RaceAction)
    (h : Meets (raceStep deps) (fun world action => outstanding world action = true)
      (RaceWorld.init tables) actions) :
    Along (raceStep deps) (SingleUse deps tables) (RaceWorld.init tables) actions :=
  (along_of_meets (step_raceInv deps tables) (raceInv_init deps tables) h).imp
    fun _ hinv => hinv.toSingleUse

/-! ### Two connections, one invite -/

def oneInviteTables : Tables :=
  (oneInvite.foldl (inviteStep (rosterDeps alice alice)) State.init).tables

def arrivalOf (peer : PublicKey) (group : UInt8) : Arrival :=
  ⟨quietJoin, peer, .fill 32 5, Genesis.encode { welcomeOf peer (honestPsks (.fill 32 5)) with
    groupId := List.replicate 32 group }⟩

/-- Two Welcomes, of which one looks for the invite after the other has consumed it. -/
def inTurn : List RaceAction :=
  [.arrive 0 (arrivalOf bob 9), .arrive 1 (arrivalOf mallory 10), .advance 0, .advance 1,
    .advance 0, .advance 0, .advance 1]

/-- Two Welcomes, of which both find the invite before either consumes it. -/
def twoConnections : List RaceAction :=
  [.arrive 0 (arrivalOf bob 9), .arrive 1 (arrivalOf mallory 10), .advance 0, .advance 0,
    .advance 1, .advance 1, .advance 0, .advance 1]

/-- The invite is used once. -/
theorem inTurn_single_use :
    Along (raceStep (rosterDeps alice alice).toJoinDeps)
        (SingleUse (rosterDeps alice alice).toJoinDeps oneInviteTables)
        (RaceWorld.init oneInviteTables) inTurn ∧
      (inTurn.foldl (raceStep (rosterDeps alice alice).toJoinDeps)
        (RaceWorld.init oneInviteTables)).joins.map Prepared.derived = [bob] :=
  ⟨single_use_of_outstanding _ oneInviteTables inTurn (by decide +kernel), by decide +kernel⟩

/-- Both Welcomes are joined and committed with the same invite. -/
theorem invite_used_twice :
    (twoConnections.foldl (raceStep (rosterDeps alice alice).toJoinDeps)
      (RaceWorld.init oneInviteTables)).joins.map (fun join => (join.kpRef, join.derived)) =
        [(.fill 32 7, bob), (.fill 32 7, mallory)] ∧
    ¬SingleUse (rosterDeps alice alice).toJoinDeps oneInviteTables
      (twoConnections.foldl (raceStep (rosterDeps alice alice).toJoinDeps)
        (RaceWorld.init oneInviteTables)) := by
  have hjoins : (twoConnections.foldl (raceStep (rosterDeps alice alice).toJoinDeps)
      (RaceWorld.init oneInviteTables)).joins.map (fun join => (join.kpRef, join.derived)) =
        [(.fill 32 7, bob), (.fill 32 7, mallory)] := by decide +kernel
  refine ⟨hjoins, fun hsingle => ?_⟩
  have honce := hsingle.once
  rw [show (Prepared.kpRef : Prepared Roster → KpRef) =
    Prod.fst ∘ fun join => (join.kpRef, join.derived) from rfl, ← List.map_map, hjoins] at honce
  simp at honce

end Skattr.Core.Daemon
