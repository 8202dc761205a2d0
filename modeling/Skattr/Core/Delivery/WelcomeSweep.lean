import Skattr.Core.Daemon.Inbound

/-!
# Sending pending Welcomes again

A sweep reads the pending Welcomes that are due and sends them one after another. A Welcome that is
acknowledged loses its row, one that is too old is marked as failed, and any other is scheduled
again. `sweepRow_tables` says that nothing of this changes which Welcome is pending for a peer.
-/

namespace Skattr.Core.Delivery

open Lib Lib.Fallible Daemon

def BACKOFF_MS : List Int := [5000, 15000, 30000, 60000]

def MAX_WELCOME_AGE_MS : Int := 24 * 60 * 60 * 1000

/-- The pause after this many attempts; the last one of the schedule is used again. -/
def welcomeBackoffMs (attempts : Nat) : Int :=
  BACKOFF_MS.get ⟨min attempts (BACKOFF_MS.length - 1),
    Nat.lt_of_le_of_lt (Nat.min_le_right ..) (by decide)⟩

/-- The peer has joined: delete its row, whichever Welcome it is for now. The card that is sent to
the peer then touches its group and the outbox only. -/
def onWelcomeAcked (budget : Option Nat) (peer : PublicKey) : Fallible CoreError State Unit := do
  transactWithin budget (PendingWelcomeRepo.delete peer)
  emit (.contactUpdated peer)

/-- The sweep's turn of one row, which was read at the start of the sweep. `acked` tells whether
the peer acknowledged the Welcome in time, and errors of the storage are only logged. -/
def sweepRow (now : Int) (acked : Bool) (budget : Option Nat) (row : PendingWelcomeDue) :
    Fallible CoreError State Unit :=
  ignoreError <|
    if acked then onWelcomeAcked budget row.peer
    else if MAX_WELCOME_AGE_MS ≤ saturate (now - row.createdAt) then
      transactWithin budget (PendingWelcomeRepo.markFailed row.peer)
    else
      transactWithin budget
        (PendingWelcomeRepo.reschedule row.peer (saturate (now + welcomeBackoffMs row.attempts)))

/-- Every pending Welcome was pending before, for the same group and with the same bytes. -/
def SameWelcomes (old new : Table PublicKey PendingWelcomeRow) : Prop :=
  ∀ peer row, new.get peer = some row → ∃ before, old.get peer = some before ∧
    row.groupId = before.groupId ∧ row.welcomeBytes = before.welcomeBytes

variable (pending : Table PublicKey PendingWelcomeRow)

theorem SameWelcomes.refl : SameWelcomes pending pending :=
  fun _ row hrow => ⟨row, hrow, rfl, rfl⟩

theorem SameWelcomes.delete (peer : PublicKey) : SameWelcomes pending (pending.delete peer) := by
  intro other row hrow
  exact ⟨row, (Table.get_delete_eq_some.mp hrow).2, rfl, rfl⟩

theorem SameWelcomes.modify (peer : PublicKey) {f : PendingWelcomeRow → PendingWelcomeRow}
    (hf : ∀ row, (f row).groupId = row.groupId ∧ (f row).welcomeBytes = row.welcomeBytes) :
    SameWelcomes pending (pending.modify peer f) := by
  intro other row hrow
  by_cases hother : other = peer
  · subst hother
    rw [Table.get_modify_self] at hrow
    obtain ⟨before, hbefore, rfl⟩ := Option.map_eq_some_iff.mp hrow
    exact ⟨before, hbefore, hf before⟩
  · rw [Table.get_modify_ne _ _ hother] at hrow
    exact ⟨row, hrow, rfl, rfl⟩

/-- States whose tables differ in the pending Welcomes only, and there only in what the sweep may
change. -/
def Swept (s t : State) : Prop :=
  ∃ pending, t.tables = { s.tables with pendingWelcomes := pending } ∧
    SameWelcomes s.tables.pendingWelcomes pending

theorem sweepRow_cases (now : Int) (acked : Bool) (budget : Option Nat) (row : PendingWelcomeDue)
    (s : State) : ∃ pending, (exec (sweepRow now acked budget row) s).2.tables =
        { s.tables with pendingWelcomes := pending } ∧
      (pending = s.tables.pendingWelcomes ∨
        (acked = true ∧ pending = s.tables.pendingWelcomes.delete row.peer) ∨
        ∃ f, pending = s.tables.pendingWelcomes.modify row.peer f ∧
          ((∀ stored, f stored = { stored with failed := true }) ∧
              MAX_WELCOME_AGE_MS ≤ saturate (now - row.createdAt) ∨
            ∀ stored, f stored = { stored with
              attempts := stored.attempts + 1
              nextRetryAt := saturate (now + welcomeBackoffMs row.attempts) })) := by
  rw [sweepRow, exec_ignoreError]
  split
  · next hacked =>
    rcases h : exec (onWelcomeAcked budget row.peer) s with ⟨result, t⟩
    rcases transactWithin_bind_cases h with ⟨_, -, rfl⟩ | ⟨_, tables, hdoes, hemit⟩
    · exact ⟨_, rfl, .inl rfl⟩
    cases hemit
    cases PendingWelcomeRepo.does_deleteRow hdoes
    exact ⟨_, rfl, .inr (.inl ⟨hacked, rfl⟩)⟩
  split
  · next hage =>
    rcases h : exec (transactWithin budget (PendingWelcomeRepo.markFailed row.peer)) s with ⟨_, t⟩
    rcases transactWithin_cases h with ⟨_, -, rfl⟩ | ⟨_, tables, -, hdoes, rfl⟩
    · exact ⟨_, rfl, .inl rfl⟩
    cases Tx.does_update hdoes
    exact ⟨_, rfl, .inr (.inr ⟨_, rfl, .inl ⟨fun _ => rfl, hage⟩⟩)⟩
  · rcases h : exec (transactWithin budget (PendingWelcomeRepo.reschedule row.peer
      (saturate (now + welcomeBackoffMs row.attempts)))) s with ⟨_, t⟩
    rcases transactWithin_cases h with ⟨_, -, rfl⟩ | ⟨_, tables, -, hdoes, rfl⟩
    · exact ⟨_, rfl, .inl rfl⟩
    cases Tx.does_update hdoes
    exact ⟨_, rfl, .inr (.inr ⟨_, rfl, .inr fun _ => rfl⟩)⟩

theorem sweepRow_tables (now : Int) (acked : Bool) (budget : Option Nat) (row : PendingWelcomeDue)
    (s : State) : Swept s (exec (sweepRow now acked budget row) s).2 := by
  obtain ⟨pending, htables, hpending⟩ := sweepRow_cases now acked budget row s
  refine ⟨pending, htables, ?_⟩
  obtain rfl | ⟨-, rfl⟩ | ⟨f, rfl, ⟨hf, -⟩ | hf⟩ := hpending
  · exact .refl _
  · exact .delete _ _
  · exact .modify _ _ fun stored => hf stored ▸ ⟨rfl, rfl⟩
  · exact .modify _ _ fun stored => hf stored ▸ ⟨rfl, rfl⟩

end Skattr.Core.Delivery
