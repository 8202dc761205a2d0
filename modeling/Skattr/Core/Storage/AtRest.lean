import Skattr.Core.Storage.Pool

/-!
# Plaintext at rest

A closed pool should leave its database only in the encrypted file. While the pool is open the
plaintext is in the working file, its log and the shared-memory file, and a backup export writes a
fourth copy, `skattr.snapshot`, which the export itself removes at its end. `Files` adds the last
two files and the running exports to the pool; exports run in threads of their own, and the process
may die at every step of any of them.

`sealed_iff` says at which closes no plaintext remains: exactly at those that find no copy of an
export and whose removals succeed. It gives a condition on the steps before too, namely that no
crash hits an export that has made its copy. `close_keeps_snapshot` is a run that does not meet
it: a close looks only for the working file and what SQLite puts next to it.
-/

namespace Skattr.Core.Storage

open Lib

variable {Tx : Type}

/-- Where an export is in `snapshot_encrypted`: it waits for the connection, `VACUUM INTO` writes
the copy while it holds the connection, it encrypts the copy, and it removes the copy. -/
inductive Export where
  | waiting
  | copying
  | copied
  | cleaning
  | finished
  deriving DecidableEq

def Export.holdsCopy : Export → Bool
  | .copying | .copied | .cleaning => true
  | .waiting | .finished => false

/-- The pool with the files that only matter for what is left behind. `exported` are the encrypted
snapshots, and `closed` tells whether the last step was the end of a close that returned `Ok`. -/
structure Files (Tx : Type) where
  pool : State Tx
  shm : Bool
  snapshot : Option Bytes
  exports : List Export
  exported : List Bytes
  closed : Bool
  deriving DecidableEq

/-- What can happen: a step of the pool, a death while a close removes its files (the flags tell
which ones are gone), a request for an export, or the next step of an export, whose statement or
encryption succeeds or not and whose `remove_file` does or not. -/
inductive FilesAction (Tx : Type) where
  | pool (action : Action Tx) (shm : Bool)
  | dieRemoving (working wal shm : Bool)
  | startExport
  | runExport (i : Nat) (ok removed : Bool)
  deriving DecidableEq

def Action.needsLock : Action Tx → Bool
  | .commit _ | .checkpoint | .close => true
  | .openPool | .next | .write _ | .remove _ _ _ | .crash => false

def Action.dies : Action Tx → Bool
  | .crash => true
  | .openPool | .next | .write _ | .commit _ | .checkpoint | .close | .remove _ _ _ => false

def Phase.hasPool : Phase → Bool
  | .live | .shut | .sealed => true
  | _ => false

namespace Files

def init : Files Tx := ⟨State.init, false, none, [], [], false⟩

def locked (s : Files Tx) : Bool := s.exports.contains .copying

def become (s : Files Tx) (i : Nat) (stage : Export) : Files Tx :=
  { s with exports := s.exports.set i stage }

def removes (s : Files Tx) : Action Tx → Bool
  | .remove _ _ _ => s.pool.phase = .sealed
  | _ => false

/-- The step is the end of a close, or a close of a pool whose plaintext is gone. -/
def returnsOk (s : Files Tx) : Action Tx → Bool
  | .remove _ _ _ => s.pool.phase = .sealed
  | .close => s.pool.phase = .shut && s.pool.disk.working = none
  | _ => false

def poolStep (p : Platform Tx) (s : Files Tx) (action : Action Tx) (shm : Bool) : Files Tx :=
  { s with
    pool := s.pool.step p action
    shm := if s.removes action && shm then false else s.shm || (s.pool.step p action).connected
    exports := if action.dies then [] else s.exports
    closed := s.returnsOk action }

/-- The first steps of an export: it takes the connection, folds the log into the main file, removes
the copy of an earlier export and starts `VACUUM INTO`, which refuses a file that exists. -/
def startCopy (p : Platform Tx) (s : Files Tx) (i : Nat) (removed : Bool) : Files Tx :=
  match (if removed then none else s.snapshot) with
  | some copy =>
    { s with
      pool := { s.pool with disk := s.pool.disk.walCheckpoint p }
      snapshot := some copy }.become i .cleaning
  | none =>
    { s with
      pool := { s.pool with disk := s.pool.disk.walCheckpoint p }
      snapshot := some [] }.become i .copying

/-- The next step of an export. Its last one is taken whatever went wrong before. -/
def exportStep (p : Platform Tx) (s : Files Tx) (i : Nat) (ok removed : Bool) : Files Tx :=
  match s.exports[i]? with
  | some .waiting =>
    if s.locked then s
    else if s.pool.phase = .live && ok then s.startCopy p i removed
    else s.become i .cleaning
  | some .copying =>
    match s.pool.disk.db p, ok with
    | some db, true => { s with snapshot := s.snapshot.map fun _ => p.image db }.become i .copied
    | _, _ => s.become i .cleaning
  | some .copied =>
    match s.snapshot, ok with
    | some copy, true => { s with exported := s.exported ++ [p.encrypt copy] }.become i .cleaning
    | _, _ => s.become i .cleaning
  | some .cleaning =>
    { s with snapshot := if removed then none else s.snapshot }.become i .finished
  | some .finished | none => s

def step (p : Platform Tx) (s : Files Tx) : FilesAction Tx → Files Tx
  | .pool action shm =>
    -- a close that finds no working file returns before it takes the connection
    if s.locked && action.needsLock && !s.returnsOk action then { s with closed := false }
    else s.poolStep p action shm
  | .dieRemoving working wal shm =>
    { (s.poolStep p (.remove working wal false) shm).poolStep p .crash false with
      closed := false }
  | .startExport =>
    { s with
      exports := if s.pool.phase.hasPool then s.exports ++ [.waiting] else s.exports
      closed := false }
  | .runExport i ok removed => { s.exportStep p i ok removed with closed := false }

/-- No file holds plaintext pages of the database. -/
structure NoPlaintext (s : Files Tx) : Prop where
  working : s.pool.disk.working = none
  wal : s.pool.disk.wal = []
  shm : s.shm = false
  snapshot : s.snapshot = none

def SealedAtRest (s : Files Tx) : Prop := s.closed → s.NoPlaintext

/-- At the end of a close every removal succeeds or has nothing to remove, and there is no copy of
an export; nor is anything left when a pool is closed again. -/
def ClosesClean (s : Files Tx) : FilesAction Tx → Prop
  | .pool (.remove working wal _) shm => s.pool.phase = .sealed →
      (working = true ∨ s.pool.disk.working = none) ∧ (wal = true ∨ s.pool.disk.wal = []) ∧
        (shm = true ∨ s.shm = false) ∧ s.snapshot = none
  | .pool .close _ => s.pool.phase = .shut → s.pool.disk.working = none →
      s.pool.disk.wal = [] ∧ s.shm = false ∧ s.snapshot = none
  | _ => True

def Idle (s : Files Tx) : Prop := ∀ stage ∈ s.exports, stage.holdsCopy = false

/-- The process dies, and a close ends, only while no export holds a copy, and every removal
succeeds. -/
def Careful (s : Files Tx) : FilesAction Tx → Prop
  | .pool .crash _ | .dieRemoving _ _ _ => s.Idle
  | .pool (.remove working wal _) shm => s.pool.phase = .sealed →
      (working = true ∧ wal = true ∧ shm = true) ∧ s.Idle
  | .runExport i _ removed => s.exports[i]? = some .cleaning → removed = true
  | _ => True

instance (s : Files Tx) : Decidable s.Idle :=
  inferInstanceAs (Decidable (∀ stage ∈ s.exports, stage.holdsCopy = false))

instance (s : Files Tx) : ∀ action, Decidable (s.Careful action)
  | .pool .crash _ | .dieRemoving _ _ _ => inferInstanceAs (Decidable s.Idle)
  | .pool (.remove working wal _) shm =>
    inferInstanceAs (Decidable (_ → (working = true ∧ wal = true ∧ shm = true) ∧ s.Idle))
  | .runExport _ _ removed => inferInstanceAs (Decidable (_ → removed = true))
  | .pool .openPool _ | .pool .next _ | .pool (.write _) _ | .pool (.commit _) _
  | .pool .checkpoint _ | .pool .close _ | .startExport => isTrue trivial

/-! ### What a close leaves -/

theorem sealedAtRest_of_open {s : Files Tx} (h : s.closed = false) : s.SealedAtRest := by
  intro hclosed
  rw [h] at hclosed
  cases hclosed

variable {action : Action Tx}

theorem step_pool_closed (p : Platform Tx) {s : Files Tx} (shm : Bool)
    (h : s.returnsOk action = false) : (s.step p (.pool action shm)).closed = false := by
  simp only [step, poolStep, h]
  split <;> rfl

theorem remove_noPlaintext_iff (p : Platform Tx) {s : Files Tx} (working wal sentinel shm : Bool)
    (hphase : s.pool.phase = .sealed) :
    (s.step p (.pool (.remove working wal sentinel) shm)).NoPlaintext ↔
      (working = true ∨ s.pool.disk.working = none) ∧ (wal = true ∨ s.pool.disk.wal = []) ∧
        (shm = true ∨ s.shm = false) ∧ s.snapshot = none := by
  have hstep : s.step p (.pool (.remove working wal sentinel) shm) =
      s.poolStep p (.remove working wal sentinel) shm := by
    simp [step, Action.needsLock]
  have hpool : s.pool.step p (.remove working wal sentinel) =
      { s.pool with
        disk := { s.pool.disk with
          working := if working then none else s.pool.disk.working
          wal := if wal then [] else s.pool.disk.wal
          sentinel := if sentinel then false else s.pool.disk.sentinel }
        phase := .shut } := by
    simp [State.step, State.removePlaintext, hphase]
  have hshm : (s.poolStep p (.remove working wal sentinel) shm).shm = (!shm && s.shm) := by
    simp only [poolStep, hpool, removes, hphase, State.connected]
    cases shm <;> simp
  rw [hstep]
  constructor
  · intro h
    have hworking := h.working
    have hwal := h.wal
    have hshared := h.shm
    simp only [poolStep, hpool] at hworking hwal
    rw [hshm] at hshared
    refine ⟨?_, ?_, ?_, h.snapshot⟩
    · cases working <;> simp_all
    · cases wal <;> simp_all
    · cases shm <;> simp_all
  · rintro ⟨hworking, hwal, hshared, hsnapshot⟩
    refine ⟨?_, ?_, ?_, hsnapshot⟩
    · simp only [poolStep, hpool]
      rcases hworking with rfl | hnone <;> simp_all
    · simp only [poolStep, hpool]
      rcases hwal with rfl | hnone <;> simp_all
    · rw [hshm]
      rcases hshared with rfl | hnone <;> simp_all

theorem close_again (p : Platform Tx) {s : Files Tx} (shm : Bool) (hphase : s.pool.phase = .shut)
    (hworking : s.pool.disk.working = none) :
    s.step p (.pool .close shm) = { s with closed := true } := by
  have hpool : s.pool.step p .close = s.pool := by simp [State.step, State.close, hphase]
  have hok : s.returnsOk .close = true := by simp [returnsOk, hphase, hworking]
  simp [step, poolStep, hpool, hok, removes, State.connected, hphase, Action.dies]

theorem step_sealed_iff (p : Platform Tx) (s : Files Tx) (action : FilesAction Tx) :
    (s.step p action).SealedAtRest ↔ s.ClosesClean action := by
  cases action with
  | pool action shm =>
    cases action with
    | remove working wal sentinel =>
      by_cases hphase : s.pool.phase = .sealed
      · have hclosed : (s.step p (.pool (.remove working wal sentinel) shm)).closed = true := by
          simp [step, poolStep, returnsOk, Action.needsLock, hphase]
        simp only [SealedAtRest, hclosed, ClosesClean, hphase, forall_const]
        exact remove_noPlaintext_iff p working wal sentinel shm hphase
      · have hok : s.returnsOk (.remove working wal sentinel) = false := by
          simp [returnsOk, hphase]
        exact iff_of_true (sealedAtRest_of_open (step_pool_closed p shm hok))
          fun h => absurd h hphase
    | close =>
      by_cases hagain : s.pool.phase = .shut ∧ s.pool.disk.working = none
      · obtain ⟨hphase, hworking⟩ := hagain
        rw [close_again p shm hphase hworking]
        simp only [SealedAtRest, ClosesClean, hphase, hworking, forall_const]
        exact ⟨fun h => ⟨h.wal, h.shm, h.snapshot⟩,
          fun ⟨hwal, hshm, hsnapshot⟩ => ⟨hworking, hwal, hshm, hsnapshot⟩⟩
      · have hok : s.returnsOk .close = false := by simpa [returnsOk] using hagain
        exact iff_of_true (sealedAtRest_of_open (step_pool_closed p shm hok))
          fun hphase hworking => absurd ⟨hphase, hworking⟩ hagain
    | openPool | next | write count | commit tx | checkpoint | crash =>
      exact iff_of_true (sealedAtRest_of_open (step_pool_closed p shm rfl)) trivial
  | dieRemoving | startExport | runExport => exact iff_of_true (sealedAtRest_of_open rfl) trivial

/-! ### Which steps leave something behind -/

def HasFile (s : State Tx) : Prop := s.connected = true ∨ s.phase = .sealed

theorem walCheckpoint_working (p : Platform Tx) {disk : Disk Tx} (h : disk.working ≠ none) :
    (disk.walCheckpoint p).working ≠ none := by
  unfold Disk.walCheckpoint
  split
  · exact Option.some_ne_none _
  · exact h

theorem not_hasFile {s : State Tx} (hconnected : s.connected = false) (hphase : s.phase ≠ .sealed) :
    ¬HasFile s := by
  rintro (h | h)
  · rw [hconnected] at h
    cases h
  · exact hphase h

theorem next_hasFile {p : Platform Tx} {s : State Tx} (h : HasFile s → s.disk.working ≠ none)
    (hnext : HasFile (s.next p)) : (s.next p).disk.working ≠ none := by
  cases hphase : s.phase with
  | decrypting content =>
    simp only [State.next, hphase] at hnext ⊢
    split at hnext
    · exact absurd hnext (not_hasFile rfl (by simp))
    · exact absurd hnext (not_hasFile (by simp [State.connected, hphase]) (by simp [hphase]))
  | connecting residue =>
    simp only [State.next, hphase, State.connect]
    split <;> exact Option.some_ne_none _
  | migrating residue =>
    have hworking := h (.inl (by simp [State.connected, hphase]))
    simp only [State.next, hphase, State.migrate]
    split
    · exact hworking
    · split
      · exact hworking
      · split
        · exact hworking
        · split
          · exact walCheckpoint_working p hworking
          · exact hworking
  | sealing =>
    have hworking := h (.inl (by simp [State.connected, hphase]))
    simp only [State.next, hphase, State.encryptDb]
    split <;> exact hworking
  | marking =>
    have hworking := h (.inl (by simp [State.connected, hphase]))
    simpa only [State.next, hphase] using hworking
  | shut =>
    simp only [State.next, hphase, State.encryptDb] at hnext ⊢
    split at hnext
    · exact absurd hnext (not_hasFile (by simp [State.connected, hphase]) (by simp [hphase]))
    · next main hmain => simp [hmain]
  | down | live | sealed =>
    simp only [State.next, hphase] at hnext ⊢
    exact h hnext

theorem step_hasFile {p : Platform Tx} {s : State Tx} (action : Action Tx)
    (h : HasFile s → s.disk.working ≠ none) (hstep : HasFile (s.step p action)) :
    (s.step p action).disk.working ≠ none := by
  cases action with
  | openPool =>
    simp only [State.step, State.startOpen] at hstep ⊢
    split at hstep
    · next hphase =>
      have hdown : ¬HasFile s :=
        not_hasFile (by simp [State.connected, hphase]) (by simp [hphase])
      split at hstep
      · exact absurd hstep (not_hasFile rfl (by simp))
      · exact absurd hstep (not_hasFile rfl (by simp))
      · split at hstep
        · exact absurd hstep (not_hasFile rfl (by simp))
        · exact absurd hstep hdown
    · next hphase =>
      rw [if_neg hphase]
      exact h hstep
  | next => exact next_hasFile h hstep
  | write count =>
    simp only [State.step, State.writeChunk] at hstep ⊢
    split at hstep
    · exact Option.some_ne_none _
    · exact h hstep
  | commit tx =>
    simp only [State.step, State.commit] at hstep ⊢
    split at hstep
    · next hphase =>
      rw [if_pos hphase]
      exact h (.inl (by simp [State.connected, hphase]))
    · next hphase =>
      rw [if_neg hphase]
      exact h hstep
  | checkpoint =>
    simp only [State.step] at hstep ⊢
    split at hstep
    · next hconnected =>
      rw [if_pos hconnected]
      exact walCheckpoint_working p (h (.inl hconnected))
    · next hconnected =>
      rw [if_neg hconnected]
      exact h hstep
  | close =>
    simp only [State.step, State.close] at hstep ⊢
    split at hstep
    · exact absurd hstep (not_hasFile rfl (by simp))
    · next hphase =>
      rw [if_neg hphase]
      exact h hstep
  | remove working wal sentinel =>
    simp only [State.step, State.removePlaintext] at hstep ⊢
    split at hstep
    · exact absurd hstep (not_hasFile rfl (by simp))
    · next hphase =>
      rw [if_neg hphase]
      exact h hstep
  | crash => exact absurd hstep (not_hasFile rfl (by simp [State.step]))

theorem live_step {p : Platform Tx} {s : State Tx} (hphase : s.phase = .live)
    (hlock : action.needsLock = false) (hdies : action.dies = false) : s.step p action = s := by
  cases action with
  | openPool => simp [State.step, hphase]
  | next => simp [State.step, State.next, hphase]
  | write count => simp [State.step, State.writeChunk, hphase]
  | remove working wal sentinel => simp [State.step, State.removePlaintext, hphase]
  | commit | checkpoint | close => cases hlock
  | crash => cases hdies

theorem next_shut {p : Platform Tx} {s : State Tx} (h : (s.next p).phase = .shut) :
    s.phase = .shut := by
  cases hphase : s.phase with
  | decrypting content =>
    simp only [State.next, hphase] at h
    split at h
    · cases h
    · exact hphase.symm.trans h
  | connecting residue =>
    simp only [State.next, hphase, State.connect] at h
    split at h <;> cases h
  | migrating residue =>
    simp only [State.next, hphase, State.migrate] at h
    split at h
    · cases h
    · split at h
      · cases h
      · split at h
        · cases h
        · split at h <;> cases h
  | sealing =>
    simp only [State.next, hphase, State.encryptDb] at h
    split at h
    · exact hphase.symm.trans h
    · cases h
  | shut => rfl
  | marking | down | live | sealed =>
    simp only [State.next, hphase] at h
    cases h

theorem shut_step {p : Platform Tx} {s : State Tx} (hshut : s.phase = .shut)
    (hphase : (s.step p action).phase = .shut) : s.step p action = s := by
  cases action with
  | openPool => simp [State.step, hshut]
  | next =>
    simp only [State.step, State.next, hshut, State.encryptDb] at hphase ⊢
    split at hphase
    · rfl
    · cases hphase
  | write count => simp [State.step, State.writeChunk, hshut]
  | commit tx => simp [State.step, State.commit, hshut]
  | checkpoint => simp [State.step, State.connected, hshut]
  | close => simp [State.step, State.close, hshut]
  | remove working wal sentinel => simp [State.step, State.removePlaintext, hshut]
  | crash => cases hphase

theorem gone_step {p : Platform Tx} {s : State Tx} (h : HasFile s → s.disk.working ≠ none)
    (hphase : (s.step p action).phase = .shut) (hworking : (s.step p action).disk.working = none) :
    (s.phase = .shut ∧ s.step p action = s) ∨
      (s.phase = .sealed ∧ ∃ wal sentinel, action = .remove true wal sentinel) := by
  by_cases hshut : s.phase = .shut
  · exact .inl ⟨hshut, shut_step hshut hphase⟩
  -- from another phase an open or a decryption never ends in a closed pool
  · cases action with
    | remove working wal sentinel =>
      by_cases hsealed : s.phase = .sealed
      · cases working with
        | true => exact .inr ⟨hsealed, wal, sentinel, rfl⟩
        | false =>
          refine absurd ?_ (h (.inr hsealed))
          simpa [State.step, State.removePlaintext, hsealed] using hworking
      · simp only [State.step, State.removePlaintext, if_neg hsealed] at hphase
        exact absurd hphase hshut
    | close =>
      by_cases hlive : s.phase = .live
      · simp only [State.step, State.close, if_pos hlive] at hworking
        exact absurd hworking
          (walCheckpoint_working p (h (.inl (by simp [State.connected, hlive]))))
      · simp only [State.step, State.close, if_neg hlive] at hphase
        exact absurd hphase hshut
    | openPool =>
      simp only [State.step, State.startOpen] at hphase
      split at hphase
      · split at hphase
        · cases hphase
        · cases hphase
        · split at hphase
          · cases hphase
          · exact absurd hphase hshut
      · exact absurd hphase hshut
    | next => exact absurd (next_shut hphase) hshut
    | write count =>
      simp only [State.step, State.writeChunk] at hphase
      split at hphase <;> exact absurd hphase hshut
    | commit tx =>
      simp only [State.step, State.commit] at hphase
      split at hphase <;> exact absurd hphase hshut
    | checkpoint =>
      simp only [State.step] at hphase
      split at hphase <;> exact absurd hphase hshut
    | crash => cases hphase

/-- The invariant of the careful runs: `copying` holds the connection of an open pool, a copy
belongs to an export that will remove it, and a closed pool without its working file has left
nothing else. -/
structure Tidy (s : Files Tx) : Prop where
  file : HasFile s.pool → s.pool.disk.working ≠ none
  locked : .copying ∈ s.exports → s.pool.phase = .live
  copy : s.snapshot ≠ none → ∃ stage ∈ s.exports, stage.holdsCopy = true
  gone : s.pool.phase = .shut → s.pool.disk.working = none →
    s.pool.disk.wal = [] ∧ s.shm = false ∧ s.snapshot = none

variable {p : Platform Tx} {s t : Files Tx} {i : Nat}

theorem Tidy.no_copy (h : s.Tidy) (hidle : s.Idle) : s.snapshot = none := by
  by_contra hcopy
  obtain ⟨stage, hstage, hholds⟩ := h.copy hcopy
  rw [hidle stage hstage] at hholds
  cases hholds

theorem Tidy.closesClean (h : s.Tidy) {action : FilesAction Tx} (hcareful : s.Careful action) :
    s.ClosesClean action := by
  cases action with
  | pool action shm =>
    cases action with
    | remove working wal sentinel =>
      intro hphase
      obtain ⟨⟨hworking, hwal, hshm⟩, hidle⟩ := hcareful hphase
      exact ⟨.inl hworking, .inl hwal, .inl hshm, h.no_copy hidle⟩
    | close => exact h.gone
    | openPool | next | write count | commit tx | checkpoint | crash => trivial
  | dieRemoving working wal shm | startExport | runExport i ok removed => trivial

theorem Tidy.dead (h : s.Tidy) (hidle : s.Idle) (hphase : t.pool.phase = .down)
    (hexports : t.exports = []) (hsnapshot : t.snapshot = s.snapshot) : t.Tidy where
  file hfile := absurd hfile (not_hasFile (by simp [State.connected, hphase]) (by simp [hphase]))
  locked hmem := by
    rw [hexports] at hmem
    exact absurd hmem List.not_mem_nil
  copy hcopy := absurd (hsnapshot.trans (h.no_copy hidle)) hcopy
  gone hshut := by
    rw [hphase] at hshut
    cases hshut

theorem returnsOk_live (hphase : s.pool.phase = .live) (hlock : action.needsLock = true) :
    s.returnsOk action = false := by
  cases action with
  | close => simp [returnsOk, hphase]
  | commit tx | checkpoint => rfl
  | openPool | next | write count | remove working wal sentinel | crash => cases hlock

theorem Tidy.pool (h : s.Tidy) {shm : Bool} (hcareful : s.Careful (.pool action shm)) :
    (s.step p (.pool action shm)).Tidy := by
  simp only [step]
  split
  · exact ⟨h.file, h.locked, h.copy, h.gone⟩
  next hfree =>
  cases hdies : action.dies with
  | true =>
    cases action with
    | crash => exact h.dead hcareful rfl rfl rfl
    | openPool | next | write count | commit tx | checkpoint | close | remove _ _ _ => cases hdies
  | false =>
    have hexports : (s.poolStep p action shm).exports = s.exports := by simp [poolStep, hdies]
    refine ⟨step_hasFile action h.file, fun hmem => ?_, fun hcopy => ?_, fun hshut hnone => ?_⟩
    · rw [hexports] at hmem
      have hlive := h.locked hmem
      -- the export holds the connection, so that the step does not use it
      have hlock : action.needsLock = false := by
        by_contra huses
        have huses := (Bool.not_eq_false _).mp huses
        have hlocked : s.locked = true := List.contains_iff_mem.mpr hmem
        exact hfree (by simp [hlocked, huses, returnsOk_live hlive huses])
      simpa only [poolStep, live_step hlive hlock hdies] using hlive
    · rw [hexports]
      exact h.copy hcopy
    · rcases gone_step h.file hshut hnone with ⟨hphase, hsame⟩ | ⟨hphase, wal, sentinel, rfl⟩
      · have hremoves : s.removes action = false := by
          cases action <;> simp [removes, hphase]
        have hgone := h.gone hphase (by simpa only [poolStep, hsame] using hnone)
        simpa [poolStep, hsame, hremoves, State.connected, hphase] using hgone
      · obtain ⟨⟨-, rfl, rfl⟩, hidle⟩ := hcareful hphase
        refine ⟨?_, ?_, h.no_copy hidle⟩
        · simp [poolStep, State.step, State.removePlaintext, hphase]
        · simp [poolStep, removes, hphase]

theorem hasFile_congr {s t : State Tx} (h : t.phase = s.phase) : HasFile t ↔ HasFile s := by
  simp only [HasFile, State.connected, h]

theorem Tidy.advance (h : s.Tidy) {stage : Export} (hi : i < s.exports.length)
    (hexports : t.exports = s.exports.set i stage) (hholds : stage.holdsCopy = true)
    (hphase : t.pool.phase = s.pool.phase)
    (hfile : s.pool.disk.working ≠ none → t.pool.disk.working ≠ none)
    (hfiles : s.pool.phase = .live ∨ (stage ≠ .copying ∧ t.pool.disk = s.pool.disk ∧ t.shm = s.shm
      ∧ t.snapshot = s.snapshot)) : t.Tidy where
  file hhas := hfile (h.file ((hasFile_congr hphase).mp hhas))
  locked hmem := by
    rw [hphase]
    rw [hexports] at hmem
    rcases List.mem_or_eq_of_mem_set hmem with hold | hnew
    · exact h.locked hold
    · exact hfiles.resolve_right fun hother => hother.1 hnew.symm
  copy _ := by
    rw [hexports]
    exact ⟨stage, List.mem_set hi stage, hholds⟩
  gone hshut hnone := by
    rw [hphase] at hshut
    rcases hfiles with hlive | ⟨-, hdisk, hshm, hsnapshot⟩
    · rw [hlive] at hshut
      cases hshut
    · rw [hdisk] at hnone
      rw [hdisk, hshm, hsnapshot]
      exact h.gone hshut hnone

theorem Tidy.startCopy (h : s.Tidy) (hi : i < s.exports.length) (removed : Bool)
    (hlive : s.pool.phase = .live) : (s.startCopy p i removed).Tidy := by
  unfold Files.startCopy
  split
  · exact h.advance hi rfl rfl rfl (walCheckpoint_working p) (.inl hlive)
  · exact h.advance hi rfl rfl rfl (walCheckpoint_working p) (.inl hlive)

theorem Tidy.exportStep (h : s.Tidy) {ok removed : Bool}
    (hcareful : s.exports[i]? = some .cleaning → removed = true) :
    (s.exportStep p i ok removed).Tidy := by
  unfold Files.exportStep
  cases hstage : s.exports[i]? with
  | none => exact h
  | some stage =>
    have hi : i < s.exports.length := (List.getElem?_eq_some_iff.mp hstage).1
    have hcleaning : (s.become i .cleaning).Tidy :=
      h.advance hi rfl rfl rfl id (.inr ⟨by simp, rfl, rfl, rfl⟩)
    cases stage with
    | waiting =>
      simp only
      split
      · exact h
      · split
        · next hstart =>
          simp only [Bool.and_eq_true, decide_eq_true_eq] at hstart
          exact h.startCopy hi removed hstart.1
        · exact hcleaning
    | copying =>
      have hlive := h.locked (List.mem_of_getElem? hstage)
      simp only
      split
      · exact h.advance hi rfl rfl rfl id (.inl hlive)
      · exact hcleaning
    | copied =>
      simp only
      split
      · exact h.advance hi rfl rfl rfl id (.inr ⟨by simp, rfl, rfl, rfl⟩)
      · exact hcleaning
    | cleaning =>
      simp only [hcareful hstage, if_true]
      refine ⟨h.file, fun hmem => ?_, fun hcopy => absurd rfl hcopy, fun hshut hnone => ?_⟩
      · rcases List.mem_or_eq_of_mem_set hmem with hold | hnew
        · exact h.locked hold
        · cases hnew
      · obtain ⟨hwal, hshm, -⟩ := h.gone hshut hnone
        exact ⟨hwal, hshm, rfl⟩
    | finished => exact h

theorem Tidy.step (h : s.Tidy) {action : FilesAction Tx} (hcareful : s.Careful action) :
    (s.step p action).Tidy := by
  cases action with
  | pool action shm => exact h.pool hcareful
  | dieRemoving working wal shm => exact h.dead hcareful rfl rfl rfl
  | startExport =>
    refine ⟨h.file, fun hmem => ?_, fun hcopy => ?_, h.gone⟩
    · refine h.locked ?_
      simp only [Files.step] at hmem
      split at hmem
      · simpa using hmem
      · exact hmem
    · obtain ⟨stage, hstage, hholds⟩ := h.copy hcopy
      refine ⟨stage, ?_, hholds⟩
      simp only [Files.step]
      split
      · exact List.mem_append_left _ hstage
      · exact hstage
  | runExport i ok removed =>
    have hnext : (s.exportStep p i ok removed).Tidy := h.exportStep hcareful
    exact ⟨hnext.file, hnext.locked, hnext.copy, hnext.gone⟩

/-- Every close that returned `Ok` left no plaintext, in a run, exactly when each of them found no
copy of an export and its removals succeeded. It is so in every run in which no crash and no end of
a close hits an export that has made its copy, and in which every removal succeeds. -/
theorem sealed_iff (p : Platform Tx) (actions : List (FilesAction Tx)) :
    (Along (step p) SealedAtRest init actions ↔ Meets (step p) ClosesClean init actions) ∧
      (Meets (step p) Careful init actions → Along (step p) SealedAtRest init actions) := by
  have hinit : SealedAtRest (init : Files Tx) := sealedAtRest_of_open rfl
  refine ⟨⟨fun halong => ?_, fun hmeets => ?_⟩, fun hcareful => ?_⟩
  · exact meets_of_along (fun s action _ _ hnext => (step_sealed_iff p s action).mp hnext) halong
      halong
  · exact along_of_meets (fun s action _ hclean => (step_sealed_iff p s action).mpr hclean) hinit
      hmeets
  · have htidy : Tidy (init : Files Tx) := by
      refine ⟨fun hfile => absurd hfile (not_hasFile rfl (by simp [init, State.init])), ?_, ?_, ?_⟩
      · exact fun hmem => absurd hmem List.not_mem_nil
      · exact fun hcopy => absurd rfl hcopy
      · exact fun _ _ => ⟨rfl, rfl, rfl⟩
    have hstep : ∀ (s : Files Tx) action, s.Tidy ∧ s.SealedAtRest → s.Careful action →
        (s.step p action).Tidy ∧ (s.step p action).SealedAtRest := fun s action h hcareful =>
      ⟨h.1.step hcareful, (step_sealed_iff p s action).mpr (h.1.closesClean hcareful)⟩
    exact (along_of_meets hstep ⟨htidy, hinit⟩ hcareful).imp fun _ h => h.2

/-! ### An export that is interrupted -/

/-- The steps of a first session that opens the pool and commits a transaction. -/
def session : List (FilesAction UInt8) :=
  (openClean MAX_KNOWN ++ [Action.commit 9]).map (.pool · true)

def closing : List (FilesAction UInt8) :=
  [Action.close, .next, .remove true true true].map (.pool · true)

/-- The process dies after `VACUUM INTO`; the pool is opened again and closed. -/
def interruptedExport : List (FilesAction UInt8) :=
  session ++ [.startExport, .runExport 0 true true, .runExport 0 true true, .pool .crash false] ++
    (Action.openPool :: List.replicate 4 .next).map (.pool · true) ++ closing

/-- The close returns `Ok` and the copy of the export is still there, with the transaction. -/
theorem close_keeps_snapshot :
    (interruptedExport.foldl (step tinyPlatform) init).closed = true ∧
      (interruptedExport.foldl (step tinyPlatform) init).pool.disk.working = none ∧
      ((interruptedExport.foldl (step tinyPlatform) init).snapshot.bind tinyPlatform.load).map
        Db.txs = some [9] ∧
      ¬Along (step tinyPlatform) SealedAtRest init interruptedExport := by
  refine ⟨by decide +kernel, by decide +kernel, by decide +kernel, fun halong => ?_⟩
  have hnone := (halong.last (by decide +kernel)).snapshot
  revert hnone
  decide +kernel

def finishedExport : List (FilesAction UInt8) :=
  session ++ .startExport :: List.replicate 4 (.runExport 0 true true) ++ closing

theorem finishedExport_sealed :
    (finishedExport.foldl (step tinyPlatform) init).closed = true ∧
      (finishedExport.foldl (step tinyPlatform) init).exported.length = 1 ∧
      Along (step tinyPlatform) SealedAtRest init finishedExport := by
  refine ⟨by decide +kernel, by decide +kernel, ?_⟩
  exact (sealed_iff tinyPlatform finishedExport).2 (by decide +kernel)

end Files

end Skattr.Core.Storage
