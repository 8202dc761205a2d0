import Skattr.Lib.Cbor
import Skattr.Lib.Run

/-!
# The encrypted storage pool

The pool keeps its database as a plaintext working file while it is open and as an encrypted file
when it is closed; the presence of the working file alone decides which of the two an open
trusts. The model takes `open` and `close` one I/O operation at a time, and the process may die,
or the operation fail, before each of them. SQLite and the file encryption are parameters.

`survives_of_guarded` says that every run exposes exactly the committed transactions at every
open that succeeds, and never replaces an encrypted copy by one that holds less, if no failure
hits the decryption while the bytes written so far open as another database. The decryption writes
the working file in place, so `partial_decrypt_loses_data` is such a failure and loses everything.
-/

namespace Skattr.Core.Storage

open Lib

def MAX_KNOWN : Nat := 21

/-- A database: the applied schema version and the committed transactions. -/
structure Db (Tx : Type) where
  version : Nat
  txs : List Tx
  deriving DecidableEq

def Db.empty {Tx : Type} : Db Tx := ⟨0, []⟩

/-- A committed write: a transaction of the program, or a migration to a schema version. -/
inductive Write (Tx : Type) where
  | tx (tx : Tx)
  | migrate (version : Nat)
  deriving DecidableEq

def Db.apply {Tx : Type} (db : Db Tx) : Write Tx → Db Tx
  | .tx tx => { db with txs := db.txs ++ [tx] }
  | .migrate version => { db with version := version }

/-- SQLite's main file format and the file encryption. `load` is what opening a main file yields,
`none` when SQLite refuses it. -/
structure Platform (Tx : Type) where
  image : Db Tx → Bytes
  load : Bytes → Option (Db Tx)
  encrypt : Bytes → Bytes
  decrypt : Bytes → Option Bytes

/-- SQLite opens what it wrote and takes an empty file for an empty database, and the decryption
recovers what was encrypted. -/
structure Platform.Lawful {Tx : Type} (p : Platform Tx) : Prop where
  load_image : ∀ db, p.load (p.image db) = some db
  load_nil : p.load [] = some Db.empty
  decrypt_encrypt : ∀ bytes, p.decrypt (p.encrypt bytes) = some bytes

/-- The data directory. `wal` holds the commits that are not in the main file yet. -/
structure Disk (Tx : Type) where
  age : Option Bytes
  working : Option Bytes
  wal : List (Write Tx)
  sentinel : Bool
  deriving DecidableEq

/-- Where the process is. `decrypting` has created the working file and copies `content` into it;
`sealing` is about to replace the encrypted file during an open, `shut` during a close; `sealed`
is about to remove the plaintext files. -/
inductive Phase where
  | down
  | decrypting (content : Bytes)
  | connecting (residue : Bool)
  | migrating (residue : Bool)
  | sealing
  | marking
  | live
  | shut
  | sealed
  deriving DecidableEq

/-- The process and its disk, with what happened so far: every committed transaction, and the
transactions held by each encrypted copy, the newest first. -/
structure State (Tx : Type) where
  disk : Disk Tx
  phase : Phase
  committed : List Tx
  copies : List (List Tx)
  deriving DecidableEq

def State.init {Tx : Type} : State Tx := ⟨⟨none, none, [], false⟩, .down, [], []⟩

/-- What can happen: a session is opened, the running operation takes its next step, the
decryption writes a chunk, a transaction commits, SQLite checkpoints, the session is closed, the
plaintext files are removed (each removal may fail), or the process dies or fails. -/
inductive Action (Tx : Type) where
  | openPool
  | next
  | write (count : Nat)
  | commit (tx : Tx)
  | checkpoint
  | close
  | remove (working wal sentinel : Bool)
  | crash
  deriving DecidableEq

variable {Tx : Type}

/-- The database that a connection sees: the main file with the log replayed. -/
def Disk.db (p : Platform Tx) (disk : Disk Tx) : Option (Db Tx) :=
  disk.working.bind fun main => (p.load main).map fun db => disk.wal.foldl Db.apply db

variable (p : Platform Tx)

def Disk.walCheckpoint (disk : Disk Tx) : Disk Tx :=
  match disk.db p with
  | some db => { disk with working := some (p.image db), wal := [] }
  | none => disk

namespace State

def connected (s : State Tx) : Bool :=
  match s.phase with
  | .migrating _ | .sealing | .marking | .live => true
  | _ => false

/-- The first steps of `Pool::open`: look for residue and start to decrypt if there is none. -/
def startOpen (p : Platform Tx) (s : State Tx) : State Tx :=
  match s.disk.working, s.disk.age with
  -- a working file that is there is taken for newer than the encrypted one
  | some _, _ => { s with phase := .connecting true }
  | none, none => { s with phase := .connecting false }
  | none, some ciphertext =>
    match p.decrypt ciphertext with
    | some content =>
      -- the working path exists from here on, before the first byte is written to it
      { s with disk := { s.disk with working := some [] }, phase := .decrypting content }
    | none => s

def connect (p : Platform Tx) (s : State Tx) (residue : Bool) : State Tx :=
  let s := { s with disk := { s.disk with working := some (s.disk.working.getD []) } }
  match s.disk.db p with
  | some _ => { s with phase := .migrating residue }
  | none => { s with phase := .down }

/-- Apply the next migration, refuse a schema that is too new, or go on when it is current. -/
def migrate (p : Platform Tx) (s : State Tx) (residue : Bool) : State Tx :=
  match s.disk.db p with
  | none => { s with phase := .down }
  | some db =>
    if db.version > MAX_KNOWN then { s with phase := .down }
    else if db.version < MAX_KNOWN then
      { s with disk := { s.disk with wal := s.disk.wal ++ [.migrate (db.version + 1)] } }
    else if residue then { s with disk := s.disk.walCheckpoint p, phase := .sealing }
    else { s with phase := .marking }

/-- `encrypt_db`: encrypt the main file and rename the result over the encrypted file. -/
def encryptDb (p : Platform Tx) (s : State Tx) (after : Phase) : State Tx :=
  match s.disk.working with
  | none => s
  | some main =>
    { s with
      disk := { s.disk with age := some (p.encrypt main) }
      phase := after
      copies := ((p.load main).getD Db.empty).txs :: s.copies }

def next (p : Platform Tx) (s : State Tx) : State Tx :=
  match s.phase with
  | .decrypting content =>
    if s.disk.working = some content then { s with phase := .connecting false } else s
  | .connecting residue => s.connect p residue
  | .migrating residue => s.migrate p residue
  | .sealing => s.encryptDb p .marking
  | .marking => { s with disk := { s.disk with sentinel := true }, phase := .live }
  | .shut => s.encryptDb p .sealed
  | _ => s

def writeChunk (s : State Tx) (count : Nat) : State Tx :=
  match s.phase with
  | .decrypting content =>
    let written := (s.disk.working.getD []).length
    { s with disk := { s.disk with working := some (content.take (written + count)) } }
  | _ => s

def commit (s : State Tx) (tx : Tx) : State Tx :=
  if s.phase = .live then
    { s with
      disk := { s.disk with wal := s.disk.wal ++ [.tx tx] }
      committed := s.committed ++ [tx] }
  else s

def close (p : Platform Tx) (s : State Tx) : State Tx :=
  if s.phase = .live then { s with disk := s.disk.walCheckpoint p, phase := .shut } else s

def removePlaintext (s : State Tx) (working wal sentinel : Bool) : State Tx :=
  if s.phase = .sealed then
    { s with
      disk := { s.disk with
        working := if working then none else s.disk.working
        wal := if wal then [] else s.disk.wal
        sentinel := if sentinel then false else s.disk.sentinel }
      phase := .shut }
  else s

def step (p : Platform Tx) (s : State Tx) : Action Tx → State Tx
  | .openPool => if s.phase = .down then s.startOpen p else s
  | .next => s.next p
  | .write count => s.writeChunk count
  | .commit tx => s.commit tx
  | .checkpoint => if s.connected then { s with disk := s.disk.walCheckpoint p } else s
  | .close => s.close p
  | .remove working wal sentinel => s.removePlaintext working wal sentinel
  | .crash => { s with phase := .down }

end State

/-- The data survives: an open pool exposes exactly the committed transactions, and
no encrypted copy holds less than an earlier one. -/
structure Survives (s : State Tx) : Prop where
  exposes : s.phase = .live → (s.disk.db p).map Db.txs = some s.committed
  copies : s.copies.Pairwise fun newer older => older <+: newer

/-- A failure in this phase leaves the data readable: while decrypting, SQLite refuses what has
been written so far, or opens it as the whole database. -/
def Interruptible (disk : Disk Tx) : Phase → Prop
  | .decrypting content =>
    p.load (disk.working.getD []) = none ∨ p.load (disk.working.getD []) = p.load content
  | _ => True

def Guarded (s : State Tx) : Action Tx → Prop
  | .crash => Interruptible p s.disk s.phase
  | _ => True

instance [DecidableEq Tx] (p : Platform Tx) (disk : Disk Tx) :
    ∀ phase, Decidable (Interruptible p disk phase)
  | .decrypting _ => inferInstanceAs (Decidable (_ ∨ _))
  | .down | .connecting _ | .migrating _ | .sealing | .marking | .live | .shut | .sealed =>
    isTrue trivial

instance [DecidableEq Tx] (p : Platform Tx) (s : State Tx) :
    ∀ action, Decidable (Guarded p s action)
  | .crash => inferInstanceAs (Decidable (Interruptible p s.disk s.phase))
  | .openPool | .next | .write _ | .commit _ | .checkpoint | .close | .remove _ _ _ =>
    isTrue trivial

/-! ### The invariant -/

def Plain (disk : Disk Tx) (committed : List Tx) : Prop :=
  (disk.db p).map Db.txs = some committed

def Holds (main : Bytes) (committed : List Tx) : Prop :=
  (p.load main).map Db.txs = some committed

/-- There is no working file, and the encrypted file holds the committed transactions. -/
structure AgeOnly (disk : Disk Tx) (committed : List Tx) : Prop where
  working : disk.working = none
  wal : disk.wal = []
  fresh : disk.age = none → committed = []
  content : ∀ ciphertext, disk.age = some ciphertext →
    ∃ main, p.decrypt ciphertext = some main ∧ Holds p main committed

def Refused (disk : Disk Tx) : Prop :=
  disk.working ≠ none ∧ disk.db p = none

def Located (disk : Disk Tx) (committed : List Tx) : Phase → Prop
  | .down => Plain p disk committed ∨ AgeOnly p disk committed ∨ Refused p disk
  | .decrypting content => disk.working ≠ none ∧ disk.wal = [] ∧ Holds p content committed
  | .connecting _ =>
    Plain p disk committed ∨ (AgeOnly p disk committed ∧ disk.age = none) ∨ Refused p disk
  | .migrating _ | .marking | .live => Plain p disk committed
  | .sealing => Plain p disk committed ∧ disk.wal = []
  | .shut => (Plain p disk committed ∧ disk.wal = []) ∨ AgeOnly p disk committed
  | .sealed => Plain p disk committed ∧ disk.wal = [] ∧
      ∃ main, disk.working = some main ∧ disk.age = some (p.encrypt main)

/-- Every encrypted copy held the transactions committed by then. -/
structure History (committed : List Tx) (copies : List (List Tx)) : Prop where
  prefixes : ∀ copy ∈ copies, copy <+: committed
  ordered : copies.Pairwise fun newer older => older <+: newer

/-- The invariant of the runs that meet the guard. -/
structure Safe (s : State Tx) : Prop where
  located : Located p s.disk s.committed s.phase
  history : History s.committed s.copies

variable {p : Platform Tx} {disk : Disk Tx} {committed : List Tx} {main : Bytes}

theorem Plain.db_eq (h : Plain p disk committed) :
    ∃ db, disk.db p = some db ∧ db.txs = committed :=
  Option.map_eq_some_iff.mp h

theorem Plain.working_eq (h : Plain p disk committed) : ∃ main, disk.working = some main := by
  obtain ⟨db, hdb, -⟩ := h.db_eq
  cases hworking : disk.working with
  | none => simp [Disk.db, hworking] at hdb
  | some main => exact ⟨main, rfl⟩

theorem Plain.holds (h : Plain p disk committed) (hwal : disk.wal = [])
    (hmain : disk.working = some main) : Holds p main committed := by
  unfold Plain Disk.db at h
  rw [hmain, hwal] at h
  simpa [Holds] using h

theorem plain_of_holds (hmain : disk.working = some main) (hwal : disk.wal = [])
    (h : Holds p main committed) : Plain p disk committed := by
  unfold Plain Disk.db
  rw [hmain, hwal]
  simpa [Holds] using h

theorem Plain.walCheckpoint (hp : p.Lawful) (h : Plain p disk committed) :
    Plain p (disk.walCheckpoint p) committed ∧ (disk.walCheckpoint p).wal = [] := by
  obtain ⟨db, hdb, htxs⟩ := h.db_eq
  rw [Disk.walCheckpoint, hdb]
  simp [Plain, Disk.db, hp.load_image, htxs]

theorem db_append_wal (disk : Disk Tx) (write : Write Tx) :
    { disk with wal := disk.wal ++ [write] }.db p = (disk.db p).map fun db => db.apply write := by
  simp only [Disk.db, List.foldl_append, List.foldl_cons, List.foldl_nil]
  cases disk.working with
  | none => rfl
  | some main => cases hload : p.load main <;> simp [hload]

theorem ageOnly_of_absent (h : Located p disk committed .down) (hworking : disk.working = none) :
    AgeOnly p disk committed := by
  rcases h with hplain | hage | hrefused
  · obtain ⟨main, hmain⟩ := hplain.working_eq
    rw [hworking] at hmain
    cases hmain
  · exact hage
  · exact absurd hworking hrefused.1

/-! ### Every operation keeps the data -/

variable {s : State Tx} {residue : Bool}

theorem startOpen_safe (h : Safe p s) (hphase : s.phase = .down) : Safe p (s.startOpen p) := by
  have hlocated := h.located
  rw [hphase] at hlocated
  unfold State.startOpen
  cases hworking : s.disk.working with
  | some main =>
    refine ⟨?_, h.history⟩
    rcases hlocated with hplain | hage | hrefused
    · exact .inl hplain
    · exact absurd hage.working (by simp [hworking])
    · exact .inr (.inr hrefused)
  | none =>
    have hage := ageOnly_of_absent hlocated hworking
    cases hcipher : s.disk.age with
    | none => exact ⟨.inr (.inl ⟨hage, hcipher⟩), h.history⟩
    | some ciphertext =>
      obtain ⟨main, hdecrypt, hholds⟩ := hage.content ciphertext hcipher
      simp only [hdecrypt]
      exact ⟨⟨by simp, hage.wal, hholds⟩, h.history⟩

theorem connect_safe (hp : p.Lawful) (h : Safe p s) (hphase : s.phase = .connecting residue) :
    Safe p (s.connect p residue) := by
  have hlocated := h.located
  rw [hphase] at hlocated
  have hopened : Plain p { s.disk with working := some (s.disk.working.getD []) } s.committed ∨
      Refused p { s.disk with working := some (s.disk.working.getD []) } := by
    rcases hlocated with hplain | ⟨hage, hnone⟩ | hrefused
    · obtain ⟨main, hmain⟩ := hplain.working_eq
      refine .inl ?_
      simpa [Plain, Disk.db, hmain] using hplain
    · -- a fresh directory: SQLite creates an empty database
      refine .inl (plain_of_holds rfl hage.wal ?_)
      simp [hage.working, Holds, hp.load_nil, Db.empty, hage.fresh hnone]
    · obtain ⟨main, hmain⟩ := Option.ne_none_iff_exists'.mp hrefused.1
      refine .inr ⟨by simp, ?_⟩
      simpa [Disk.db, hmain] using hrefused.2
  unfold State.connect
  rcases hopened with hplain | hrefused
  · obtain ⟨db, hdb, -⟩ := hplain.db_eq
    simp only [hdb]
    exact ⟨hplain, h.history⟩
  · simp only [hrefused.2]
    exact ⟨.inr (.inr hrefused), h.history⟩

theorem migrate_safe (hp : p.Lawful) (h : Safe p s) (hphase : s.phase = .migrating residue) :
    Safe p (s.migrate p residue) := by
  have hplain : Plain p s.disk s.committed := by
    have hlocated := h.located
    rwa [hphase] at hlocated
  obtain ⟨db, hdb, htxs⟩ := hplain.db_eq
  simp only [State.migrate, hdb]
  split
  · exact ⟨.inl hplain, h.history⟩
  split
  · refine ⟨?_, h.history⟩
    simp only [hphase, Located, Plain, db_append_wal, hdb]
    exact congrArg some htxs
  split
  · exact ⟨hplain.walCheckpoint hp, h.history⟩
  · exact ⟨hplain, h.history⟩

theorem encryptDb_spec (hplain : Plain p s.disk s.committed) (hwal : s.disk.wal = [])
    (after : Phase) :
    ∃ main, s.disk.working = some main ∧ s.encryptDb p after =
      { s with
        disk := { s.disk with age := some (p.encrypt main) }
        phase := after
        copies := s.committed :: s.copies } := by
  obtain ⟨main, hmain⟩ := hplain.working_eq
  obtain ⟨db, hload, htxs⟩ := Option.map_eq_some_iff.mp (hplain.holds hwal hmain)
  refine ⟨main, hmain, ?_⟩
  simp only [State.encryptDb, hmain, hload, Option.getD_some, htxs]

theorem History.cons {copies : List (List Tx)} (h : History committed copies) :
    History committed (committed :: copies) := by
  refine ⟨fun copy hcopy => ?_, List.pairwise_cons.mpr ⟨h.prefixes, h.ordered⟩⟩
  rcases List.mem_cons.mp hcopy with rfl | hold
  · exact List.prefix_refl _
  · exact h.prefixes copy hold

theorem next_safe (hp : p.Lawful) (h : Safe p s) : Safe p (s.next p) := by
  have hlocated := h.located
  cases hphase : s.phase with
  | decrypting content =>
    simp only [State.next, hphase]
    rw [hphase] at hlocated
    split
    · next hdone => exact ⟨.inl (plain_of_holds hdone hlocated.2.1 hlocated.2.2), h.history⟩
    · exact h
  | connecting residue =>
    simp only [State.next, hphase]
    exact connect_safe hp h hphase
  | migrating residue =>
    simp only [State.next, hphase]
    exact migrate_safe hp h hphase
  | sealing =>
    rw [hphase] at hlocated
    obtain ⟨main, -, hnext⟩ := encryptDb_spec hlocated.1 hlocated.2 .marking
    simp only [State.next, hphase, hnext]
    exact ⟨hlocated.1, h.history.cons⟩
  | marking =>
    rw [hphase] at hlocated
    simp only [State.next, hphase]
    exact ⟨hlocated, h.history⟩
  | shut =>
    simp only [State.next, hphase]
    rw [hphase] at hlocated
    -- a pool whose plaintext is gone was closed before, and closing it again does nothing
    rcases hlocated with ⟨hplain, hwal⟩ | hage
    · obtain ⟨main, hmain, hnext⟩ := encryptDb_spec hplain hwal .sealed
      rw [hnext]
      exact ⟨⟨hplain, hwal, main, hmain, rfl⟩, h.history.cons⟩
    · simp only [State.encryptDb, hage.working]
      exact h
  | down | live | sealed =>
    simp only [State.next, hphase]
    exact h

theorem writeChunk_safe (h : Safe p s) (count : Nat) : Safe p (s.writeChunk count) := by
  have hlocated := h.located
  cases hphase : s.phase with
  | decrypting content =>
    rw [hphase] at hlocated
    simp only [State.writeChunk, hphase]
    exact ⟨⟨by simp, hlocated.2⟩, h.history⟩
  | down | connecting residue | migrating residue | sealing | marking | live | shut | sealed =>
    simp only [State.writeChunk, hphase]
    exact h

theorem commit_safe (h : Safe p s) (tx : Tx) : Safe p (s.commit tx) := by
  unfold State.commit
  split
  · next hphase =>
    have hlocated := h.located
    rw [hphase] at hlocated
    obtain ⟨db, hdb, htxs⟩ := Plain.db_eq hlocated
    refine ⟨?_, fun copy hcopy => ?_, h.history.ordered⟩
    · simp only [hphase, Located, Plain, db_append_wal, hdb]
      exact congrArg some (by simp [Db.apply, htxs])
    · exact (h.history.prefixes copy hcopy).trans (List.prefix_append _ _)
  · exact h

theorem checkpoint_safe (hp : p.Lawful) (h : Safe p s) (hconnected : s.connected) :
    Safe p { s with disk := s.disk.walCheckpoint p } := by
  refine ⟨?_, h.history⟩
  have hlocated := h.located
  cases hphase : s.phase with
  | migrating residue | marking | live =>
    rw [hphase] at hlocated
    exact (Plain.walCheckpoint hp hlocated).1
  | sealing =>
    rw [hphase] at hlocated
    exact hlocated.1.walCheckpoint hp
  | down | decrypting content | connecting residue | shut | sealed =>
    simp [State.connected, hphase] at hconnected

theorem close_safe (hp : p.Lawful) (h : Safe p s) : Safe p (s.close p) := by
  unfold State.close
  split
  · next hphase =>
    have hlocated := h.located
    rw [hphase] at hlocated
    exact ⟨.inl (Plain.walCheckpoint hp hlocated), h.history⟩
  · exact h

theorem removePlaintext_safe (hp : p.Lawful) (h : Safe p s) (working wal sentinel : Bool) :
    Safe p (s.removePlaintext working wal sentinel) := by
  unfold State.removePlaintext
  split
  · next hphase =>
    have hlocated := h.located
    rw [hphase] at hlocated
    obtain ⟨hplain, hwal, main, hmain, hage⟩ := hlocated
    have hholds := hplain.holds hwal hmain
    -- the log was folded into the main file before, so that losing it loses nothing
    have hempty : (if wal then [] else s.disk.wal) = [] := by cases wal <;> simp [hwal]
    refine ⟨?_, h.history⟩
    cases working with
    | false => exact .inl ⟨plain_of_holds hmain hempty hholds, hempty⟩
    | true =>
      refine .inr ⟨rfl, hempty, fun hnone => ?_, fun ciphertext hsome => ?_⟩
      · simp [hage] at hnone
      · have hcipher : p.encrypt main = ciphertext := by simpa [hage] using hsome
        exact ⟨main, hcipher ▸ hp.decrypt_encrypt main, hholds⟩
  · exact h

theorem crash_safe (h : Safe p s) (hguard : Guarded p s .crash) :
    Safe p { s with phase := .down } := by
  refine ⟨?_, h.history⟩
  have hlocated := h.located
  cases hphase : s.phase with
  | down => rwa [hphase] at hlocated
  | decrypting content =>
    rw [hphase] at hlocated
    obtain ⟨hworking, hwal, hholds⟩ := hlocated
    -- the guard says what SQLite makes of the part that was written
    obtain ⟨written, hwritten⟩ := Option.ne_none_iff_exists'.mp hworking
    simp only [Guarded, Interruptible, hphase, hwritten, Option.getD_some] at hguard
    rcases hguard with hrefused | hsame
    · exact .inr (.inr ⟨hworking, by simp [Disk.db, hwritten, hrefused]⟩)
    · refine .inl (plain_of_holds hwritten hwal ?_)
      rw [Holds, hsame]
      exact hholds
  | connecting residue =>
    rw [hphase] at hlocated
    exact hlocated.imp_right (Or.imp_left And.left)
  | migrating residue | marking | live =>
    rw [hphase] at hlocated
    exact .inl hlocated
  | sealing | sealed =>
    rw [hphase] at hlocated
    exact .inl hlocated.1
  | shut =>
    rw [hphase] at hlocated
    exact hlocated.imp And.left Or.inl

theorem step_safe (hp : p.Lawful) (s : State Tx) (action : Action Tx) (h : Safe p s)
    (hguard : Guarded p s action) : Safe p (s.step p action) := by
  cases action with
  | openPool =>
    simp only [State.step]
    split
    · next hphase => exact startOpen_safe h hphase
    · exact h
  | next => exact next_safe hp h
  | write count => exact writeChunk_safe h count
  | commit tx => exact commit_safe h tx
  | checkpoint =>
    simp only [State.step]
    split
    · next hconnected => exact checkpoint_safe hp h hconnected
    · exact h
  | close => exact close_safe hp h
  | remove working wal sentinel => exact removePlaintext_safe hp h working wal sentinel
  | crash => exact crash_safe h hguard

/-- In every run that meets the guard the data survives in every state. -/
theorem survives_of_guarded (p : Platform Tx) (hp : p.Lawful) (actions : List (Action Tx))
    (h : Meets (State.step p) (Guarded p) State.init actions) :
    Along (State.step p) (Survives p) State.init actions := by
  have hinit : Safe p (State.init : State Tx) := by
    refine ⟨.inr (.inl ⟨rfl, rfl, fun _ => rfl, fun _ hnone => nomatch hnone⟩), ?_, ?_⟩
    · exact fun copy hcopy => absurd hcopy List.not_mem_nil
    · exact List.Pairwise.nil
  refine (along_of_meets (step_safe hp) hinit h).imp fun s hsafe => ⟨fun hlive => ?_, ?_⟩
  · have hlocated := hsafe.located
    rwa [hlive] at hlocated
  · exact hsafe.history.ordered

/-! ### A run that loses everything -/

def tinyLoad (version : Nat) : Bytes → Option (Db UInt8)
  | [] => none
  | byte :: rest =>
    if byte = 0 then tinyLoad (version + 1) rest
    else if byte = 1 then some ⟨version, rest⟩ else none

/-- A main file is one zero for each migration, a one, and a byte for each transaction; an
encrypted file has one byte in front. -/
def tinyPlatform : Platform UInt8 where
  image := fun db => List.replicate db.version 0 ++ 1 :: db.txs
  load := fun bytes => if bytes = [] then some Db.empty else tinyLoad 0 bytes
  encrypt := fun bytes => 7 :: bytes
  decrypt := fun bytes => match bytes with
    | [] => none
    | first :: rest => if first = 7 then some rest else none

theorem tinyLoad_image (start version : Nat) (txs : List UInt8) :
    tinyLoad start (List.replicate version 0 ++ 1 :: txs) = some ⟨start + version, txs⟩ := by
  induction version generalizing start with
  | zero => rfl
  | succ version ih =>
    rw [List.replicate_succ, List.cons_append, tinyLoad, if_pos rfl, ih]
    congr 2
    omega

theorem tinyPlatform_lawful : tinyPlatform.Lawful where
  load_image := by
    intro db
    have hne : tinyPlatform.image db ≠ [] := by simp [tinyPlatform]
    have hload := tinyLoad_image 0 db.version db.txs
    rw [Nat.zero_add] at hload
    rw [show tinyPlatform.load (tinyPlatform.image db) = tinyLoad 0 (tinyPlatform.image db) from
      if_neg hne]
    exact hload
  load_nil := rfl
  decrypt_encrypt := fun _ => rfl

/-- Open a directory without residue, whose schema is current after `migrations` migrations. -/
def openClean (migrations : Nat) : List (Action UInt8) :=
  .openPool :: List.replicate (migrations + 3) .next

def firstSession : List (Action UInt8) :=
  openClean MAX_KNOWN ++ [.commit 9, .close, .next, .remove true true true, .crash]

/-- The process dies right after the next open created the working file; a second attempt takes
the empty file for the data and encrypts it. -/
def interruptedOpen : List (Action UInt8) :=
  firstSession ++ [.openPool, .crash] ++ .openPool :: List.replicate (MAX_KNOWN + 4) .next

/-- The second attempt returns an empty pool and has overwritten the encrypted copy. -/
theorem partial_decrypt_loses_data :
    (interruptedOpen.foldl (State.step tinyPlatform) State.init).phase = .live ∧
      (interruptedOpen.foldl (State.step tinyPlatform) State.init).committed = [9] ∧
      ((interruptedOpen.foldl (State.step tinyPlatform) State.init).disk.db
        tinyPlatform).map Db.txs = some [] ∧
      (interruptedOpen.foldl (State.step tinyPlatform) State.init).copies = [[], [9]] ∧
      ¬Along (State.step tinyPlatform) (Survives tinyPlatform) State.init interruptedOpen := by
  refine ⟨by decide, by decide, by decide, by decide, fun hsurvives => ?_⟩
  exact absurd (hsurvives.last.exposes (by decide)) (by decide)

def reopened : List (Action UInt8) :=
  firstSession ++ [.openPool, .write 100] ++ List.replicate 4 .next

theorem reopened_survives :
    (reopened.foldl (State.step tinyPlatform) State.init).phase = .live ∧
      Along (State.step tinyPlatform) (Survives tinyPlatform) State.init reopened :=
  ⟨by decide, survives_of_guarded tinyPlatform tinyPlatform_lawful reopened (by decide)⟩

end Skattr.Core.Storage
