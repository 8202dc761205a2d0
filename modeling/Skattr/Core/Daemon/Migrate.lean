import Skattr.Core.Basic
import Skattr.Lib.Run
import Skattr.Lib.Table

/-!
# Moving a legacy directory

The entries of the legacy directory are moved one by one, in directory order, each by a rename or
else by a copy of its files that are removed afterwards. A run that finds a vault in the canonical
directory has nothing to do.

`migration_complete` says that all files are in the canonical directory once a run has returned Ok,
in every sequence of runs that end early only as long as the canonical directory has no vault.
`vault_moved_first` is a directory whose database is left behind.
-/

namespace Skattr.Core.Daemon

open Lib

/-- A file of a directory: its entry and the path below that, which is empty for a plain file. -/
abbrev FileKey := String × String

def VAULT : FileKey := ("identity.vault", "")

def filesOf (dir : Table FileKey Bytes) (name : String) : List FileKey :=
  dir.keys.filter fun key => key.1 = name

/-- What a run is about: the entries to be moved, the files of an entry to be copied, or those to be
removed. -/
inductive MigratePhase where
  | idle
  | moving (entries : List String)
  | copying (name : String) (files : List FileKey) (entries : List String)
  | removing (name : String) (files : List FileKey) (entries : List String)
  deriving DecidableEq

def MigratePhase.copied : MigratePhase → Option FileKey
  | .copying _ files _ => files.head?
  | _ => none

/-- The two directories; `returnedOk` records that a run has returned Ok. -/
structure Migration where
  legacy : Table FileKey Bytes
  canonical : Table FileKey Bytes
  phase : MigratePhase
  returnedOk : Bool

/-- What happens: a run starts, with the entries in directory order, it takes its next step, or it
ends with an error or a crash. A copy that is interrupted leaves some bytes. -/
inductive MigrateEvent where
  | start (order : List String)
  | next (renameOk : Bool)
  | stop (torn : Option Bytes)

namespace Migration

def CanRename (migration : Migration) (name : String) : Prop :=
  filesOf migration.canonical name = [] ∨
    filesOf migration.canonical name = [(name, "")] ∧ filesOf migration.legacy name = [(name, "")]

instance (migration : Migration) (name : String) : Decidable (migration.CanRename name) :=
  inferInstanceAs (Decidable (_ ∨ _))

def copyFile (legacy canonical : Table FileKey Bytes) (key : FileKey) : Table FileKey Bytes :=
  (legacy.get key).elim canonical (canonical.put key)

def next (renameOk : Bool) (migration : Migration) : Migration :=
  match migration.phase with
  | .idle => migration
  | .moving [] => { migration with phase := .idle, returnedOk := true }
  | .moving (name :: entries) =>
    if renameOk ∧ migration.CanRename name then
      { migration with
        canonical := (filesOf migration.legacy name).foldl (copyFile migration.legacy)
          migration.canonical
        legacy := migration.legacy.deleteWhere fun key _ => key.1 = name
        phase := .moving entries }
    else { migration with phase := .copying name (filesOf migration.legacy name) entries }
  | .copying name [] entries =>
    { migration with phase := .removing name (filesOf migration.legacy name) entries }
  | .copying name (key :: files) entries =>
    { migration with
      canonical := copyFile migration.legacy migration.canonical key
      phase := .copying name files entries }
  | .removing _ [] entries => { migration with phase := .moving entries }
  | .removing name (key :: files) entries =>
    { migration with
      legacy := migration.legacy.delete key, phase := .removing name files entries }

def step (migration : Migration) : MigrateEvent → Migration
  | .start order =>
    match migration.phase with
    | .idle =>
      if (migration.canonical.get VAULT).isSome then { migration with returnedOk := true }
      else if (migration.legacy.get VAULT).isNone then { migration with returnedOk := true }
      else if ∀ key ∈ migration.legacy.keys, key.1 ∈ order then
        { migration with phase := .moving order }
      else migration
    | _ => migration
  | .next renameOk => migration.next renameOk
  | .stop torn =>
    match migration.phase.copied, torn with
    | some key, some bytes =>
      { migration with canonical := migration.canonical.put key bytes, phase := .idle }
    | _, _ => { migration with phase := .idle }

def Complete (original : Table FileKey Bytes) (migration : Migration) : Prop :=
  ∀ key bytes, original.get key = some bytes → migration.canonical.get key = some bytes

/-- A run ends early only as long as the canonical directory has no vault, and not in the course of
copying it. -/
def BeforeVault (migration : Migration) : MigrateEvent → Prop
  | .stop torn => migration.phase = .idle ∨ migration.canonical.get VAULT = none ∧
      (migration.phase.copied = some VAULT → torn = none)
  | _ => True

def Copied (legacy canonical : Table FileKey Bytes) (key : FileKey) : Prop :=
  ∀ bytes, legacy.get key = some bytes → canonical.get key = some bytes

/-- Nothing is lost: a file is in one of the directories, and the legacy one has no other files. -/
structure Safe (original legacy canonical : Table FileKey Bytes) : Prop where
  sub : ∀ key bytes, legacy.get key = some bytes → original.get key = some bytes
  kept : ∀ key bytes, original.get key = some bytes →
    canonical.get key = some bytes ∨ legacy.get key = some bytes

def Inv (original : Table FileKey Bytes) (migration : Migration) : Prop :=
  Safe original migration.legacy migration.canonical ∧
  match migration.phase with
  | .idle => if migration.returnedOk then migration.Complete original
      else migration.canonical.get VAULT = none
  | .moving entries => migration.returnedOk = false ∧
      ∀ key ∈ migration.legacy.keys, key.1 ∈ entries
  | .copying name files entries => migration.returnedOk = false ∧
      (∀ key ∈ migration.legacy.keys, key.1 = name ∨ key.1 ∈ entries) ∧
      (∀ key ∈ files, key ∈ migration.legacy.keys) ∧
      ∀ key, key.1 = name → key ∈ files ∨ Copied migration.legacy migration.canonical key
  | .removing _ files entries => migration.returnedOk = false ∧
      (∀ key ∈ migration.legacy.keys, key ∈ files ∨ key.1 ∈ entries) ∧
      ∀ key ∈ files, Copied migration.legacy migration.canonical key

section Files

variable {original legacy canonical other : Table FileKey Bytes} {key file : FileKey}

theorem mem_keys_of_get {bytes : Bytes} (h : legacy.get key = some bytes) : key ∈ legacy.keys := by
  by_contra hkey
  rw [Table.get_eq_none_iff.mpr hkey] at h
  cases h

theorem copied_copyFile (h : key = file ∨ Copied legacy canonical key) :
    Copied legacy (copyFile legacy canonical file) key := by
  intro bytes hbytes
  by_cases hkey : key = file
  · subst hkey
    simp [copyFile, hbytes]
  · have hcopied := h.resolve_left hkey bytes hbytes
    unfold copyFile
    cases legacy.get file with
    | none => exact hcopied
    | some content => exact (Table.get_put_ne _ _ hkey).trans hcopied

theorem copied_copyFiles {files : List FileKey} (h : key ∈ files ∨ Copied legacy canonical key) :
    Copied legacy (files.foldl (copyFile legacy) canonical) key := by
  induction files generalizing canonical with
  | nil => exact h.resolve_left List.not_mem_nil
  | cons file files ih =>
    refine ih ?_
    by_cases hmem : key ∈ files
    · exact .inl hmem
    · exact .inr (copied_copyFile (h.imp_left fun h => (List.mem_cons.mp h).resolve_right hmem))

theorem Safe.copyFile (h : Safe original legacy canonical) (file : FileKey) :
    Safe original legacy (copyFile legacy canonical file) := by
  refine ⟨h.sub, fun key bytes horiginal => ?_⟩
  rcases h.kept key bytes horiginal with hcanonical | hlegacy
  · unfold Migration.copyFile
    cases hfile : legacy.get file with
    | none => exact .inl hcanonical
    | some content =>
      by_cases hkey : key = file
      · subst hkey
        exact .inr (hfile.trans ((h.sub key content hfile).symm.trans horiginal))
      · exact .inl ((Table.get_put_ne _ _ hkey).trans hcanonical)
  · exact .inr hlegacy

theorem Safe.shrink (h : Safe original legacy canonical)
    (hother : ∀ key, other.get key = legacy.get key ∨
      other.get key = none ∧ Copied legacy canonical key) : Safe original other canonical := by
  constructor
  · intro key bytes hbytes
    rcases hother key with heq | ⟨hnone, -⟩
    · exact h.sub key bytes (heq ▸ hbytes)
    · rw [hnone] at hbytes
      cases hbytes
  · intro key bytes horiginal
    rcases h.kept key bytes horiginal with hcanonical | hlegacy
    · exact .inl hcanonical
    · rcases hother key with heq | ⟨-, hcopied⟩
      · exact .inr (heq.trans hlegacy)
      · exact .inl (hcopied bytes hlegacy)

theorem Safe.torn (h : Safe original legacy canonical) (hfile : file ∈ legacy.keys)
    (bytes : Bytes) : Safe original legacy (canonical.put file bytes) := by
  refine ⟨h.sub, fun key content horiginal => ?_⟩
  by_cases hkey : key = file
  · subst hkey
    cases hlegacy : legacy.get key with
    | none => exact absurd hfile (Table.get_eq_none_iff.mp hlegacy)
    | some found => exact .inr ((h.sub key found hlegacy).symm.trans horiginal)
  · rw [Table.get_put_ne _ _ hkey]
    exact h.kept key content horiginal

theorem mem_filesOf {name : String} :
    key ∈ filesOf legacy name ↔ key ∈ legacy.keys ∧ key.1 = name := by
  simp [filesOf, List.mem_filter]

end Files

variable {original : Table FileKey Bytes} {migration : Migration}

theorem inv_next (renameOk : Bool) (h : migration.Inv original) :
    (migration.next renameOk).Inv original := by
  obtain ⟨legacy, canonical, phase, returnedOk⟩ := migration
  obtain ⟨hsafe, hphase⟩ := h
  match phase with
  | .idle => exact ⟨hsafe, hphase⟩
  | .moving [] =>
    refine ⟨hsafe, fun key bytes horiginal => ?_⟩
    -- Nothing is left in the legacy directory.
    refine (hsafe.kept key bytes horiginal).resolve_right fun hlegacy => ?_
    exact List.not_mem_nil (hphase.2 key (mem_keys_of_get hlegacy))
  | .moving (name :: entries) =>
    simp only [next]
    split
    · refine ⟨(foldl_invariant (fun _ file h => h.copyFile file) _ hsafe).shrink fun key => ?_,
        hphase.1, fun key hkey => ?_⟩
      · rw [Table.get_deleteWhere]
        by_cases hname : key.1 = name
        · refine .inr ⟨by simp [hname], fun bytes hbytes => ?_⟩
          have hmem := mem_filesOf.mpr ⟨mem_keys_of_get hbytes, hname⟩
          exact copied_copyFiles (.inl hmem) bytes hbytes
        · exact .inl (by cases legacy.get key <;> simp [hname])
      · obtain ⟨row, hrow, rfl⟩ := List.mem_map.mp hkey
        obtain ⟨hmem, hname⟩ := Table.mem_deleteWhere.mp hrow
        refine (List.mem_cons.mp (hphase.2 row.1 (List.mem_map_of_mem hmem))).resolve_left ?_
        simpa using hname
    · refine ⟨hsafe, hphase.1, fun key hkey => List.mem_cons.mp (hphase.2 key hkey),
        fun key hkey => (mem_filesOf.mp hkey).1, fun key hname => ?_⟩
      refine (Classical.em (key ∈ legacy.keys)).imp (fun hkey => mem_filesOf.mpr ⟨hkey, hname⟩) ?_
      exact fun hkey bytes hbytes => absurd (mem_keys_of_get hbytes) hkey
  | .copying name [] entries =>
    obtain ⟨hok, hkeys, -, hcopied⟩ := hphase
    refine ⟨hsafe, hok, fun key hkey => ?_, fun key hkey => ?_⟩
    · exact (hkeys key hkey).imp_left fun hname => mem_filesOf.mpr ⟨hkey, hname⟩
    · exact (hcopied key (mem_filesOf.mp hkey).2).resolve_left List.not_mem_nil
  | .copying name (file :: files) entries =>
    obtain ⟨hok, hkeys, hfiles, hcopied⟩ := hphase
    refine ⟨hsafe.copyFile file, hok, hkeys, fun key hkey => hfiles key (.tail _ hkey), ?_⟩
    intro key hname
    by_cases hmem : key ∈ files
    · exact .inl hmem
    · refine .inr (copied_copyFile ((hcopied key hname).imp_left fun h => ?_))
      exact (List.mem_cons.mp h).resolve_right hmem
  | .removing name [] entries =>
    exact ⟨hsafe, hphase.1, fun key hkey => (hphase.2.1 key hkey).resolve_left List.not_mem_nil⟩
  | .removing name (file :: files) entries =>
    obtain ⟨hok, hkeys, hcopied⟩ := hphase
    have hget : ∀ key, (legacy.delete file).get key = legacy.get key ∨
        (legacy.delete file).get key = none ∧ Copied legacy canonical key := by
      intro key
      by_cases hkey : key = file
      · subst hkey
        exact .inr ⟨Table.get_delete_self _ _, hcopied key List.mem_cons_self⟩
      · exact .inl (Table.get_delete_ne _ hkey)
    refine ⟨hsafe.shrink hget, hok, fun key hkey => ?_, fun key hkey bytes hbytes => ?_⟩
    · obtain ⟨row, hrow, rfl⟩ := List.mem_map.mp hkey
      obtain ⟨hmem, hname⟩ := Table.mem_delete.mp hrow
      refine (hkeys row.1 (List.mem_map_of_mem hmem)).imp_left fun h => ?_
      exact (List.mem_cons.mp h).resolve_left hname
    · refine hcopied key (.tail _ hkey) bytes ?_
      rcases hget key with heq | ⟨hnone, -⟩
      · exact heq ▸ hbytes
      · cases hnone.symm.trans hbytes

theorem inv_start (order : List String) {vault : Bytes} (hvault : original.get VAULT = some vault)
    (h : migration.Inv original) : (migration.step (.start order)).Inv original := by
  obtain ⟨legacy, canonical, phase, returnedOk⟩ := migration
  cases phase with
  | moving | copying | removing => exact h
  | idle =>
    obtain ⟨hsafe, hphase⟩ := h
    have hphase : if returnedOk then Complete original ⟨legacy, canonical, .idle, returnedOk⟩
        else canonical.get VAULT = none := hphase
    cases returnedOk with
    | true =>
      have hcanonical : canonical.get VAULT = some vault := hphase VAULT vault hvault
      simp only [step, hcanonical]
      exact ⟨hsafe, hphase⟩
    | false =>
      have hcanonical : canonical.get VAULT = none := hphase
      have hlegacy : legacy.get VAULT = some vault :=
        (hsafe.kept VAULT vault hvault).resolve_left (by simp [hcanonical])
      simp only [step, hcanonical, hlegacy]
      split
      · contradiction
      · split
        · contradiction
        · split
          · exact ⟨hsafe, rfl, by assumption⟩
          · exact ⟨hsafe, hcanonical⟩

theorem inv_stop (torn : Option Bytes) (h : migration.Inv original)
    (hbefore : migration.BeforeVault (.stop torn)) :
    (migration.step (.stop torn)).Inv original := by
  obtain ⟨legacy, canonical, phase, returnedOk⟩ := migration
  obtain ⟨hsafe, hphase⟩ := h
  rcases hbefore with hidle | ⟨hnone, hcopy⟩
  · cases hidle
    exact ⟨hsafe, hphase⟩
  · simp only [step]
    split
    · rename_i file bytes hfile
      cases phase with
      | idle | moving | removing => cases hfile
      | copying name files entries =>
        cases hphase.1
        refine ⟨hsafe.torn (hphase.2.2.1 file (List.mem_of_mem_head? hfile)) bytes, ?_⟩
        refine (Table.get_put_ne canonical bytes ?_).trans hnone
        rintro rfl
        cases hcopy hfile
    · cases phase with
      | idle => exact ⟨hsafe, hphase⟩
      | moving | copying | removing =>
        cases hphase.1
        exact ⟨hsafe, hnone⟩

/-- Once a run has returned Ok, the canonical directory has every file of the legacy directory. -/
theorem migration_complete (legacy canonical : Table FileKey Bytes)
    (hlegacy : (legacy.get VAULT).isSome) (hcanonical : canonical.get VAULT = none)
    (events : List MigrateEvent)
    (hmeets : Meets step BeforeVault ⟨legacy, canonical, .idle, false⟩ events) :
    Along step (fun migration => migration.returnedOk = true → migration.Complete legacy)
      ⟨legacy, canonical, .idle, false⟩ events := by
  obtain ⟨vault, hvault⟩ := Option.isSome_iff_exists.mp hlegacy
  have hinit : Inv legacy ⟨legacy, canonical, .idle, false⟩ :=
    ⟨⟨fun _ _ h => h, fun _ _ h => .inr h⟩, hcanonical⟩
  have hruns : Along step (Inv legacy) ⟨legacy, canonical, .idle, false⟩ events := by
    refine along_of_meets (fun migration event h hbefore => ?_) hinit hmeets
    cases event with
    | start order => exact inv_start order hvault h
    | next renameOk => exact inv_next renameOk h
    | stop torn => exact inv_stop torn h hbefore
  refine hruns.imp fun migration h hok => ?_
  obtain ⟨legacy', canonical', phase, returnedOk⟩ := migration
  cases hok
  cases phase with
  | idle => exact h.2
  | moving | copying | removing => cases h.2.1

def twoFiles : Table FileKey Bytes :=
  (Table.empty.put VAULT [1]).put ("skattr.db.age", "") [2]

/-- A run that crashes while it copies the database is repeated. -/
theorem crash_before_vault :
    ([.start ["skattr.db.age", "identity.vault"], .next false, .stop (some [0]),
      .start ["skattr.db.age", "identity.vault"], .next true, .next true, .next true].foldl step
        ⟨twoFiles, Table.empty, .idle, false⟩).Complete twoFiles := by
  refine (migration_complete twoFiles Table.empty (by decide) rfl _ ?_).last ?_
  · exact ⟨trivial, trivial, .inr (by decide), trivial, trivial, trivial, trivial, trivial⟩
  · decide

/-- The vault is moved, and the run crashes: the next one returns Ok, and the database is left
behind. -/
theorem vault_moved_first :
    let migration := ([.start ["identity.vault", "skattr.db.age"], .next true, .stop none,
      .start ["skattr.db.age"]] : List MigrateEvent).foldl step
        ⟨twoFiles, Table.empty, .idle, false⟩
    migration.returnedOk = true ∧ migration.legacy.get ("skattr.db.age", "") = some [2] ∧
      migration.canonical.get ("skattr.db.age", "") = none := by
  decide

end Migration

end Skattr.Core.Daemon
