import Skattr.Core.Basic
import Skattr.Core.Storage.Pool
import Mathlib.Logic.Function.Iterate

/-!
# Backup and restore

A backup is an encrypted archive of the three encrypted files of a data directory. An import
refuses a directory that has one of them, and extracts the entries one after the other. What the
user sees then is decided by the next open of the pool, which `open_ends` describes as a whole: it
always ends, with a pool that exposes `Disk.opened` or with an error.

`restore_exact_iff` says when the database that the source exposed is exposed again (an export of a
directory at rest takes the encrypted file and an import does not look for the working file, which
an open prefers), and which failed imports leave the directory without a new file.
`restore_goes_wrong` shows the failures.
-/

namespace Skattr.Core.Storage

open Lib

variable {Tx : Type}

/-! ### The next open -/

/-- The database that an open connects to: that of the working file if there is one, or that of the
encrypted file, with the log replayed. -/
def Disk.opened (p : Platform Tx) (disk : Disk Tx) : Option (Db Tx) :=
  (match disk.working, disk.age with
    | some main, _ => p.load main
    | none, none => p.load []
    | none, some ciphertext => (p.decrypt ciphertext).bind p.load).map
  fun db => disk.wal.foldl Db.apply db

namespace State

/-- The next step of an open that meets no fault; the decrypted content is written at once. -/
def drive (p : Platform Tx) (s : State Tx) : State Tx :=
  match s.phase with
  | .decrypting content => (s.writeChunk content.length).next p
  | _ => s.next p

def openSteps (p : Platform Tx) (n : Nat) (s : State Tx) : State Tx :=
  (drive p)^[n] (s.startOpen p)

def Exposes (p : Platform Tx) (s : State Tx) (db : Db Tx) : Prop :=
  ∃ n, (s.openSteps p n).phase = .live ∧ (s.openSteps p n).disk.db p = some db

end State

section Open

variable {p : Platform Tx} {s : State Tx}

/-- An open ends with this database: a pool that exposes it in the current schema, or an error when
SQLite refuses the file or the schema is too new. -/
def EndsWith (p : Platform Tx) (s : State Tx) : Option (Db Tx) → Prop
  | none => s.phase = .down
  | some db => if db.version ≤ MAX_KNOWN then
      s.phase = .live ∧ s.disk.db p = some ⟨MAX_KNOWN, db.txs⟩ else s.phase = .down

theorem drive_down (h : s.phase = .down) : s.drive p = s := by
  simp [State.drive, State.next, h]

theorem drive_live (h : s.phase = .live) : s.drive p = s := by
  simp [State.drive, State.next, h]

theorem drive_marking (h : s.phase = .marking) :
    s.drive p = { s with disk := { s.disk with sentinel := true }, phase := .live } := by
  simp [State.drive, State.next, h]

theorem drive_sealing (h : s.phase = .sealing) : s.drive p = s.encryptDb p .marking := by
  simp [State.drive, State.next, h]

variable {residue : Bool} {db : Option (Db Tx)} {txs : List Tx}

theorem drive_migrating (h : s.phase = .migrating residue) : s.drive p = s.migrate p residue := by
  simp [State.drive, State.next, h]

theorem drive_connecting (h : s.phase = .connecting residue) : s.drive p = s.connect p residue := by
  simp [State.drive, State.next, h]

theorem drive_decrypting {content : Bytes} (h : s.phase = .decrypting content)
    (hworking : s.disk.working = some []) : s.drive p = { s with
      disk := { s.disk with working := some content }, phase := .connecting false } := by
  simp [State.drive, State.next, h, State.writeChunk, hworking]

theorem EndsWith.fixed (h : EndsWith p s db) : s.drive p = s := by
  cases db with
  | none => exact drive_down h
  | some db =>
    simp only [EndsWith] at h
    split at h
    · exact drive_live h.1
    · exact drive_down h

def Ends (p : Platform Tx) (s : State Tx) (db : Option (Db Tx)) : Prop :=
  ∃ n, EndsWith p ((State.drive p)^[n] s) db

theorem EndsWith.ends (h : EndsWith p s db) : Ends p s db := ⟨0, h⟩

theorem ends_of_drive {t : State Tx} (hdrive : s.drive p = t) (h : Ends p t db) : Ends p s db := by
  obtain ⟨n, hends⟩ := h
  refine ⟨n + 1, ?_⟩
  rw [Function.iterate_succ_apply, hdrive]
  exact hends

theorem marking_ends (hphase : s.phase = .marking) (hdb : s.disk.db p = some ⟨MAX_KNOWN, txs⟩) :
    Ends p s (some ⟨MAX_KNOWN, txs⟩) := by
  refine ends_of_drive (drive_marking hphase) (EndsWith.ends ?_)
  simp only [EndsWith, le_refl, if_true]
  exact ⟨trivial, hdb⟩

theorem current_ends (hp : p.Lawful) (hphase : s.phase = .migrating residue)
    (hdb : s.disk.db p = some ⟨MAX_KNOWN, txs⟩) : Ends p s (some ⟨MAX_KNOWN, txs⟩) := by
  have hmigrate : s.migrate p residue = if residue then
      { s with disk := s.disk.walCheckpoint p, phase := .sealing }
      else { s with phase := .marking } := by
    simp [State.migrate, hdb]
  refine ends_of_drive ((drive_migrating hphase).trans hmigrate) ?_
  cases residue with
  | false => exact marking_ends rfl hdb
  | true =>
    have hfolded : s.disk.walCheckpoint p =
        { s.disk with working := some (p.image ⟨MAX_KNOWN, txs⟩), wal := [] } := by
      simp [Disk.walCheckpoint, hdb]
    rw [if_pos rfl, hfolded]
    refine ends_of_drive (drive_sealing rfl) (marking_ends rfl ?_)
    simp [State.encryptDb, Disk.db, hp.load_image]

theorem migrating_ends (hp : p.Lawful) {db : Db Tx} (left : Nat)
    (hphase : s.phase = .migrating residue) (hdb : s.disk.db p = some db)
    (hversion : db.version + left = MAX_KNOWN) : Ends p s (some ⟨MAX_KNOWN, db.txs⟩) := by
  induction left generalizing s db with
  | zero =>
    obtain ⟨version, txs⟩ := db
    cases hversion
    exact current_ends hp hphase hdb
  | succ left ih =>
    have hmigrate : s.migrate p residue = { s with
        disk := { s.disk with wal := s.disk.wal ++ [.migrate (db.version + 1)] } } := by
      simp only [State.migrate, hdb]
      rw [if_neg (by omega), if_pos (by omega)]
    have hnext : { s.disk with wal := s.disk.wal ++ [Write.migrate (db.version + 1)] }.db p =
        some (db.apply (.migrate (db.version + 1))) := by
      rw [db_append_wal, hdb, Option.map_some]
    have hleft : db.version + 1 + left = MAX_KNOWN := by omega
    exact ends_of_drive ((drive_migrating hphase).trans hmigrate)
      (@ih _ (db.apply (.migrate (db.version + 1))) hphase hnext hleft)

/-- The directory once SQLite has created the working file if it was absent. -/
def created (disk : Disk Tx) : Disk Tx := { disk with working := some (disk.working.getD []) }

theorem connecting_ends (hp : p.Lawful) (hphase : s.phase = .connecting residue) :
    Ends p s ((created s.disk).db p) := by
  have hconnect : s.drive p = if ((created s.disk).db p).isSome then
      { s with disk := created s.disk, phase := .migrating residue }
      else { s with disk := created s.disk, phase := .down } := by
    rw [drive_connecting hphase]
    cases hdb : (created s.disk).db p <;>
      simp only [created] at hdb <;> simp [State.connect, hdb, created]
  refine ends_of_drive hconnect ?_
  cases hdb : (created s.disk).db p with
  | none => exact EndsWith.ends rfl
  | some db =>
    rw [if_pos Option.isSome_some]
    by_cases hversion : db.version ≤ MAX_KNOWN
    · obtain ⟨left, hleft⟩ := Nat.exists_eq_add_of_le hversion
      have hends : Ends p { s with disk := created s.disk, phase := .migrating residue }
          (some ⟨MAX_KNOWN, db.txs⟩) := migrating_ends hp left rfl hdb hleft.symm
      simpa only [Ends, EndsWith, hversion, le_refl, if_true] using hends
    · -- a schema that is too new is refused
      refine ends_of_drive (drive_migrating rfl) (EndsWith.ends ?_)
      simp only [EndsWith, if_neg hversion, State.migrate, hdb]
      rw [if_pos (by omega)]

theorem open_ends (hp : p.Lawful) (hphase : s.phase = .down) :
    Ends p (s.startOpen p) (s.disk.opened p) := by
  cases hworking : s.disk.working with
  | some main =>
    have hstart : s.startOpen p = { s with phase := .connecting true } := by
      simp [State.startOpen, hworking]
    have hopened : s.disk.opened p = (created s.disk).db p := by
      simp [Disk.opened, Disk.db, created, hworking]
    rw [hstart, hopened]
    exact connecting_ends hp rfl
  | none =>
    cases hage : s.disk.age with
    | none =>
      have hstart : s.startOpen p = { s with phase := .connecting false } := by
        simp [State.startOpen, hworking, hage]
      have hopened : s.disk.opened p = (created s.disk).db p := by
        simp [Disk.opened, Disk.db, created, hworking, hage]
      rw [hstart, hopened]
      exact connecting_ends hp rfl
    | some ciphertext =>
      cases hdecrypt : p.decrypt ciphertext with
      | none =>
        have hstart : s.startOpen p = s := by
          simp [State.startOpen, hworking, hage, hdecrypt]
        have hopened : s.disk.opened p = none := by
          simp [Disk.opened, hworking, hage, hdecrypt]
        rw [hstart, hopened]
        exact EndsWith.ends hphase
      | some content =>
        have hstart : s.startOpen p = { s with
            disk := { s.disk with working := some [] }, phase := .decrypting content } := by
          simp [State.startOpen, hworking, hage, hdecrypt]
        have hopened : s.disk.opened p = { s.disk with working := some content }.db p := by
          simp [Disk.opened, Disk.db, hworking, hage, hdecrypt]
        rw [hstart, hopened]
        exact ends_of_drive (drive_decrypting rfl rfl) (connecting_ends hp rfl)

theorem ended_unique {m n : Nat} (hm : (State.drive p)^[m + 1] s = (State.drive p)^[m] s)
    (hn : (State.drive p)^[n + 1] s = (State.drive p)^[n] s) :
    (State.drive p)^[m] s = (State.drive p)^[n] s := by
  have hfixed : ∀ {k : Nat}, (State.drive p)^[k + 1] s = (State.drive p)^[k] s →
      ∀ more, (State.drive p)^[k + more] s = (State.drive p)^[k] s := by
    intro k hk more
    rw [Function.iterate_succ_apply'] at hk
    rw [Nat.add_comm, Function.iterate_add_apply]
    exact Function.iterate_fixed hk more
  rcases Nat.le_total m n with hle | hle
  · obtain ⟨more, rfl⟩ := Nat.exists_eq_add_of_le hle
    exact (hfixed hm more).symm
  · obtain ⟨more, rfl⟩ := Nat.exists_eq_add_of_le hle
    exact hfixed hn more

theorem exposes_iff (hp : p.Lawful) (hphase : s.phase = .down) {db : Db Tx} :
    s.Exposes p db ↔
      ∃ found, s.disk.opened p = some found ∧ found.version ≤ MAX_KNOWN ∧
        db = ⟨MAX_KNOWN, found.txs⟩ := by
  obtain ⟨n, hends⟩ := open_ends hp hphase
  constructor
  · rintro ⟨m, hlive, hdb⟩
    have hsame : s.openSteps p m = (State.drive p)^[n] (s.startOpen p) := by
      refine ended_unique ?_ ?_
      · rw [Function.iterate_succ_apply']
        exact drive_live hlive
      · rw [Function.iterate_succ_apply']
        exact hends.fixed
    rw [← hsame] at hends
    cases hopened : s.disk.opened p with
    | none =>
      rw [hopened] at hends
      cases hlive.symm.trans hends
    | some found =>
      rw [hopened] at hends
      simp only [EndsWith] at hends
      split at hends
      · next hversion =>
        exact ⟨found, rfl, hversion, Option.some.inj (hdb.symm.trans hends.2)⟩
      · cases hlive.symm.trans hends
  · rintro ⟨found, hopened, hversion, rfl⟩
    rw [hopened] at hends
    simp only [EndsWith, hversion, if_true] at hends
    exact ⟨n, hends⟩

end Open

/-! ### Archives -/

/-- The three encrypted files of a data directory. -/
inductive BackupFile where
  | vault
  | hsKey
  | db
  deriving DecidableEq

def BackupFile.name : BackupFile → String
  | .vault => "identity.vault"
  | .hsKey => "hs.key.age"
  | .db => "skattr.sqlite.age"

def BACKUP_FILES : List BackupFile := [.vault, .hsKey, .db]

def BackupFile.named? (name : String) : Option BackupFile :=
  BACKUP_FILES.find? fun file => file.name = name

/-- A data directory: the vault and the hidden-service key besides what the pool keeps there. -/
structure DataDir (Tx : Type) where
  vault : Option Bytes
  hsKey : Option Bytes
  disk : Disk Tx
  deriving DecidableEq

namespace DataDir

def read (dir : DataDir Tx) : BackupFile → Option Bytes
  | .vault => dir.vault
  | .hsKey => dir.hsKey
  | .db => dir.disk.age

def write (dir : DataDir Tx) (content : Bytes) : BackupFile → DataDir Tx
  | .vault => { dir with vault := some content }
  | .hsKey => { dir with hsKey := some content }
  | .db => { dir with disk := { dir.disk with age := some content } }

end DataDir

/-- The encrypted archive of some members, and what reading one yields: an error of the decryption,
or its entries, of which each may be unreadable. -/
structure ArchiveFormat (Archive : Type) where
  encode : List (String × Bytes) → Archive
  decode : Archive → Except String (List (Except String (String × Bytes)))

def ArchiveFormat.Lawful {Archive : Type} (format : ArchiveFormat Archive) : Prop :=
  ∀ members, format.decode (format.encode members) = .ok (members.map .ok)

variable {Archive : Type}

def member (file : BackupFile) (content : Option Bytes) : Except CoreError (String × Bytes) :=
  content.elim (.error (.storage ("tar append " ++ file.name))) fun bytes => .ok (file.name, bytes)

variable (format : ArchiveFormat Archive)

/-- Bundle the vault and the key of the directory with a snapshot of the database. -/
def exportBackupFromParts (dir : DataDir Tx) (dbAge : Option Bytes) : Except CoreError Archive := do
  let vault ← member .vault dir.vault
  let hsKey ← member .hsKey dir.hsKey
  let db ← member .db dbAge
  pure (format.encode [vault, hsKey, db])

def exportBackup (dir : DataDir Tx) : Except CoreError Archive :=
  match BACKUP_FILES.find? fun file => (dir.read file).isNone with
  | some file => .error (.storage ("missing backup input: " ++ file.name))
  | none => exportBackupFromParts format dir dir.disk.age

/-- What an import meets: the archive file or the error of reading it, the error of creating the
directory, and for each entry the error of unpacking it with what it left at the destination. -/
structure ImportEnv (Archive : Type) where
  archive : Except String Archive
  createDir : Option String
  unpack : Nat → Option (String × Option Bytes)

def extract (unpack : Nat → Option (String × Option Bytes)) :
    Nat → List (Except String (String × Bytes)) → DataDir Tx → Except CoreError Unit × DataDir Tx
  | _, [], dir => (.ok (), dir)
  | _, .error e :: _, dir => (.error (.storage ("tar entry: " ++ e)), dir)
  | i, .ok (name, content) :: rest, dir =>
    match BackupFile.named? name with
    | none => (.error (.storage ("unexpected backup entry: " ++ name)), dir)
    | some file =>
      match unpack i with
      | some (e, left) =>
        (.error (.storage ("extract " ++ name ++ ": " ++ e)),
          left.elim dir fun content => dir.write content file)
      | none => extract unpack (i + 1) rest (dir.write content file)

def importBackup (env : ImportEnv Archive) (dir : DataDir Tx) :
    Except CoreError Unit × DataDir Tx :=
  match BACKUP_FILES.find? fun file => (dir.read file).isSome with
  | some file => (.error (.storage ("refusing to overwrite existing " ++ file.name ++
      "; restore into a clean data_dir")), dir)
  | none =>
    match env.archive with
    | .error e => (.error (.io e), dir)
    | .ok archive =>
      match format.decode archive with
      | .error e => (.error (.storage e), dir)
      | .ok entries =>
        match env.createDir with
        | some e => (.error (.io e), dir)
        | none => extract env.unpack 0 entries dir

/-- The archive was exported when an open of the source would expose `db`, and holds `kept`: by a
pool that was open, from a snapshot of its database, or from the encrypted file of a directory at
rest. -/
def ExportedAt (p : Platform Tx) (format : ArchiveFormat Archive) (source : DataDir Tx) (db : Db Tx)
    (kept : Option (Db Tx)) (archive : Archive) : Prop :=
  source.disk.opened p = some db ∧
    ((kept = some db ∧
        exportBackupFromParts format source (some (p.encrypt (p.image db))) = .ok archive) ∨
      (kept = (source.disk.age.bind p.decrypt).bind p.load ∧
        exportBackup format source = .ok archive))

/-- The database that an open finds after `kept` was restored into a directory: that of a working
file that is there, or `kept`, with the log of the directory replayed. -/
def restored (p : Platform Tx) (disk : Disk Tx) (kept : Option (Db Tx)) : Option (Db Tx) :=
  (disk.working.elim kept p.load).map fun db => disk.wal.foldl Db.apply db

/-- The first entry that an import extracts leaves a file, be it incomplete. -/
def leavesFile (unpack : Nat → Option (String × Option Bytes)) :
    List (Except String (String × Bytes)) → Bool
  | .ok (name, _) :: _ => (BackupFile.named? name).isSome && (unpack 0).all fun fault =>
    fault.2.isSome
  | _ => false

/-- The import gets as far as extracting these entries. -/
structure Extracts (env : ImportEnv Archive) (dir : DataDir Tx)
    (entries : List (Except String (String × Bytes))) : Prop where
  clean : ∀ file, dir.read file = none
  readable : ∃ archive, env.archive = .ok archive ∧ format.decode archive = .ok entries
  createDir : env.createDir = none

def BeginsExtracting (env : ImportEnv Archive) (dir : DataDir Tx) : Prop :=
  ∃ entries, Extracts format env dir entries ∧ leavesFile env.unpack entries = true

section Import

variable {format : ArchiveFormat Archive} {env : ImportEnv Archive} {dir dir' : DataDir Tx}

@[simp] theorem named?_name (file : BackupFile) : BackupFile.named? file.name = some file := by
  cases file <;> decide

theorem mem_backupFiles (file : BackupFile) : file ∈ BACKUP_FILES := by
  cases file <;> decide

theorem read_write_self (dir : DataDir Tx) (content : Bytes) (file : BackupFile) :
    (dir.write content file).read file = some content := by
  cases file <;> rfl

variable {file : BackupFile} {unpack : Nat → Option (String × Option Bytes)}
  {entries : List (Except String (String × Bytes))} {archive : Archive} {source : DataDir Tx}
  {p : Platform Tx} {e : CoreError} {db : Db Tx}

theorem read_write_ne_none {content : Bytes} {other : BackupFile} (h : dir.read other ≠ none) :
    (dir.write content file).read other ≠ none := by
  by_cases hsame : other = file
  · rw [hsame, read_write_self]
    exact Option.some_ne_none _
  · cases file <;> cases other <;> first | exact absurd rfl hsame | exact h

theorem extract_keeps :
    ∀ {entries : List (Except String (String × Bytes))} {i : Nat} {dir : DataDir Tx},
      dir.read file ≠ none → (extract unpack i entries dir).2.read file ≠ none
  | [], _, _, h => h
  | .error _ :: _, _, _, h => h
  | .ok (name, content) :: rest, i, dir, h => by
      unfold extract
      cases BackupFile.named? name with
      | none => exact h
      | some other =>
        cases unpack i with
        | none => exact extract_keeps (read_write_ne_none h)
        | some fault =>
          obtain ⟨e, left⟩ := fault
          cases left with
          | none => exact h
          | some bytes => exact read_write_ne_none h

theorem extract_untouched_iff (hclean : ∀ file, dir.read file = none)
    (h : extract unpack 0 entries dir = (.error e, dir')) :
    (∀ file, dir'.read file = none) ↔ leavesFile unpack entries = false := by
  -- a file that was written stays until the failure
  have hstays : ∀ {file : BackupFile}, dir'.read file ≠ none →
      ((∀ file, dir'.read file = none) ↔ true = false) :=
    fun hfile => iff_of_false (fun hnone => hfile (hnone _)) (by simp)
  cases entries with
  | nil => cases h
  | cons entry rest =>
    cases entry with
    | error e =>
      cases h
      exact iff_of_true hclean rfl
    | ok entry =>
      obtain ⟨name, content⟩ := entry
      simp only [extract, leavesFile] at h ⊢
      cases hname : BackupFile.named? name with
      | none =>
        simp only [hname] at h
        cases h
        exact iff_of_true hclean rfl
      | some file =>
        cases hunpack : unpack 0 with
        | none =>
          simp only [hname, hunpack] at h
          have hkept :
              (extract unpack 1 rest (dir.write content file)).2.read file ≠ none :=
            extract_keeps (by simp [read_write_self])
          rw [h] at hkept
          exact hstays hkept
        | some fault =>
          obtain ⟨message, left⟩ := fault
          simp only [hname, hunpack] at h
          cases left with
          | none =>
            cases h
            exact iff_of_true hclean rfl
          | some bytes =>
            cases h
            have hleft : (dir.write bytes file).read file ≠ none := by
              simp [read_write_self]
            exact hstays hleft

theorem find?_isSome_eq_none :
    (BACKUP_FILES.find? fun file => (dir.read file).isSome) = none ↔
      ∀ file, dir.read file = none := by
  rw [List.find?_eq_none]
  constructor
  · intro h file
    simpa using h file (mem_backupFiles file)
  · intro h file _
    simp [h file]

theorem importBackup_cases {result : Except CoreError Unit}
    (h : importBackup format env dir = (result, dir')) :
    ((∃ e, result = .error e) ∧ dir' = dir ∧ ∀ entries, ¬Extracts format env dir entries) ∨
      ∃ entries, Extracts format env dir entries ∧
        extract env.unpack 0 entries dir = (result, dir') := by
  unfold importBackup at h
  split at h
  · next file hfound =>
    cases h
    refine .inl ⟨⟨_, rfl⟩, rfl, fun entries hextracts => ?_⟩
    rw [find?_isSome_eq_none.mpr hextracts.clean] at hfound
    cases hfound
  · next hfound =>
    have hclean := find?_isSome_eq_none.mp hfound
    split at h
    · next e harchive =>
      cases h
      refine .inl ⟨⟨_, rfl⟩, rfl, fun entries hextracts => ?_⟩
      obtain ⟨archive, hread, -⟩ := hextracts.readable
      cases harchive.symm.trans hread
    · next archive harchive =>
      split at h
      · next e hdecode =>
        cases h
        refine .inl ⟨⟨_, rfl⟩, rfl, fun entries hextracts => ?_⟩
        obtain ⟨_, hread, hentries⟩ := hextracts.readable
        cases harchive.symm.trans hread
        cases hdecode.symm.trans hentries
      · next entries hdecode =>
        split at h
        · next e hcreate =>
          cases h
          refine .inl ⟨⟨_, rfl⟩, rfl, fun entries hextracts => ?_⟩
          cases hcreate.symm.trans hextracts.createDir
        · next hcreate =>
          exact .inr ⟨entries, ⟨hclean, ⟨archive, harchive, hdecode⟩, hcreate⟩, h⟩

theorem Extracts.unique {entries' : List (Except String (String × Bytes))}
    (h : Extracts format env dir entries) (h' : Extracts format env dir entries') :
    entries = entries' := by
  obtain ⟨archive, hread, hdecode⟩ := h.readable
  obtain ⟨archive', hread', hdecode'⟩ := h'.readable
  cases hread.symm.trans hread'
  cases hdecode.symm.trans hdecode'
  rfl

theorem import_untouched_iff (h : importBackup format env dir = (.error e, dir')) :
    (∀ file, dir.read file = none → dir'.read file = none) ↔ ¬BeginsExtracting format env dir := by
  rcases importBackup_cases h with ⟨-, rfl, hnever⟩ | ⟨entries, hextracts, hextract⟩
  · refine iff_of_true (fun _ hnone => hnone) ?_
    rintro ⟨entries, hextracts, -⟩
    exact hnever entries hextracts
  · have huntouched := extract_untouched_iff hextracts.clean hextract
    constructor
    · rintro hnone ⟨entries', hextracts', hleaves⟩
      rw [← hextracts.unique hextracts',
        huntouched.mp fun file => hnone file (hextracts.clean file)] at hleaves
      cases hleaves
    · intro hbegins file _
      refine huntouched.mpr ?_ file
      by_contra hleaves
      exact hbegins ⟨entries, hextracts, (Bool.not_eq_false _).mp hleaves⟩

theorem member_ok {content : Option Bytes} {entry : String × Bytes}
    (h : member file content = .ok entry) :
    ∃ bytes, content = some bytes ∧ entry = (file.name, bytes) := by
  cases content with
  | none => cases h
  | some bytes =>
    cases h
    exact ⟨bytes, rfl, rfl⟩

theorem exportBackupFromParts_ok {dbAge : Bytes}
    (h : exportBackupFromParts format source (some dbAge) = .ok archive) :
    ∃ vault hsKey, archive = format.encode [(BackupFile.vault.name, vault),
      (BackupFile.hsKey.name, hsKey), (BackupFile.db.name, dbAge)] := by
  obtain ⟨_, hvault, h⟩ := bind_eq_ok.mp h
  obtain ⟨_, hhsKey, h⟩ := bind_eq_ok.mp h
  obtain ⟨vault, -, rfl⟩ := member_ok hvault
  obtain ⟨hsKey, -, rfl⟩ := member_ok hhsKey
  cases h
  exact ⟨vault, hsKey, rfl⟩

theorem ExportedAt.members (hp : p.Lawful) (h : ExportedAt p format source db kept archive) :
    ∃ vault hsKey dbAge, kept = (p.decrypt dbAge).bind p.load ∧ archive = format.encode
      [(BackupFile.vault.name, vault), (BackupFile.hsKey.name, hsKey),
        (BackupFile.db.name, dbAge)] := by
  have hparts : ∃ dbAge, kept = (p.decrypt dbAge).bind p.load ∧
      exportBackupFromParts format source (some dbAge) = .ok archive := by
    obtain ⟨-, ⟨hkept, hexport⟩ | ⟨hkept, hexport⟩⟩ := h
    · refine ⟨_, ?_, hexport⟩
      rw [hp.decrypt_encrypt, Option.bind_some, hp.load_image, hkept]
    · unfold exportBackup at hexport
      split at hexport
      · cases hexport
      · next hmissing =>
        have hage := List.find?_eq_none.mp hmissing .db (mem_backupFiles .db)
        cases hsome : source.disk.age with
        | none => exact absurd (by simp [DataDir.read, hsome]) hage
        | some dbAge =>
          rw [hsome] at hkept hexport
          exact ⟨dbAge, hkept, hexport⟩
  obtain ⟨dbAge, hkept, hexport⟩ := hparts
  obtain ⟨vault, hsKey, harchive⟩ := exportBackupFromParts_ok hexport
  exact ⟨vault, hsKey, dbAge, hkept, harchive⟩

theorem import_ok {vault hsKey db : Bytes} (hformat : format.Lawful)
    (hread : env.archive = .ok archive)
    (harchive : archive = format.encode [(BackupFile.vault.name, vault), (BackupFile.hsKey.name,
      hsKey), (BackupFile.db.name, db)])
    (h : importBackup format env dir = (.ok (), dir')) :
    dir'.disk = { dir.disk with age := some db } := by
  rcases importBackup_cases h with ⟨⟨e, herror⟩, -⟩ | ⟨entries, hextracts, hextract⟩
  · cases herror
  obtain ⟨_, hread', hdecode⟩ := hextracts.readable
  cases hread.symm.trans hread'
  rw [harchive, hformat] at hdecode
  cases hdecode
  simp only [List.map_cons, List.map_nil, extract, named?_name] at hextract
  split at hextract
  · cases hextract
  · split at hextract
    · cases hextract
    · split at hextract
      · cases hextract
      · cases hextract
        rfl

theorem opened_restored (disk : Disk Tx) (dbAge : Bytes) :
    { disk with age := some dbAge }.opened p =
      restored p disk ((p.decrypt dbAge).bind p.load) := by
  cases hworking : disk.working <;> simp [Disk.opened, restored, hworking]

/-- After an import that succeeded, the next open exposes the database that an open of the source
exposed at the export exactly when what the archive holds, a working file that was in the directory
and the log add up to it. A failed import has left no file, and can be repeated, exactly when it
failed before it left the first one. -/
theorem restore_exact_iff (p : Platform Tx) (hp : p.Lawful) (format : ArchiveFormat Archive)
    (hformat : format.Lawful) (env : ImportEnv Archive) (dir dir' : DataDir Tx) :
    (∀ (source : DataDir Tx) (db : Db Tx) (kept : Option (Db Tx)) (archive : Archive)
      (s : State Tx), ExportedAt p format source db kept archive → env.archive = .ok archive →
      importBackup format env dir = (.ok (), dir') → s.phase = .down → s.disk = dir'.disk →
      (s.Exposes p ⟨MAX_KNOWN, db.txs⟩ ↔ ∃ found, restored p dir.disk kept = some found ∧
        found.version ≤ MAX_KNOWN ∧ found.txs = db.txs)) ∧
    ∀ e, importBackup format env dir = (.error e, dir') →
      ((∀ file, dir.read file = none → dir'.read file = none) ↔
        ¬BeginsExtracting format env dir) := by
  refine ⟨?_, fun e h => import_untouched_iff h⟩
  intro source db kept archive s hexported hread himport hphase hdisk
  obtain ⟨vault, hsKey, dbAge, hkept, harchive⟩ := hexported.members hp
  have hopened : s.disk.opened p = restored p dir.disk kept := by
    rw [hdisk, import_ok hformat hread harchive himport, hkept]
    exact opened_restored dir.disk dbAge
  rw [exposes_iff hp hphase, hopened]
  simp only [Db.mk.injEq, true_and, eq_comm]

end Import

/-! ### Restores that go wrong -/

def plainFormat : ArchiveFormat (List (Except String (String × Bytes))) where
  encode members := members.map .ok
  decode entries := .ok entries

theorem plainFormat_lawful : plainFormat.Lawful := fun _ => rfl

def mainFile (tx : UInt8) : Bytes := tinyPlatform.image ⟨MAX_KNOWN, [tx]⟩

/-- A directory whose encrypted file holds one transaction. A working file is what a crash left. -/
def sourceDir (working : Option Bytes) : DataDir UInt8 :=
  ⟨some [1], some [2], ⟨some (tinyPlatform.encrypt (mainFile 9)), working, [], false⟩⟩

def sampleArchive (tx : UInt8) : List (Except String (String × Bytes)) :=
  [.ok ("identity.vault", [1]), .ok ("hs.key.age", [2]),
    .ok ("skattr.sqlite.age", tinyPlatform.encrypt (mainFile tx))]

def importing (tx : UInt8) (full : Option Nat) :
    ImportEnv (List (Except String (String × Bytes))) :=
  ⟨.ok (sampleArchive tx), none,
    fun i => if full = some i then some ("no space left", none) else none⟩

def dirWith (working : Option Bytes) : DataDir UInt8 := ⟨none, none, ⟨none, working, [], false⟩⟩

def restoredState (tx : UInt8) (working : Option Bytes) : State UInt8 :=
  ⟨(importBackup plainFormat (importing tx none) (dirWith working)).2.disk, .down, [], []⟩

/-- The working file of an earlier session wins over the imported database, which the open then
overwrites. The archive of a directory with the working file of a crash lacks what an open of that
directory exposes. A failed import leaves the vault, and the import is refused from then on. -/
theorem restore_goes_wrong :
    ((importBackup plainFormat (importing 9 none) (dirWith (some (mainFile 5)))).1 = .ok () ∧
      ((restoredState 9 (some (mainFile 5))).openSteps tinyPlatform 4).phase = .live ∧
      (((restoredState 9 (some (mainFile 5))).openSteps tinyPlatform 4).disk.db tinyPlatform).map
        Db.txs = some [5] ∧
      ((restoredState 9 (some (mainFile 5))).openSteps tinyPlatform 4).disk.age =
        some (tinyPlatform.encrypt (mainFile 5))) ∧
    (((sourceDir (some (mainFile 5))).disk.opened tinyPlatform).map Db.txs = some [5] ∧
      exportBackup plainFormat (sourceDir (some (mainFile 5))) = .ok (sampleArchive 9) ∧
      ((restoredState 9 none).openSteps tinyPlatform 5).phase = .live ∧
      (((restoredState 9 none).openSteps tinyPlatform 5).disk.db tinyPlatform).map Db.txs =
        some [9]) ∧
    ∃ left, importBackup plainFormat (importing 9 (some 1)) (dirWith none) =
        (.error (.storage "extract hs.key.age: no space left"), left) ∧
      left.vault = some [1] ∧
      (importBackup plainFormat (importing 9 none) left).1 = .error (.storage
        "refusing to overwrite existing identity.vault; restore into a clean data_dir") := by
  refine ⟨by decide +kernel, by decide +kernel, _, rfl, ?_⟩
  decide +kernel

/-- Restores into an empty directory: of a directory at rest, and of an open pool whose encrypted
file is older. -/
theorem clean_restore_exact :
    (restoredState 9 none).Exposes tinyPlatform ⟨MAX_KNOWN, [9]⟩ ∧
      (restoredState 5 none).Exposes tinyPlatform ⟨MAX_KNOWN, [5]⟩ := by
  have h := fun tx => (restore_exact_iff tinyPlatform tinyPlatform_lawful plainFormat
    plainFormat_lawful (importing tx none) (dirWith none)
    (importBackup plainFormat (importing tx none) (dirWith none)).2).1
  exact ⟨(h 9 (sourceDir none) ⟨MAX_KNOWN, [9]⟩ _ (sampleArchive 9) (restoredState 9 none)
      ⟨by decide +kernel, .inr ⟨rfl, rfl⟩⟩ rfl rfl rfl rfl).mpr
        ⟨⟨MAX_KNOWN, [9]⟩, by decide +kernel, le_refl _, rfl⟩,
    (h 5 (sourceDir (some (mainFile 5))) ⟨MAX_KNOWN, [5]⟩ _ (sampleArchive 5)
      (restoredState 5 none) ⟨by decide +kernel, .inl ⟨rfl, rfl⟩⟩ rfl rfl rfl rfl).mpr
        ⟨⟨MAX_KNOWN, [5]⟩, by decide +kernel, le_refl _, rfl⟩⟩

end Skattr.Core.Storage
