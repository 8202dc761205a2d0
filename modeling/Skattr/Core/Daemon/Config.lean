import Skattr.Core.Storage.Tables
import Skattr.Lib.Run

/-!
# The configuration and the retention sweep

A `SetConfig` request changes the shared configuration in place, field by field, checks the one
bounded field on the way and saves the file last. The retention sweep reads the same shared
configuration on every tick and deletes old messages.

`honoured_iff_harmless` says exactly in which runs the configuration, the file and every deletion
go back to requests that were answered with success: those in which a request that fails would
have changed nothing. `rejected_retention_deletes` is a run in which a rejected request deletes
messages.
-/

namespace Skattr.Core.Daemon

open Lib Lib.Fallible

inductive NotificationMode where
  | full
  | minimal
  | generic
  | off
  deriving DecidableEq

/-- Message history settings; 0 days keep the history forever. -/
structure HistoryConfig where
  retentionDays : UInt32
  deriving DecidableEq

structure DeliveryConfig where
  directTimeoutSecs : UInt32
  deriving DecidableEq

structure NotificationsConfig where
  mode : NotificationMode
  deriving DecidableEq

structure UiConfig where
  closeToTray : Bool
  startMinimised : Bool
  persistLogsToDisk : Bool
  deriving DecidableEq

structure Config where
  dataDir : String
  ipcSocket : Option String
  logFilter : String
  history : HistoryConfig
  delivery : DeliveryConfig
  notifications : NotificationsConfig
  ui : UiConfig
  downloadDir : Option String
  deriving DecidableEq

/-- The configuration of a daemon that finds no home directory; all sections have their default. -/
def Config.fallback : Config where
  dataDir := "./skattr-data"
  ipcSocket := none
  logFilter := "skattr_core=info,arti=warn"
  history := ⟨0⟩
  delivery := ⟨30⟩
  notifications := ⟨.full⟩
  ui := ⟨true, false, true⟩
  downloadDir := none

/-- A partial change; a field without a value is left alone. -/
structure ConfigPatch where
  historyRetentionDays : Option UInt32
  directTimeoutSecs : Option UInt32
  notificationMode : Option NotificationMode
  closeToTray : Option Bool
  startMinimised : Option Bool
  persistLogsToDisk : Option Bool
  downloadDir : Option String
  deriving DecidableEq

/-! ### Applying a patch -/

def ConfigPatch.setHistory (patch : ConfigPatch) (config : Config) : Config :=
  { config with history := ⟨patch.historyRetentionDays.getD config.history.retentionDays⟩ }

def ConfigPatch.setRest (patch : ConfigPatch) (config : Config) : Config :=
  { config with
    notifications := ⟨patch.notificationMode.getD config.notifications.mode⟩
    ui :=
      { closeToTray := patch.closeToTray.getD config.ui.closeToTray
        startMinimised := patch.startMinimised.getD config.ui.startMinimised
        persistLogsToDisk := patch.persistLogsToDisk.getD config.ui.persistLogsToDisk }
    downloadDir := patch.downloadDir.or config.downloadDir }

def Config.applyPatch (patch : ConfigPatch) : Fallible String Config Unit := do
  modify patch.setHistory
  match patch.directTimeoutSecs with
  | none => pure ()
  | some t => do
      ensure (1 ≤ t ∧ t ≤ 600) s!"direct_timeout_secs out of range 1..=600 (got {t})"
      modify fun config => { config with delivery := ⟨t⟩ }
  modify patch.setRest

def ConfigPatch.InRange (patch : ConfigPatch) : Prop :=
  ∀ t ∈ patch.directTimeoutSecs, 1 ≤ t ∧ t ≤ 600

instance (patch : ConfigPatch) : Decidable patch.InRange :=
  inferInstanceAs (Decidable (∀ t ∈ patch.directTimeoutSecs, 1 ≤ t ∧ t ≤ 600))

def ConfigPatch.over (patch : ConfigPatch) (config : Config) : Config where
  dataDir := config.dataDir
  ipcSocket := config.ipcSocket
  logFilter := config.logFilter
  history := ⟨patch.historyRetentionDays.getD config.history.retentionDays⟩
  delivery := ⟨patch.directTimeoutSecs.getD config.delivery.directTimeoutSecs⟩
  notifications := ⟨patch.notificationMode.getD config.notifications.mode⟩
  ui := ⟨patch.closeToTray.getD config.ui.closeToTray,
    patch.startMinimised.getD config.ui.startMinimised,
    patch.persistLogsToDisk.getD config.ui.persistLogsToDisk⟩
  downloadDir := patch.downloadDir.or config.downloadDir

theorem Config.applyPatch_inRange {patch : ConfigPatch} (h : patch.InRange) (config : Config) :
    exec (applyPatch patch) config = (.ok (), patch.over config) := by
  unfold applyPatch
  cases htimeout : patch.directTimeoutSecs with
  | none =>
    simp only [exec_bind, exec_modify, ConfigPatch.setHistory, ConfigPatch.setRest,
      ConfigPatch.over, htimeout, Option.getD_none]
  | some t =>
    have ht := h t htimeout
    simp only [exec_bind, exec_modify, exec_ensure, if_pos ht, ConfigPatch.setHistory,
      ConfigPatch.setRest, ConfigPatch.over, htimeout, Option.getD_some]

theorem Config.applyPatch_outOfRange {patch : ConfigPatch} (h : ¬patch.InRange)
    (config : Config) :
    ∃ error, exec (applyPatch patch) config = (.error error, patch.setHistory config) := by
  unfold ConfigPatch.InRange at h
  push Not at h
  obtain ⟨t, ht, hrange⟩ := h
  have ht : patch.directTimeoutSecs = some t := ht
  have hrange : ¬(1 ≤ t ∧ t ≤ 600) := fun hin => hrange hin.1 hin.2
  refine ⟨s!"direct_timeout_secs out of range 1..=600 (got {t})", ?_⟩
  unfold applyPatch
  simp only [exec_bind, exec_modify, exec_ensure, ht, if_neg hrange]

/-! ### Saving the file -/

/-- The configuration file and the temporary file beside it. -/
structure ConfigFiles where
  config : Option Bytes
  tmp : Option Bytes
  deriving DecidableEq

/-- The file operations of a save; a write may stop after some bytes. -/
inductive SaveStep where
  | create
  | stat
  | chmod
  | write (written : Nat)
  | fsync
  | rename
  deriving DecidableEq

/-- A file operation that fails, with the system's message. -/
structure SaveFault where
  step : SaveStep
  message : String
  deriving DecidableEq

/-- The TOML writer and the names of the two files. -/
structure ConfigHost where
  toml : Config → Except String Bytes
  path : String
  tmpPath : String

/-- A file operation without effect on the contents fails when the fault is there. -/
def failAt (fault : Option SaveFault) (step : SaveStep) (context : String) :
    Fallible String ConfigFiles Unit :=
  match fault with
  | none => pure ()
  | some fault => ensure (fault.step ≠ step) (context ++ fault.message)

def writeAll (fault : Option SaveFault) (bytes : Bytes) : Fallible String ConfigFiles Unit :=
  match fault with
  | some ⟨.write written, message⟩ => do
      modify fun files => { files with tmp := some (bytes.take written) }
      throw ("write: " ++ message)
  | _ => modify fun files => { files with tmp := some bytes }

/-- Write the configuration to the temporary file and rename it over the configuration file. -/
def Config.saveToDisk (host : ConfigHost) (fault : Option SaveFault) (config : Config) :
    Fallible String ConfigFiles Unit := do
  let serialised ← attempt ((host.toml config).mapError ("serialise: " ++ ·))
  failAt fault .create s!"create {host.tmpPath}: "
  modify fun files => { files with tmp := some [] }
  failAt fault .stat "stat: "
  failAt fault .chmod "chmod: "
  writeAll fault serialised
  failAt fault .fsync "fsync: "
  failAt fault .rename s!"rename {host.tmpPath} → {host.path}: "
  modify fun files => ⟨files.tmp, none⟩

def Saves (host : ConfigHost) (fault : Option SaveFault) (config : Config) : Prop :=
  fault = none ∧ (host.toml config).toOption ≠ none

instance (host : ConfigHost) (fault : Option SaveFault) (config : Config) :
    Decidable (Saves host fault config) :=
  inferInstanceAs (Decidable (_ ∧ _))

theorem Config.saveToDisk_saves {host : ConfigHost} {fault : Option SaveFault} {config : Config}
    (h : Saves host fault config) (files : ConfigFiles) :
    exec (saveToDisk host fault config) files =
      (.ok (), ⟨(host.toml config).toOption, none⟩) := by
  obtain ⟨rfl, hbytes⟩ := h
  unfold saveToDisk
  cases htoml : host.toml config with
  | error e => simp [htoml, Except.toOption] at hbytes
  | ok bytes => rfl

theorem Config.saveToDisk_fails {host : ConfigHost} {fault : Option SaveFault} {config : Config}
    (h : ¬Saves host fault config) (files : ConfigFiles) :
    ∃ error after, exec (saveToDisk host fault config) files = (.error error, after) ∧
      after.config = files.config := by
  unfold saveToDisk
  cases htoml : host.toml config with
  | error e => exact ⟨_, _, rfl, rfl⟩
  | ok bytes =>
    cases fault with
    | none => exact absurd ⟨rfl, by simp [htoml, Except.toOption]⟩ h
    | some fault =>
      obtain ⟨step, message⟩ := fault
      cases step with
      | create => exact ⟨_, _, rfl, rfl⟩
      | stat => exact ⟨_, _, rfl, rfl⟩
      | chmod => exact ⟨_, _, rfl, rfl⟩
      | write written => exact ⟨_, _, rfl, rfl⟩
      | fsync => exact ⟨_, _, rfl, rfl⟩
      | rename => exact ⟨_, _, rfl, rfl⟩

/-! ### The request and the sweep -/

def retentionCutoff (now : Int) (retentionDays : UInt32) : Int :=
  saturate (now - saturate (retentionDays.toNat * 86400))

/-- A message that a sweep deleted, with the time of the sweep and the retention that had been
agreed on by then. -/
structure Pruned where
  row : MessageRow
  now : Int
  retentionDays : UInt32
  deriving DecidableEq

/-- The shared configuration, its file and the messages, with what happened so far: the
configuration and the file of the last request that succeeded, and the deleted messages. -/
structure Settings where
  config : Config
  files : ConfigFiles
  messages : Table (GroupId × MessageId) MessageRow
  agreed : Config × Option Bytes
  pruned : List Pruned
  deriving DecidableEq

def Settings.init (config : Config) (file : Option Bytes)
    (messages : Table (GroupId × MessageId) MessageRow) : Settings :=
  ⟨config, ⟨file, none⟩, messages, (config, file), []⟩

/-- Run a computation that raises configuration errors, reported as invalid arguments. -/
def configErrors {σ α : Type} (context : String) (x : Fallible String σ α) (s : σ) :
    Except CoreError α × σ :=
  ((exec x s).1.mapError fun e => .invalidArgument (context ++ "config: " ++ e), (exec x s).2)

def setConfig (host : ConfigHost) (fault : Option SaveFault) (patch : ConfigPatch) :
    Fallible CoreError Settings Unit := do
  onPart Settings.config (fun config s => { s with config := config })
    (configErrors "" (Config.applyPatch patch))
  let s ← get
  onPart Settings.files (fun files s => { s with files := files })
    (configErrors "save_to_disk: " (s.config.saveToDisk host fault))

/-- The pruning step of a sweep; `pruneOk` tells whether the statement succeeds. -/
def Settings.sweep (s : Settings) (now : Int) (pruneOk : Bool) : Settings :=
  let days := s.config.history.retentionDays
  if days ≠ 0 ∧ pruneOk then
    let kept := MessageRepo.pruneBefore none (retentionCutoff now days) s.messages
    { s with
      messages := kept
      pruned := s.pruned ++ (s.messages.rows.filter fun row => row ∉ kept.rows).map fun row =>
        ⟨row.2, now, s.agreed.1.history.retentionDays⟩ }
  else s

/-- What can happen: a message is stored, a request is handled, or the sweep runs. -/
inductive Settings.Action where
  | store (groupId : GroupId) (row : MessageRow)
  | set (patch : ConfigPatch) (fault : Option SaveFault)
  | sweep (now : Int) (pruneOk : Bool)

def Settings.step (host : ConfigHost) (s : Settings) : Settings.Action → Settings
  | .store groupId row =>
    { s with messages := s.messages.insertOrIgnore (groupId, row.envelope.id) row }
  | .set patch fault =>
    let outcome := exec (setConfig host fault patch) s
    match outcome.1 with
    | .ok _ =>
      { outcome.2 with
        agreed := (patch.over s.agreed.1, (host.toml (patch.over s.agreed.1)).toOption) }
    | .error _ => outcome.2
  | .sweep now pruneOk => s.sweep now pruneOk

def Pruned.Due (pruned : Pruned) : Prop :=
  pruned.retentionDays ≠ 0 ∧
    pruned.row.tsDaemonRecv < retentionCutoff pruned.now pruned.retentionDays

/-- Only requests that succeeded count: the configuration and its file are those of the last one,
and every deletion was due under the one before it. -/
structure Settings.Honoured (s : Settings) : Prop where
  config : s.config = s.agreed.1
  file : s.files.config = s.agreed.2
  pruned : ∀ pruned ∈ s.pruned, pruned.Due

/-- The request succeeds, or what it sets before it fails has those values already. -/
def ConfigPatch.Harmless (host : ConfigHost) (config : Config) (patch : ConfigPatch)
    (fault : Option SaveFault) : Prop :=
  if patch.InRange then Saves host fault (patch.over config) ∨ patch.over config = config
  else patch.setHistory config = config

def Settings.Harmless (host : ConfigHost) (s : Settings) : Settings.Action → Prop
  | .set patch fault => patch.Harmless host s.config fault
  | _ => True

/-! ### What a step does -/

theorem configErrors_ok {σ α : Type} {context : String} {x : Fallible String σ α} {s t : σ}
    {a : α} (h : exec x s = (.ok a, t)) : configErrors context x s = (.ok a, t) := by
  unfold configErrors
  rw [h]
  rfl

theorem configErrors_error {σ α : Type} {context error : String} {x : Fallible String σ α}
    {s t : σ} (h : exec x s = (.error error, t)) :
    configErrors context x s =
      (.error (.invalidArgument (context ++ "config: " ++ error)), t) := by
  unfold configErrors
  rw [h]
  rfl

variable {host : ConfigHost} {fault : Option SaveFault} {patch : ConfigPatch} {s : Settings}

theorem setConfig_saves (hrange : patch.InRange)
    (hsaves : Saves host fault (patch.over s.config)) :
    exec (setConfig host fault patch) s = (.ok (), { s with
      config := patch.over s.config
      files := ⟨(host.toml (patch.over s.config)).toOption, none⟩ }) := by
  unfold setConfig
  simp only [exec_bind, exec_onPart, exec_get, configErrors_ok (Config.applyPatch_inRange hrange _),
    configErrors_ok (Config.saveToDisk_saves hsaves _)]

theorem setConfig_unsaved (hrange : patch.InRange)
    (hsaves : ¬Saves host fault (patch.over s.config)) :
    ∃ error after, exec (setConfig host fault patch) s =
        (.error error, { s with config := patch.over s.config, files := after }) ∧
      after.config = s.files.config := by
  obtain ⟨error, after, hexec, hafter⟩ := Config.saveToDisk_fails hsaves s.files
  refine ⟨.invalidArgument ("save_to_disk: " ++ "config: " ++ error), after, ?_, hafter⟩
  unfold setConfig
  simp only [exec_bind, exec_onPart, exec_get, configErrors_ok (Config.applyPatch_inRange hrange _),
    configErrors_error hexec]

theorem setConfig_outOfRange (host : ConfigHost) (fault : Option SaveFault) (s : Settings)
    (hrange : ¬patch.InRange) :
    ∃ error, exec (setConfig host fault patch) s =
      (.error error, { s with config := patch.setHistory s.config }) := by
  obtain ⟨error, hexec⟩ := Config.applyPatch_outOfRange hrange s.config
  refine ⟨.invalidArgument ("" ++ "config: " ++ error), ?_⟩
  unfold setConfig
  simp only [exec_bind, exec_onPart, configErrors_error hexec]

/-- What a request does to an honoured state: it succeeds and is agreed on, or it fails and leaves
a configuration with an unchanged file. -/
theorem Settings.step_set (h : s.Honoured) :
    (s.step host (.set patch fault)).Honoured ↔ patch.Harmless host s.config fault := by
  unfold ConfigPatch.Harmless
  by_cases hrange : patch.InRange
  · rw [if_pos hrange]
    by_cases hsaves : Saves host fault (patch.over s.config)
    · refine ⟨fun _ => .inl hsaves, fun _ => ?_⟩
      simp only [Settings.step, setConfig_saves hrange hsaves]
      exact ⟨by rw [h.config], by rw [h.config], h.pruned⟩
    · obtain ⟨error, after, hexec, hafter⟩ := setConfig_unsaved hrange hsaves
      simp only [Settings.step, hexec]
      constructor
      · intro hnext
        exact .inr (hnext.config.trans h.config.symm)
      · rintro (hsaved | hsame)
        · exact absurd hsaved hsaves
        · exact ⟨hsame.trans h.config, hafter.trans h.file, h.pruned⟩
  · rw [if_neg hrange]
    obtain ⟨error, hexec⟩ := setConfig_outOfRange host fault s hrange
    simp only [Settings.step, hexec]
    constructor
    · intro hnext
      exact hnext.config.trans h.config.symm
    · intro hsame
      exact ⟨hsame.trans h.config, h.file, h.pruned⟩

theorem Settings.Honoured.sweep (h : s.Honoured) (now : Int) (pruneOk : Bool) :
    (s.sweep now pruneOk).Honoured := by
  unfold Settings.sweep
  dsimp only
  split
  · next hdays =>
    refine ⟨h.config, h.file, ?_⟩
    intro pruned hpruned
    rcases List.mem_append.mp hpruned with hold | hnew
    · exact h.pruned pruned hold
    · obtain ⟨row, hrow, rfl⟩ := List.mem_map.mp hnew
      obtain ⟨hmem, hgone⟩ := List.mem_filter.mp hrow
      rw [← h.config]
      refine ⟨hdays.1, ?_⟩
      simpa [MessageRepo.pruneBefore, Table.mem_deleteWhere, hmem] using hgone
  · exact h

theorem Settings.step_honoured_iff (h : s.Honoured) (action : Settings.Action) :
    (s.step host action).Honoured ↔ s.Harmless host action := by
  cases action with
  | store groupId row => exact ⟨fun _ => trivial, fun _ => ⟨h.config, h.file, h.pruned⟩⟩
  | set patch fault => exact Settings.step_set h
  | sweep now pruneOk => exact ⟨fun _ => trivial, fun _ => h.sweep now pruneOk⟩

/-- In a run, the configuration, its file and every deletion always go back to requests that
succeeded exactly when every request that fails would have changed nothing. -/
theorem honoured_iff_harmless (host : ConfigHost) (config : Config) (file : Option Bytes)
    (messages : Table (GroupId × MessageId) MessageRow) (actions : List Settings.Action) :
    Along (Settings.step host) Settings.Honoured (.init config file messages) actions ↔
      Meets (Settings.step host) (Settings.Harmless host) (.init config file messages) actions := by
  have hinit : Settings.Honoured (.init config file messages) :=
    ⟨rfl, rfl, fun _ hpruned => absurd hpruned List.not_mem_nil⟩
  constructor
  · intro halong
    refine meets_of_along ?_ halong halong
    intro s action h _ hnext
    exact (Settings.step_honoured_iff h action).mp hnext
  · intro hmeets
    refine along_of_meets ?_ hinit hmeets
    intro s action h hguard
    exact (Settings.step_honoured_iff h action).mpr hguard

def agedMessage : MessageRow :=
  ⟨.fill 32 7, ⟨1, .fill 16 1, 0, none, .text "keep me"⟩, 0, 0⟩

def rejectedPatch : ConfigPatch := ⟨some 1, some 0, none, none, none, none, none⟩

def scratchHost : ConfigHost := ⟨fun _ => .ok [], "config.toml", "config.toml.tmp"⟩

/-- A request that is rejected for its timeout has set the retention, and the next sweep deletes
a message although the history was to be kept forever. -/
theorem rejected_retention_deletes :
    ((exec (setConfig scratchHost none rejectedPatch) (.init .fallback none .empty)).1 =
        .error (.invalidArgument "config: direct_timeout_secs out of range 1..=600 (got 0)")) ∧
      ∃ s, [.store [1] agedMessage, .set rejectedPatch none, .sweep 86401 true].foldl
          (Settings.step scratchHost) (.init .fallback none .empty) = s ∧
        s.messages = .empty ∧ s.agreed.1.history.retentionDays = 0 ∧ ¬s.Honoured := by
  refine ⟨by rfl, _, rfl, by decide, by decide, ?_⟩
  intro h
  have hdays := congrArg (fun config => config.history.retentionDays) h.config
  revert hdays
  decide

end Skattr.Core.Daemon
