import Rcodex.Update.Install
import Rcodex.Foundation.Machine
import Mathlib.Logic.Function.Basic

/-!
# Processes of one installation

Any number of processes run `automatic_update` and the commands `update install`, `enable`,
`disable` and `rollback` on one executable, one settings file and one lock.  Each step of a process
is an event of its own: a load, a change or a save of the settings, an attempt to take the lock, a
check for a release, the two writes of `replace`, the write of `rollback`, the return.  A process
can end at any time, whether it fails or is cancelled, and the lock is free afterwards.

`updaterStep_outcome` lists what a step can do.  `Consistent` relates what a process has read and
found to the files as long as it holds the lock; every run keeps it (`consistent_step`).
-/

namespace Rcodex

open Json Result

/-- `UpdateSettings` -/
structure UpdateSettings where
  /-- Whether automatic updates are enabled. -/
  enabled : Bool
  /-- When a process last checked for a release, in seconds. -/
  lastChecked : Option ℕ
deriving DecidableEq

/-- `UpdateSettings::due` -/
def UpdateSettings.Due (settings : UpdateSettings) (now : ℕ) : Prop :=
  settings.enabled = true ∧ ∀ last ∈ settings.lastChecked, 86400 ≤ now - last

instance (settings : UpdateSettings) (now : ℕ) : Decidable (settings.Due now) := by
  unfold UpdateSettings.Due
  infer_instance

/-- Settings that are due stay due. -/
theorem UpdateSettings.Due.mono {settings : UpdateSettings} {now later : ℕ} (h : settings.Due now)
    (hle : now ≤ later) : settings.Due later :=
  ⟨h.1, fun last hlast => (h.2 last hlast).trans (Nat.sub_le_sub_right hle last)⟩

/-- The settings file. -/
inductive SettingsFile where
  | missing
  | stored (settings : UpdateSettings)
  | unreadable
deriving DecidableEq

/-- `UpdateSettings::load` -/
def SettingsFile.load : SettingsFile → Option UpdateSettings
  | .missing => some ⟨false, none⟩
  | .stored settings => some settings
  | .unreadable => none

/-- An executable. -/
structure Executable where
  /-- The version compiled into it. -/
  version : StableVersion
  /-- Its bytes. -/
  bytes : List UInt8
deriving DecidableEq

/-- What a process runs. -/
inductive UpdaterCommand where
  | automatic
  | install
  | enable
  | disable
  | rollback
deriving DecidableEq

/-- What a command makes of the settings it has read. -/
def UpdaterCommand.newSettings (settings : UpdateSettings) (now : ℕ) :
    UpdaterCommand → UpdateSettings
  | .automatic => { settings with lastChecked := some now }
  | .enable => ⟨true, none⟩
  | .install | .disable | .rollback => { settings with enabled := false }

/-- Where a process is; from `locked` on it holds the lock. -/
inductive UpdaterPhase where
  /-- It has not done anything. -/
  | begun
  /-- `automatic_update` has loaded the settings for the first time. -/
  | loaded (settings : UpdateSettings)
  /-- They were due. -/
  | due
  /-- `update install` has found a release. -/
  | found (binary : Executable)
  /-- It has ended. -/
  | ended
  /-- It has taken the lock. -/
  | locked
  /-- `automatic_update` has loaded the settings again, after so many writes of them. -/
  | reread (settings : UpdateSettings) (readAt : ℕ)
  /-- It has loaded settings it is going to change. -/
  | changing (settings : UpdateSettings) (readAt : ℕ)
  /-- It has changed them at this time and is going to save them. -/
  | saving (settings : UpdateSettings) (readAt changedAt : ℕ)
  /-- `automatic_update` has recorded the time of its check. -/
  | stamped (checkedAt : ℕ)
  /-- It has found a release it is going to install. -/
  | installing (binary : Executable)
  /-- It has made the backup. -/
  | backedUp (binary : Executable)
  /-- `rollback` has disabled automatic updates. -/
  | restoring
  /-- It has done everything and is going to return. -/
  | done
  /-- It is going to return early or with an error. -/
  | leaving
deriving DecidableEq

/-- Where a command goes on after it has saved the settings. -/
def UpdaterCommand.afterSave (changedAt : ℕ) : UpdaterCommand → UpdaterPhase
  | .automatic => .stamped changedAt
  | .rollback => .restoring
  | .install | .enable | .disable => .done

/-- The process holds the lock. -/
def UpdaterPhase.HoldsLock : UpdaterPhase → Prop
  | .begun | .loaded _ | .due | .found _ | .ended => False
  | _ => True

instance : DecidablePred UpdaterPhase.HoldsLock := fun phase => by
  cases phase <;> unfold UpdaterPhase.HoldsLock <;> infer_instance

/-- A process. -/
structure Updater where
  /-- What it runs. -/
  command : UpdaterCommand
  /-- The version it was started from. -/
  version : StableVersion
  /-- Where it is. -/
  phase : UpdaterPhase
deriving DecidableEq

/-- A release is found if it is newer than the process. -/
def Updater.newer (updater : Updater) (binary : Option Executable) : Option Executable :=
  binary.filter fun binary => updater.version < binary.version

/-- The files of the installation and its processes. -/
structure Site where
  /-- The executable. -/
  executable : Executable
  /-- The backup. -/
  backup : Option Executable
  /-- The settings file. -/
  settings : SettingsFile
  /-- How often the settings were written. -/
  writes : ℕ
  /-- The process that holds the lock. -/
  holder : Option ℕ
  /-- The time, in seconds. -/
  clock : ℕ
  /-- The processes. -/
  updaters : ℕ → Option Updater

/-- A replacement of the executable by an update. -/
structure Replacement where
  /-- The process. -/
  pid : ℕ
  /-- What it runs. -/
  command : UpdaterCommand
  /-- The executable it replaces. -/
  old : Executable
  /-- The executable it installs. -/
  new : Executable
  /-- The backup afterwards. -/
  backup : Option Executable
deriving DecidableEq

/-- What a step does. -/
inductive UpdaterOutput where
  | silent
  | starts (pid : ℕ)
  | writes (command : UpdaterCommand) (readAt writes : ℕ)
  | checks (pid : ℕ) (checkedAt : ℕ)
  | replaces (replacement : Replacement)
  | restores
  | returns (command : UpdaterCommand)
deriving DecidableEq

/-- A step of a process, or time that passes. `synced` says whether a write is followed by an
error. -/
inductive UpdaterEvent where
  | tick (seconds : ℕ)
  | start (pid : ℕ) (command : UpdaterCommand)
  | load (pid : ℕ)
  | judge (pid : ℕ)
  | lock (pid : ℕ)
  | change (pid : ℕ)
  | save (pid : ℕ) (synced : Bool)
  | find (pid : ℕ) (binary : Option Executable)
  | backUp (pid : ℕ) (synced : Bool)
  | swap (pid : ℕ) (synced : Bool)
  | restore (pid : ℕ) (synced : Bool)
  | leave (pid : ℕ)

namespace Site

/-- A process goes on. -/
def enter (site : Site) (pid : ℕ) (updater : Updater) (phase : UpdaterPhase) : Site :=
  { site with updaters := Function.update site.updaters pid (some { updater with phase }) }

/-- A process ends, and the lock is free if it was its. -/
def finish (site : Site) (pid : ℕ) (updater : Updater) : Site :=
  { site.enter pid updater .ended with
    holder := if site.holder = some pid then none else site.holder }

/-- The settings are written. -/
def store (site : Site) (settings : UpdateSettings) : Site :=
  { site with settings := .stored settings, writes := site.writes + 1 }

@[simp] theorem enter_updaters (site : Site) (pid : ℕ) (updater : Updater) (phase : UpdaterPhase)
    (other : ℕ) : (site.enter pid updater phase).updaters other =
      if other = pid then some { updater with phase } else site.updaters other := by
  simp [enter, Function.update_apply]

/-- After a process has gone on it is in the new phase, and the others are where they were. -/
theorem enter_cases {site : Site} {pid : ℕ} {updater : Updater} {phase : UpdaterPhase} {other : ℕ}
    {u : Updater} (h : (site.enter pid updater phase).updaters other = some u) :
    other = pid ∧ u = { updater with phase } ∨ other ≠ pid ∧ site.updaters other = some u := by
  rw [enter_updaters] at h
  by_cases heq : other = pid
  · rw [if_pos heq] at h
    exact Or.inl ⟨heq, (Option.some.inj h).symm⟩
  · rw [if_neg heq] at h
    exact Or.inr ⟨heq, h⟩

/-- Time passes. -/
def tick (site : Site) (seconds : ℕ) : Site := { site with clock := site.clock + seconds }

/-- A process starts from the executable that is in place. -/
def startUpdater (site : Site) (pid : ℕ) (command : UpdaterCommand) : UpdaterOutput × Site :=
  match site.updaters pid with
  | none => (.starts pid, site.enter pid ⟨command, site.executable.version, .begun⟩ .begun)
  | some _ => (.silent, site)

/-- A process loads the settings. -/
def load (site : Site) (pid : ℕ) (updater : Updater) : UpdaterOutput × Site :=
  match updater.command, updater.phase, site.settings.load with
  | .automatic, .begun, some settings => (.silent, site.enter pid updater (.loaded settings))
  | .automatic, .locked, some settings =>
    (.silent, site.enter pid updater (.reread settings site.writes))
  | .enable, .locked, some settings | .disable, .locked, some settings
  | .rollback, .locked, some settings =>
    (.silent, site.enter pid updater (.changing settings site.writes))
  | _, _, _ => (.silent, site)

/-- `automatic_update` decides whether the settings are due. -/
def judge (site : Site) (pid : ℕ) (updater : Updater) : UpdaterOutput × Site :=
  match updater.phase with
  | .loaded settings =>
    (.silent, site.enter pid updater (if settings.Due site.clock then .due else .ended))
  | .reread settings readAt => (.silent, site.enter pid updater
      (if settings.Due site.clock then .changing settings readAt else .leaving))
  | _ => (.silent, site)

/-- A process takes the lock, or ends if it is taken. -/
def lock (site : Site) (pid : ℕ) (updater : Updater) : UpdaterOutput × Site :=
  match updater.command, updater.phase with
  | .automatic, .due | .enable, .begun | .disable, .begun | .rollback, .begun =>
    if site.holder = none then
      (.silent, { site.enter pid updater .locked with holder := some pid })
    else (.silent, site.enter pid updater .ended)
  | .install, .found binary =>
    if site.holder = none then
      (.silent, { site.enter pid updater (.installing binary) with holder := some pid })
    else (.silent, site.enter pid updater .ended)
  | _, _ => (.silent, site)

/-- A process changes the settings it has loaded. -/
def change (site : Site) (pid : ℕ) (updater : Updater) : UpdaterOutput × Site :=
  match updater.phase with
  | .changing settings readAt => (.silent, site.enter pid updater
      (.saving (updater.command.newSettings settings site.clock) readAt site.clock))
  | _ => (.silent, site)

/-- A process saves the settings. -/
def save (site : Site) (pid : ℕ) (updater : Updater) (synced : Bool) : UpdaterOutput × Site :=
  match updater.phase with
  | .saving settings readAt changedAt =>
    (.writes updater.command readAt site.writes, (site.store settings).enter pid updater
      (if synced then updater.command.afterSave changedAt else .leaving))
  | _ => (.silent, site)

/-- A process checks for a release. -/
def find (site : Site) (pid : ℕ) (updater : Updater) (binary : Option Executable) :
    UpdaterOutput × Site :=
  match updater.command, updater.phase with
  | .automatic, .stamped checkedAt => (.checks pid checkedAt,
      site.enter pid updater ((updater.newer binary).elim .leaving .installing))
  | .install, .begun =>
    (.silent, site.enter pid updater ((updater.newer binary).elim .ended .found))
  | _, _ => (.silent, site)

/-- A process has downloaded and verified the binary and backs the executable up. -/
def backUp (site : Site) (pid : ℕ) (updater : Updater) (synced : Bool) : UpdaterOutput × Site :=
  match updater.phase with
  | .installing binary => (.silent, { site.enter pid updater
      (if synced then .backedUp binary else .leaving) with backup := some site.executable })
  | _ => (.silent, site)

/-- A process replaces the executable. -/
def swap (site : Site) (pid : ℕ) (updater : Updater) (synced : Bool) : UpdaterOutput × Site :=
  match updater.phase with
  | .backedUp binary =>
    (.replaces ⟨pid, updater.command, site.executable, binary, site.backup⟩,
      { site.enter pid updater (if synced then .done else .leaving) with executable := binary })
  | _ => (.silent, site)

/-- `rollback` restores the backup, if there is one. -/
def restore (site : Site) (pid : ℕ) (updater : Updater) (synced : Bool) :
    UpdaterOutput × Site :=
  match updater.phase, site.backup with
  | .restoring, some binary =>
    (.restores, { site.enter pid updater (if synced then .done else .leaving) with
      executable := binary })
  | _, _ => (.silent, site)

/-- A process returns; one that has not done everything has failed or was cancelled. -/
def leave (site : Site) (pid : ℕ) (updater : Updater) : UpdaterOutput × Site :=
  (if updater.phase = .done then .returns updater.command else .silent, site.finish pid updater)

end Site

/-- A step of a process that has started. -/
def ofUpdater (site : Site) (pid : ℕ) (step : Updater → UpdaterOutput × Site) :
    UpdaterOutput × Site :=
  match site.updaters pid with
  | some updater => step updater
  | none => (.silent, site)

/-- One step of the processes. -/
def updaterStep (site : Site) : UpdaterEvent → UpdaterOutput × Site
  | .tick seconds => (.silent, site.tick seconds)
  | .start pid command => site.startUpdater pid command
  | .load pid => ofUpdater site pid fun updater => site.load pid updater
  | .judge pid => ofUpdater site pid fun updater => site.judge pid updater
  | .lock pid => ofUpdater site pid fun updater => site.lock pid updater
  | .change pid => ofUpdater site pid fun updater => site.change pid updater
  | .save pid synced => ofUpdater site pid fun updater => site.save pid updater synced
  | .find pid binary => ofUpdater site pid fun updater => site.find pid updater binary
  | .backUp pid synced => ofUpdater site pid fun updater => site.backUp pid updater synced
  | .swap pid synced => ofUpdater site pid fun updater => site.swap pid updater synced
  | .restore pid synced => ofUpdater site pid fun updater => site.restore pid updater synced
  | .leave pid => ofUpdater site pid fun updater => site.leave pid updater

/-! ### What a process knows -/

namespace Site

/-- What the settings file says about automatic updates. -/
def Says (site : Site) (enabled : Bool) : Prop :=
  ∃ settings, site.settings.load = some settings ∧ settings.enabled = enabled

/-- The process is installing a newer release, and automatic updates are enabled if it is one. -/
structure MayInstall (site : Site) (updater : Updater) (binary : Executable) : Prop where
  /-- It installs a release on command or automatically. -/
  installs : updater.command = .install ∨ updater.command = .automatic ∧ site.Says true
  /-- The release is newer than the process. -/
  newer : updater.version < binary.version

/-- What a process has read and found, as far as it still holds. -/
def Knows (site : Site) (updater : Updater) : Prop :=
  match updater.phase with
  | .reread settings readAt => updater.command = .automatic ∧
      site.settings.load = some settings ∧ readAt = site.writes
  | .changing settings readAt => site.settings.load = some settings ∧ readAt = site.writes ∧
      updater.command ≠ .install ∧ (updater.command = .automatic → settings.Due site.clock)
  | .saving settings readAt changedAt => readAt = site.writes ∧ updater.command ≠ .install ∧
      ∃ old, site.settings.load = some old ∧
        settings = updater.command.newSettings old changedAt ∧
        (updater.command = .automatic → old.Due changedAt)
  | .stamped checkedAt => site.settings = .stored ⟨true, some checkedAt⟩
  | .found binary => updater.command = .install ∧ updater.version < binary.version
  | .installing binary => site.MayInstall updater binary
  | .backedUp binary => site.MayInstall updater binary ∧ site.backup = some site.executable
  | .restoring => updater.command = .rollback ∧ site.Says false
  | .done => updater.command = .disable ∨ updater.command = .rollback → site.Says false
  | _ => True

/-- What a process in this phase knows. -/
theorem Knows.of_phase {site : Site} {updater : Updater} {phase : UpdaterPhase}
    (h : site.Knows updater) (hphase : updater.phase = phase) :
    site.Knows { updater with phase } := by
  rwa [← hphase]

/-- The files have not changed, and the clock has not gone back. -/
structure SameFiles (site after : Site) : Prop where
  /-- The executable. -/
  executable : after.executable = site.executable
  /-- The backup. -/
  backup : after.backup = site.backup
  /-- The settings. -/
  settings : after.settings = site.settings
  /-- The number of their writes. -/
  writes : after.writes = site.writes
  /-- The clock. -/
  clock_le : site.clock ≤ after.clock

/-- The settings say the same. -/
theorem SameFiles.says {site after : Site} (h : SameFiles site after) {enabled : Bool} :
    after.Says enabled ↔ site.Says enabled := by
  rw [Says, Says, h.settings]

/-- A process that may install a release still may. -/
theorem MayInstall.of_sameFiles {site after : Site} {updater : Updater} {binary : Executable}
    (h : site.MayInstall updater binary) (hsame : SameFiles site after) :
    after.MayInstall updater binary :=
  ⟨h.installs.imp_right fun hautomatic => ⟨hautomatic.1, hsame.says.mpr hautomatic.2⟩, h.newer⟩

/-- A process that installs a release runs neither `disable` nor `rollback`. -/
theorem MayInstall.not_disables {site : Site} {updater : Updater} {binary : Executable}
    (h : site.MayInstall updater binary) :
    ¬(updater.command = .disable ∨ updater.command = .rollback) := by
  rcases h.installs with hcommand | ⟨hcommand, -⟩ <;> simp [hcommand]

/-- A process knows what it knew as long as the files stay the same. -/
theorem Knows.of_sameFiles {site after : Site} {updater : Updater} (h : site.Knows updater)
    (hsame : SameFiles site after) : after.Knows updater := by
  obtain ⟨command, version, phase⟩ := updater
  cases phase with
  | reread settings readAt =>
    obtain ⟨hcommand, hload, hread⟩ := h
    exact ⟨hcommand, by rw [hsame.settings, hload], by rw [hsame.writes, hread]⟩
  | changing settings readAt =>
    obtain ⟨hload, hread, hcommand, hdue⟩ := h
    exact ⟨by rw [hsame.settings, hload], by rw [hsame.writes, hread], hcommand,
      fun hautomatic => (hdue hautomatic).mono hsame.clock_le⟩
  | saving settings readAt changedAt =>
    obtain ⟨hread, hcommand, old, hload, hold⟩ := h
    exact ⟨by rw [hsame.writes, hread], hcommand, old, by rw [hsame.settings, hload], hold⟩
  | stamped checkedAt => exact hsame.settings.trans h
  | found binary => exact h
  | installing binary => exact MayInstall.of_sameFiles h hsame
  | backedUp binary =>
    exact ⟨h.1.of_sameFiles hsame, by rw [hsame.backup, hsame.executable, h.2]⟩
  | restoring => exact ⟨h.1, hsame.says.mpr h.2⟩
  | done => exact fun hcommand => hsame.says.mpr (h hcommand)
  | _ => trivial

/-- What a process knows without the lock does not depend on the files. -/
theorem Knows.of_not_holdsLock {site : Site} (after : Site) {updater : Updater}
    (h : site.Knows updater) (hlock : ¬updater.phase.HoldsLock) : after.Knows updater := by
  obtain ⟨command, version, phase⟩ := updater
  cases phase with
  | begun | loaded | due | ended => trivial
  | found binary => exact h
  | _ => exact absurd trivial hlock

end Site

/-! ### What a step can do -/

/-- Everything a step can do. -/
inductive UpdaterOutcome (site : Site) (event : UpdaterEvent) : UpdaterOutput × Site → Prop
  /-- Nothing happens. -/
  | stays : UpdaterOutcome site event (.silent, site)
  /-- Time passes. -/
  | ticks (seconds : ℕ) : UpdaterOutcome site event (.silent, site.tick seconds)
  /-- A process starts from the executable that is in place. -/
  | starts (pid : ℕ) (command : UpdaterCommand) (hnew : site.updaters pid = none)
      (hevent : event = .start pid command) :
    UpdaterOutcome site event
      (.starts pid, site.enter pid ⟨command, site.executable.version, .begun⟩ .begun)
  /-- A process goes on without touching the files or the lock. -/
  | moves (pid : ℕ) (updater : Updater) (phase : UpdaterPhase)
      (hupdater : site.updaters pid = some updater)
      (hlock : phase.HoldsLock → updater.phase.HoldsLock)
      (hstamped : ∀ checkedAt, phase ≠ .stamped checkedAt)
      (hknows : site.Knows updater → site.Knows { updater with phase }) :
    UpdaterOutcome site event (.silent, site.enter pid updater phase)
  /-- A process takes the lock. -/
  | locks (pid : ℕ) (updater : Updater) (phase : UpdaterPhase)
      (hupdater : site.updaters pid = some updater) (hfree : site.holder = none)
      (hstamped : ∀ checkedAt, phase ≠ .stamped checkedAt)
      (hknows : site.Knows updater → site.Knows { updater with phase }) :
    UpdaterOutcome site event (.silent, { site.enter pid updater phase with holder := some pid })
  /-- A process saves the settings. -/
  | saves (pid : ℕ) (updater : Updater) (settings : UpdateSettings) (readAt changedAt : ℕ)
      (synced : Bool) (hupdater : site.updaters pid = some updater)
      (hphase : updater.phase = .saving settings readAt changedAt) :
    UpdaterOutcome site event (.writes updater.command readAt site.writes,
      (site.store settings).enter pid updater
        (if synced then updater.command.afterSave changedAt else .leaving))
  /-- `automatic_update` checks for a release. -/
  | checks (pid : ℕ) (updater : Updater) (checkedAt : ℕ) (phase : UpdaterPhase)
      (hupdater : site.updaters pid = some updater) (hcommand : updater.command = .automatic)
      (hphase : updater.phase = .stamped checkedAt)
      (hstamped : ∀ checkedAt, phase ≠ .stamped checkedAt)
      (hknows : site.Knows updater → site.Knows { updater with phase }) :
    UpdaterOutcome site event (.checks pid checkedAt, site.enter pid updater phase)
  /-- A process backs the executable up. -/
  | backsUp (pid : ℕ) (updater : Updater) (binary : Executable) (synced : Bool)
      (hupdater : site.updaters pid = some updater)
      (hphase : updater.phase = .installing binary) :
    UpdaterOutcome site event (.silent, { site.enter pid updater
      (if synced then .backedUp binary else .leaving) with backup := some site.executable })
  /-- A process replaces the executable. -/
  | swaps (pid : ℕ) (updater : Updater) (binary : Executable) (synced : Bool)
      (hupdater : site.updaters pid = some updater)
      (hphase : updater.phase = .backedUp binary) :
    UpdaterOutcome site event
      (.replaces ⟨pid, updater.command, site.executable, binary, site.backup⟩,
        { site.enter pid updater (if synced then .done else .leaving) with executable := binary })
  /-- `rollback` restores the backup. -/
  | restores (pid : ℕ) (updater : Updater) (binary : Executable) (synced : Bool)
      (hupdater : site.updaters pid = some updater) (hphase : updater.phase = .restoring) :
    UpdaterOutcome site event (.restores,
      { site.enter pid updater (if synced then .done else .leaving) with executable := binary })
  /-- A process ends. -/
  | ends (pid : ℕ) (updater : Updater) (output : UpdaterOutput)
      (hupdater : site.updaters pid = some updater)
      (houtput : output = .silent ∨ updater.phase = .done ∧ output = .returns updater.command) :
    UpdaterOutcome site event (output, site.finish pid updater)

section Outcomes

variable {site : Site} {event : UpdaterEvent} {pid : ℕ} {updater : Updater}

/-- Everything a load can do. -/
theorem Site.load_outcome (hupdater : site.updaters pid = some updater) :
    UpdaterOutcome site event (site.load pid updater) := by
  have hlock : ∀ {phase : UpdaterPhase}, updater.phase = .locked →
      phase.HoldsLock → updater.phase.HoldsLock := by
    intro phase hphase _
    rw [hphase]
    trivial
  have hchanging : ∀ {settings}, updater.phase = .locked → site.settings.load = some settings →
      updater.command ≠ .install → updater.command ≠ .automatic → UpdaterOutcome site event
        (.silent, site.enter pid updater (.changing settings site.writes)) := by
    intro settings hphase hload hinstall hautomatic
    apply UpdaterOutcome.moves pid updater _ hupdater (hlock hphase) (by simp)
    intro _
    exact ⟨hload, rfl, hinstall, fun heq => absurd heq hautomatic⟩
  unfold Site.load
  split
  next => exact .moves pid updater _ hupdater False.elim (by simp) fun _ => trivial
  next hcommand hphase hload =>
    apply UpdaterOutcome.moves pid updater _ hupdater (hlock hphase) (by simp)
    intro _
    exact ⟨hcommand, hload, rfl⟩
  next hcommand hphase hload =>
    exact hchanging hphase hload (by simp [hcommand]) (by simp [hcommand])
  next hcommand hphase hload =>
    exact hchanging hphase hload (by simp [hcommand]) (by simp [hcommand])
  next hcommand hphase hload =>
    exact hchanging hphase hload (by simp [hcommand]) (by simp [hcommand])
  next => exact .stays

/-- Everything a decision can do. -/
theorem Site.judge_outcome (hupdater : site.updaters pid = some updater) :
    UpdaterOutcome site event (site.judge pid updater) := by
  unfold Site.judge
  split
  next =>
    split_ifs
    · exact .moves pid updater _ hupdater False.elim (by simp) fun _ => trivial
    · exact .moves pid updater _ hupdater False.elim (by simp) fun _ => trivial
  next settings readAt hphase =>
    have hlock : updater.phase.HoldsLock := by
      rw [hphase]
      trivial
    split_ifs with hdue
    · apply UpdaterOutcome.moves pid updater _ hupdater (fun _ => hlock) (by simp)
      intro h
      obtain ⟨hcommand, hload, hread⟩ := h.of_phase hphase
      refine ⟨hload, hread, fun heq => ?_, fun _ => hdue⟩
      cases hcommand.symm.trans heq
    · exact .moves pid updater _ hupdater (fun _ => hlock) (by simp) fun _ => trivial
  next => exact .stays

/-- Everything an attempt to take the lock can do. -/
theorem Site.lock_outcome (hupdater : site.updaters pid = some updater) :
    UpdaterOutcome site event (site.lock pid updater) := by
  have hended : UpdaterOutcome site event (.silent, site.enter pid updater .ended) :=
    .moves pid updater _ hupdater False.elim (by simp) fun _ => trivial
  have htaken : ∀ hfree : site.holder = none, UpdaterOutcome site event
      (.silent, { site.enter pid updater .locked with holder := some pid }) :=
    fun hfree => .locks pid updater _ hupdater hfree (by simp) fun _ => trivial
  unfold Site.lock
  split
  case h_5 binary hcommand hphase =>
    split_ifs with hfree
    · apply UpdaterOutcome.locks pid updater _ hupdater hfree (by simp)
      intro h
      exact ⟨Or.inl hcommand, (h.of_phase hphase).2⟩
    · exact hended
  case h_6 => exact .stays
  all_goals
    split_ifs with hfree
    · exact htaken hfree
    · exact hended

/-- Everything a change can do. -/
theorem Site.change_outcome (hupdater : site.updaters pid = some updater) :
    UpdaterOutcome site event (site.change pid updater) := by
  unfold Site.change
  split
  next settings readAt hphase =>
    apply UpdaterOutcome.moves pid updater _ hupdater (fun _ => by rw [hphase]; trivial) (by simp)
    intro h
    obtain ⟨hload, hread, hcommand, hdue⟩ := h.of_phase hphase
    exact ⟨hread, hcommand, settings, hload, rfl, hdue⟩
  next => exact .stays

/-- Everything a save can do. -/
theorem Site.save_outcome (hupdater : site.updaters pid = some updater) (synced : Bool) :
    UpdaterOutcome site event (site.save pid updater synced) := by
  unfold Site.save
  split
  next hphase => exact .saves pid updater _ _ _ synced hupdater hphase
  next => exact .stays

/-- A release that is found is newer than the process. -/
theorem lt_of_newer {binary : Option Executable} {found : Executable}
    (h : updater.newer binary = some found) : updater.version < found.version := by
  obtain ⟨-, hlt⟩ := Option.filter_eq_some_iff.mp h
  exact of_decide_eq_true hlt

/-- Everything a check can do. -/
theorem Site.find_outcome (hupdater : site.updaters pid = some updater)
    (binary : Option Executable) :
    UpdaterOutcome site event (site.find pid updater binary) := by
  unfold Site.find
  split
  next checkedAt hcommand hphase =>
    apply UpdaterOutcome.checks pid updater checkedAt _ hupdater hcommand hphase
    · cases updater.newer binary <;> simp
    · intro h
      have hsettings : site.settings = .stored ⟨true, some checkedAt⟩ := h.of_phase hphase
      cases hfound : updater.newer binary with
      | none => trivial
      | some found =>
        exact ⟨Or.inr ⟨hcommand, _, by rw [hsettings]; rfl, rfl⟩, lt_of_newer hfound⟩
  next hcommand hphase =>
    cases hfound : updater.newer binary with
    | none => exact .moves pid updater _ hupdater False.elim (by simp) fun _ => trivial
    | some found =>
      apply UpdaterOutcome.moves pid updater _ hupdater False.elim (by simp)
      intro _
      exact ⟨hcommand, lt_of_newer hfound⟩
  next => exact .stays

/-- Everything a backup can do. -/
theorem Site.backUp_outcome (hupdater : site.updaters pid = some updater) (synced : Bool) :
    UpdaterOutcome site event (site.backUp pid updater synced) := by
  unfold Site.backUp
  split
  next hphase => exact .backsUp pid updater _ synced hupdater hphase
  next => exact .stays

/-- Everything a replacement can do. -/
theorem Site.swap_outcome (hupdater : site.updaters pid = some updater) (synced : Bool) :
    UpdaterOutcome site event (site.swap pid updater synced) := by
  unfold Site.swap
  split
  next hphase => exact .swaps pid updater _ synced hupdater hphase
  next => exact .stays

/-- Everything the write of a rollback can do. -/
theorem Site.restore_outcome (hupdater : site.updaters pid = some updater) (synced : Bool) :
    UpdaterOutcome site event (site.restore pid updater synced) := by
  unfold Site.restore
  split
  next hphase hbackup => exact .restores pid updater _ synced hupdater hphase
  next => exact .stays

/-- Everything a return can do. -/
theorem Site.leave_outcome (hupdater : site.updaters pid = some updater) :
    UpdaterOutcome site event (site.leave pid updater) := by
  unfold Site.leave
  refine .ends pid updater _ hupdater ?_
  split_ifs with hdone
  · exact Or.inr ⟨hdone, rfl⟩
  · exact Or.inl rfl

/-- Everything a step of a process can do, whether it has started or not. -/
theorem ofUpdater_outcome {step : Updater → UpdaterOutput × Site}
    (h : ∀ updater, site.updaters pid = some updater → UpdaterOutcome site event (step updater)) :
    UpdaterOutcome site event (ofUpdater site pid step) := by
  unfold ofUpdater
  split
  next updater hupdater => exact h updater hupdater
  next => exact .stays

end Outcomes

/-- Every step has one of these outcomes. -/
theorem updaterStep_outcome (site : Site) (event : UpdaterEvent) :
    UpdaterOutcome site event (updaterStep site event) := by
  cases event with
  | tick seconds => exact .ticks seconds
  | start pid command =>
    change UpdaterOutcome site (.start pid command) (site.startUpdater pid command)
    unfold Site.startUpdater
    split
    next hnew => exact .starts pid command hnew rfl
    next => exact .stays
  | load pid => exact ofUpdater_outcome fun _ h => Site.load_outcome h
  | judge pid => exact ofUpdater_outcome fun _ h => Site.judge_outcome h
  | lock pid => exact ofUpdater_outcome fun _ h => Site.lock_outcome h
  | change pid => exact ofUpdater_outcome fun _ h => Site.change_outcome h
  | save pid synced => exact ofUpdater_outcome fun _ h => Site.save_outcome h synced
  | find pid binary => exact ofUpdater_outcome fun _ h => Site.find_outcome h binary
  | backUp pid synced => exact ofUpdater_outcome fun _ h => Site.backUp_outcome h synced
  | swap pid synced => exact ofUpdater_outcome fun _ h => Site.swap_outcome h synced
  | restore pid synced => exact ofUpdater_outcome fun _ h => Site.restore_outcome h synced
  | leave pid => exact ofUpdater_outcome fun _ h => Site.leave_outcome h

/-! ### What every run keeps -/

/-- A process that is past the lock holds it, and what a process knows is true. -/
structure Consistent (site : Site) : Prop where
  /-- The lock is held by the process that is past it. -/
  holds : ∀ pid updater, site.updaters pid = some updater → updater.phase.HoldsLock →
    site.holder = some pid
  /-- What a process has read and found is true. -/
  knows : ∀ pid updater, site.updaters pid = some updater → site.Knows updater

/-- What a process in this phase knows is true. -/
theorem Consistent.knows_phase {site : Site} (h : Consistent site) {pid : ℕ} {updater : Updater}
    {phase : UpdaterPhase} (hupdater : site.updaters pid = some updater)
    (hphase : updater.phase = phase) : site.Knows { updater with phase } :=
  (h.knows pid updater hupdater).of_phase hphase

/-- No process has started. -/
def Site.Fresh (site : Site) : Prop := ∀ pid, site.updaters pid = none

/-- Before any process has started there is nothing to know. -/
theorem Site.Fresh.consistent {site : Site} (h : site.Fresh) : Consistent site where
  holds := fun pid updater hupdater => by rw [h pid] at hupdater; cases hupdater
  knows := fun pid updater hupdater => by rw [h pid] at hupdater; cases hupdater

/-- The processes and the lock after a step of one process. -/
structure Advances (site after : Site) (pid : ℕ) (updater : Updater) : Prop where
  /-- Only this process has changed. -/
  updaters : ∀ other, after.updaters other =
    if other = pid then some updater else site.updaters other
  /-- It holds the lock if it is past it. -/
  holder : updater.phase.HoldsLock → after.holder = some pid
  /-- Nobody else has lost the lock. -/
  others : ∀ other, other ≠ pid → site.holder = some other → after.holder = some other

namespace Consistent

variable {site after : Site} {pid : ℕ} {updater : Updater}

/-- A step of one process keeps consistency, if it leaves the files alone or the process holds the
lock. -/
theorem advance (h : Consistent site) (hadvances : Advances site after pid updater)
    (hknows : after.Knows updater)
    (hfiles : Site.SameFiles site after ∨ site.holder = some pid) : Consistent after where
  holds := fun other u hu hlock => by
    rw [hadvances.updaters] at hu
    split_ifs at hu with heq
    · obtain rfl := Option.some.inj hu
      rw [heq]
      exact hadvances.holder hlock
    · exact hadvances.others other heq (h.holds other u hu hlock)
  knows := fun other u hu => by
    rw [hadvances.updaters] at hu
    split_ifs at hu with heq
    · obtain rfl := Option.some.inj hu
      exact hknows
    · have hu' := h.knows other u hu
      rcases hfiles with hsame | hholder
      · exact hu'.of_sameFiles hsame
      · refine hu'.of_not_holdsLock after fun hlock => heq ?_
        exact Option.some.inj ((h.holds other u hu hlock).symm.trans hholder)

/-- A process that goes on and is not past the lock, unless it holds it. -/
theorem advances_enter {phase : UpdaterPhase} (hlock : phase.HoldsLock → site.holder = some pid) :
    Advances site (site.enter pid updater phase) pid { updater with phase } where
  updaters := Site.enter_updaters site pid updater phase
  holder := hlock
  others := fun _ _ hheld => hheld

/-- A process that takes the free lock. -/
theorem advances_lock {phase : UpdaterPhase} (hfree : site.holder = none) :
    Advances site { site.enter pid updater phase with holder := some pid } pid
      { updater with phase } where
  updaters := Site.enter_updaters site pid updater phase
  holder := fun _ => rfl
  others := fun other _ hheld => by
    rw [hfree] at hheld
    contradiction

/-- A process that ends. -/
theorem advances_finish :
    Advances site (site.finish pid updater) pid { updater with phase := .ended } where
  updaters := Site.enter_updaters site pid updater .ended
  holder := False.elim
  others := fun other hne hheld => by
    change (if site.holder = some pid then none else site.holder) = some other
    rw [if_neg, hheld]
    rw [hheld]
    intro heq
    exact hne (Option.some.inj heq)

/-- A process that goes on under the lock it holds may change the files. -/
theorem advance_of_holds (h : Consistent site) {phase : UpdaterPhase}
    (hupdater : site.updaters pid = some updater) (hlock : updater.phase.HoldsLock)
    (hholder : after.holder = site.holder)
    (hupdaters : after.updaters = (site.enter pid updater phase).updaters)
    (hknows : after.Knows { updater with phase }) : Consistent after := by
  have hheld : site.holder = some pid := h.holds pid updater hupdater hlock
  have hadvances : Advances site after pid { updater with phase } := by
    refine ⟨fun other => ?_, fun _ => hholder.trans hheld, fun _ _ h' => hholder.trans h'⟩
    rw [hupdaters, Site.enter_updaters]
  exact h.advance hadvances hknows (Or.inr hheld)

end Consistent

/-- The files are the same after a step that does not touch them. -/
theorem sameFiles_enter (site : Site) (pid : ℕ) (updater : Updater) (phase : UpdaterPhase) :
    Site.SameFiles site (site.enter pid updater phase) := ⟨rfl, rfl, rfl, rfl, le_rfl⟩

/-- What a process knows after it has saved the settings. -/
theorem knows_save {site : Site} {updater : Updater} {settings : UpdateSettings}
    {readAt changedAt : ℕ} (h : site.Knows updater)
    (hphase : updater.phase = .saving settings readAt changedAt) (pid : ℕ) (synced : Bool) :
    let phase := if synced then updater.command.afterSave changedAt else .leaving
    ((site.store settings).enter pid updater phase).Knows { updater with phase } := by
  rw [Site.Knows, hphase] at h
  cases synced with
  | false => trivial
  | true =>
    obtain ⟨command, version, phase⟩ := updater
    obtain ⟨-, hcommand, old, -, rfl, hdue⟩ := h
    cases command with
    | automatic =>
      change SettingsFile.stored { old with lastChecked := some changedAt } = _
      rw [(hdue rfl).1]
    | install => exact absurd rfl hcommand
    | enable => exact fun h => by rcases h with h | h <;> cases h
    | disable => exact fun _ => ⟨_, rfl, rfl⟩
    | rollback => exact ⟨rfl, _, rfl, rfl⟩

/-- Every step keeps consistency. -/
theorem consistent_step {site : Site} (h : Consistent site) (event : UpdaterEvent) :
    Consistent (updaterStep site event).2 := by
  have houtcome := updaterStep_outcome site event
  generalize updaterStep site event = result at houtcome
  cases houtcome with
  | stays => exact h
  | ticks seconds =>
    exact ⟨h.holds, fun pid updater hu =>
      (h.knows pid updater hu).of_sameFiles ⟨rfl, rfl, rfl, rfl, Nat.le_add_right _ _⟩⟩
  | starts pid command =>
    exact h.advance (Consistent.advances_enter fun hlock => hlock.elim) trivial
      (Or.inl (sameFiles_enter site pid _ _))
  | moves pid updater phase hupdater hlock _ hknows =>
    have hsame := sameFiles_enter site pid updater phase
    have hholder : phase.HoldsLock → site.holder = some pid :=
      fun hpast => h.holds pid updater hupdater (hlock hpast)
    exact h.advance (Consistent.advances_enter hholder)
      ((hknows (h.knows pid updater hupdater)).of_sameFiles hsame) (Or.inl hsame)
  | locks pid updater phase hupdater hfree _ hknows =>
    have hsame : Site.SameFiles site
        { site.enter pid updater phase with holder := some pid } := ⟨rfl, rfl, rfl, rfl, le_rfl⟩
    exact h.advance (Consistent.advances_lock hfree)
      ((hknows (h.knows pid updater hupdater)).of_sameFiles hsame) (Or.inl hsame)
  | saves pid updater settings readAt changedAt synced hupdater hphase =>
    have hlock : updater.phase.HoldsLock := by rw [hphase]; trivial
    exact h.advance_of_holds hupdater hlock rfl rfl
      (knows_save (h.knows pid updater hupdater) hphase pid synced)
  | checks pid updater checkedAt phase hupdater hcommand hphase _ hknows =>
    have hlock : updater.phase.HoldsLock := by rw [hphase]; trivial
    have hsame := sameFiles_enter site pid updater phase
    exact h.advance_of_holds hupdater hlock rfl rfl
      ((hknows (h.knows pid updater hupdater)).of_sameFiles hsame)
  | backsUp pid updater binary synced hupdater hphase =>
    have hlock : updater.phase.HoldsLock := by rw [hphase]; trivial
    obtain ⟨hinstalls, hnewer⟩ := h.knows_phase hupdater hphase
    refine h.advance_of_holds hupdater hlock rfl rfl ?_
    cases synced with
    | false => trivial
    | true => exact ⟨⟨hinstalls, hnewer⟩, rfl⟩
  | swaps pid updater binary synced hupdater hphase =>
    have hlock : updater.phase.HoldsLock := by rw [hphase]; trivial
    obtain ⟨hinstall, -⟩ := h.knows_phase hupdater hphase
    refine h.advance_of_holds hupdater hlock rfl rfl ?_
    cases synced with
    | false => trivial
    | true => exact fun hcommand => absurd hcommand hinstall.not_disables
  | restores pid updater binary synced hupdater hphase =>
    have hlock : updater.phase.HoldsLock := by rw [hphase]; trivial
    obtain ⟨-, hsays⟩ := h.knows_phase hupdater hphase
    refine h.advance_of_holds hupdater hlock rfl rfl ?_
    cases synced with
    | false => trivial
    | true => exact fun _ => hsays
  | ends pid updater output hupdater houtput =>
    exact h.advance Consistent.advances_finish trivial (Or.inl ⟨rfl, rfl, rfl, rfl, le_rfl⟩)

end Rcodex
