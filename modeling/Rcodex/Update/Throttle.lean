import Rcodex.Update.Processes

/-!
# Automatic updates at most once a day, and not while they are disabled

`Restrained` is what the processes of one installation promise about automatic updates: checks are
a day apart, there is none after `disable` or `rollback` until `enable`, no save of the settings
overwrites a change the process has not seen, and after a rollback the settings say disabled.

`Throttled` is the invariant behind it.  It relates the outputs so far to the settings file and to
the process that has recorded the time of its check and not made it yet.
-/

namespace Rcodex

open Json Machine

/-- `update enable` has written the settings. -/
def UpdaterOutput.Enables : UpdaterOutput → Prop
  | .writes .enable _ _ => True
  | _ => False

/-- `update disable` or `update rollback` has returned success, or a rollback has restored the
executable. -/
def UpdaterOutput.Disables : UpdaterOutput → Prop
  | .restores | .returns .disable | .returns .rollback => True
  | _ => False

/-- An automatic check or an automatic install. -/
def UpdaterOutput.Automatic : UpdaterOutput → Prop
  | .checks _ _ => True
  | .replaces replacement => replacement.command = .automatic
  | _ => False

/-- An automatic check whose time was recorded as this one. -/
def UpdaterOutput.ChecksAt (checkedAt : ℕ) (output : UpdaterOutput) : Prop :=
  ∃ pid, output = .checks pid checkedAt

/-- Another output is no check. -/
theorem UpdaterOutput.not_checksAt {output : UpdaterOutput}
    (h : ∀ pid checkedAt, output ≠ .checks pid checkedAt) (checkedAt : ℕ) :
    ¬output.ChecksAt checkedAt := by
  intro hchecks
  obtain ⟨pid, heq⟩ := hchecks
  exact h pid checkedAt heq

/-- What the processes promise about automatic updates. -/
structure Restrained (outputs : List UpdaterOutput) (site : Site) : Prop where
  /-- Two checks without an `enable` between them are a day apart. -/
  daily : ∀ before p first between q second after,
    outputs = before ++ .checks p first :: between ++ .checks q second :: after →
    (∀ output ∈ between, ¬output.Enables) → first + 86400 ≤ second
  /-- After `disable` or `rollback` nothing happens automatically until an `enable`. -/
  quiet : ∀ before disabling between output after,
    outputs = before ++ disabling :: between ++ output :: after → disabling.Disables →
    (∀ output ∈ between, ¬output.Enables) → ¬output.Automatic
  /-- No save overwrites a change made after the process has read the settings. -/
  current : ∀ command readAt writes, .writes command readAt writes ∈ outputs → readAt = writes
  /-- After `disable` or `rollback` the settings say disabled until an `enable`. -/
  disabled : ∀ before disabling after, outputs = before ++ disabling :: after →
    disabling.Disables → (∀ output ∈ after, ¬output.Enables) → site.Says false

/-- The settings record a check at this time or later. -/
def Site.CheckedSince (site : Site) (checkedAt : ℕ) : Prop :=
  ∃ settings last, site.settings.load = some settings ∧ settings.lastChecked = some last ∧
    checkedAt ≤ last

/-- The settings and the processes agree with the outputs so far. -/
structure Throttled (outputs : List UpdaterOutput) (site : Site) : Prop where
  /-- The processes know the files. -/
  consistent : Consistent site
  /-- The checks since the last `enable` are recorded. -/
  recorded : ∀ checkedAt, Since (UpdaterOutput.ChecksAt checkedAt) UpdaterOutput.Enables outputs →
    site.CheckedSince checkedAt
  /-- A process that has recorded its check is a day after them. -/
  apart : ∀ checkedAt, Since (UpdaterOutput.ChecksAt checkedAt) UpdaterOutput.Enables outputs →
    ∀ pid updater stampedAt, site.updaters pid = some updater →
      updater.phase = .stamped stampedAt → checkedAt + 86400 ≤ stampedAt
  /-- After `disable` or `rollback` the settings say disabled. -/
  muted : Since UpdaterOutput.Disables UpdaterOutput.Enables outputs → site.Says false

/-- Nothing is recorded before the first output. -/
theorem Site.Fresh.throttled {site : Site} (h : site.Fresh) : Throttled [] site where
  consistent := h.consistent
  recorded := fun _ hsince => absurd hsince not_since_nil
  apart := fun _ hsince => absurd hsince not_since_nil
  muted := fun hsince => absurd hsince not_since_nil

/-! ### What a save does to the settings -/

namespace UpdaterCommand

variable {command : UpdaterCommand} {old : UpdateSettings} {now last : ℕ}

/-- A check that is due is a day after the last one. -/
theorem day_le_of_due (hdue : old.Due now) (hlast : old.lastChecked = some last) :
    last + 86400 ≤ now := by
  have hday := hdue.2 last hlast
  omega

/-- Only `enable` forgets when a process last checked. -/
theorem newSettings_lastChecked (henable : command ≠ .enable)
    (hdue : command = .automatic → old.Due now) (hlast : old.lastChecked = some last) :
    ∃ later, (command.newSettings old now).lastChecked = some later ∧ last ≤ later := by
  cases command with
  | automatic => exact ⟨now, rfl, (Nat.le_add_right _ _).trans (day_le_of_due (hdue rfl) hlast)⟩
  | enable => exact absurd rfl henable
  | install | disable | rollback => exact ⟨last, hlast, le_rfl⟩

/-- Only `enable` enables automatic updates. -/
theorem newSettings_disabled (henable : command ≠ .enable)
    (hdue : command = .automatic → old.Due now) (hold : old.enabled = false) :
    (command.newSettings old now).enabled = false := by
  cases command with
  | automatic => simp [(hdue rfl).1] at hold
  | enable => exact absurd rfl henable
  | install | disable | rollback => rfl

/-- Only `automatic_update` goes on to a check. -/
theorem stamped_of_afterSave {synced : Bool} {changedAt stampedAt : ℕ}
    (h : (if synced then command.afterSave changedAt else .leaving) = .stamped stampedAt) :
    command = .automatic ∧ changedAt = stampedAt := by
  cases synced with
  | false => contradiction
  | true =>
    cases command with
    | automatic => exact ⟨rfl, by injection h⟩
    | _ => contradiction

/-- Only `disable` and `rollback` return with automatic updates disabled. -/
theorem disables_of_returns (h : (UpdaterOutput.returns command).Disables) :
    command = .disable ∨ command = .rollback := by
  cases command with
  | disable => exact Or.inl rfl
  | rollback => exact Or.inr rfl
  | automatic | install | enable => exact h.elim

end UpdaterCommand

/-- A process that goes on or leaves is not about to check, if it would not be after going on. -/
theorem UpdaterPhase.ite_ne_stamped (phase : UpdaterPhase)
    (hphase : ∀ checkedAt, phase ≠ .stamped checkedAt) (synced : Bool) (checkedAt : ℕ) :
    (if synced then phase else .leaving) ≠ .stamped checkedAt := by
  split_ifs
  · exact hphase checkedAt
  · simp

/-! ### What a step does to the promise -/

namespace Throttled

variable {outputs : List UpdaterOutput} {site after : Site} {output : UpdaterOutput} {pid : ℕ}
  {updater : Updater}

/-- A step that neither checks nor touches the settings. -/
theorem advance (h : Throttled outputs site) (hconsistent : Consistent after)
    (hsettings : after.settings = site.settings)
    (hchecks : ∀ pid checkedAt, output ≠ .checks pid checkedAt)
    (hdisables : output.Disables → site.Says false)
    (hstamped : ∀ pid updater stampedAt, after.updaters pid = some updater →
      updater.phase = .stamped stampedAt → site.updaters pid = some updater) :
    Throttled (outputs ++ [output]) after where
  consistent := hconsistent
  recorded := fun checkedAt hsince => by
    obtain ⟨settings, last, hload, hlast⟩ :=
      h.recorded _ (hsince.of_concat (UpdaterOutput.not_checksAt hchecks _))
    exact ⟨settings, last, by rw [hsettings, hload], hlast⟩
  apart := fun checkedAt hsince pid updater stampedAt hupdater hphase =>
    h.apart _ (hsince.of_concat (UpdaterOutput.not_checksAt hchecks _)) pid updater stampedAt
      (hstamped pid updater stampedAt hupdater hphase) hphase
  muted := fun hsince => by
    have hsays : site.Says false := (since_concat.mp hsince).elim hdisables fun h' => h.muted h'.1
    obtain ⟨settings, hload, henabled⟩ := hsays
    exact ⟨settings, by rw [hsettings, hload], henabled⟩

/-- A process that has recorded the time of its check is not the one that has just gone on. -/
theorem stamped_enter {phase : UpdaterPhase} (hstamped : ∀ checkedAt, phase ≠ .stamped checkedAt)
    {other : ℕ} {u : Updater} {stampedAt : ℕ}
    (hu : (site.enter pid updater phase).updaters other = some u)
    (hphase : u.phase = .stamped stampedAt) : other ≠ pid ∧ site.updaters other = some u := by
  rcases Site.enter_cases hu with ⟨-, rfl⟩ | hother
  · exact absurd hphase (hstamped stampedAt)
  · exact hother

/-- A process saves the settings. -/
theorem save (h : Throttled outputs site) {settings : UpdateSettings} {readAt changedAt : ℕ}
    (hupdater : site.updaters pid = some updater)
    (hphase : updater.phase = .saving settings readAt changedAt) (synced : Bool)
    (hconsistent : Consistent ((site.store settings).enter pid updater
      (if synced then updater.command.afterSave changedAt else .leaving))) :
    Throttled (outputs ++ [.writes updater.command readAt site.writes])
      ((site.store settings).enter pid updater
        (if synced then updater.command.afterSave changedAt else .leaving)) := by
  have hholder := h.consistent.holds pid updater hupdater (by rw [hphase]; trivial)
  obtain ⟨-, -, old, hload, hnew, hdue⟩ := h.consistent.knows_phase hupdater hphase
  obtain rfl : settings = updater.command.newSettings old changedAt := hnew
  have hchecks : ∀ checkedAt, ¬UpdaterOutput.ChecksAt checkedAt
      (.writes updater.command readAt site.writes) := UpdaterOutput.not_checksAt (by simp)
  have henable : ∀ {P : UpdaterOutput → Prop},
      ¬P (.writes updater.command readAt site.writes) →
      Since P UpdaterOutput.Enables (outputs ++ [.writes updater.command readAt site.writes]) →
        Since P UpdaterOutput.Enables outputs ∧ updater.command ≠ .enable := by
    intro P hP hsince
    obtain ⟨hsince, hwrites⟩ := (since_concat.mp hsince).resolve_left hP
    exact ⟨hsince, fun heq => hwrites (by rw [heq]; trivial)⟩
  refine ⟨hconsistent, fun checkedAt hsince => ?_,
    fun checkedAt hsince other u stampedAt hu hu' => ?_, fun hsince => ?_⟩
  · obtain ⟨hsince, hcommand⟩ := henable (hchecks _) hsince
    obtain ⟨_, last, hload', hlast, hle⟩ := h.recorded checkedAt hsince
    obtain rfl := Option.some.inj (hload.symm.trans hload')
    obtain ⟨later, hlater, hle'⟩ := UpdaterCommand.newSettings_lastChecked hcommand hdue hlast
    exact ⟨_, later, rfl, hlater, hle.trans hle'⟩
  · obtain ⟨hsince, -⟩ := henable (hchecks _) hsince
    obtain ⟨_, last, hload', hlast, hle⟩ := h.recorded checkedAt hsince
    obtain rfl := Option.some.inj (hload.symm.trans hload')
    rcases Site.enter_cases hu with ⟨-, rfl⟩ | ⟨hne, hu⟩
    · obtain ⟨hautomatic, rfl⟩ := UpdaterCommand.stamped_of_afterSave hu'
      have hday := UpdaterCommand.day_le_of_due (hdue hautomatic) hlast
      omega
    · -- Another process that is past the lock would hold it.
      have hother := h.consistent.holds other u hu (by rw [hu']; trivial)
      exact absurd (Option.some.inj (hother.symm.trans hholder)) hne
  · obtain ⟨hsince, hcommand⟩ := henable (P := UpdaterOutput.Disables) id hsince
    obtain ⟨_, hload', hold⟩ := h.muted hsince
    obtain rfl := Option.some.inj (hload.symm.trans hload')
    exact ⟨_, rfl, UpdaterCommand.newSettings_disabled hcommand hdue hold⟩

/-- A process makes the check whose time it has recorded. -/
theorem check (h : Throttled outputs site) {checkedAt : ℕ} {phase : UpdaterPhase}
    (hupdater : site.updaters pid = some updater) (hphase : updater.phase = .stamped checkedAt)
    (hstamped : ∀ stampedAt, phase ≠ .stamped stampedAt)
    (hconsistent : Consistent (site.enter pid updater phase)) :
    Throttled (outputs ++ [.checks pid checkedAt]) (site.enter pid updater phase) := by
  have hholder := h.consistent.holds pid updater hupdater (by rw [hphase]; trivial)
  have hsettings : site.settings = .stored ⟨true, some checkedAt⟩ :=
    h.consistent.knows_phase hupdater hphase
  refine ⟨hconsistent, fun earlier hsince => ?_, fun earlier _ other u stampedAt hu hu' => ?_,
    fun hsince => ?_⟩
  · rcases since_concat.mp hsince with ⟨other, heq⟩ | ⟨hsince, -⟩
    · cases heq
      exact ⟨_, checkedAt, congrArg SettingsFile.load hsettings, rfl, le_rfl⟩
    · exact h.recorded earlier hsince
  · -- A process that has recorded its check would hold the lock.
    obtain ⟨hne, hu⟩ := stamped_enter hstamped hu hu'
    have hother := h.consistent.holds other u hu (by rw [hu']; trivial)
    exact absurd (Option.some.inj (hother.symm.trans hholder)) hne
  · exact h.muted (hsince.of_concat id)

/-- A step that neither checks nor saves, of a process that is not about to check. -/
theorem enter (h : Throttled outputs site) {phase : UpdaterPhase}
    (hstamped : ∀ checkedAt, phase ≠ .stamped checkedAt) (hconsistent : Consistent after)
    (hsettings : after.settings = site.settings)
    (hupdaters : after.updaters = (site.enter pid updater phase).updaters)
    (hchecks : ∀ pid checkedAt, output ≠ .checks pid checkedAt)
    (hdisables : output.Disables → site.Says false) : Throttled (outputs ++ [output]) after := by
  apply h.advance hconsistent hsettings hchecks hdisables
  intro other u stampedAt hu hu'
  rw [hupdaters] at hu
  exact (stamped_enter hstamped hu hu').2

/-- A step of a process that is not about to check, and nothing is put out. -/
theorem enter_silent (h : Throttled outputs site) {phase : UpdaterPhase}
    (hstamped : ∀ checkedAt, phase ≠ .stamped checkedAt) (hconsistent : Consistent after)
    (hsettings : after.settings = site.settings)
    (hupdaters : after.updaters = (site.enter pid updater phase).updaters) :
    Throttled (outputs ++ [.silent]) after :=
  h.enter hstamped hconsistent hsettings hupdaters (by simp) False.elim

end Throttled

/-- What a step may put out after these outputs. -/
structure Permitted (outputs : List UpdaterOutput) (output : UpdaterOutput) : Prop where
  /-- A check is a day after those since the last `enable`. -/
  daily : ∀ first second, Since (UpdaterOutput.ChecksAt first) UpdaterOutput.Enables outputs →
    output.ChecksAt second → first + 86400 ≤ second
  /-- Nothing happens automatically after `disable` or `rollback`. -/
  quiet : Since UpdaterOutput.Disables UpdaterOutput.Enables outputs → ¬output.Automatic
  /-- A save overwrites what the process has read. -/
  current : ∀ command readAt writes, output = .writes command readAt writes → readAt = writes

/-- Outputs that are neither automatic nor saves are permitted. -/
theorem Permitted.of_not_automatic {outputs : List UpdaterOutput} {output : UpdaterOutput}
    (hautomatic : ¬output.Automatic)
    (hwrites : ∀ command readAt writes, output ≠ .writes command readAt writes) :
    Permitted outputs output where
  daily := by
    intro first second _ h
    obtain ⟨pid, rfl⟩ := h
    exact absurd trivial hautomatic
  quiet := fun _ => hautomatic
  current := fun command readAt writes heq => absurd heq (hwrites command readAt writes)

/-- The settings cannot say both. -/
theorem Site.Says.not_false {site : Site} (h : site.Says true) : ¬site.Says false := by
  intro hdisabled
  obtain ⟨settings, hload, hfalse⟩ := hdisabled
  obtain ⟨settings', hload', htrue⟩ := h
  obtain rfl := Option.some.inj (hload.symm.trans hload')
  simp [htrue] at hfalse

namespace Throttled

variable {outputs : List UpdaterOutput} {site : Site} {pid : ℕ} {updater : Updater}

/-- A save overwrites what the process has read. -/
theorem permitted_save (h : Throttled outputs site) {settings : UpdateSettings}
    {readAt changedAt : ℕ} (hupdater : site.updaters pid = some updater)
    (hphase : updater.phase = .saving settings readAt changedAt) :
    Permitted outputs (.writes updater.command readAt site.writes) := by
  obtain ⟨hread, -⟩ := h.consistent.knows_phase hupdater hphase
  refine ⟨fun _ second _ hcheck => ?_, fun _ => id, fun command readAt' writes heq => ?_⟩
  · exact absurd hcheck (UpdaterOutput.not_checksAt (by simp) second)
  · obtain ⟨-, rfl, rfl⟩ := UpdaterOutput.writes.inj heq
    exact hread

/-- A check is a day after the ones before, and the settings it has recorded say enabled. -/
theorem permitted_check (h : Throttled outputs site) {checkedAt : ℕ}
    (hupdater : site.updaters pid = some updater) (hphase : updater.phase = .stamped checkedAt) :
    Permitted outputs (.checks pid checkedAt) := by
  refine ⟨?_, fun hmuted => ?_, by simp⟩
  · intro first second hsince hcheck
    obtain ⟨other, heq⟩ := hcheck
    obtain ⟨-, rfl⟩ := UpdaterOutput.checks.inj heq
    exact h.apart first hsince pid updater checkedAt hupdater hphase
  · have hsettings : site.settings = .stored ⟨true, some checkedAt⟩ :=
      h.consistent.knows_phase hupdater hphase
    have hsays : site.Says true := ⟨_, congrArg SettingsFile.load hsettings, rfl⟩
    exact absurd (h.muted hmuted) hsays.not_false

/-- An automatic install finds settings that say enabled. -/
theorem permitted_swap (h : Throttled outputs site) {binary old : Executable}
    {backup : Option Executable} (hupdater : site.updaters pid = some updater)
    (hphase : updater.phase = .backedUp binary) :
    Permitted outputs (.replaces ⟨pid, updater.command, old, binary, backup⟩) := by
  refine ⟨fun _ second _ hcheck => ?_, fun hmuted hautomatic => ?_, by simp⟩
  · exact absurd hcheck (UpdaterOutput.not_checksAt (by simp) second)
  · obtain ⟨hinstall, -⟩ := h.consistent.knows_phase hupdater hphase
    rcases hinstall.installs with hcommand | ⟨-, hsays⟩
    · cases hcommand.symm.trans hautomatic
    · exact hsays.not_false (h.muted hmuted)

end Throttled

/-- Every step keeps the invariant and is permitted. -/
theorem throttled_step {outputs : List UpdaterOutput} {site : Site} (h : Throttled outputs site)
    (event : UpdaterEvent) :
    Throttled (outputs ++ [(updaterStep site event).1]) (updaterStep site event).2 ∧
      Permitted outputs (updaterStep site event).1 := by
  have hconsistent := consistent_step h.consistent event
  have houtcome := updaterStep_outcome site event
  generalize updaterStep site event = result at houtcome hconsistent
  have hsilent : Permitted outputs .silent := .of_not_automatic id (by simp)
  cases houtcome with
  | stays | ticks =>
    exact ⟨h.advance hconsistent rfl (by simp) False.elim fun _ _ _ hu _ => hu, hsilent⟩
  | starts pid command =>
    exact ⟨h.enter (by simp) hconsistent rfl rfl (by simp) False.elim,
      .of_not_automatic id (by simp)⟩
  | moves pid updater phase hupdater hlock hstamped =>
    exact ⟨h.enter_silent hstamped hconsistent rfl rfl, hsilent⟩
  | locks pid updater phase hupdater hfree hstamped =>
    exact ⟨h.enter_silent hstamped hconsistent rfl rfl, hsilent⟩
  | saves pid updater settings readAt changedAt synced hupdater hphase =>
    exact ⟨h.save hupdater hphase synced hconsistent, h.permitted_save hupdater hphase⟩
  | checks pid updater checkedAt phase hupdater hcommand hphase hstamped =>
    exact ⟨h.check hupdater hphase hstamped hconsistent, h.permitted_check hupdater hphase⟩
  | backsUp pid updater binary synced hupdater hphase =>
    have hstamped := UpdaterPhase.ite_ne_stamped (.backedUp binary) (by simp) synced
    exact ⟨h.enter_silent hstamped hconsistent rfl rfl, hsilent⟩
  | swaps pid updater binary synced hupdater hphase =>
    have hstamped := UpdaterPhase.ite_ne_stamped .done (by simp) synced
    exact ⟨h.enter hstamped hconsistent rfl rfl (by simp) False.elim,
      h.permitted_swap hupdater hphase⟩
  | restores pid updater binary synced hupdater hphase =>
    obtain ⟨-, hsays⟩ := h.consistent.knows_phase hupdater hphase
    have hstamped := UpdaterPhase.ite_ne_stamped .done (by simp) synced
    exact ⟨h.enter hstamped hconsistent rfl rfl (by simp) fun _ => hsays,
      .of_not_automatic id (by simp)⟩
  | ends pid updater output hupdater houtput =>
    rcases houtput with rfl | ⟨hdone, rfl⟩
    · exact ⟨h.enter_silent (by simp) hconsistent rfl rfl, hsilent⟩
    · refine ⟨h.enter (by simp) hconsistent rfl rfl (by simp) ?_, .of_not_automatic id (by simp)⟩
      intro hdisables
      exact h.consistent.knows_phase hupdater hdone
        (UpdaterCommand.disables_of_returns hdisables)

/-- Every run keeps the invariant, and every step of it is permitted. -/
theorem throttled_run {site : Site} (h : site.Fresh) (events : List UpdaterEvent) :
    Throttled (outputs updaterStep site events) (final updaterStep site events) ∧
      ∀ before output after, outputs updaterStep site events = before ++ output :: after →
        Permitted before output :=
  outputs_induction updaterStep h.throttled events fun _ _ event _ hthrottled =>
    throttled_step hthrottled event

/-- However the processes of one installation interleave, fail and are cancelled, automatic
updates are restrained. -/
theorem restrained_run (site : Site) (h : site.Fresh) (events : List UpdaterEvent) :
    Restrained (outputs updaterStep site events) (final updaterStep site events) := by
  obtain ⟨hthrottled, hpermitted⟩ := throttled_run h events
  refine ⟨fun before p first between q second after heq hbetween => ?_,
    fun before disabling between output after heq hdisables hbetween => ?_,
    fun command readAt writes hmem => ?_, fun before disabling after heq hdisables hafter => ?_⟩
  · have hcheck := hpermitted (before ++ .checks p first :: between) (.checks q second) after
      (by simpa using heq)
    exact hcheck.daily first second ⟨before, _, between, rfl, ⟨p, rfl⟩, hbetween⟩ ⟨q, rfl⟩
  · have houtput := hpermitted (before ++ disabling :: between) output after (by simpa using heq)
    exact houtput.quiet ⟨before, disabling, between, rfl, hdisables, hbetween⟩
  · obtain ⟨before, after, heq⟩ := List.append_of_mem hmem
    exact (hpermitted before _ after heq).current command readAt writes rfl
  · exact hthrottled.muted ⟨before, disabling, after, heq, hdisables, hafter⟩

/-- An installation whose automatic updates have just been enabled. -/
def enabledSite : Site where
  executable := ⟨⟨0, 1, 0⟩, []⟩
  backup := none
  settings := .stored ⟨true, none⟩
  writes := 0
  holder := none
  clock := 0
  updaters := fun _ => none

/-- `automatic_update` from start to end, without a new release. -/
def automaticUpdate (pid : ℕ) : List UpdaterEvent :=
  [.start pid .automatic, .load pid, .judge pid, .lock pid, .load pid, .judge pid, .change pid,
    .save pid true, .find pid none, .leave pid]

/-- `update disable` from start to end. -/
def disableUpdates (pid : ℕ) : List UpdaterEvent :=
  [.start pid .disable, .lock pid, .load pid, .change pid, .save pid true, .leave pid]

/-- Two checks a day apart, and none after `update disable`. -/
theorem restrained_run_disabled :
    Restrained
      (outputs updaterStep enabledSite (automaticUpdate 1 ++ .tick 86400 :: automaticUpdate 2 ++
        disableUpdates 3 ++ .tick 86400 :: automaticUpdate 4))
      (final updaterStep enabledSite (automaticUpdate 1 ++ .tick 86400 :: automaticUpdate 2 ++
        disableUpdates 3 ++ .tick 86400 :: automaticUpdate 4)) ∧
    (outputs updaterStep enabledSite (automaticUpdate 1 ++ .tick 86400 :: automaticUpdate 2 ++
      disableUpdates 3 ++ .tick 86400 :: automaticUpdate 4)).filter (· ≠ .silent) =
      [.starts 1, .writes .automatic 0 0, .checks 1 0, .starts 2, .writes .automatic 1 1,
        .checks 2 86400, .starts 3, .writes .disable 2 2, .returns .disable, .starts 4] :=
  ⟨restrained_run enabledSite (fun _ => rfl) _, by decide⟩

end Rcodex
