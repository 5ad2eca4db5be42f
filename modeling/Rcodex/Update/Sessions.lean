import Rcodex.Update.Processes
import Rcodex.Foundation.Guarding

/-!
# Sessions and updates

A terminal or broker session shares the lock of the installation as long as it runs; a terminal
looks for an update first, and shares the lock only when this check has ended.  `sharedStep` extends
the processes of `updaterStep` by sessions: an attempt to take the lock fails while a session runs,
and a session starts only while no process holds the lock.

`session_protects` says that neither the executable nor its backup nor the settings change while a
session runs, whatever processes are started meanwhile.
-/

namespace Rcodex

/-- The installation with the sessions that run. -/
structure SharedSite where
  /-- The files and the processes. -/
  site : Site
  /-- The sessions, which share the lock. -/
  sessions : Finset ℕ

/-- A step of a process or of a session. -/
inductive SessionEvent where
  /-- A step of a process, or time that passes. -/
  | updater (event : UpdaterEvent)
  /-- A session starts; a terminal has run its update check as this process. -/
  | enter (sid : ℕ) (check : Option ℕ)
  /-- A session ends. -/
  | exit (sid : ℕ)

/-- What a step does. -/
inductive SessionOutput where
  | updater (output : UpdaterOutput)
  | enters (sid : ℕ)
  | refuses (sid : ℕ)
  | exits (sid : ℕ)
deriving DecidableEq

namespace SharedSite

/-- The files and processes have gone on. -/
def goOn (s : SharedSite) (result : UpdaterOutput × Site) : SessionOutput × SharedSite :=
  (.updater result.1, { s with site := result.2 })

/-- A process tries to take the lock; while a session runs, this fails as if another process held
the lock. -/
def lock (s : SharedSite) (pid : ℕ) (updater : Updater) : UpdaterOutput × Site :=
  if s.sessions = ∅ then s.site.lock pid updater
  else
    let taken : Site := { s.site with holder := some pid }
    let result := taken.lock pid updater
    (result.1, { result.2 with holder := s.site.holder })

/-- The update check of a terminal has ended. -/
def checkEnded (s : SharedSite) : Option ℕ → Bool
  | none => true
  | some pid => (s.site.updaters pid).any fun updater => updater.phase = .ended

/-- `Installation::lock` with `exclusive` unset -/
def enter (s : SharedSite) (sid : ℕ) (check : Option ℕ) : SessionOutput × SharedSite :=
  if s.site.holder = none ∧ s.checkEnded check = true then
    (.enters sid, { s with sessions := insert sid s.sessions })
  else (.refuses sid, s)

end SharedSite

/-- One step of the processes and sessions. -/
def sharedStep (s : SharedSite) : SessionEvent → SessionOutput × SharedSite
  | .updater (.lock pid) => s.goOn (ofUpdater s.site pid fun updater => s.lock pid updater)
  | .updater event => s.goOn (updaterStep s.site event)
  | .enter sid check => s.enter sid check
  | .exit sid => (.exits sid, { s with sessions := s.sessions.erase sid })

/-! ### Every run is one without sessions -/

section Step

variable {s : SharedSite} {pid : ℕ} {updater : Updater} {event : UpdaterEvent}

/-- A process that finds the lock taken ends, or it was not going to take it. -/
theorem Site.lock_of_taken {site : Site} (h : site.holder ≠ none) :
    site.lock pid updater = (.silent, site.enter pid updater .ended) ∧ updater.phase ≠ .done ∨
      site.lock pid updater = (.silent, site) := by
  unfold Site.lock
  split
  case h_6 => exact Or.inr rfl
  case h_1 | h_2 | h_3 | h_4 | h_5 =>
    rename_i hphase
    rw [if_neg h, hphase]
    exact Or.inl ⟨rfl, by simp⟩

/-- An attempt to take the lock while a session runs is a return of the process, or nothing. -/
theorem SharedSite.lock_eq (hsessions : s.sessions ≠ ∅) (hfree : s.site.holder = none) :
    s.lock pid updater = s.site.leave pid updater ∨ s.lock pid updater = (.silent, s.site) := by
  have htaken : ({ s.site with holder := some pid } : Site).holder ≠ none :=
    Option.some_ne_none pid
  rw [SharedSite.lock, if_neg hsessions]
  dsimp only
  obtain ⟨hended, hphase⟩ | hstays := @Site.lock_of_taken pid updater _ htaken
  · refine Or.inl ?_
    rw [hended, Site.leave, if_neg hphase, Site.finish, hfree,
      if_neg (Option.some_ne_none pid).symm]
    rfl
  · refine Or.inr ?_
    rw [hstays]

/-- An attempt to take the lock is a step of `updaterStep`; while a session runs it is one that does
not take it. -/
theorem SharedSite.exists_lock (h : s.sessions.Nonempty → s.site.holder = none) :
    ∃ given, ofUpdater s.site pid (fun updater => s.lock pid updater) =
      updaterStep s.site given ∧ (s.sessions.Nonempty → ∀ other, given ≠ .lock other) := by
  by_cases hsessions : s.sessions = ∅
  · refine ⟨.lock pid, ?_, fun hsome => absurd hsessions hsome.ne_empty⟩
    simp only [SharedSite.lock, if_pos hsessions]
    rfl
  have hidle : (UpdaterOutput.silent, s.site) = updaterStep s.site (.tick 0) := rfl
  cases hupdater : s.site.updaters pid with
  | none =>
    refine ⟨.tick 0, ?_, fun _ other => by simp⟩
    rw [ofUpdater, hupdater]
    exact hidle
  | some updater =>
    have hstep : ∀ step : Updater → UpdaterOutput × Site,
        ofUpdater s.site pid step = step updater := by
      intro step
      rw [ofUpdater, hupdater]
    obtain hleave | hstays := @SharedSite.lock_eq s pid updater hsessions
      (h (Finset.nonempty_iff_ne_empty.mpr hsessions))
    · refine ⟨.leave pid, ?_, fun _ other => by simp⟩
      rw [hstep, hleave, updaterStep, hstep]
    · refine ⟨.tick 0, ?_, fun _ other => by simp⟩
      rw [hstep, hstays]
      exact hidle

/-- A step that is no attempt to take the lock does not take it. -/
theorem holder_of_not_lock (site : Site) (h : ∀ pid, event ≠ .lock pid) :
    (updaterStep site event).2.holder = site.holder ∨
      (updaterStep site event).2.holder = none := by
  have hupdater : ∀ {pid : ℕ} {step : Updater → UpdaterOutput × Site},
      (∀ updater, (step updater).2.holder = site.holder) →
      (ofUpdater site pid step).2.holder = site.holder := by
    intro pid step hstep
    unfold ofUpdater
    split
    · exact hstep _
    · rfl
  cases event with
  | tick seconds => exact Or.inl rfl
  | start pid command =>
    refine Or.inl ?_
    change (site.startUpdater pid command).2.holder = site.holder
    unfold Site.startUpdater
    split <;> rfl
  | load pid => exact Or.inl (hupdater fun updater => by unfold Site.load; split <;> rfl)
  | judge pid => exact Or.inl (hupdater fun updater => by unfold Site.judge; split <;> rfl)
  | lock pid => exact absurd rfl (h pid)
  | change pid => exact Or.inl (hupdater fun updater => by unfold Site.change; split <;> rfl)
  | save pid synced => exact Or.inl (hupdater fun updater => by unfold Site.save; split <;> rfl)
  | find pid binary => exact Or.inl (hupdater fun updater => by unfold Site.find; split <;> rfl)
  | backUp pid synced => exact Or.inl (hupdater fun updater => by unfold Site.backUp; split <;> rfl)
  | swap pid synced => exact Or.inl (hupdater fun updater => by unfold Site.swap; split <;> rfl)
  | restore pid synced =>
    exact Or.inl (hupdater fun updater => by unfold Site.restore; split <;> rfl)
  | leave pid =>
    change (ofUpdater site pid _).2.holder = _ ∨ (ofUpdater site pid _).2.holder = _
    unfold ofUpdater
    split
    next updater hupdater' =>
      change (if site.holder = some pid then none else site.holder) = _ ∨
        (if site.holder = some pid then none else site.holder) = _
      split_ifs
      · exact Or.inr rfl
      · exact Or.inl rfl
    next => exact Or.inl rfl

/-- Everything a step can do. -/
inductive SessionOutcome (s : SharedSite) (event : SessionEvent) :
    SessionOutput × SharedSite → Prop
  /-- A process goes on; while a session runs it does not take the lock. -/
  | updater (given : UpdaterEvent)
      (hlock : s.sessions.Nonempty → ∀ pid, given ≠ .lock pid) :
    SessionOutcome s event (s.goOn (updaterStep s.site given))
  /-- A session starts. -/
  | enters (sid : ℕ) (hfree : s.site.holder = none) :
    SessionOutcome s event (.enters sid, { s with sessions := insert sid s.sessions })
  /-- A session does not start. -/
  | refuses (sid : ℕ) : SessionOutcome s event (.refuses sid, s)
  /-- A session ends. -/
  | exits (sid : ℕ) (hevent : event = .exit sid) :
    SessionOutcome s event (.exits sid, { s with sessions := s.sessions.erase sid })

/-- Every step has one of these outcomes. -/
theorem sharedStep_outcome (h : s.sessions.Nonempty → s.site.holder = none)
    (event : SessionEvent) : SessionOutcome s event (sharedStep s event) := by
  cases event with
  | updater step =>
    by_cases hlock : ∃ pid, step = .lock pid
    · obtain ⟨pid, rfl⟩ := hlock
      obtain ⟨given, heq, hgiven⟩ := @SharedSite.exists_lock s pid h
      rw [sharedStep, heq]
      exact .updater given hgiven
    · have hnot : ∀ pid, step ≠ .lock pid := fun pid heq => hlock ⟨pid, heq⟩
      have hstep : sharedStep s (.updater step) = s.goOn (updaterStep s.site step) := by
        cases step with
        | lock pid => exact absurd rfl (hnot pid)
        | _ => rfl
      rw [hstep]
      exact .updater step fun _ => hnot
  | enter sid check =>
    change SessionOutcome s _ (s.enter sid check)
    unfold SharedSite.enter
    split_ifs with henter
    · exact .enters sid henter.1
    · exact .refuses sid
  | exit sid => exact .exits sid rfl

end Step

/-! ### What every run keeps -/

/-- What the processes know is true, and the lock is not held alone while a session runs. -/
structure SharedSite.Sound (s : SharedSite) : Prop where
  /-- The processes. -/
  consistent : Consistent s.site
  /-- The lock. -/
  holder : s.sessions.Nonempty → s.site.holder = none

/-- Every step keeps this. -/
theorem SharedSite.Sound.step {s : SharedSite} (h : s.Sound) (event : SessionEvent) :
    (sharedStep s event).2.Sound := by
  have houtcome := sharedStep_outcome h.holder event
  generalize sharedStep s event = result at houtcome
  cases houtcome with
  | updater given hlock =>
    refine ⟨consistent_step h.consistent given, fun hsessions => ?_⟩
    obtain hsame | hnone := holder_of_not_lock s.site (hlock hsessions)
    · exact hsame.trans (h.holder hsessions)
    · exact hnone
  | enters sid hfree => exact ⟨h.consistent, fun _ => hfree⟩
  | refuses sid => exact h
  | exits sid =>
    exact ⟨h.consistent, fun hsessions => h.holder (hsessions.mono (Finset.erase_subset _ _))⟩

/-- The files of the installation. -/
def Site.files (site : Site) : Executable × Option Executable × SettingsFile × ℕ :=
  (site.executable, site.backup, site.settings, site.writes)

/-- A process changes the files only if it is past the lock. -/
theorem files_updaterStep {site : Site} (event : UpdaterEvent)
    (hlock : ∀ pid updater, site.updaters pid = some updater → ¬updater.phase.HoldsLock) :
    (updaterStep site event).2.files = site.files := by
  have houtcome := updaterStep_outcome site event
  have hpast : ∀ {pid updater} {phase : UpdaterPhase}, site.updaters pid = some updater →
      updater.phase = phase → phase.HoldsLock → False :=
    fun hupdater hphase hholds => hlock _ _ hupdater (hphase ▸ hholds)
  generalize updaterStep site event = result at houtcome
  cases houtcome with
  | saves pid updater settings readAt changedAt synced hupdater hphase =>
    exact (hpast hupdater hphase trivial).elim
  | backsUp pid updater binary synced hupdater hphase =>
    exact (hpast hupdater hphase trivial).elim
  | swaps pid updater binary synced hupdater hphase =>
    exact (hpast hupdater hphase trivial).elim
  | restores pid updater binary synced hupdater hphase =>
    exact (hpast hupdater hphase trivial).elim
  | _ => rfl

/-- No process is past the lock while nobody holds it. -/
theorem SharedSite.Sound.not_holdsLock {s : SharedSite} (h : s.Sound)
    (hfree : s.site.holder = none) {pid : ℕ} {updater : Updater}
    (hupdater : s.site.updaters pid = some updater) : ¬updater.phase.HoldsLock := by
  intro hlock
  have hheld := h.consistent.holds pid updater hupdater hlock
  rw [hfree] at hheld
  contradiction

/-- The files are guarded by the lock. -/
theorem files_guarded : Guarding.Guarded sharedStep SharedSite.Sound SharedSite.sessions
    (fun s => s.site.holder ≠ none) fun s => s.site.files where
  good_step := fun _ event h => h.step event
  not_alone := fun _ sid h hsid => not_not.mpr (h.holder ⟨sid, hsid⟩)
  resource_step := fun s event h hfree => by
    have houtcome := sharedStep_outcome h.holder event
    generalize sharedStep s event = result at houtcome
    cases houtcome with
    | updater given =>
      exact files_updaterStep given fun pid updater => h.not_holdsLock (not_not.mp hfree)
    | _ => rfl

/-! ### Runs with sessions -/

/-- What a step of a process has put out. -/
def SessionOutput.ofUpdater : SessionOutput → Option UpdaterOutput
  | .updater output => some output
  | _ => none

/-- A run with sessions is a run of the processes alone, with the same outputs and files. -/
theorem exists_updater_run {s : SharedSite} (h : s.Sound) (events : List SessionEvent) :
    ∃ given, Machine.final updaterStep s.site given = (Machine.final sharedStep s events).site ∧
      Machine.outputs updaterStep s.site given =
        (Machine.outputs sharedStep s events).filterMap SessionOutput.ofUpdater := by
  induction events generalizing s with
  | nil => exact ⟨[], rfl, rfl⟩
  | cons event events ih =>
    obtain ⟨given, hfinal, houtputs⟩ := ih (h.step event)
    have houtcome := sharedStep_outcome h.holder event
    rw [Machine.final_cons, Machine.outputs_cons]
    generalize sharedStep s event = result at houtcome hfinal houtputs ⊢
    cases houtcome with
    | updater first _ => exact ⟨first :: given, hfinal, congrArg (_ :: ·) houtputs⟩
    | enters sid _ => exact ⟨given, hfinal, houtputs⟩
    | refuses sid => exact ⟨given, hfinal, houtputs⟩
    | exits sid _ => exact ⟨given, hfinal, houtputs⟩

/-- A process that is refused the lock while a session runs, and one that takes it after the session
has ended, as a run of the processes alone. -/
theorem exists_updater_run_install :
    let s : SharedSite :=
      ⟨⟨⟨⟨0, 1, 0⟩, [1]⟩, none, .missing, 0, none, 0, fun _ => none⟩, {1}⟩
    let events : List SessionEvent := [.updater (.start 7 .install),
      .updater (.find 7 (some ⟨⟨0, 2, 0⟩, [2]⟩)), .updater (.start 8 .install),
      .updater (.find 8 (some ⟨⟨0, 2, 0⟩, [2]⟩)), .updater (.lock 8), .exit 1, .updater (.lock 7),
      .updater (.backUp 7 true), .updater (.swap 7 true)]
    ((Machine.final sharedStep s events).site.updaters 8).map Updater.phase = some .ended ∧
      (Machine.final sharedStep s events).site.executable = ⟨⟨0, 2, 0⟩, [2]⟩ ∧
      ∃ given, Machine.final updaterStep s.site given =
          (Machine.final sharedStep s events).site ∧
        Machine.outputs updaterStep s.site given =
          (Machine.outputs sharedStep s events).filterMap SessionOutput.ofUpdater := by
  intro s events
  exact ⟨rfl, rfl, exists_updater_run ⟨Site.Fresh.consistent fun _ => rfl, fun _ => rfl⟩ events⟩

/-- A session that has started runs until it ends. -/
theorem mem_sessions_final {s : SharedSite} (h : s.Sound) {sid : ℕ} (hsid : sid ∈ s.sessions)
    {events : List SessionEvent} (hexit : .exit sid ∉ events) :
    sid ∈ (Machine.final sharedStep s events).sessions := by
  induction events generalizing s with
  | nil => exact hsid
  | cons event events ih =>
    obtain ⟨hfirst, hrest⟩ := not_or.mp (List.mem_cons.not.mp hexit)
    have hstep : sid ∈ (sharedStep s event).2.sessions := by
      have houtcome := sharedStep_outcome h.holder event
      generalize sharedStep s event = result at houtcome
      cases houtcome with
      | updater given hlock => exact hsid
      | enters other hfree => exact Finset.mem_insert_of_mem hsid
      | refuses other => exact hsid
      | exits other hevent =>
        have hne : sid ≠ other := fun heq => hfirst (by rw [hevent, heq])
        exact Finset.mem_erase.mpr ⟨hne, hsid⟩
    exact ih (h.step event) hstep hrest

/-- What started as a session is one afterwards. -/
theorem mem_sessions_enter {s : SharedSite} {sid : ℕ} {check : Option ℕ}
    (h : (sharedStep s (.enter sid check)).1 = .enters sid) :
    sid ∈ (sharedStep s (.enter sid check)).2.sessions := by
  change (s.enter sid check).1 = _ at h
  change sid ∈ (s.enter sid check).2.sessions
  unfold SharedSite.enter at h ⊢
  split_ifs at h ⊢ with henter
  exact Finset.mem_insert_self sid s.sessions

/-- From the time a session starts until it ends, the executable, the backup and the settings stay
as they are and no process holds the lock, whatever the processes and the other sessions do. -/
theorem session_protects (site : Site) (hfresh : site.Fresh) (before during : List SessionEvent)
    (sid : ℕ) (check : Option ℕ)
    (hstarts : (sharedStep (Machine.final sharedStep ⟨site, ∅⟩ before) (.enter sid check)).1 =
      .enters sid)
    (hruns : .exit sid ∉ during) :
    let started := Machine.final sharedStep ⟨site, ∅⟩ (before ++ [.enter sid check])
    let last := Machine.final sharedStep started during
    last.site.files = started.site.files ∧ last.site.holder = none ∧
      ∀ pid updater, last.site.updaters pid = some updater → ¬updater.phase.HoldsLock := by
  intro started last
  have hfirst : SharedSite.Sound ⟨site, ∅⟩ := ⟨hfresh.consistent, fun h => by simp at h⟩
  have hsound : ∀ {s : SharedSite}, s.Sound → ∀ events, (Machine.final sharedStep s events).Sound :=
    fun h => Machine.final_induction sharedStep (fun _ event hs => hs.step event) h
  have hstarted : started.Sound := hsound hfirst _
  have hsid : sid ∈ started.sessions := by
    have hmem := mem_sessions_enter hstarts
    rw [← Machine.final_concat] at hmem
    exact hmem
  have hheld : ∀ pre post, during = pre ++ post →
      sid ∈ (Machine.final sharedStep started pre).sessions := by
    intro pre post heq
    have hexit : .exit sid ∉ pre := fun hpre => hruns (heq ▸ List.mem_append_left post hpre)
    exact mem_sessions_final hstarted hsid hexit
  obtain ⟨hfiles, hfree⟩ := files_guarded.resource_final hstarted during hheld
  have hnone : last.site.holder = none := not_not.mp hfree
  exact ⟨hfiles, hnone, fun pid updater => (hsound hstarted during).not_holdsLock hnone⟩

/-- While a session runs, another process finds an update but cannot take the lock. -/
theorem session_protects_install :
    let site : Site := ⟨⟨⟨0, 1, 0⟩, [1]⟩, none, .missing, 0, none, 0, fun _ => none⟩
    let during : List SessionEvent := [.updater (.start 7 .install),
      .updater (.find 7 (some ⟨⟨0, 2, 0⟩, [2]⟩)), .updater (.lock 7), .updater (.backUp 7 true),
      .updater (.swap 7 true)]
    let started := Machine.final sharedStep ⟨site, ∅⟩ ([] ++ [.enter 1 none])
    let last := Machine.final sharedStep started during
    last.site.files = started.site.files ∧ last.site.holder = none ∧
      ∀ pid updater, last.site.updaters pid = some updater → ¬updater.phase.HoldsLock :=
  session_protects ⟨⟨⟨0, 1, 0⟩, [1]⟩, none, .missing, 0, none, 0, fun _ => none⟩ (fun _ => rfl) []
    [.updater (.start 7 .install), .updater (.find 7 (some ⟨⟨0, 2, 0⟩, [2]⟩)), .updater (.lock 7),
      .updater (.backUp 7 true), .updater (.swap 7 true)] 1 none rfl (by simp)

end Rcodex
