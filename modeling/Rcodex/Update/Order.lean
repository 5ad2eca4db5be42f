import Rcodex.Update.Processes

/-!
# The order of updates

A process compares a release with its own version, and the executable can change between its start
and its replacement.  An update goes forward (`Replacement.Forward`) if it installs a newer version
and keeps the executable it replaces as the backup.  All updates of a run go forward if and only if
no process is overtaken (`NotOvertaken`): since it was started the others have installed nothing
but older versions than the one it installs.
-/

namespace Rcodex

open Json Machine

/-- The update installs a newer version, and the backup is the executable it replaces. -/
def Replacement.Forward (replacement : Replacement) : Prop :=
  replacement.old.version < replacement.new.version ∧
    replacement.backup = some replacement.old

instance : DecidablePred Replacement.Forward := fun replacement => by
  unfold Replacement.Forward
  infer_instance

/-- All updates go forward. -/
def MovesForward (outputs : List UpdaterOutput) : Prop :=
  ∀ replacement, .replaces replacement ∈ outputs → replacement.Forward

/-- This update has been made since the process was started. -/
def InstalledSince (pid : ℕ) (replacement : Replacement) (outputs : List UpdaterOutput) : Prop :=
  Since (· = .replaces replacement) (· = .starts pid) outputs

/-- The executable is the one a process was started from, or an update made since then. -/
def Traced (outputs : List UpdaterOutput) (site : Site) (pid : ℕ) (version : StableVersion) :
    Prop :=
  site.executable.version = version ∨
    ∃ replacement, InstalledSince pid replacement outputs ∧ replacement.new = site.executable

/-- The executable and the processes agree with the updates so far. -/
structure Ordered (outputs : List UpdaterOutput) (site : Site) : Prop where
  /-- The processes know the files. -/
  consistent : Consistent site
  /-- Nobody rolls back. -/
  advancing : ∀ pid updater, site.updaters pid = some updater → updater.command ≠ .rollback
  /-- The executable is traced back to the start of each process. -/
  traced : ∀ pid updater, site.updaters pid = some updater →
    Traced outputs site pid updater.version
  /-- As long as updates go forward the executable is the newest one. -/
  newest : MovesForward outputs → ∀ replacement, .replaces replacement ∈ outputs →
    replacement.new.version ≤ site.executable.version

/-- There is nothing to trace before the first output. -/
theorem Site.Fresh.ordered {site : Site} (h : site.Fresh) : Ordered [] site where
  consistent := h.consistent
  advancing := fun pid updater hupdater => by rw [h pid] at hupdater; cases hupdater
  traced := fun pid updater hupdater => by rw [h pid] at hupdater; cases hupdater
  newest := fun _ _ hmem => absurd hmem List.not_mem_nil

/-- What an update may be after these outputs. -/
structure Traceable (outputs : List UpdaterOutput) (replacement : Replacement) : Prop where
  /-- The backup is the executable it replaces. -/
  backup : replacement.backup = some replacement.old
  /-- It goes forward if its process was not overtaken. -/
  forward : (∀ other, InstalledSince replacement.pid other outputs →
    other.new.version < replacement.new.version) →
      replacement.old.version < replacement.new.version
  /-- If all updates go forward, it is newer than each of them. -/
  newer : MovesForward outputs → replacement.old.version < replacement.new.version →
    ∀ other, .replaces other ∈ outputs → other.new.version < replacement.new.version

variable {outputs : List UpdaterOutput} {site after : Site} {output : UpdaterOutput} {pid : ℕ}
  {updater : Updater}

/-- One more output that is not the start of the process. -/
theorem InstalledSince.concat {replacement : Replacement}
    (h : InstalledSince pid replacement outputs) (hstarts : output ≠ .starts pid) :
    InstalledSince pid replacement (outputs ++ [output]) :=
  since_concat.mpr (Or.inr ⟨h, hstarts⟩)

/-- One more output that is not an update. -/
theorem mem_of_mem_concat {replacement : Replacement}
    (houtput : ∀ replacement, output ≠ .replaces replacement)
    (hmem : .replaces replacement ∈ outputs ++ [output]) : .replaces replacement ∈ outputs := by
  rcases List.mem_append.mp hmem with hmem | hmem
  · exact hmem
  · exact absurd (List.mem_singleton.mp hmem).symm (houtput replacement)

namespace Ordered

/-- A step that does not replace the executable. -/
theorem advance (h : Ordered outputs site) (hconsistent : Consistent after)
    (hexecutable : after.executable = site.executable)
    (houtput : ∀ replacement, output ≠ .replaces replacement)
    (hupdaters : ∀ pid updater, after.updaters pid = some updater →
      updater.command ≠ .rollback ∧ (site.executable.version = updater.version ∨
        output ≠ .starts pid ∧ Traced outputs site pid updater.version)) :
    Ordered (outputs ++ [output]) after where
  consistent := hconsistent
  advancing := fun pid updater hupdater => (hupdaters pid updater hupdater).1
  traced := fun pid updater hupdater => by
    rw [Traced, hexecutable]
    rcases (hupdaters pid updater hupdater).2 with hversion | ⟨hstarts, hversion | htraced⟩
    · exact Or.inl hversion
    · exact Or.inl hversion
    · obtain ⟨replacement, hsince, hnew⟩ := htraced
      exact Or.inr ⟨replacement, hsince.concat hstarts, hnew⟩
  newest := fun hforward replacement hmem => by
    rw [hexecutable]
    refine h.newest (fun other hother => hforward other (List.mem_append_left _ hother)) replacement
      (mem_of_mem_concat houtput hmem)

/-- A process goes on and does not replace the executable. -/
theorem enter (h : Ordered outputs site) {phase : UpdaterPhase}
    (hupdater : site.updaters pid = some updater) (hconsistent : Consistent after)
    (hexecutable : after.executable = site.executable)
    (hupdaters : after.updaters = (site.enter pid updater phase).updaters)
    (houtput : ∀ replacement, output ≠ .replaces replacement)
    (hstarts : ∀ pid, output ≠ .starts pid) : Ordered (outputs ++ [output]) after := by
  refine h.advance hconsistent hexecutable houtput fun other u hu => ?_
  rw [hupdaters] at hu
  rcases Site.enter_cases hu with ⟨rfl, rfl⟩ | ⟨-, hu⟩
  · exact ⟨h.advancing other updater hupdater,
      Or.inr ⟨hstarts other, h.traced other updater hupdater⟩⟩
  · exact ⟨h.advancing other u hu, Or.inr ⟨hstarts other, h.traced other u hu⟩⟩

/-- A process starts. -/
theorem start (h : Ordered outputs site) {command : UpdaterCommand} (hcommand : command ≠ .rollback)
    (hconsistent : Consistent
      (site.enter pid ⟨command, site.executable.version, .begun⟩ .begun)) :
    Ordered (outputs ++ [.starts pid])
      (site.enter pid ⟨command, site.executable.version, .begun⟩ .begun) := by
  refine h.advance hconsistent rfl (by simp) fun other u hu => ?_
  rcases Site.enter_cases hu with ⟨-, rfl⟩ | ⟨hne, hu⟩
  · exact ⟨hcommand, Or.inl rfl⟩
  · refine ⟨h.advancing other u hu, Or.inr ⟨?_, h.traced other u hu⟩⟩
    exact fun heq => hne (UpdaterOutput.starts.inj heq).symm

/-- A process replaces the executable. -/
theorem replace (h : Ordered outputs site) {binary : Executable} {phase : UpdaterPhase}
    (hupdater : site.updaters pid = some updater) (hphase : updater.phase = .backedUp binary)
    (hconsistent : Consistent { site.enter pid updater phase with executable := binary }) :
    Ordered
        (outputs ++ [.replaces ⟨pid, updater.command, site.executable, binary, site.backup⟩])
        { site.enter pid updater phase with executable := binary } ∧
      Traceable outputs ⟨pid, updater.command, site.executable, binary, site.backup⟩ := by
  obtain ⟨hinstall, hbackup⟩ := h.consistent.knows_phase hupdater hphase
  have holder : MovesForward outputs → site.executable.version < binary.version →
      ∀ other, .replaces other ∈ outputs → other.new.version < binary.version :=
    fun hforward hlt other hmem => (h.newest hforward other hmem).trans_lt hlt
  constructor
  · refine ⟨hconsistent, fun other u hu => ?_, fun other u hu => ?_, fun hforward other hmem => ?_⟩
    · rcases Site.enter_cases hu with ⟨-, rfl⟩ | ⟨-, hu⟩
      · exact h.advancing pid updater hupdater
      · exact h.advancing other u hu
    · exact Or.inr ⟨_, since_concat.mpr (Or.inl rfl), rfl⟩
    · rcases List.mem_append.mp hmem with hmem | hmem
      · refine (holder (fun r hr => hforward r (List.mem_append_left _ hr)) ?_ other hmem).le
        exact (hforward _ (List.mem_append_right _ (List.mem_singleton_self _))).1
      · obtain rfl := UpdaterOutput.replaces.inj (List.mem_singleton.mp hmem)
        exact le_rfl
  · refine ⟨hbackup, fun hovertaken => ?_, holder⟩
    rcases h.traced pid updater hupdater with hversion | ⟨replacement, hsince, hnew⟩
    · exact hversion.trans_lt hinstall.newer
    · -- The executable is an update made since the process was started.
      have hlt := hovertaken replacement hsince
      rwa [hnew] at hlt

end Ordered

end Rcodex
