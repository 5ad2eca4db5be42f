import Rcodex.Update.Atomicity
import Rcodex.Foundation.Machine

/-!
# The lock and the backup of an executable

Two executables in one directory are locked, replaced and rolled back in any order, and any
operation may fail.  The names of the lock and of the backup are the stem of the executable's name
with another extension; if this stem is a full stop they are the directory above.
`companions_own_iff` says for which pairs of names the files of the one are not those of the other,
so that a rollback restores what a replacement of the same executable saved.
-/

namespace Rcodex

open Splitting Text

/-! ### Names with another extension -/

/-- The names that another extension gives. -/
theorem withExtension_eq_iff {name after other : List UInt8} (hname : name ≠ [])
    (hstem : fileStem name ≠ utf8 ".") (hafter : dot ∉ after) :
    withExtension name after = other ↔
      fileStem other = fileStem name ∧ extension other = some after := by
  rw [withExtension, if_neg hstem]
  constructor
  · intro h
    have hsplit : splitLast dot other = some (fileStem name, after) :=
      splitLast_eq_some_iff.mpr ⟨h.symm, hafter⟩
    exact fileStem_of_splitLast hsplit (fileStem_ne_nil hname)
  · rintro ⟨hsame, hextension⟩
    rw [extension] at hextension
    split at hextension
    · simp at hextension
    · simp at hextension
    · next stem part hne hsplit =>
      obtain rfl := Option.some.inj hextension
      rw [(fileStem_of_splitLast hsplit hne).1] at hsame
      rw [← hsame, (splitLast_eq_some_iff.mp hsplit).1]

/-- An executable whose name without its extension is a full stop: its lock and its backup are the
directory above. -/
def HasDotStem (executable : FileName) : Prop := fileStem executable.val = utf8 "."

instance : DecidablePred HasDotStem := fun _ => inferInstanceAs (Decidable (_ = _))

/-- The lock and the backup of such an executable are the same. -/
theorem lockPath_eq_backupPath {executable : FileName} (h : HasDotStem executable) :
    lockPath executable = backupPath executable :=
  Subtype.ext ((if_pos h).trans (if_pos h).symm)

section Stems

variable {executable name : FileName}

/-- The executables of which this is the lock. -/
theorem lockPath_eq_iff (h : ¬HasDotStem executable) :
    lockPath executable = name ↔ fileStem name.val = fileStem executable.val ∧
      extension name.val = some (utf8 "update-lock") := by
  rw [Subtype.ext_iff]
  exact withExtension_eq_iff executable.2.1 h (by decide)

/-- The executables of which this is the backup. -/
theorem backupPath_eq_iff (h : ¬HasDotStem executable) :
    backupPath executable = name ↔ fileStem name.val = fileStem executable.val ∧
      extension name.val = some (utf8 "previous") := by
  rw [Subtype.ext_iff]
  exact withExtension_eq_iff executable.2.1 h (by decide)

/-- The lock has the stem of the executable. -/
theorem fileStem_lockPath (h : ¬HasDotStem executable) :
    fileStem (lockPath executable).val = fileStem executable.val :=
  ((lockPath_eq_iff h).mp rfl).1

/-- The extension of the lock. -/
theorem extension_lockPath (h : ¬HasDotStem executable) :
    extension (lockPath executable).val = some (utf8 "update-lock") :=
  ((lockPath_eq_iff h).mp rfl).2

/-- The backup has the stem of the executable. -/
theorem fileStem_backupPath (h : ¬HasDotStem executable) :
    fileStem (backupPath executable).val = fileStem executable.val :=
  ((backupPath_eq_iff h).mp rfl).1

/-- The extension of the backup. -/
theorem extension_backupPath (h : ¬HasDotStem executable) :
    extension (backupPath executable).val = some (utf8 "previous") :=
  ((backupPath_eq_iff h).mp rfl).2

end Stems

/-- The extensions differ. -/
theorem previous_ne_updateLock : utf8 "previous" ≠ utf8 "update-lock" := by decide

/-- The names have different stems, and neither has a full stop as its stem or the extension of a
lock or of a backup. -/
def SeparateNames (a b : FileName) : Prop :=
  fileStem a.val ≠ fileStem b.val ∧ ∀ name ∈ [a, b], ¬HasDotStem name ∧
    extension name.val ≠ some (utf8 "update-lock") ∧ extension name.val ≠ some (utf8 "previous")

instance (a b : FileName) : Decidable (SeparateNames a b) :=
  inferInstanceAs (Decidable (_ ∧ _))

/-- The executables, their locks and their backups are different files. -/
def CompanionsDistinct (a b : FileName) : Prop :=
  [a, b, lockPath a, lockPath b, backupPath a, backupPath b].Nodup

instance (a b : FileName) : Decidable (CompanionsDistinct a b) :=
  inferInstanceAs (Decidable (List.Nodup _))

/-- When the files of two executables are different. -/
theorem companionsDistinct_iff {a b : FileName} (hne : a ≠ b) :
    CompanionsDistinct a b ↔ SeparateNames a b := by
  by_cases ha : HasDotStem a
  · refine iff_of_false (fun h => ?_) fun h => (h.2 a (by simp)).1 ha
    simp [CompanionsDistinct, lockPath_eq_backupPath ha] at h
  by_cases hb : HasDotStem b
  · refine iff_of_false (fun h => ?_) fun h => (h.2 b (by simp)).1 hb
    simp [CompanionsDistinct, lockPath_eq_backupPath hb] at h
  have hlock : lockPath a = lockPath b ↔ fileStem a.val = fileStem b.val := by
    simp [lockPath_eq_iff ha, fileStem_lockPath hb, extension_lockPath hb, eq_comm]
  have hbackup : backupPath a = backupPath b ↔ fileStem a.val = fileStem b.val := by
    simp [backupPath_eq_iff ha, fileStem_backupPath hb, extension_backupPath hb, eq_comm]
  have hboth : ∀ x y : FileName, ¬HasDotStem x → ¬HasDotStem y → lockPath x ≠ backupPath y := by
    intro x y hx hy h
    have hextension := ((lockPath_eq_iff hx).mp h).2
    rw [extension_backupPath hy] at hextension
    exact previous_ne_updateLock (Option.some.inj hextension)
  have hlockName : ∀ x y : FileName, ¬HasDotStem y → (x = lockPath y ↔
      fileStem x.val = fileStem y.val ∧ extension x.val = some (utf8 "update-lock")) := by
    intro x y hy
    rw [eq_comm, lockPath_eq_iff hy]
  have hbackupName : ∀ x y : FileName, ¬HasDotStem y → (x = backupPath y ↔
      fileStem x.val = fileStem y.val ∧ extension x.val = some (utf8 "previous")) := by
    intro x y hy
    rw [eq_comm, backupPath_eq_iff hy]
  simp only [CompanionsDistinct, SeparateNames, List.nodup_cons, List.mem_cons, List.not_mem_nil,
    or_false, not_or, hlock, hbackup, hboth _ _ ha ha, hboth _ _ ha hb, hboth _ _ hb ha,
    hboth _ _ hb hb, hlockName _ _ ha, hlockName _ _ hb, hbackupName _ _ ha, hbackupName _ _ hb,
    hne, ha, hb, List.nodup_nil, not_false_eq_true, and_true, true_and, forall_eq_or_imp, forall_eq]
  grind

/-! ### Calls on two installations -/

/-- A call on an installation. -/
inductive Call where
  | lock (executable : FileName) (exclusive : Bool)
  /-- The lock is released. -/
  | drop (installation : Installation)
  | replace (installation : Installation) (bytes : List UInt8) (asset : ReleaseAsset)
  | rollback (installation : Installation)
deriving DecidableEq

/-- The executable of a call. -/
def Call.executable : Call → FileName
  | .lock executable _ => executable
  | .drop installation | .replace installation _ _ | .rollback installation =>
    installation.executable

/-- Only an installation that is locked can be released, replaced or rolled back. -/
def Call.Possible (folder : Folder) : Call → Prop
  | .lock _ _ => True
  | .drop installation | .replace installation _ _ | .rollback installation =>
    installation ∈ folder.held

instance (folder : Folder) : DecidablePred (Call.Possible folder) := by
  intro call
  cases call <;> unfold Call.Possible <;> infer_instance

/-- A call and the files it has renamed into place. -/
structure Done where
  /-- The call. -/
  call : Call
  /-- The files, in their order. -/
  renamed : List (FileName × List UInt8)
deriving DecidableEq

section Calls

variable (tools : UpdateTools) (succeeds : ℕ → Bool)

/-- Run a call. -/
def Call.run : Call → FileEffect Unit
  | .lock executable exclusive => do
    let _ ← Installation.lock succeeds executable exclusive
    return ()
  | .drop installation =>
    Effect.change fun folder => { folder with held := folder.held.erase installation }
  | .replace installation bytes asset => installation.replace tools succeeds bytes asset
  | .rollback installation => installation.rollback succeeds

/-- The directory when a call begins. -/
def Folder.begun (folder : Folder) : Folder := { folder with renamed := [] }

/-- The directory when a call has returned. -/
def Call.stop (folder : Folder) (call : Call) : Folder :=
  if call.Possible folder then (call.run tools succeeds folder.begun).2 else folder.begun

/-- Make a call. -/
def callStep (folder : Folder) (call : Call) : Done × Folder :=
  (⟨call, (call.stop tools succeeds folder).renamed⟩, call.stop tools succeeds folder)

end Calls

/-- A replacement of this executable has saved these bytes: they are the first it renames into
place. -/
def SavedBy (history : List Done) (executable : FileName) (bytes : List UInt8) : Prop :=
  ∃ done ∈ history, ∃ installation candidate asset,
    done.call = .replace installation candidate asset ∧
      installation.executable = executable ∧
      done.renamed.head? = some (backupPath executable, bytes)

/-- These bytes are a backup of this executable: its backup at the start held them, or a
replacement has saved them. -/
def OwnBackup (start : Folder) (history : List Done) (executable : FileName)
    (bytes : List UInt8) : Prop :=
  start.entries (backupPath executable) = some (.file bytes) ∨ SavedBy history executable bytes

/-- Every rollback of one of the two writes a backup of its own executable, to it. -/
def RestoresOwn (a b : FileName) : Prop :=
  ∀ (tools : UpdateTools) (succeeds : ℕ → Bool) (start : Folder) (calls : List Call),
    (∀ call ∈ calls, call.executable = a ∨ call.executable = b) →
      ∀ history done later,
        Machine.outputs (callStep tools succeeds) start calls = history ++ done :: later →
          ∀ installation, done.call = .rollback installation → ∀ file ∈ done.renamed,
            file.1 = installation.executable ∧
              OwnBackup start history installation.executable file.2

section Steps

variable {tools : UpdateTools} {succeeds : ℕ → Bool} {folder : Folder}

/-- What a call does to the files. -/
inductive Changes (folder : Folder) : Done → Folder → Prop
  /-- It changes nothing. -/
  | nothing {call : Call} {stop : Folder} (hentries : stop.entries = folder.entries) :
      Changes folder ⟨call, []⟩ stop
  /-- It creates the lock. -/
  | locked {executable : FileName} {exclusive : Bool} {stop : Folder}
      (hentries : stop.entries =
        Function.update folder.entries (lockPath executable) (some (.file []))) :
      Changes folder ⟨.lock executable exclusive, []⟩ stop
  /-- It writes the backup. -/
  | backedUp {installation : Installation} {bytes old : List UInt8} {asset : ReleaseAsset}
      {stop : Folder} (hentries : stop.entries = Function.update folder.entries
        (backupPath installation.executable) (some (.file old))) :
      Changes folder ⟨.replace installation bytes asset,
        [(backupPath installation.executable, old)]⟩ stop
  /-- It writes the backup and the executable. -/
  | replaced {installation : Installation} {bytes old : List UInt8} {asset : ReleaseAsset}
      {stop : Folder} (hentries : stop.entries = Function.update (Function.update folder.entries
        (backupPath installation.executable) (some (.file old))) installation.executable
          (some (.file bytes))) :
      Changes folder ⟨.replace installation bytes asset,
        [(backupPath installation.executable, old), (installation.executable, bytes)]⟩ stop
  /-- It writes what the backup holds to the executable. -/
  | restored {installation : Installation} {backup : List UInt8} {stop : Folder}
      (hbackup : folder.entries (backupPath installation.executable) = some (.file backup))
      (hentries : stop.entries =
        Function.update folder.entries installation.executable (some (.file backup))) :
      Changes folder ⟨.rollback installation, [(installation.executable, backup)]⟩ stop

/-- What a call does. -/
theorem callStep_changes (call : Call) :
    Changes folder (callStep tools succeeds folder call).1
      (callStep tools succeeds folder call).2 := by
  suffices h : call.Possible folder → Effect.Triple (folder.begun.At 0 [] 0)
      (call.run tools succeeds) (fun _ stop => Changes folder ⟨call, stop.renamed⟩ stop)
      fun _ stop => Changes folder ⟨call, stop.renamed⟩ stop by
    rw [callStep]
    generalize hstop : call.stop tools succeeds folder = stop
    unfold Call.stop at hstop
    split_ifs at hstop with hpossible
    · obtain rfl := hstop
      exact (h hpossible).state folder.begun.after_zero.symm
    · obtain rfl := hstop
      exact .nothing rfl
  intro _
  cases call with
  | lock executable exclusive =>
    refine Effect.Triple.conseq (Q := fun _ => OnlyLockWritten executable folder.begun)
      (Effect.Triple.bind lock_triple fun _ => Effect.Triple.ret fun _ hs => hs)
      (fun _ hs => hs) ?_ ?_
    all_goals
      intro _ stop hstop
      obtain ⟨hrenamed, hentries⟩ := hstop
      rw [show stop.renamed = [] from hrenamed]
      rcases hentries with hentries | ⟨-, hentries⟩
      · exact .nothing hentries
      · exact .locked hentries
  | drop installation =>
    refine Effect.Triple.change fun s hs => ?_
    rw [hs]
    exact .nothing rfl
  | replace installation bytes asset =>
    refine (replace_triple ?_ ?_ ?_).conseq (fun _ hs => hs) ?_ fun _ _ hs => hs
    · exact fun n _ left _ => .nothing rfl
    · exact fun n old left _ _ _ _ _ => .backedUp rfl
    · exact fun n old _ _ _ _ => .replaced rfl
    · intro _ s hs
      obtain ⟨-, old, -, rfl⟩ := hs
      exact .replaced rfl
  | rollback installation =>
    refine (rollback_triple ?_ ?_).conseq (fun _ hs => hs) ?_ fun _ _ hs => hs
    · exact fun n _ left _ => .nothing rfl
    · exact fun n backup hbackup _ _ => .restored hbackup rfl
    · intro _ s hs
      obtain ⟨backup, hbackup, rfl⟩ := hs
      exact .restored hbackup rfl

/-- A backup of an executable is one after more calls. -/
theorem OwnBackup.concat {start : Folder} {history : List Done} {executable : FileName}
    {bytes : List UInt8} (h : OwnBackup start history executable bytes) (done : Done) :
    OwnBackup start (history ++ [done]) executable bytes := by
  rcases h with h | ⟨earlier, hmem, hsaved⟩
  · exact Or.inl h
  · exact Or.inr ⟨earlier, List.mem_append_left _ hmem, hsaved⟩

/-- A backup holds nothing but a backup of its executable. -/
def BackupsOwn (start : Folder) (executables : List FileName) (history : List Done)
    (folder : Folder) : Prop :=
  ∀ executable ∈ executables, ∀ bytes,
    folder.entries (backupPath executable) = some (.file bytes) →
      OwnBackup start history executable bytes

/-- What a backup holds after a replacement has written one. -/
theorem ownBackup_of_update {start : Folder} {history : List Done} {done : Done}
    {installation : Installation} {candidate old bytes : List UInt8} {asset : ReleaseAsset}
    {executable : FileName} (hcall : done.call = .replace installation candidate asset)
    (hhead : done.renamed.head? = some (backupPath installation.executable, old))
    (hbackup : backupPath executable = backupPath installation.executable →
      executable = installation.executable)
    (hkept : folder.entries (backupPath executable) = some (.file bytes) →
      OwnBackup start (history ++ [done]) executable bytes)
    (hbytes : Function.update folder.entries (backupPath installation.executable)
      (some (.file old)) (backupPath executable) = some (.file bytes)) :
    OwnBackup start (history ++ [done]) executable bytes := by
  by_cases hsame : backupPath executable = backupPath installation.executable
  · obtain rfl := hbackup hsame
    rw [Function.update_self] at hbytes
    obtain rfl := Entry.file.inj (Option.some.inj hbytes)
    exact Or.inr ⟨done, by simp, installation, candidate, asset, hcall, rfl, hhead⟩
  · rw [Function.update_of_ne hsame] at hbytes
    exact hkept hbytes

/-- A call keeps the backups of executables with separate files. -/
theorem Changes.backupsOwn {start stop : Folder} {executables : List FileName}
    {history : List Done} {done : Done} (hchanges : Changes folder done stop)
    (hcall : done.call.executable ∈ executables)
    (hlock : ∀ x ∈ executables, ∀ y ∈ executables, backupPath x ≠ lockPath y)
    (hname : ∀ x ∈ executables, ∀ y ∈ executables, backupPath x ≠ y)
    (hbackup : ∀ x ∈ executables, ∀ y ∈ executables, backupPath x = backupPath y → x = y)
    (h : BackupsOwn start executables history folder) :
    BackupsOwn start executables (history ++ [done]) stop := by
  intro executable hmem bytes hbytes
  -- a backup that is not written by this call is the one from before
  have hkept : folder.entries (backupPath executable) = some (.file bytes) →
      OwnBackup start (history ++ [done]) executable bytes :=
    fun hbytes => (h executable hmem bytes hbytes).concat done
  cases hchanges with
  | nothing hentries =>
    rw [hentries] at hbytes
    exact hkept hbytes
  | @locked x exclusive _ hentries =>
    have hx : x ∈ executables := hcall
    rw [hentries, Function.update_of_ne (hlock _ hmem _ hx)] at hbytes
    exact hkept hbytes
  | @backedUp installation candidate old asset _ hentries =>
    have hx : installation.executable ∈ executables := hcall
    rw [hentries] at hbytes
    exact ownBackup_of_update rfl rfl (hbackup _ hmem _ hx) hkept hbytes
  | @replaced installation candidate old asset _ hentries =>
    have hx : installation.executable ∈ executables := hcall
    rw [hentries, Function.update_of_ne (hname _ hmem _ hx)] at hbytes
    exact ownBackup_of_update rfl rfl (hbackup _ hmem _ hx) hkept hbytes
  | @restored installation backup _ _ hentries =>
    have hx : installation.executable ∈ executables := hcall
    rw [hentries, Function.update_of_ne (hname _ hmem _ hx)] at hbytes
    exact hkept hbytes

/-- A rollback writes a backup of its executable. -/
theorem Changes.restores {start stop : Folder} {executables : List FileName}
    {history : List Done} {done : Done} (hchanges : Changes folder done stop)
    (hcall : done.call.executable ∈ executables)
    (h : BackupsOwn start executables history folder) {installation : Installation}
    (hrollback : done.call = .rollback installation) :
    ∀ file ∈ done.renamed, file.1 = installation.executable ∧
      OwnBackup start history installation.executable file.2 := by
  intro file hfile
  cases hchanges with
  | nothing _ => simp at hfile
  | locked _ => simp at hfile
  | backedUp _ => simp at hrollback
  | replaced _ => simp at hrollback
  | restored hbackup _ =>
    obtain rfl := Call.rollback.inj hrollback
    obtain rfl := List.mem_singleton.mp hfile
    exact ⟨rfl, h _ hcall _ hbackup⟩

end Steps

/-- Executables with separate names restore their own backups. -/
theorem restoresOwn_of_separateNames {a b : FileName} (h : SeparateNames a b) :
    RestoresOwn a b := by
  intro tools succeeds start calls hcalls
  obtain ⟨hstem, hextension⟩ := h
  have hstems : ∀ x ∈ [a, b], ¬HasDotStem x := fun x hx => (hextension x hx).1
  have hlock : ∀ x ∈ [a, b], ∀ y ∈ [a, b], backupPath x ≠ lockPath y := by
    intro x hx y hy heq
    have hlocked := ((backupPath_eq_iff (hstems x hx)).mp heq).2
    rw [extension_lockPath (hstems y hy)] at hlocked
    exact previous_ne_updateLock (Option.some.inj hlocked).symm
  have hname : ∀ x ∈ [a, b], ∀ y ∈ [a, b], backupPath x ≠ y :=
    fun x hx y hy heq => (hextension y hy).2.2 ((backupPath_eq_iff (hstems x hx)).mp heq).2
  have hbackup : ∀ x ∈ [a, b], ∀ y ∈ [a, b], backupPath x = backupPath y → x = y := by
    intro x hx y hy heq
    have hsame := ((backupPath_eq_iff (hstems x hx)).mp heq).1
    rw [fileStem_backupPath (hstems y hy)] at hsame
    simp only [List.mem_cons, List.not_mem_nil, or_false] at hx hy
    grind
  have hrun := Machine.outputs_induction (callStep tools succeeds)
    (J := fun history folder => BackupsOwn start [a, b] history folder)
    (P := fun history done => ∀ installation, done.call = .rollback installation →
      ∀ file ∈ done.renamed, file.1 = installation.executable ∧
        OwnBackup start history installation.executable file.2)
    (s := start) (fun _ _ _ hbytes => Or.inl hbytes) calls ?_
  · exact hrun.2
  · intro history folder call hcall hown
    have hmem : (callStep tools succeeds folder call).1.call.executable ∈ [a, b] := by
      simpa [callStep] using hcalls call hcall
    have hchanges : Changes folder (callStep tools succeeds folder call).1
        (callStep tools succeeds folder call).2 := callStep_changes call
    exact ⟨hchanges.backupsOwn hmem hlock hname hbackup hown,
      fun installation => hchanges.restores hmem hown⟩

/-- The files of two executables are their own exactly if their names have different stems and
neither has a full stop as its stem or the extension of a lock or of a backup. -/
theorem companions_own_iff {a b : FileName} (hne : a ≠ b) :
    (CompanionsDistinct a b ∧ RestoresOwn a b) ↔ SeparateNames a b := by
  rw [companionsDistinct_iff hne]
  exact ⟨And.left, fun h => ⟨h, restoresOwn_of_separateNames h⟩⟩

/-- Another executable. -/
def codexName : FileName := ⟨utf8 "codex", by decide⟩

/-- The files of `rcodex` and of `codex` are their own. -/
theorem companions_own_rcodex :
    CompanionsDistinct rcodexName codexName ∧ RestoresOwn rcodexName codexName :=
  (companions_own_iff (by decide)).mpr (by decide)

/-- An executable with a version in its name. -/
def firstVersion : FileName := ⟨utf8 "rcodex-0.1", by decide⟩

/-- The next version. -/
def secondVersion : FileName := ⟨utf8 "rcodex-0.2", by decide⟩

/-- A directory with both versions. -/
def versionsFolder : Folder where
  entries := fun name =>
    if name = firstVersion then some (.file [1])
    else if name = secondVersion then some (.file [2]) else none
  operations := 0
  temporaries := 0
  renamed := []
  held := []

/-- The first version is replaced, and then the second one is rolled back. -/
def versionCalls : List Call :=
  [.lock firstVersion true, .replace ⟨firstVersion, true⟩ [3] newAsset,
    .drop ⟨firstVersion, true⟩, .lock secondVersion true, .rollback ⟨secondVersion, true⟩]

/-- What is done before the rollback. -/
def beforeRollback : List Done :=
  [⟨.lock firstVersion true, []⟩,
    ⟨.replace ⟨firstVersion, true⟩ [3] newAsset,
      [(backupPath firstVersion, [1]), (firstVersion, [3])]⟩,
    ⟨.drop ⟨firstVersion, true⟩, []⟩, ⟨.lock secondVersion true, []⟩]

/-- Two versions of an executable share their lock and their backup, and a rollback of the second
one writes what a replacement of the first one has saved. -/
theorem versions_share_backup :
    ¬CompanionsDistinct firstVersion secondVersion ∧ ¬RestoresOwn firstVersion secondVersion := by
  refine ⟨by decide, fun h => ?_⟩
  have hcalls : ∀ call ∈ versionCalls,
      call.executable = firstVersion ∨ call.executable = secondVersion := by decide
  have hrun : Machine.outputs (callStep releaseTools fun _ => true) versionsFolder versionCalls =
      beforeRollback ++ [⟨.rollback ⟨secondVersion, true⟩, [(secondVersion, [1])]⟩] := by
    decide +kernel
  have hown := (h _ _ _ _ hcalls _ _ _ hrun ⟨secondVersion, true⟩ rfl (secondVersion, [1])
    (List.mem_singleton.mpr rfl)).2
  rcases hown with hstart | ⟨done, hmem, installation, candidate, asset, hcall, hname, hhead⟩
  · exact absurd hstart (by decide)
  · have hother : ∀ done ∈ beforeRollback, done.renamed ≠ [] →
        done.call.executable = firstVersion := by decide
    have hfirst := hother done hmem (by intro hnil; simp [hnil] at hhead)
    rw [hcall] at hfirst
    exact absurd (hname.symm.trans hfirst) (by decide)

end Rcodex
