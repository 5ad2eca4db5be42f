import Rcodex.Update.Installation
import Rcodex.Update.Verified

/-!
# What a failed replacement leaves behind

`replace` writes the backup and then the executable.  Each of the two is put into place by a
rename, but nothing joins the two renames, and the directory is synced after each of them.
`replace_failed` says what is left by the number of the operation that fails.  A temporary file
stays when its rename fails, or when it cannot be removed.

The model of `Install` counts the checks and the two writes only.  `replace_refines` connects it to
the single operations: whatever fails there, it fails here.
-/

namespace Rcodex

section Replace

variable {tools : UpdateTools} {succeeds : ℕ → Bool} {installation : Installation}
  {bytes : List UInt8} {asset : ReleaseAsset} {folder folder' : Folder}

end Replace

/-- The name of the executable. -/
def rcodexName : FileName := ⟨Text.utf8 "rcodex", by decide⟩

/-- A new executable. -/
def newAsset : ReleaseAsset := ⟨"rcodex", "", releaseTools.sha256Hex [2], 1⟩

section Refinement

variable {tools : UpdateTools} {succeeds : ℕ → Bool} {installation : Installation}
  {bytes : List UInt8} {asset : ReleaseAsset} {folder : Folder} {outside : Outside}
  {world : World} {exclusive : Bool}

/-- A `Disk` shows the two files of an installation. -/
def Folder.Shows (folder : Folder) (executable : FileName) (disk : Disk) : Prop :=
  folder.entries executable = some (.file disk.executable) ∧
    ∀ bytes, disk.backup = some bytes ↔
      folder.entries (backupPath executable) = some (.file bytes)

/-- A `Disk` that shows the files of a folder shows them after the backup is written. -/
theorem Folder.Shows.backedUp {executable : FileName} {disk : Disk}
    (h : folder.Shows executable disk) (hne : backupPath executable ≠ executable) (n left : ℕ) :
    (folder.after n [(backupPath executable, disk.executable)] left).Shows executable
      { disk with backup := some disk.executable } := by
  refine ⟨?_, fun bytes => ?_⟩
  · simpa [Folder.after, Function.update_of_ne hne.symm] using h.1
  · simp [Folder.after]

/-- A `Disk` that shows the files of a folder shows them after both are written. -/
theorem Folder.Shows.replaced {executable : FileName} {disk : Disk}
    (hne : backupPath executable ≠ executable) (n : ℕ) :
    (folder.after n [(backupPath executable, disk.executable), (executable, bytes)] 0).Shows
      executable ⟨bytes, some disk.executable⟩ := by
  refine ⟨?_, fun bytes => ?_⟩
  · simp [Folder.after]
  · simp [Folder.after, Function.update_of_ne hne]

/-- The coarse replacement when the first operation fails. -/
theorem replace_of_failed (h : outside.file = fun _ => .failed) :
    (∃ e, (replace tools outside exclusive bytes asset world).1 = .error e) ∧
      (replace tools outside exclusive bytes asset world).2.now.disk = world.now.disk := by
  have htriple : Effect.Triple (fun s => s.now.disk = world.now.disk)
      (replace tools outside exclusive bytes asset) (fun _ _ => False)
      fun _ s => s.now.disk = world.now.disk := by
    refine Effect.Triple.bind (Effect.Triple.failWhen_keeps fun _ hs => hs) fun _ => ?_
    refine Effect.Triple.bind (Effect.Triple.failWhen_keeps fun _ hs => hs) fun _ => ?_
    refine Effect.Triple.bind (Q := fun _ _ => False) ?_ fun _ => Effect.Triple.of_false
    refine Effect.Triple.bind (Q := fun outcome s => outcome = .failed ∧
      s.now.disk = world.now.disk) (Effect.Triple.ask fun s hs => ⟨by rw [h], hs⟩) fun _ => ?_
    exact Effect.Triple.failWhen_of (fun s hs hdone => hdone (by simp [hs.1])) fun s hs _ => hs.2
  obtain ⟨_, _, -, hfalse⟩ | ⟨e, s, hreplace, hdisk⟩ := htriple.ends rfl
  · exact hfalse.elim
  · rw [hreplace]
    exact ⟨⟨e, rfl⟩, hdisk⟩

/-- The coarse replacement by the outcome of its last operation. -/
theorem replace_of_last {last : FileOutcome} (hexclusive : exclusive = true)
    (hlength : bytes.length = asset.size.toNat) (hsha : tools.sha256Hex bytes = asset.sha256)
    (h : outside.file = fun n => if n = world.questions + 4 then last else .done) :
    ((replace tools outside exclusive bytes asset world).1 = .ok () ↔ last = .done) ∧
      (replace tools outside exclusive bytes asset world).2.now.disk =
        ⟨if last = .failed then world.now.disk.executable else bytes,
          some world.now.disk.executable⟩ := by
  cases last <;>
    simp [replace, Effect.bind_apply, Effect.andThen, fileCheck, atomicWrite, question,
      Effect.ask, Effect.failWhen, Effect.lift, Effect.read, Effect.change, Result.bailWhen,
      hexclusive, hlength, hsha, h, World.asked, World.turn]

/-- Whatever happens to the single operations of a replacement, outcomes of the coarse operations
give the same result and leave the same two files. -/
theorem replace_refines (outside : Outside)
    (hne : backupPath installation.executable ≠ installation.executable)
    (hshows : folder.Shows installation.executable world.now.disk) :
    ∃ file : ℕ → FileOutcome,
      ((installation.replace tools succeeds bytes asset folder).1 = .ok () ↔
        (replace tools { outside with file } installation.exclusive bytes asset world).1 =
          .ok ()) ∧
      (installation.replace tools succeeds bytes asset folder).2.Shows installation.executable
        (replace tools { outside with file } installation.exclusive bytes asset
          world).2.now.disk := by
  let coarse (file : ℕ → FileOutcome) :=
    replace tools { outside with file } installation.exclusive bytes asset world
  let onlyLast (last : FileOutcome) : ℕ → FileOutcome :=
    fun n => if n = world.questions + 4 then last else .done
  have hold : ∀ {old}, folder.entries installation.executable = some (.file old) →
      old = world.now.disk.executable := by
    intro old hold
    simpa [hold] using hshows.1
  have hlast : ∀ last, installation.Admits tools bytes asset →
      ((coarse (onlyLast last)).1 = .ok () ↔ last = .done) ∧
        (coarse (onlyLast last)).2.now.disk =
          ⟨if last = .failed then world.now.disk.executable else bytes,
            some world.now.disk.executable⟩ := by
    intro last hadmits
    obtain ⟨hexclusive, hlength, hsha⟩ := hadmits
    exact replace_of_last hexclusive hlength hsha rfl
  have htriple : Effect.Triple (folder.At 0 [] 0) (installation.replace tools succeeds bytes asset)
      (fun _ s => ∃ file, (coarse file).1 = .ok () ∧
        s.Shows installation.executable (coarse file).2.now.disk)
      fun _ s => ∃ file, (coarse file).1 ≠ .ok () ∧
        s.Shows installation.executable (coarse file).2.now.disk := by
    refine (replace_triple ?_ ?_ ?_).conseq (fun _ hs => hs) ?_ fun _ _ hs => hs
    · intro n _ left _
      have hfailed : (∃ e, (coarse fun _ => .failed).1 = .error e) ∧
          (coarse fun _ => .failed).2.now.disk = world.now.disk := replace_of_failed rfl
      obtain ⟨⟨e, he⟩, hdisk⟩ := hfailed
      refine ⟨fun _ => .failed, by simp [he], ?_⟩
      rw [hdisk]
      exact hshows
    · intro n old left _ hadmits hentry _ _
      obtain ⟨hresult, hdisk⟩ := hlast .failed hadmits
      refine ⟨onlyLast .failed, by simp [hresult], ?_⟩
      rw [hdisk, hold hentry]
      exact hshows.backedUp hne n left
    · intro n old hadmits hentry _ _
      obtain ⟨hresult, hdisk⟩ := hlast .unsynced hadmits
      refine ⟨onlyLast .unsynced, by simp [hresult], ?_⟩
      rw [hdisk, hold hentry]
      exact Folder.Shows.replaced hne n
    · intro _ s hs
      obtain ⟨hadmits, old, hentry, rfl⟩ := hs
      obtain ⟨hresult, hdisk⟩ := hlast .done hadmits
      refine ⟨onlyLast .done, by simp [hresult], ?_⟩
      rw [hdisk, hold hentry]
      exact Folder.Shows.replaced hne 18
  obtain ⟨_, s, hreplace, hends⟩ | ⟨e, s, hreplace, hends⟩ :=
    htriple.ends folder.after_zero.symm
  · obtain ⟨file, hok, hfile⟩ := hends
    rw [hreplace]
    exact ⟨file, iff_of_true rfl hok, hfile⟩
  · obtain ⟨file, herror, hfile⟩ := hends
    rw [hreplace]
    exact ⟨file, iff_of_false (by simp) herror, hfile⟩

end Refinement

end Rcodex
