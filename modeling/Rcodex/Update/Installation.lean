import Rcodex.Update.Release
import Rcodex.Foundation.Effect
import Rcodex.Foundation.Splitting
import Rcodex.Foundation.Text

/-!
# The files of an installation

`lock`, `replace` and `rollback` of an `Installation`, down to the single file operations, any of
which may fail.  They act on a `Folder`: the directory of the executable, in which the names of the
lock and of the backup are made from the name of the executable by `withExtension`.

`Folder.after` is what the operations of a call have done when they stop;
`atomicWriteFile_triple` and `replace_triple` say it for the functions that write.
-/

namespace Rcodex

open Splitting Text

/-- A name in a directory, or `..`. -/
def IsFileName (bytes : List UInt8) : Prop :=
  bytes ≠ [] ∧ 0 ∉ bytes ∧ 47 ∉ bytes ∧ bytes ≠ utf8 "."

instance : DecidablePred IsFileName := fun _ => inferInstanceAs (Decidable (_ ∧ _))

/-- A path in a directory. -/
abbrev FileName := {bytes : List UInt8 // IsFileName bytes}

/-- The full stop. -/
def dot : UInt8 := 46

/-- `Path::file_stem`: the name up to its last full stop, if that is not its first byte. -/
def fileStem (name : List UInt8) : List UInt8 :=
  match splitLast dot name with
  | some ([], _) | none => name
  | some (stem, _) => stem

/-- `Path::extension` -/
def extension (name : List UInt8) : Option (List UInt8) :=
  match splitLast dot name with
  | some ([], _) | none => none
  | some (_, after) => some after

/-- `Path::with_extension` -/
def withExtension (name after : List UInt8) : List UInt8 :=
  -- without what follows its last full stop the path is `..`, which is no name to extend
  if fileStem name = utf8 "." then utf8 ".." else fileStem name ++ dot :: after

/-- A name that is cut after its first byte. -/
theorem fileStem_of_splitLast {name stem after : List UInt8}
    (h : splitLast dot name = some (stem, after)) (hstem : stem ≠ []) :
    fileStem name = stem ∧ extension name = some after := by
  rw [fileStem, extension, h]
  cases stem with
  | nil => exact absurd rfl hstem
  | cons b stem => exact ⟨rfl, rfl⟩

/-- The stem is the beginning of the name. -/
theorem fileStem_isPrefix (name : List UInt8) : fileStem name <+: name := by
  unfold fileStem
  split
  · exact List.prefix_rfl
  · exact List.prefix_rfl
  · next stem after _ h =>
    obtain ⟨rfl, -⟩ := splitLast_eq_some_iff.mp h
    exact ⟨_, rfl⟩

/-- A name has a stem. -/
theorem fileStem_ne_nil {name : List UInt8} (h : name ≠ []) : fileStem name ≠ [] := by
  unfold fileStem
  split
  · exact h
  · exact h
  · next hne _ => simpa using hne

/-- The name with another extension is a path. -/
theorem isFileName_withExtension {name after : List UInt8} (h : IsFileName name)
    (hafter : IsFileName after) : IsFileName (withExtension name after) := by
  have hmem := (fileStem_isPrefix name).subset
  obtain ⟨hne, hzero, hslash, -⟩ := h
  obtain ⟨hafter, hzero', hslash', -⟩ := hafter
  unfold withExtension
  split_ifs
  · decide
  have hlength : 3 ≤ (fileStem name ++ dot :: after).length := by
    have hstem := List.length_pos_iff.mpr (fileStem_ne_nil hne)
    have hpos := List.length_pos_iff.mpr hafter
    simp only [List.length_append, List.length_cons]
    omega
  refine ⟨?_, ?_, ?_, ?_⟩
  · intro hnil
    simp [hnil] at hlength
  · simp only [List.mem_append, List.mem_cons, not_or]
    exact ⟨fun h => hzero (hmem h), by decide, hzero'⟩
  · simp only [List.mem_append, List.mem_cons, not_or]
    exact ⟨fun h => hslash (hmem h), by decide, hslash'⟩
  · intro heq
    rw [heq] at hlength
    exact absurd hlength (by decide)

/-- What a directory has under a name. -/
inductive Entry where
  | file (bytes : List UInt8)
  /-- A symbolic link, a directory or something else that is not a regular file. -/
  | other
deriving DecidableEq

/-- `Installation` -/
structure Installation where
  /-- The executable. -/
  executable : FileName
  /-- Whether the lock is exclusive. -/
  exclusive : Bool
deriving DecidableEq

/-- The directory of the executables. -/
structure Folder where
  /-- What it has under each name. -/
  entries : FileName → Option Entry
  /-- How many file operations there were. -/
  operations : ℕ
  /-- How many temporary files there are; their names are free when they are made. -/
  temporaries : ℕ
  /-- The files that were renamed into place since the call began. -/
  renamed : List (FileName × List UInt8)
  /-- The installations that are locked. -/
  held : List Installation

/-- Why a call fails. -/
inductive InstallationError where
  | operation
  | notRegular (name : FileName)
  | missing (name : FileName)
  | install
  | openLock
  | inUse
  | notExclusive
  | wrongBinary
  | rollbackNotExclusive
deriving DecidableEq

/-- The text of an error; `display` is how the path of a file is shown. -/
def InstallationError.text (display : FileName → String) : InstallationError → String
  | .operation => ""
  | .notRegular name => "update path is not a regular file: " ++ display name
  | .missing name => "update file does not exist: " ++ display name
  | .install => "atomically install update file"
  | .openLock => "open installation lock"
  | .inUse => "rcodex installation is in use; retry between sessions"
  | .notExclusive => "installation requires an exclusive lock"
  | .wrongBinary => "update binary failed size or SHA-256 verification"
  | .rollbackNotExclusive => "rollback requires an exclusive lock"

/-- A computation on the directory. -/
abbrev FileEffect := Effect Folder InstallationError

/-- The directory above. -/
def parentName : FileName := ⟨utf8 "..", by decide⟩

/-- The executable's name with another extension. -/
def FileName.withExtension (name after : FileName) : FileName :=
  ⟨Rcodex.withExtension name.val after.val, isFileName_withExtension name.2 after.2⟩

/-- The path of the lock. -/
def lockPath (executable : FileName) : FileName :=
  executable.withExtension ⟨utf8 "update-lock", by decide⟩

/-- `Installation::backup_path` -/
def backupPath (executable : FileName) : FileName :=
  executable.withExtension ⟨utf8 "previous", by decide⟩

/-- What there is under a path. -/
def Folder.entry (folder : Folder) (name : FileName) : Option Entry :=
  if name = parentName then some .other else folder.entries name

/-- A file has a name in the directory. -/
theorem Folder.entries_of_entry {folder : Folder} {name : FileName} {bytes : List UInt8}
    (h : folder.entry name = some (.file bytes)) : folder.entries name = some (.file bytes) := by
  unfold Folder.entry at h
  split_ifs at h
  · simp at h
  · exact h

/-- Nothing is in the directory under a path under which there is nothing. -/
theorem Folder.entries_of_entry_eq_none {folder : Folder} {name : FileName}
    (h : folder.entry name = none) : folder.entries name = none := by
  unfold Folder.entry at h
  split_ifs at h
  exact h

/-- A file operation was made. -/
def Folder.counted (folder : Folder) : Folder := { folder with operations := folder.operations + 1 }

/-- A file gets new contents. -/
def Folder.put (folder : Folder) (name : FileName) (bytes : List UInt8) : Folder :=
  { folder with entries := Function.update folder.entries name (some (.file bytes)) }

section Succeeds

variable (tools : UpdateTools) (succeeds : ℕ → Bool)

/-- A file operation that may fail and changes nothing that has a name. -/
def operation (error : InstallationError) : FileEffect Unit := do
  let ok ← Effect.ask fun folder => (succeeds folder.operations, folder.counted)
  Effect.failWhen (ok = false) error

/-- `reject_symlink` -/
def rejectSymlink (name : FileName) : FileEffect Unit := do
  operation succeeds .operation
  let entry ← Effect.read fun folder => folder.entry name
  Effect.failWhen (entry = some .other) (.notRegular name)

/-- `fs::read` -/
def readFile (name : FileName) : FileEffect (List UInt8) := do
  operation succeeds .operation
  let entry ← Effect.read fun folder => folder.entry name
  match entry with
  | some (.file bytes) => return bytes
  | _ => Effect.fail .operation

/-- `regular_file` -/
def regularFile (name : FileName) : FileEffect Unit := do
  rejectSymlink succeeds name
  operation succeeds (.missing name)
  let entry ← Effect.read fun folder => folder.entry name
  Effect.failWhen (entry = none) (.missing name)

/-- `NamedTempFile::new_in` -/
def createTemporary : FileEffect Unit := do
  operation succeeds .operation
  Effect.change fun folder => { folder with temporaries := folder.temporaries + 1 }

/-- `NamedTempFile::drop`: the file is removed, and nobody learns it if that fails. -/
def dropTemporary : FileEffect Unit := do
  let ok ← Effect.ask fun folder => (succeeds folder.operations, folder.counted)
  Effect.change fun folder =>
    if ok = true then { folder with temporaries := folder.temporaries - 1 } else folder

/-- An operation on the temporary file, which is dropped if it fails. -/
def temporaryOperation : FileEffect Unit := do
  let ok ← Effect.ask fun folder => (succeeds folder.operations, folder.counted)
  if ok = true then return ()
  dropTemporary succeeds
  Effect.fail .operation

/-- `NamedTempFile::persist`: the temporary file is renamed into place.  If that fails, the error
keeps the file, and nobody has removed it when the caller returns the error. -/
def persist (name : FileName) (bytes : List UInt8) : FileEffect Unit := do
  operation succeeds .install
  Effect.change fun folder => { folder.put name bytes with
    renamed := folder.renamed ++ [(name, bytes)], temporaries := folder.temporaries - 1 }

/-- `atomic_write` -/
def atomicWriteFile (name : FileName) (bytes : List UInt8) : FileEffect Unit := do
  createTemporary succeeds
  -- write it, set its permissions and sync it
  temporaryOperation succeeds
  temporaryOperation succeeds
  temporaryOperation succeeds
  persist succeeds name bytes
  -- open the directory and sync it
  operation succeeds .operation
  operation succeeds .operation

/-- Two locks on one file exclude each other unless both are shared. -/
def Installation.conflicts (installation held : Installation) : Prop :=
  lockPath installation.executable = lockPath held.executable ∧
    (installation.exclusive = true ∨ held.exclusive = true)

instance (installation held : Installation) : Decidable (installation.conflicts held) :=
  inferInstanceAs (Decidable (_ ∧ _))

/-- `Installation::lock` -/
def Installation.lock (executable : FileName) (exclusive : Bool) : FileEffect Installation := do
  regularFile succeeds executable
  rejectSymlink succeeds (lockPath executable)
  operation succeeds .openLock
  Effect.change fun folder =>
    if folder.entry (lockPath executable) = none then folder.put (lockPath executable) []
    else folder
  operation succeeds .inUse
  let held ← Effect.read Folder.held
  let installation : Installation := ⟨executable, exclusive⟩
  Effect.failWhen (∃ other ∈ held, installation.conflicts other) .inUse
  Effect.change fun folder => { folder with held := installation :: folder.held }
  return installation

/-- What `replace` asks for before it touches the files. -/
def Installation.Admits (installation : Installation) (bytes : List UInt8) (asset : ReleaseAsset) :
    Prop :=
  installation.exclusive = true ∧ bytes.length = asset.size.toNat ∧
    tools.sha256Hex bytes = asset.sha256

/-- `Installation::replace` -/
def Installation.replace (installation : Installation) (bytes : List UInt8)
    (asset : ReleaseAsset) : FileEffect Unit := do
  Effect.failWhen (installation.exclusive = false) .notExclusive
  Effect.failWhen (bytes.length ≠ asset.size.toNat ∨ tools.sha256Hex bytes ≠ asset.sha256)
    .wrongBinary
  regularFile succeeds installation.executable
  rejectSymlink succeeds (backupPath installation.executable)
  let executable ← readFile succeeds installation.executable
  atomicWriteFile succeeds (backupPath installation.executable) executable
  atomicWriteFile succeeds installation.executable bytes

/-- `Installation::rollback` -/
def Installation.rollback (installation : Installation) : FileEffect Unit := do
  Effect.failWhen (installation.exclusive = false) .rollbackNotExclusive
  regularFile succeeds (backupPath installation.executable)
  regularFile succeeds installation.executable
  let backup ← readFile succeeds (backupPath installation.executable)
  atomicWriteFile succeeds installation.executable backup

/-! ### What the operations of a call have done -/

/-- The directory after some operations, of which some renamed a file into place, and with some more
temporary files. -/
def Folder.after (folder : Folder) (operations : ℕ) (renamed : List (FileName × List UInt8))
    (left : ℕ) : Folder where
  entries := renamed.foldl
    (fun entries file => Function.update entries file.1 (some (.file file.2))) folder.entries
  operations := folder.operations + operations
  temporaries := folder.temporaries + left
  renamed := folder.renamed ++ renamed
  held := folder.held

/-- No operation. -/
theorem Folder.after_zero (folder : Folder) : folder.after 0 [] 0 = folder := by
  simp [Folder.after]

/-- The condition that a call has come as far as this. -/
abbrev Folder.At (folder : Folder) (operations : ℕ) (renamed : List (FileName × List UInt8))
    (left : ℕ) : Folder → Prop :=
  (· = folder.after operations renamed left)

variable {succeeds} {folder : Folder} {m left : ℕ} {renamed : List (FileName × List UInt8)}
  {P : Folder → Prop} {tools}

/-- What holds of a directory holds of the one that a call has reached. -/
theorem Folder.At.imp (h : P (folder.after m renamed left)) {s : Folder}
    (hs : folder.At m renamed left s) : P s := by
  rw [hs]
  exact h

/-- The outcome of a file operation. -/
theorem succeeds_triple :
    Effect.Triple (folder.At m renamed left)
      (Effect.ask fun folder : Folder => (succeeds folder.operations, folder.counted) :
        FileEffect Bool)
      (fun _ => folder.At (m + 1) renamed left) fun _ => P := by
  refine Effect.Triple.ask fun s hs => ?_
  rw [hs]
  rfl

/-- A single operation. -/
theorem operation_triple {error : InstallationError} (h : P (folder.after (m + 1) renamed left)) :
    Effect.Triple (folder.At m renamed left) (operation succeeds error)
      (fun _ => folder.At (m + 1) renamed left) fun _ => P :=
  Effect.Triple.bind succeeds_triple fun _ => Effect.Triple.failWhen_keeps fun _ hs => hs.imp h

/-- A look at a file. -/
theorem rejectSymlink_triple {name : FileName} (h : P (folder.after (m + 1) renamed left)) :
    Effect.Triple (folder.At m renamed left) (rejectSymlink succeeds name)
      (fun _ => folder.At (m + 1) renamed left) fun _ => P := by
  refine Effect.Triple.bind (operation_triple h) fun _ => ?_
  refine Effect.Triple.bind (Q := fun _ => folder.At (m + 1) renamed left)
    (Effect.Triple.read fun _ hs => hs) fun entry => ?_
  exact Effect.Triple.failWhen_keeps fun _ hs => Folder.At.imp h hs

/-- A file that has to exist. -/
theorem regularFile_triple {name : FileName}
    (h : ∀ n, m < n → n ≤ m + 2 → P (folder.after n renamed left)) :
    Effect.Triple (folder.At m renamed left) (regularFile succeeds name)
      (fun _ => folder.At (m + 2) renamed left) fun _ => P := by
  have hlast : P (folder.after (m + 2) renamed left) := h _ (by omega) le_rfl
  refine Effect.Triple.bind (rejectSymlink_triple (h _ (by omega) (by omega))) fun _ => ?_
  refine Effect.Triple.bind (operation_triple hlast) fun _ => ?_
  refine Effect.Triple.bind (Q := fun _ => folder.At (m + 2) renamed left)
    (Effect.Triple.read fun _ hs => hs) fun entry => ?_
  exact Effect.Triple.failWhen_keeps fun _ hs => Folder.At.imp hlast hs

/-- What is read from a file. -/
theorem readFile_triple {name : FileName} (h : P (folder.after (m + 1) renamed left)) :
    Effect.Triple (folder.At m renamed left) (readFile succeeds name)
      (fun bytes s => (folder.after m renamed left).entries name = some (.file bytes) ∧
        folder.At (m + 1) renamed left s) fun _ => P := by
  refine Effect.Triple.bind (operation_triple h) fun _ => ?_
  refine Effect.Triple.bind (Q := fun entry s =>
    entry = (folder.after m renamed left).entry name ∧ folder.At (m + 1) renamed left s)
    (Effect.Triple.read ?_) fun entry => ?_
  · intro s hs
    exact ⟨by rw [hs]; rfl, hs⟩
  · split
    · next bytes =>
      exact Effect.Triple.ret fun s hs => ⟨Folder.entries_of_entry hs.1.symm, hs.2⟩
    · exact Effect.Triple.fail fun s hs => Folder.At.imp h hs.2

/-- A temporary file that is made. -/
theorem createTemporary_triple (h : P (folder.after (m + 1) renamed left)) :
    Effect.Triple (folder.At m renamed left) (createTemporary succeeds)
      (fun _ => folder.At (m + 1) renamed (left + 1)) fun _ => P := by
  refine Effect.Triple.bind (operation_triple h) fun _ => Effect.Triple.change fun s hs => ?_
  rw [hs]
  rfl

/-- A temporary file that is dropped may stay. -/
theorem dropTemporary_triple :
    Effect.Triple (folder.At m renamed (left + 1)) (dropTemporary succeeds)
      (fun _ s => ∃ more ≤ 1, folder.At (m + 1) renamed (left + more) s) fun _ => P := by
  refine Effect.Triple.bind succeeds_triple fun ok => Effect.Triple.change fun s hs => ?_
  rw [hs]
  split_ifs
  · exact ⟨0, Nat.zero_le _, rfl⟩
  · exact ⟨1, le_rfl, rfl⟩

/-- An operation on the temporary file: if it fails, the file was dropped. -/
theorem temporaryOperation_triple
    (h : ∀ more ≤ 1, P (folder.after (m + 2) renamed (left + more))) :
    Effect.Triple (folder.At m renamed (left + 1)) (temporaryOperation succeeds)
      (fun _ => folder.At (m + 1) renamed (left + 1)) fun _ => P := by
  refine Effect.Triple.bind succeeds_triple fun ok => ?_
  split_ifs
  · exact Effect.Triple.ret fun _ hs => hs
  · refine Effect.Triple.bind dropTemporary_triple fun _ => Effect.Triple.fail fun s hs => ?_
    obtain ⟨more, hmore, hs⟩ := hs
    exact Folder.At.imp (h more hmore) hs

/-- The rename that puts a file into place; the temporary file stays if it fails. -/
theorem persist_triple {name : FileName} {bytes : List UInt8}
    (h : P (folder.after (m + 1) renamed (left + 1))) :
    Effect.Triple (folder.At m renamed (left + 1)) (persist succeeds name bytes)
      (fun _ => folder.At (m + 1) (renamed ++ [(name, bytes)]) left) fun _ => P := by
  refine Effect.Triple.bind (operation_triple h) fun _ => Effect.Triple.change fun s hs => ?_
  rw [hs]
  simp [Folder.At, Folder.after, Folder.put, ← Nat.add_assoc]

/-- A file that is written: it is in place from the fifth operation on, and a temporary file may
stay only before that. -/
theorem atomicWriteFile_triple {name : FileName} {bytes : List UInt8}
    (hbefore : ∀ n, ∀ more ≤ 1, m < n → n ≤ m + 5 → P (folder.after n renamed (left + more)))
    (hafter : ∀ n, m + 5 < n → n ≤ m + 7 →
      P (folder.after n (renamed ++ [(name, bytes)]) left)) :
    Effect.Triple (folder.At m renamed left) (atomicWriteFile succeeds name bytes)
      (fun _ => folder.At (m + 7) (renamed ++ [(name, bytes)]) left) fun _ => P := by
  refine Effect.Triple.bind (createTemporary_triple
    (hbefore _ 0 (Nat.zero_le _) (by omega) (by omega))) fun _ => ?_
  refine Effect.Triple.bind (temporaryOperation_triple
    fun more hmore => hbefore _ more hmore (by omega) (by omega)) fun _ => ?_
  refine Effect.Triple.bind (temporaryOperation_triple
    fun more hmore => hbefore _ more hmore (by omega) (by omega)) fun _ => ?_
  refine Effect.Triple.bind (temporaryOperation_triple
    fun more hmore => hbefore _ more hmore (by omega) (by omega)) fun _ => ?_
  refine Effect.Triple.bind (persist_triple
    (hbefore _ 1 le_rfl (by omega) (by omega))) fun _ => ?_
  refine Effect.Triple.bind (operation_triple (hafter _ (by omega) (by omega))) fun _ => ?_
  exact operation_triple (hafter _ (by omega) (by omega))

/-- `replace`: the backup is in place from the ninth operation on, the executable from the
sixteenth; at most one temporary file stays, and only up to there. -/
theorem replace_triple {installation : Installation} {bytes : List UInt8} {asset : ReleaseAsset}
    (hnothing : ∀ n ≤ 9, ∀ left ≤ 1, P (folder.after n [] left))
    (hbackup : ∀ n old, ∀ left ≤ 1, installation.Admits tools bytes asset →
      folder.entries installation.executable = some (.file old) → 9 < n → n ≤ 16 →
      P (folder.after n [(backupPath installation.executable, old)] left))
    (hboth : ∀ n old, installation.Admits tools bytes asset →
      folder.entries installation.executable = some (.file old) → 16 < n → n ≤ 18 →
      P (folder.after n [(backupPath installation.executable, old),
        (installation.executable, bytes)] 0)) :
    Effect.Triple (folder.At 0 [] 0) (installation.replace tools succeeds bytes asset)
      (fun _ s => installation.Admits tools bytes asset ∧
        ∃ old, folder.entries installation.executable = some (.file old) ∧
          folder.At 18 [(backupPath installation.executable, old),
            (installation.executable, bytes)] 0 s) fun _ => P := by
  have hearly : ∀ n ≤ 9, P (folder.after n [] 0) := fun n hn => hnothing n hn 0 (Nat.zero_le _)
  have hstart : ∀ s, folder.At 0 [] 0 s → P s := fun _ => Folder.At.imp (hearly 0 (by omega))
  refine Effect.Triple.bind (Effect.Triple.failWhen fun _ => hstart _) fun _ => ?_
  refine Effect.Triple.bind (Q := fun _ s => installation.Admits tools bytes asset ∧
    folder.At 0 [] 0 s) (Effect.Triple.failWhen_of ?_ fun s hs _ => hstart s hs.1) fun _ => ?_
  · intro s hs hverified
    obtain ⟨hsize, hsha⟩ := not_or.mp hverified
    exact ⟨⟨by simpa using hs.2, not_not.mp hsize, not_not.mp hsha⟩, hs.1⟩
  refine Effect.Triple.of_fact fun hadmits => ?_
  refine Effect.Triple.bind (regularFile_triple fun n _ hn => hearly n (by omega)) fun _ => ?_
  refine Effect.Triple.bind (rejectSymlink_triple (hearly _ (by omega))) fun _ => ?_
  refine Effect.Triple.bind (readFile_triple (hearly _ (by omega))) fun old => ?_
  refine Effect.Triple.of_fact fun hold => ?_
  have hold : folder.entries installation.executable = some (.file old) := hold
  refine Effect.Triple.bind (atomicWriteFile_triple
    (fun n more hmore _ hn => hnothing n (by omega) _ (by omega))
    fun n h9 h16 => hbackup n old 0 (Nat.zero_le _) hadmits hold (by omega) (by omega)) fun _ => ?_
  refine (atomicWriteFile_triple
    (fun n more hmore h9 h16 => hbackup n old _ (by omega) hadmits hold (by omega) (by omega))
    fun n h16 h18 => hboth n old hadmits hold (by omega) (by omega)).conseq (fun _ hs => hs)
    (fun _ s hs => ⟨hadmits, old, hold, hs⟩) fun _ _ hs => hs

/-- `rollback`: the executable is in place from the tenth operation on. -/
theorem rollback_triple {installation : Installation}
    (hnothing : ∀ n ≤ 10, ∀ left ≤ 1, P (folder.after n [] left))
    (hwritten : ∀ n backup, folder.entries (backupPath installation.executable) =
      some (.file backup) → 10 < n → n ≤ 12 →
      P (folder.after n [(installation.executable, backup)] 0)) :
    Effect.Triple (folder.At 0 [] 0) (installation.rollback succeeds)
      (fun _ s => ∃ backup, folder.entries (backupPath installation.executable) =
        some (.file backup) ∧ folder.At 12 [(installation.executable, backup)] 0 s)
      fun _ => P := by
  have hearly : ∀ n ≤ 10, P (folder.after n [] 0) := fun n hn => hnothing n hn 0 (Nat.zero_le _)
  refine Effect.Triple.bind (Q := fun _ => folder.At 0 [] 0)
    (Effect.Triple.failWhen_keeps fun _ => Folder.At.imp (hearly 0 (by omega))) fun _ => ?_
  refine Effect.Triple.bind (regularFile_triple fun n _ hn => hearly n (by omega)) fun _ => ?_
  refine Effect.Triple.bind (regularFile_triple fun n _ hn => hearly n (by omega)) fun _ => ?_
  refine Effect.Triple.bind (readFile_triple (hearly _ (by omega))) fun backup => ?_
  refine Effect.Triple.of_fact fun hbackup => ?_
  have hbackup : folder.entries (backupPath installation.executable) = some (.file backup) :=
    hbackup
  refine (atomicWriteFile_triple (fun n more hmore _ hn => hnothing n (by omega) _ (by omega))
    fun n h10 h12 => hwritten n backup hbackup (by omega) (by omega)).conseq (fun _ hs => hs)
    (fun _ s hs => ⟨backup, hbackup, hs⟩) fun _ _ hs => hs

/-- An operation changes no file. -/
theorem operation_keeps {error : InstallationError} (hP : ∀ s, P s → P s.counted) :
    Effect.Triple P (operation succeeds error) (fun _ => P) fun _ => P :=
  Effect.Triple.bind (Effect.Triple.ask hP) fun _ => Effect.Triple.failWhen_keeps fun _ hs => hs

/-- No file is renamed, and the only file that is written is the lock if it did not exist. -/
def OnlyLockWritten (executable : FileName) (folder locked : Folder) : Prop :=
  locked.renamed = folder.renamed ∧
    (locked.entries = folder.entries ∨ folder.entries (lockPath executable) = none ∧
      locked.entries = Function.update folder.entries (lockPath executable) (some (.file [])))

/-- `lock` writes no file but the lock. -/
theorem lock_triple {executable : FileName} {exclusive : Bool} :
    Effect.Triple (folder.At 0 [] 0) (Installation.lock succeeds executable exclusive)
      (fun _ => OnlyLockWritten executable folder)
      fun _ => OnlyLockWritten executable folder := by
  have hstart : ∀ n, OnlyLockWritten executable folder (folder.after n [] 0) :=
    fun n => ⟨List.append_nil _, Or.inl rfl⟩
  refine Effect.Triple.bind (regularFile_triple fun n _ _ => hstart n) fun _ => ?_
  refine Effect.Triple.bind (rejectSymlink_triple (hstart _)) fun _ => ?_
  refine Effect.Triple.bind (operation_triple (hstart _)) fun _ => ?_
  refine Effect.Triple.bind (Q := fun _ => OnlyLockWritten executable folder)
    (Effect.Triple.change ?_) fun _ => ?_
  · intro s hs
    rw [hs]
    split
    · next hnone => exact ⟨List.append_nil _, Or.inr ⟨Folder.entries_of_entry_eq_none hnone, rfl⟩⟩
    · exact hstart _
  · refine Effect.Triple.bind (operation_keeps fun _ hs => hs) fun _ => ?_
    refine Effect.Triple.bind (Q := fun _ => OnlyLockWritten executable folder)
      (Effect.Triple.read fun _ hs => hs) fun held => ?_
    refine Effect.Triple.bind (Effect.Triple.failWhen_keeps fun _ hs => hs) fun _ => ?_
    refine Effect.Triple.bind (Q := fun _ => OnlyLockWritten executable folder)
      (Effect.Triple.change fun _ hs => hs) fun _ => ?_
    exact Effect.Triple.ret fun _ hs => hs

end Succeeds

end Rcodex
