import Rcodex.Foundation.Dumps
import Rcodex.Update.Installation
import Rcodex.Update.Search

/-!
# The manifest of a release

A script writes the manifest of a release, and the updater reads it.  `Script.releaseManifest` is
the document that the script makes of the binaries in a directory.  The updater takes it for a
valid manifest, selects the asset of every binary from it, and replaces an executable by this
binary only (`releaseManifest_accepted`).
-/

namespace Rcodex

open Json Result

namespace Script

/-- Why the script stops. -/
inductive ScriptError where
  | unstableVersion
  | binarySize
  | noBinaries
  | unreadable
deriving DecidableEq

/-- The text of an error; that of the system is left out. -/
def ScriptError.text : ScriptError → String
  | .unstableVersion => "expected a stable semantic version"
  | .binarySize => "binary size outside updater limits"
  | .noBinaries => "no matching release binaries"
  | .unreadable => ""

/-- `TARGETS` -/
def targets : List String := ["aarch64-apple-darwin", "x86_64-apple-darwin"]

/-- A decimal digit. -/
def isDigit (c : Char) : Bool := 48 ≤ c.toNat && c.toNat ≤ 57

/-- A number without leading zeros. -/
def isNumber : List Char → Bool
  | [] => false
  | c :: cs => (c == '0' && cs.isEmpty) || (49 ≤ c.toNat && c.toNat ≤ 57 && cs.all isDigit)

/-- The pattern of `stable_version`: three numbers between full stops. -/
def isStable (value : String) : Bool :=
  match value.toList.splitOn '.' with
  | [major, minor, patch] => isNumber major && isNumber minor && isNumber patch
  | _ => false

/-- `stable_version`, of a text -/
def stableVersion (value : String) : Except ScriptError String := do
  bailWhen (isStable value = false) .unstableVersion
  return value

/-- What the directory has under a name. -/
inductive ReleaseFile where
  /-- No file. -/
  | missing
  /-- A file that cannot be read. -/
  | unreadable
  /-- A file with these bytes. -/
  | binary (data : List UInt8)
deriving DecidableEq

/-- The name of the binary for a target. -/
def binaryName (version target : String) : String := "rcodex-" ++ version ++ "-" ++ target

section Manifest

variable (sha256 : List UInt8 → String)

/-- The entry of a binary. -/
def asset (version target : String) (data : List UInt8) : Value :=
  .object [("name", .string (binaryName version target)), ("target", .string target),
    ("size", .ofU64 (UInt64.ofNat data.length)), ("sha256", .string (sha256 data))]

/-- The loop over the targets: the entries of these targets. -/
def collectAssets (version : String) (directory : String → ReleaseFile) :
    List String → Except ScriptError (List Value)
  | [] => .ok []
  | target :: targets => do
    match directory (binaryName version target) with
    | .missing => collectAssets version directory targets
    | .unreadable => .error .unreadable
    | .binary data =>
      bailWhen (data = [] ∨ 128 * 1024 * 1024 < data.length) .binarySize
      let assets ← collectAssets version directory targets
      return asset sha256 version target data :: assets

/-- `release_manifest` -/
def releaseManifest (version codexVersion : String) (directory : String → ReleaseFile) :
    Except ScriptError Value := do
  let _ ← stableVersion version
  let _ ← stableVersion codexVersion
  let assets ← collectAssets sha256 version directory targets
  bailWhen (assets = []) .noBinaries
  return .object [("schema_version", .ofU64 1), ("version", .string version),
    ("codex_versions", .array [.string codexVersion]), ("assets", .array assets)]

/-- What `main` writes of a manifest. -/
def manifestText (floatText : F64 → List UInt8) (manifest : Value) : List UInt8 :=
  dumps floatText manifest ++ [10]

end Manifest

/-! ### Versions -/

/-- The value of the digits of a number. -/
def numberValue (digits : List Char) : ℕ :=
  digits.foldl (fun n c => 10 * n + (c.toNat - 48)) 0

/-- The numbers of a version fit in 64 bits. -/
def FitsU64 (version : String) : Prop :=
  ∀ digits ∈ version.toList.splitOn '.', numberValue digits < 2 ^ 64

instance (version : String) : Decidable (FitsU64 version) :=
  inferInstanceAs (Decidable (∀ _ ∈ _, _))

/-- A stable version is returned as it is. -/
theorem eq_of_stableVersion {value version : String} (h : stableVersion value = .ok version) :
    value = version := by
  obtain ⟨-, -, heq⟩ := bind_eq_ok_iff.mp h
  exact pure_eq_ok_iff.mp heq

/-- A version that the script takes consists of three numbers. -/
theorem exists_of_stableVersion {value version : String}
    (h : stableVersion value = .ok version) :
    ∃ major minor patch, value = .ofList (major ++ '.' :: (minor ++ '.' :: patch)) ∧
      value.toList.splitOn '.' = [major, minor, patch] ∧
      isNumber major = true ∧ isNumber minor = true ∧ isNumber patch = true := by
  obtain ⟨_, hstable, -⟩ := bind_eq_ok_iff.mp h
  have hstable := bailWhen_eq_ok_iff.mp hstable
  rw [Bool.not_eq_false, isStable] at hstable
  split at hstable
  · next major minor patch hsplit =>
    rw [Bool.and_eq_true, Bool.and_eq_true] at hstable
    refine ⟨major, minor, patch, ?_, hsplit, hstable.1.1, hstable.1.2, hstable.2⟩
    have hjoin : ['.'].intercalate (value.toList.splitOn '.') = value.toList :=
      List.intercalate_splitOn '.'
    rw [hsplit] at hjoin
    rw [← String.toList_inj, String.toList_ofList, ← hjoin]
    simp [List.intercalate]
  · contradiction

/-- Only digits are in a number. -/
theorem isDigit_of_isNumber {digits : List Char} (h : isNumber digits = true) :
    ∀ c ∈ digits, isDigit c = true := by
  cases digits with
  | nil => simp
  | cons c digits =>
    rw [isNumber, Bool.or_eq_true, Bool.and_eq_true, Bool.and_eq_true, beq_iff_eq,
      List.isEmpty_iff] at h
    intro d hd
    rcases h with ⟨rfl, rfl⟩ | ⟨hfirst, hrest⟩
    · rw [List.mem_singleton.mp hd]
      decide
    · rcases List.mem_cons.mp hd with rfl | hd
      · simp only [isDigit, Bool.and_eq_true, decide_eq_true_eq] at hfirst ⊢
        omega
      · exact List.all_eq_true.mp hrest d hd

/-- A version that the script takes is printable. -/
theorem isPrintable_of_stableVersion {value version : String}
    (h : stableVersion value = .ok version) : IsPrintable value := by
  obtain ⟨major, minor, patch, rfl, -, hmajor, hminor, hpatch⟩ := exists_of_stableVersion h
  have hdigit : ∀ c, isDigit c = true → 32 ≤ c.toNat ∧ c.toNat ≤ 126 := by
    intro c hc
    simp only [isDigit, Bool.and_eq_true, decide_eq_true_eq] at hc
    omega
  intro c hc
  simp only [String.toList_ofList, List.mem_append, List.mem_cons] at hc
  rcases hc with hc | rfl | hc | rfl | hc
  · exact hdigit c (isDigit_of_isNumber hmajor c hc)
  · decide
  · exact hdigit c (isDigit_of_isNumber hminor c hc)
  · decide
  · exact hdigit c (isDigit_of_isNumber hpatch c hc)

/-! ### Binaries -/

/-- The binaries in the directory for these targets. -/
def binaries (version : String) (directory : String → ReleaseFile) (targets : List String) :
    List (String × List UInt8) :=
  targets.filterMap fun target => match directory (binaryName version target) with
    | .binary data => some (target, data)
    | _ => none

/-- Which binaries there are. -/
theorem mem_binaries_iff {version : String} {directory : String → ReleaseFile}
    {targets : List String} {target : String} {data : List UInt8} :
    (target, data) ∈ binaries version directory targets ↔
      target ∈ targets ∧ directory (binaryName version target) = .binary data := by
  rw [binaries, List.mem_filterMap]
  constructor
  · rintro ⟨other, hmem, heq⟩
    split at heq
    · next data' hfile =>
      obtain ⟨rfl, rfl⟩ := Prod.mk.inj (Option.some.inj heq)
      exact ⟨hmem, hfile⟩
    · contradiction
  · rintro ⟨hmem, hfile⟩
    exact ⟨target, hmem, by rw [hfile]⟩

/-- The targets of the binaries, in order. -/
theorem binaries_sublist (version : String) (directory : String → ReleaseFile)
    (targets : List String) :
    ((binaries version directory targets).map Prod.fst).Sublist targets := by
  induction targets with
  | nil => exact List.Sublist.slnil
  | cons target targets ih =>
    rw [binaries, List.filterMap_cons]
    split
    · exact ih.cons target
    · next binary heq =>
      split at heq
      · obtain rfl := Option.some.inj heq
        exact ih.cons_cons target
      · contradiction

/-- The entries are those of the binaries, whose sizes are within the limits. -/
theorem collectAssets_eq_ok {sha256 : List UInt8 → String} {version : String}
    {directory : String → ReleaseFile} {targets : List String} {assets : List Value}
    (h : collectAssets sha256 version directory targets = .ok assets) :
    assets = (binaries version directory targets).map
        (fun binary => asset sha256 version binary.1 binary.2) ∧
      ∀ binary ∈ binaries version directory targets,
        binary.2 ≠ [] ∧ binary.2.length ≤ maxBinaryBytes := by
  induction targets generalizing assets with
  | nil =>
    obtain rfl := Except.ok.inj h
    exact ⟨rfl, by simp [binaries]⟩
  | cons target targets ih =>
    rw [collectAssets] at h
    rw [binaries, List.filterMap_cons]
    cases hfile : directory (binaryName version target) with
    | missing =>
      rw [hfile] at h
      exact ih h
    | unreadable =>
      rw [hfile] at h
      contradiction
    | binary data =>
      rw [hfile] at h
      obtain ⟨_, hsize, h⟩ := bind_eq_ok_iff.mp h
      obtain ⟨rest, hrest, h⟩ := bind_eq_ok_iff.mp h
      obtain rfl := pure_eq_ok_iff.mp h
      obtain ⟨hne, hle⟩ := not_or.mp (bailWhen_eq_ok_iff.mp hsize)
      obtain ⟨rfl, hall⟩ := ih hrest
      refine ⟨rfl, List.forall_mem_cons.mpr ⟨⟨hne, ?_⟩, hall⟩⟩
      simpa [maxBinaryBytes] using hle

/-- What the script makes of the directory. -/
theorem releaseManifest_eq_ok {sha256 : List UInt8 → String} {version codexVersion : String}
    {directory : String → ReleaseFile} {document : Value}
    (h : releaseManifest sha256 version codexVersion directory = .ok document) :
    (∃ text, stableVersion version = .ok text) ∧ (∃ text, stableVersion codexVersion = .ok text) ∧
      binaries version directory targets ≠ [] ∧
      (∀ binary ∈ binaries version directory targets,
        binary.2 ≠ [] ∧ binary.2.length ≤ maxBinaryBytes) ∧
      document = .object [("schema_version", .ofU64 1), ("version", .string version),
        ("codex_versions", .array [.string codexVersion]),
        ("assets", .array ((binaries version directory targets).map
          fun binary => asset sha256 version binary.1 binary.2))] := by
  obtain ⟨text, hversion, h⟩ := bind_eq_ok_iff.mp h
  obtain ⟨text', hcodex, h⟩ := bind_eq_ok_iff.mp h
  obtain ⟨assets, hassets, h⟩ := bind_eq_ok_iff.mp h
  obtain ⟨_, hne, h⟩ := bind_eq_ok_iff.mp h
  obtain ⟨rfl, hall⟩ := collectAssets_eq_ok hassets
  have hne := bailWhen_eq_ok_iff.mp hne
  refine ⟨⟨text, hversion⟩, ⟨text', hcodex⟩, fun hnil => hne ?_, hall, (pure_eq_ok_iff.mp h).symm⟩
  rw [hnil, List.map_nil]

end Script

/-! ### What the updater reads -/

/-- What the libraries of the updater are documented to do. -/
structure UpdateTools.Documented (tools : UpdateTools) : Prop where
  /-- Three numbers below `2 ^ 64` are a version. -/
  parseVersion_eq : ∀ major minor patch, Script.isNumber major = true →
    Script.isNumber minor = true → Script.isNumber patch = true →
    Script.numberValue major < 2 ^ 64 → Script.numberValue minor < 2 ^ 64 →
    Script.numberValue patch < 2 ^ 64 →
    tools.parseVersion (.ofList (major ++ '.' :: (minor ++ '.' :: patch))) =
      some ⟨Script.numberValue major, Script.numberValue minor, Script.numberValue patch, "", ""⟩
  /-- A digest has 64 digits. -/
  sha256Hex_digits : ∀ bytes, (Text.utf8 (tools.sha256Hex bytes)).length = 64 ∧
    (Text.utf8 (tools.sha256Hex bytes)).all isLowerHex = true

/-- The asset of a binary. -/
def releaseAsset (tools : UpdateTools) (version : String) (binary : String × List UInt8) :
    ReleaseAsset where
  name := Script.binaryName version binary.1
  target := binary.1
  sha256 := tools.sha256Hex binary.2
  size := UInt64.ofNat binary.2.length

/-- The manifest of the binaries. -/
def binariesManifest (tools : UpdateTools) (version codexVersion : String)
    (binaries : List (String × List UInt8)) : ReleaseManifest where
  schemaVersion := 1
  version := version
  codexVersions := [codexVersion]
  assets := binaries.map (releaseAsset tools version)

section Accepted

variable {tools : UpdateTools}

/-- The entry of a binary is read as its asset. -/
theorem deserialize_asset (version : String) (binary : String × List UInt8) :
    ReleaseAsset.deserialize (Script.asset tools.sha256Hex version binary.1 binary.2) =
      some (releaseAsset tools version binary) := rfl

/-- The document of the script is read as the manifest of the binaries. -/
theorem deserialize_manifest (version codexVersion : String)
    (binaries : List (String × List UInt8)) :
    ReleaseManifest.deserialize (.object [("schema_version", .ofU64 1),
      ("version", .string version), ("codex_versions", .array [.string codexVersion]),
      ("assets", .array (binaries.map
        fun binary => Script.asset tools.sha256Hex version binary.1 binary.2))]) =
      some (binariesManifest tools version codexVersion binaries) := by
  have hassets : (binaries.map fun binary =>
      Script.asset tools.sha256Hex version binary.1 binary.2).mapM ReleaseAsset.deserialize =
      some (binaries.map (releaseAsset tools version)) := by
    induction binaries with
    | nil => rfl
    | cons binary binaries ih =>
      rw [List.map_cons, List.mapM_cons, deserialize_asset, ih]
      rfl
  change ((_ : List Value).mapM ReleaseAsset.deserialize).bind
    (fun assets => some (⟨1, version, [codexVersion], assets⟩ : ReleaseManifest)) = _
  rw [hassets]
  rfl

/-- A version that the script takes is stable for the updater. -/
theorem exists_stableVersion (h : tools.Documented) {value text : String}
    (hvalue : Script.stableVersion value = .ok text) (hfits : Script.FitsU64 value) :
    ∃ version, stableVersion tools value = .ok version := by
  obtain ⟨major, minor, patch, heq, hsplit, hmajor, hminor, hpatch⟩ :=
    Script.exists_of_stableVersion hvalue
  rw [Script.FitsU64, hsplit] at hfits
  have hparse := h.parseVersion_eq major minor patch hmajor hminor hpatch (hfits major (by simp))
    (hfits minor (by simp)) (hfits patch (by simp))
  rw [← heq] at hparse
  refine ⟨⟨Script.numberValue major, Script.numberValue minor, Script.numberValue patch⟩, ?_⟩
  rw [stableVersion, hparse]
  rfl

/-- Valid assets with different targets pass the loop. -/
theorem validateAssets_eq_ok {version : String} {seen : List String} {assets : List ReleaseAsset}
    (htargets : (assets.map ReleaseAsset.target).Nodup)
    (hvalid : ∀ asset ∈ assets, IsValidAsset version seen asset) :
    validateAssets version seen assets = .ok () := by
  induction assets generalizing seen with
  | nil => rfl
  | cons asset assets ih =>
    obtain ⟨hasset, hassets⟩ := List.forall_mem_cons.mp hvalid
    obtain ⟨hnew, hnodup⟩ := List.nodup_cons.mp htargets
    rw [validateAssets, bailWhen_bind, if_neg (not_not.mpr hasset)]
    refine ih hnodup fun other hother => ?_
    obtain ⟨htarget, hseen, hrest⟩ := hassets other hother
    refine ⟨htarget, fun hmem => ?_, hrest⟩
    rcases List.mem_cons.mp hmem with heq | hmem
    · exact hnew (heq ▸ List.mem_map_of_mem hother)
    · exact hseen hmem

/-- The size of a binary within the limits. -/
theorem toNat_size (tools : UpdateTools) (version : String) {binary : String × List UInt8}
    (hle : binary.2.length ≤ maxBinaryBytes) :
    (releaseAsset tools version binary).size.toNat = binary.2.length := by
  have hlt : binary.2.length < 2 ^ 64 := hle.trans_lt (by decide)
  exact Nat.mod_eq_of_lt hlt

/-- The asset of a binary is valid. -/
theorem isValidAsset_releaseAsset (h : tools.Documented) {version : String}
    {binary : String × List UInt8} (htarget : binary.1 ∈ Script.targets) (hne : binary.2 ≠ [])
    (hle : binary.2.length ≤ maxBinaryBytes) :
    IsValidAsset version [] (releaseAsset tools version binary) := by
  obtain ⟨hlength, hdigits⟩ := h.sha256Hex_digits binary.2
  have hsize := toNat_size tools version hle
  have htarget : binary.1 = "aarch64-apple-darwin" ∨ binary.1 = "x86_64-apple-darwin" := by
    simpa [Script.targets] using htarget
  refine ⟨htarget, by simp, rfl, hlength, hdigits, fun hzero => ?_, hsize.trans_le hle⟩
  rw [hzero] at hsize
  exact hne (List.length_eq_zero_iff.mp hsize.symm)

/-- The manifest of the binaries is valid. -/
theorem validate_binariesManifest (h : tools.Documented) {version codexVersion : String}
    {binaries : List (String × List UInt8)}
    (hversion : ∃ stable, stableVersion tools version = .ok stable)
    (hcodex : ∃ stable, stableVersion tools codexVersion = .ok stable) (hne : binaries ≠ [])
    (htargets : (binaries.map Prod.fst).Sublist Script.targets)
    (hsizes : ∀ binary ∈ binaries, binary.2 ≠ [] ∧ binary.2.length ≤ maxBinaryBytes) :
    (binariesManifest tools version codexVersion binaries).validate tools = .ok () := by
  obtain ⟨stable, hversion⟩ := hversion
  obtain ⟨stable', hcodex⟩ := hcodex
  refine bind_eq_ok_iff.mpr ⟨stable, hversion, bind_eq_ok_iff.mpr ⟨(), ?_,
    bind_eq_ok_iff.mpr ⟨[stable'], ?_, ?_⟩⟩⟩
  · have hlength : binaries.length ≤ 2 := by
      have hle := htargets.length_le
      rwa [List.length_map] at hle
    rw [bailWhen_eq_ok_iff]
    simpa [binariesManifest, hne] using hlength
  · rw [binariesManifest, List.mapM_cons, hcodex]
    rfl
  · refine validateAssets_eq_ok ?_ fun asset hasset => ?_
    · have hnodup : (binaries.map Prod.fst).Nodup := htargets.nodup (by decide)
      rwa [binariesManifest, List.map_map]
    · obtain ⟨binary, hmem, rfl⟩ := List.mem_map.mp hasset
      exact isValidAsset_releaseAsset h (htargets.subset (List.mem_map_of_mem hmem))
        (hsizes binary hmem).1 (hsizes binary hmem).2

/-- The asset of a binary is selected from the manifest. -/
theorem select_binariesManifest {version codexVersion current : String}
    {binaries : List (String × List UInt8)}
    (hvalid : (binariesManifest tools version codexVersion binaries).validate tools = .ok ())
    {stable currentVersion : StableVersion} (hversion : stableVersion tools version = .ok stable)
    (hcurrent : stableVersion tools current = .ok currentVersion) (hlt : currentVersion < stable)
    {binary : String × List UInt8} (hmem : binary ∈ binaries) :
    (binariesManifest tools version codexVersion binaries).select tools current codexVersion
      codexVersion binary.1 = .ok (some (releaseAsset tools version binary)) := by
  have hasset : releaseAsset tools version binary ∈
      (binariesManifest tools version codexVersion binaries).assets := List.mem_map_of_mem hmem
  have hfind : (binariesManifest tools version codexVersion binaries).assets.find?
      (fun asset => asset.target = binary.1) = some (releaseAsset tools version binary) := by
    have hsome : ((binariesManifest tools version codexVersion binaries).assets.find?
        (fun asset => asset.target = binary.1)).isSome = true := by
      rw [List.find?_isSome]
      exact ⟨_, hasset, decide_eq_true rfl⟩
    obtain ⟨asset, hfound⟩ := Option.isSome_iff_exists.mp hsome
    have htarget : asset.target = binary.1 := by simpa using List.find?_some hfound
    rw [hfound, eq_of_target_eq hvalid hasset (List.mem_of_find?_eq_some hfound) htarget]
  refine bind_eq_ok_iff.mpr ⟨(), hvalid, bind_eq_ok_iff.mpr ⟨stable, hversion,
    bind_eq_ok_iff.mpr ⟨currentVersion, hcurrent, ?_⟩⟩⟩
  rw [if_neg, pure_eq_ok_iff, hfind]
  simp [binariesManifest, hlt]

end Accepted

/-! ### The binary that replaces an executable -/

/-- The computation does not complain about the binary. -/
def AcceptsBinary {α : Type} (m : FileEffect α) : Prop :=
  Effect.Triple (fun _ => True) m (fun _ _ => True) fun error _ => error ≠ .wrongBinary

namespace AcceptsBinary

variable {α β : Type} {succeeds : ℕ → Bool}

/-- A sequence. -/
theorem bind {m : FileEffect α} {f : α → FileEffect β} (hm : AcceptsBinary m)
    (hf : ∀ a, AcceptsBinary (f a)) : AcceptsBinary (m >>= f) :=
  Effect.Triple.bind hm hf

/-- A check with another error. -/
theorem failWhen {error : InstallationError} (h : error ≠ .wrongBinary) (p : Prop) [Decidable p] :
    AcceptsBinary (Effect.failWhen p error) :=
  Effect.Triple.failWhen_keeps fun _ _ => h

/-- A look at the directory. -/
theorem read (f : Folder → α) : AcceptsBinary (Effect.read f : FileEffect α) :=
  Effect.Triple.read fun _ _ => trivial

/-- A single operation. -/
theorem operation {error : InstallationError} (h : error ≠ .wrongBinary) :
    AcceptsBinary (operation succeeds error) :=
  bind (Effect.Triple.ask fun _ _ => trivial) fun _ => failWhen h _

/-- A look at a file. -/
theorem rejectSymlink (name : FileName) : AcceptsBinary (rejectSymlink succeeds name) :=
  bind (operation (by simp)) fun _ => bind (read _) fun _ => failWhen (by simp) _

/-- A file that has to exist. -/
theorem regularFile (name : FileName) : AcceptsBinary (regularFile succeeds name) :=
  bind (rejectSymlink name) fun _ => bind (operation (by simp)) fun _ =>
    bind (read _) fun _ => failWhen (by simp) _

/-- What is read from a file. -/
theorem readFile (name : FileName) : AcceptsBinary (readFile succeeds name) := by
  refine bind (operation (by simp)) fun _ => bind (read _) fun entry => ?_
  split
  · exact Effect.Triple.ret fun _ _ => trivial
  · exact Effect.Triple.fail fun _ _ => by simp

/-- A change of the directory. -/
theorem change (f : Folder → Folder) : AcceptsBinary (Effect.change f : FileEffect Unit) :=
  Effect.Triple.change fun _ _ => trivial

/-- An operation on the temporary file. -/
theorem temporaryOperation : AcceptsBinary (temporaryOperation succeeds) := by
  refine bind (Effect.Triple.ask fun _ _ => trivial) fun ok => ?_
  split_ifs
  · exact Effect.Triple.ret fun _ _ => trivial
  · refine bind (bind (Effect.Triple.ask fun _ _ => trivial) fun _ => change _) fun _ => ?_
    exact Effect.Triple.fail fun _ _ => by simp

/-- A file that is written. -/
theorem atomicWriteFile (name : FileName) (bytes : List UInt8) :
    AcceptsBinary (atomicWriteFile succeeds name bytes) := by
  have hoperation : AcceptsBinary (Rcodex.operation succeeds .operation) := operation (by simp)
  have hpersist : AcceptsBinary (persist succeeds name bytes) :=
    bind (operation (by simp)) fun _ => change _
  exact bind (bind hoperation fun _ => change _) fun _ => bind temporaryOperation fun _ =>
    bind temporaryOperation fun _ => bind temporaryOperation fun _ => bind hpersist fun _ =>
      bind hoperation fun _ => hoperation

end AcceptsBinary

/-- `replace` complains about the binary if and only if it does not admit it. -/
theorem replace_wrongBinary_iff (tools : UpdateTools) (succeeds : ℕ → Bool)
    {installation : Installation} (hexclusive : installation.exclusive = true)
    (bytes : List UInt8) (asset : ReleaseAsset) (folder : Folder) :
    (installation.replace tools succeeds bytes asset folder).1 = .error .wrongBinary ↔
      ¬installation.Admits tools bytes asset := by
  have hfree : ¬installation.exclusive = false := by simp [hexclusive]
  have hrest : AcceptsBinary (do
      regularFile succeeds installation.executable
      rejectSymlink succeeds (backupPath installation.executable)
      let executable ← readFile succeeds installation.executable
      atomicWriteFile succeeds (backupPath installation.executable) executable
      atomicWriteFile succeeds installation.executable bytes) :=
    .bind (.regularFile _) fun _ => .bind (.rejectSymlink _) fun _ => .bind (.readFile _) fun _ =>
      .bind (.atomicWriteFile _ _) fun _ => .atomicWriteFile _ _
  rw [Installation.replace, Effect.failWhen_bind, if_neg hfree, Effect.failWhen_bind]
  split_ifs with hwrong
  · refine ⟨fun _ hadmits => ?_, fun _ => rfl⟩
    exact hwrong.elim (absurd hadmits.2.1) (absurd hadmits.2.2)
  · obtain ⟨hsize, hdigest⟩ := not_or.mp hwrong
    refine ⟨fun herror => ?_, fun hadmits => ?_⟩
    · exact absurd rfl (hrest.of_error trivial herror)
    · exact absurd ⟨hexclusive, not_not.mp hsize, not_not.mp hdigest⟩ hadmits

/-- Other bytes of the same length with the same digest. -/
def IsCollision (tools : UpdateTools) (bytes data : List UInt8) : Prop :=
  bytes ≠ data ∧ bytes.length = data.length ∧ tools.sha256Hex bytes = tools.sha256Hex data

/-- The asset of a binary admits the binary and what collides with it. -/
theorem admits_releaseAsset_iff {tools : UpdateTools} {installation : Installation}
    (hexclusive : installation.exclusive = true) (version : String)
    {binary : String × List UInt8} (hle : binary.2.length ≤ maxBinaryBytes) (bytes : List UInt8) :
    installation.Admits tools bytes (releaseAsset tools version binary) ↔
      bytes = binary.2 ∨ IsCollision tools bytes binary.2 := by
  rw [Installation.Admits, toNat_size tools version hle]
  constructor
  · rintro ⟨-, hlength, hdigest⟩
    by_cases heq : bytes = binary.2
    · exact Or.inl heq
    · exact Or.inr ⟨heq, hlength, hdigest⟩
  · rintro (rfl | ⟨-, hlength, hdigest⟩)
    · exact ⟨hexclusive, rfl, rfl⟩
    · exact ⟨hexclusive, hlength, hdigest⟩

/-! ### What the script writes -/

/-- A digest is printable. -/
theorem isPrintable_sha256Hex {tools : UpdateTools} (h : tools.Documented) (bytes : List UInt8) :
    IsPrintable (tools.sha256Hex bytes) := by
  intro c hc
  have hmem : ∀ b ∈ String.utf8EncodeChar c, isLowerHex b = true := fun b hb =>
    List.all_eq_true.mp (h.sha256Hex_digits bytes).2 b (List.mem_flatMap.mpr ⟨c, hc, hb⟩)
  by_cases hlt : c.toNat < 128
  · rw [Text.utf8EncodeChar_of_lt hlt, List.forall_mem_singleton] at hmem
    simp only [isLowerHex, Bool.or_eq_true, Bool.and_eq_true, decide_eq_true_eq,
      UInt8.le_iff_toNat_le, UInt8.reduceToNat, UInt8.toNat_ofNat'] at hmem
    omega
  · obtain ⟨b, rest, hbytes⟩ := List.exists_cons_of_ne_nil (String.utf8EncodeChar_ne_nil (c := c))
    have hb : b ∈ String.utf8EncodeChar c := by simp [hbytes]
    have hle := Text.le_of_mem_utf8EncodeChar (Nat.le_of_not_lt hlt) hb
    have hdigit := hmem b hb
    simp only [isLowerHex, Bool.or_eq_true, Bool.and_eq_true, decide_eq_true_eq,
      UInt8.le_iff_toNat_le, UInt8.reduceToNat] at hdigit
    omega

/-- Printable parts make a printable name. -/
theorem isPrintable_binaryName {version target : String} (hversion : IsPrintable version)
    (htarget : IsPrintable target) : IsPrintable (Script.binaryName version target) := by
  have hstart : IsPrintable "rcodex-" ∧ IsPrintable "-" := by decide
  intro c hc
  simp only [Script.binaryName, String.toList_append, List.mem_append] at hc
  rcases hc with ((hc | hc) | hc) | hc
  · exact hstart.1 c hc
  · exact hversion c hc
  · exact hstart.2 c hc
  · exact htarget c hc

/-- The manifest of the script is printable. -/
theorem printable_releaseManifest {tools : UpdateTools} (h : tools.Documented)
    {version codexVersion : String} {directory : String → Script.ReleaseFile} {document : Value}
    (hmanifest : Script.releaseManifest tools.sha256Hex version codexVersion directory =
      .ok document) : document.Printable := by
  obtain ⟨⟨text, htext⟩, ⟨text', htext'⟩, -, -, rfl⟩ := Script.releaseManifest_eq_ok hmanifest
  have hversion := Script.isPrintable_of_stableVersion htext
  have hcodex := Script.isPrintable_of_stableVersion htext'
  have hkeys : ∀ key ∈ ["schema_version", "version", "codex_versions", "assets", "name", "target",
      "size", "sha256"], IsPrintable key := by decide
  have htargets : ∀ target ∈ Script.targets, IsPrintable target := by decide
  have hasset : ∀ binaries : List (String × List UInt8), (∀ binary ∈ binaries,
      binary.1 ∈ Script.targets) → Value.PrintableList (binaries.map
        fun binary => Script.asset tools.sha256Hex version binary.1 binary.2) := by
    intro binaries hbinaries
    induction binaries with
    | nil => trivial
    | cons binary binaries ih =>
      obtain ⟨hbinary, hrest⟩ := List.forall_mem_cons.mp hbinaries
      have htarget := htargets _ hbinary
      exact ⟨⟨hkeys _ (by simp), isPrintable_binaryName hversion htarget, hkeys _ (by simp),
        htarget, hkeys _ (by simp), trivial, hkeys _ (by simp), isPrintable_sha256Hex h _,
        trivial⟩, ih hrest⟩
  exact ⟨hkeys _ (by simp), trivial, hkeys _ (by simp), hversion, hkeys _ (by simp),
    ⟨hcodex, trivial⟩, hkeys _ (by simp), hasset _ fun binary hmem =>
      (Script.mem_binaries_iff.mp hmem).1, trivial⟩

/-- What the script writes for a set of binaries is a valid manifest for the updater.  It selects
the asset of each binary from it for any older version, and an executable is replaced by the bytes
of the binary and by nothing else, up to collisions. -/
theorem releaseManifest_accepted {tools : UpdateTools} (h : tools.Documented)
    {version codexVersion : String} (hversion : Script.FitsU64 version)
    (hcodex : Script.FitsU64 codexVersion) {directory : String → Script.ReleaseFile}
    {document : Value} (floatText : F64 → List UInt8)
    (hmanifest : Script.releaseManifest tools.sha256Hex version codexVersion directory =
      .ok document)
    (hparse : tools.parse (toVecPretty floatText document ++ [10]) = some document) :
    ∃ manifest,
      (tools.parse (Script.manifestText floatText document)).bind ReleaseManifest.deserialize =
        some manifest ∧
      manifest.validate tools = .ok () ∧
      ∀ target ∈ Script.targets, ∀ data,
        directory (Script.binaryName version target) = .binary data →
        ∃ asset : ReleaseAsset, asset.target = target ∧
          (∀ current currentVersion stable, stableVersion tools current = .ok currentVersion →
            stableVersion tools version = .ok stable → currentVersion < stable →
            manifest.select tools current codexVersion codexVersion target = .ok (some asset)) ∧
          ∀ (installation : Installation) (succeeds : ℕ → Bool) (folder : Folder)
            (bytes : List UInt8), installation.exclusive = true →
            ((installation.replace tools succeeds bytes asset folder).1 = .error .wrongBinary ↔
              ¬(bytes = data ∨ IsCollision tools bytes data)) := by
  obtain ⟨⟨text, htext⟩, ⟨text', htext'⟩, hne, hsizes, heq⟩ :=
    Script.releaseManifest_eq_ok hmanifest
  have hvalid := validate_binariesManifest h (exists_stableVersion h htext hversion)
    (exists_stableVersion h htext' hcodex) hne (Script.binaries_sublist version directory _) hsizes
  refine ⟨_, ?_, hvalid, fun target htarget data hdata => ?_⟩
  · rw [Script.manifestText, dumps_eq_toVecPretty _ (printable_releaseManifest h hmanifest), hparse,
      Option.bind_some, heq]
    exact deserialize_manifest version codexVersion _
  · have hmem : (target, data) ∈ Script.binaries version directory Script.targets :=
      Script.mem_binaries_iff.mpr ⟨htarget, hdata⟩
    refine ⟨releaseAsset tools version (target, data), rfl, ?_, ?_⟩
    · intro current currentVersion stable hcurrent hstable hlt
      exact select_binariesManifest hvalid hstable hcurrent hlt hmem
    · intro installation succeeds folder bytes hexclusive
      rw [replace_wrongBinary_iff tools succeeds hexclusive,
        admits_releaseAsset_iff hexclusive version (hsizes _ hmem).2]

/-! ### One release -/

/-- A directory with one binary. -/
def exampleDirectory (name : String) : Script.ReleaseFile :=
  if name = "rcodex-0.2.0-aarch64-apple-darwin" then .binary (Text.utf8 "example binary")
  else .missing

/-- Its manifest. -/
def exampleManifest : Value :=
  .object [("schema_version", .ofU64 1), ("version", .string "0.2.0"),
    ("codex_versions", .array [.string "0.153.0"]), ("assets", .array [.object
      [("name", .string "rcodex-0.2.0-aarch64-apple-darwin"),
        ("target", .string "aarch64-apple-darwin"), ("size", .ofU64 14), ("sha256", .string
          "f401fc3ba33b996c7478b5b9a67f412970f7ebb87ab1a9a8ea4c7c027b50a5b2")]])]

/-- Libraries that know this manifest, stable versions and the digest of this binary. -/
def manifestTools : UpdateTools where
  parse := fun bytes =>
    if bytes = toVecPretty (fun _ => []) exampleManifest ++ [10] then some exampleManifest else none
  parseVersion := fun value => match value.toList.splitOn '.' with
    | [major, minor, patch] =>
      if Script.isNumber major ∧ Script.isNumber minor ∧ Script.isNumber patch ∧
        Script.numberValue major < 2 ^ 64 ∧ Script.numberValue minor < 2 ^ 64 ∧
        Script.numberValue patch < 2 ^ 64 then
        some ⟨Script.numberValue major, Script.numberValue minor, Script.numberValue patch, "", ""⟩
      else none
    | _ => none
  sha256Hex := fun bytes => if bytes = Text.utf8 "example binary" then
    "f401fc3ba33b996c7478b5b9a67f412970f7ebb87ab1a9a8ea4c7c027b50a5b2"
    else "0000000000000000000000000000000000000000000000000000000000000000"

/-- They do what is documented. -/
theorem documented_manifestTools : manifestTools.Documented where
  parseVersion_eq := fun major minor patch hmajor hminor hpatch hmajor' hminor' hpatch' => by
    have hdot : ∀ {digits}, Script.isNumber digits = true → '.' ∉ digits := by
      intro digits hdigits hmem
      exact absurd (Script.isDigit_of_isNumber hdigits _ hmem) (by decide)
    have hsplit : (major ++ '.' :: (minor ++ '.' :: patch)).splitOn '.' =
        [major, minor, patch] := by
      rw [List.splitOn_append_cons_self_of_not_mem (hdot hmajor),
        List.splitOn_append_cons_self_of_not_mem (hdot hminor),
        List.splitOn_eq_singleton (hdot hpatch)]
    simp only [manifestTools, String.toList_ofList, hsplit]
    exact if_pos ⟨hmajor, hminor, hpatch, hmajor', hminor', hpatch'⟩
  sha256Hex_digits := fun bytes => by
    simp only [manifestTools]
    split_ifs
    · decide
    · decide

/-- The manifest of one binary is accepted, and its binary is selected for an older version. -/
theorem releaseManifest_accepted_example :
    Script.releaseManifest manifestTools.sha256Hex "0.2.0" "0.153.0" exampleDirectory =
        .ok exampleManifest ∧
      ∃ manifest, (manifestTools.parse (Script.manifestText (fun _ => []) exampleManifest)).bind
          ReleaseManifest.deserialize = some manifest ∧
        manifest.validate manifestTools = .ok () ∧ ∃ asset,
          manifest.select manifestTools "0.1.0" "0.153.0" "0.153.0" "aarch64-apple-darwin" =
            .ok (some asset) := by
  have hmanifest : Script.releaseManifest manifestTools.sha256Hex "0.2.0" "0.153.0"
      exampleDirectory = .ok exampleManifest := by decide +kernel
  have hparse : manifestTools.parse (toVecPretty (fun _ => []) exampleManifest ++ [10]) =
      some exampleManifest := by
    simp only [manifestTools, if_true]
  obtain ⟨manifest, hread, hvalid, hbinary⟩ := releaseManifest_accepted documented_manifestTools
    (by decide) (by decide) (fun _ => []) hmanifest hparse
  obtain ⟨asset, -, hselect, -⟩ := hbinary "aarch64-apple-darwin" (by decide)
    (Text.utf8 "example binary") (by decide)
  have holder : stableVersion manifestTools "0.1.0" = .ok ⟨0, 1, 0⟩ := by decide
  have hnewer : stableVersion manifestTools "0.2.0" = .ok ⟨0, 2, 0⟩ := by decide
  exact ⟨hmanifest, manifest, hread, hvalid, asset,
    hselect _ _ _ holder hnewer (by decide)⟩

end Rcodex
