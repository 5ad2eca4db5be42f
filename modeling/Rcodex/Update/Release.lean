import Rcodex.Foundation.Decode
import Rcodex.Foundation.Result
import Rcodex.Foundation.Text
import Mathlib.Data.Prod.Lex
import Mathlib.Order.Lattice.Nat

/-!
# Releases and their manifests

A release of the repository has a tag and a list of files, among them a manifest.  The manifest
names the version, the Codex versions it works with and one binary for each target, with its size
and digest.  `ReleaseManifest.validate` and `ReleaseManifest.select` are the checks a manifest has
to pass, `candidates` picks the releases that are worth a look, newest first.

`select_eq_some` collects what a manifest that is selected from has passed.
-/

namespace Rcodex

open Json Result

/-- `MANIFEST_NAME` -/
def manifestName : String := "rcodex-update.json"

/-- `MAX_BINARY_BYTES` -/
def maxBinaryBytes : ℕ := 128 * 1024 * 1024

/-- `MAX_METADATA_BYTES` -/
def maxMetadataBytes : ℕ := 256 * 1024

/-- The errors of an update. -/
inductive UpdateError where
  | invalidVersion
  | unstableVersion
  | invalidManifest
  | invalidAsset
  | codexMismatch (localVersion remoteVersion : String)
  | request
  | tooLarge
  | releases
  | tooManyReleases
  | attestation
  | manifest
  | wrongTag
  | missingBinary
  | notExclusive
  | rollbackNotExclusive
  | wrongBinary
  | file
  | missingFile
deriving DecidableEq

/-- The text of an error, as the source reports it; the texts of the libraries are left out. -/
def UpdateError.text : UpdateError → String
  | .invalidVersion => "invalid stable version"
  | .unstableVersion => "updates require a stable version without build metadata"
  | .invalidManifest => "invalid update manifest shape or schema version"
  | .invalidAsset => "invalid or duplicate update asset"
  | .codexMismatch localVersion remoteVersion => "local Codex " ++ localVersion ++
      " and remote Codex " ++ remoteVersion ++ " must match before updating rcodex"
  | .tooLarge => "update download exceeds size limit"
  | .tooManyReleases => "too many releases in update response"
  | .attestation => "GitHub attestation verification failed; check `gh auth status` and " ++
      "release provenance"
  | .wrongTag => "signed manifest does not match release tag"
  | .missingBinary => "signed binary is missing from release"
  | .notExclusive => "installation requires an exclusive lock"
  | .rollbackNotExclusive => "rollback requires an exclusive lock"
  | .wrongBinary => "update binary failed size or SHA-256 verification"
  | .missingFile => "update file does not exist"
  | .request | .releases | .manifest | .file => ""

/-- A semantic version, as the parser of the library gives it. -/
structure SemanticVersion where
  /-- The first number. -/
  major : ℕ
  /-- The second number. -/
  minor : ℕ
  /-- The third number. -/
  patch : ℕ
  /-- The pre-release part. -/
  pre : String
  /-- The build metadata. -/
  build : String
deriving DecidableEq

/-- A version without pre-release part and build metadata. -/
structure StableVersion where
  /-- The first number. -/
  major : ℕ
  /-- The second number. -/
  minor : ℕ
  /-- The third number. -/
  patch : ℕ
deriving DecidableEq

/-- Versions are compared number by number. -/
instance : LinearOrder StableVersion :=
  LinearOrder.lift' (fun v => toLex (v.major, toLex (v.minor, v.patch))) fun v w h => by
    obtain ⟨major, minor, patch⟩ := v
    obtain ⟨major', minor', patch'⟩ := w
    simpa using h

/-- `ReleaseAsset` -/
structure ReleaseAsset where
  /-- The name of the file. -/
  name : String
  /-- The target it is built for. -/
  target : String
  /-- Its digest, in hexadecimal. -/
  sha256 : String
  /-- Its size. -/
  size : UInt64
deriving DecidableEq

/-- `ReleaseManifest` -/
structure ReleaseManifest where
  /-- The version of the format. -/
  schemaVersion : UInt32
  /-- The version of the release. -/
  version : String
  /-- The Codex versions it works with. -/
  codexVersions : List String
  /-- The binaries. -/
  assets : List ReleaseAsset
deriving DecidableEq

/-- `GitHubRelease`; of its assets only the names are read. -/
structure GitHubRelease where
  /-- The tag. -/
  tagName : String
  /-- Whether it is a draft. -/
  draft : Bool
  /-- Whether it is a pre-release. -/
  prerelease : Bool
  /-- The names of the assets. -/
  assets : List String
deriving DecidableEq

/-- The asset a document denotes. -/
def ReleaseAsset.deserialize (document : Value) : Option ReleaseAsset := do
  match ← structFields ["name", "target", "sha256", "size"] document with
  | [name, target, sha256, size] =>
    return { name := ← name.asStr, target := ← target.asStr, sha256 := ← sha256.asStr,
             size := ← size.asU64 }
  | _ => none

/-- The manifest a document denotes. -/
def ReleaseManifest.deserialize (document : Value) : Option ReleaseManifest := do
  match ← structFields ["schema_version", "version", "codex_versions", "assets"] document with
  | [schemaVersion, version, codexVersions, assets] =>
    return { schemaVersion := ← schemaVersion.asU32, version := ← version.asStr,
             codexVersions := ← codexVersions.asListOf Value.asStr,
             assets := ← assets.asListOf ReleaseAsset.deserialize }
  | _ => none

/-- The name of the asset a document denotes. -/
def gitHubAssetName (document : Value) : Option String := do
  match ← openFields ["name"] document with
  | [name] => (← name).asStr
  | _ => none

/-- The release a document denotes. -/
def GitHubRelease.deserialize (document : Value) : Option GitHubRelease := do
  match ← openFields ["tag_name", "draft", "prerelease", "assets"] document with
  | [tagName, draft, prerelease, assets] =>
    return { tagName := ← (← tagName).asStr, draft := ← (← draft).asBool,
             prerelease := ← (← prerelease).asBool,
             assets := ← (← assets).asListOf gitHubAssetName }
  | _ => none

/-- What the updater gets from its libraries. -/
structure UpdateTools where
  /-- The JSON parser. -/
  parse : List UInt8 → Option Value
  /-- The parser of versions. -/
  parseVersion : String → Option SemanticVersion
  /-- The SHA-256 digest in lower-case hexadecimal. -/
  sha256Hex : List UInt8 → String

section Tools

variable (tools : UpdateTools)

/-- `stable_version` -/
def stableVersion (value : String) : Except UpdateError StableVersion := do
  let version ← context .invalidVersion (tools.parseVersion value)
  bailWhen (version.pre ≠ "" ∨ version.build ≠ "") .unstableVersion
  return ⟨version.major, version.minor, version.patch⟩

/-- A lower-case hexadecimal digit. -/
def isLowerHex (b : UInt8) : Bool := (48 ≤ b && b ≤ 57) || (97 ≤ b && b ≤ 102)

/-- What the loop over the assets checks of one of them; `seen` are the targets of the earlier
ones. -/
def IsValidAsset (version : String) (seen : List String) (asset : ReleaseAsset) : Prop :=
  (asset.target = "aarch64-apple-darwin" ∨ asset.target = "x86_64-apple-darwin") ∧
    asset.target ∉ seen ∧ asset.name = "rcodex-" ++ version ++ "-" ++ asset.target ∧
    (Text.utf8 asset.sha256).length = 64 ∧ (Text.utf8 asset.sha256).all isLowerHex = true ∧
    asset.size ≠ 0 ∧ asset.size.toNat ≤ maxBinaryBytes

instance (version : String) (seen : List String) (asset : ReleaseAsset) :
    Decidable (IsValidAsset version seen asset) := by
  unfold IsValidAsset
  infer_instance

/-- The loop over the assets. -/
def validateAssets (version : String) :
    List String → List ReleaseAsset → Except UpdateError Unit
  | _, [] => .ok ()
  | seen, asset :: assets => do
    bailWhen (¬IsValidAsset version seen asset) .invalidAsset
    validateAssets version (asset.target :: seen) assets

/-- `ReleaseManifest::validate` -/
def ReleaseManifest.validate (manifest : ReleaseManifest) : Except UpdateError Unit := do
  let _ ← stableVersion tools manifest.version
  bailWhen (manifest.schemaVersion ≠ 1 ∨ manifest.codexVersions = [] ∨
    32 < manifest.codexVersions.length ∨ manifest.assets = [] ∨ 2 < manifest.assets.length)
    .invalidManifest
  let _ ← manifest.codexVersions.mapM (stableVersion tools)
  validateAssets manifest.version [] manifest.assets

/-- `ReleaseManifest::select` -/
def ReleaseManifest.select (manifest : ReleaseManifest)
    (current localVersion remoteVersion target : String) :
    Except UpdateError (Option ReleaseAsset) := do
  manifest.validate tools
  let version ← stableVersion tools manifest.version
  let currentVersion ← stableVersion tools current
  if version ≤ currentVersion ∨ localVersion ≠ remoteVersion ∨
    localVersion ∉ manifest.codexVersions then return none
  return manifest.assets.find? fun asset => asset.target = target

/-- The version a tag names, if it is `v` and a stable version. -/
def tagVersion (tag : String) : Option StableVersion :=
  match tag.toList with
  | 'v' :: version => (stableVersion tools (String.ofList version)).toOption
  | _ => none

/-- What the releases are sorted by. -/
def releaseKey (release : GitHubRelease) : StableVersion :=
  (tagVersion tools release.tagName).getD ⟨0, 0, 0⟩

/-- The releases `find` looks at: stable ones newer than the running version, newest first. -/
def candidates (currentVersion : StableVersion) (releases : List GitHubRelease) :
    List GitHubRelease :=
  (releases.filter fun release => ¬release.draft ∧ ¬release.prerelease ∧
    ∃ version ∈ tagVersion tools release.tagName, currentVersion < version).mergeSort
      fun a b => releaseKey tools b ≤ releaseKey tools a

end Tools

/-- What a manifest has passed from which an asset is selected. -/
structure Selects (tools : UpdateTools) (manifest : ReleaseManifest)
    (current localVersion remoteVersion target : String) (asset : ReleaseAsset) : Prop where
  /-- It is valid. -/
  valid : manifest.validate tools = .ok ()
  /-- Its version is newer than the running one. -/
  newer : ∃ version currentVersion, stableVersion tools manifest.version = .ok version ∧
    stableVersion tools current = .ok currentVersion ∧ currentVersion < version
  /-- The two Codex versions are the same. -/
  common : localVersion = remoteVersion
  /-- It works with this version. -/
  listed : localVersion ∈ manifest.codexVersions
  /-- The asset is one of its assets. -/
  mem : asset ∈ manifest.assets
  /-- It is built for this target. -/
  target_eq : asset.target = target

/-- An asset is selected only after all checks. -/
theorem selects_of_select {tools : UpdateTools} {manifest : ReleaseManifest}
    {current localVersion remoteVersion target : String} {asset : ReleaseAsset}
    (h : manifest.select tools current localVersion remoteVersion target = .ok (some asset)) :
    Selects tools manifest current localVersion remoteVersion target asset := by
  obtain ⟨_, hvalid, h⟩ := bind_eq_ok_iff.mp h
  obtain ⟨version, hversion, h⟩ := bind_eq_ok_iff.mp h
  obtain ⟨currentVersion, hcurrent, h⟩ := bind_eq_ok_iff.mp h
  split_ifs at h with hrejected
  · cases h
  · obtain ⟨hnewer, hcommon, hlisted⟩ : currentVersion < version ∧ localVersion = remoteVersion ∧
        localVersion ∈ manifest.codexVersions := by
      simpa only [not_or, not_le, not_not] using hrejected
    have hfind := pure_eq_ok_iff.mp h
    exact ⟨hvalid, ⟨version, currentVersion, hversion, hcurrent, hnewer⟩, hcommon, hlisted,
      List.mem_of_find?_eq_some hfind, by simpa using List.find?_some hfind⟩

end Rcodex
