import Rcodex.Foundation.Text
import Rcodex.Update.Manifest
import Rcodex.Update.Schemas

/-!
# Compatibility evidence

One script compares the schemas and the options of two Codex releases and writes a report
(`Script.compare`); another reads it as evidence and checks it before anything is proposed
(`Script.validateEvidence`).  `validateEvidence_report` says which reports pass this check: all
those for the same release and the same baseline whose changes are not too many and not too long.
-/

namespace Rcodex

open JsonTree Result

namespace Script

/-- Why a script that handles evidence stops. -/
inductive EvidenceError where
  | script (error : ScriptError)
  | schema (error : SchemaError)
  | noBaseline
  | missingOption (option : String)
  /-- The evidence is no mapping. -/
  | notMapping
  /-- The status cannot be looked up in a set. -/
  | unhashable
  | invalid
  | tooLarge
  | unreadable
  | notJson
  | different
deriving DecidableEq

/-- The text of an error; those of Python are left out. -/
def EvidenceError.text : EvidenceError → String
  | .script error => error.text
  | .schema error => error.text
  | .noBaseline => "could not find the validated Codex baseline"
  | .missingOption option => "required CLI option missing: " ++ Text.trim option
  | .invalid => "invalid offline compatibility evidence"
  | .tooLarge => "compatibility evidence too large"
  | .different => "orphan proposal branch has different evidence; inspect it before retrying"
  | .notMapping | .unhashable | .unreadable | .notJson => ""

/-! ### The baseline -/

/-- What stands before the version in the source. -/
def baselineMark : List Char := "VALIDATED_CODEX_VERSION: &str = \"".toList

/-- The characters up to a quote, if there are some and the quote follows. -/
def quoted (cs : List Char) : Option String :=
  let value := cs.takeWhile fun c => c ≠ '"'
  if value ≠ [] ∧ value.length < cs.length then some (.ofList value) else none

/-- The version that `re.search` finds in a source. -/
def searchBaseline : List Char → Option String
  | [] => none
  | c :: cs =>
    let found := if baselineMark.isPrefixOf (c :: cs) then
        quoted ((c :: cs).drop baselineMark.length)
      else none
    found.or (searchBaseline cs)

/-- `supported_version`, of the text of `src/compatibility.rs` -/
def supportedVersion (source : List Char) : Except EvidenceError String := do
  let value ← context .noBaseline (searchBaseline source)
  (stableVersion value).mapError .script

/-! ### The report -/

/-- A text as a value of Python. -/
def str (s : String) : JsonTree String PyScalar := .scalar (.str s)

/-- The options that both releases must have. -/
def requiredOptions : List String := ["--remote ", "--remote-auth-token-env "]

/-- The check of the options in the help of a release. -/
def checkOptions (help : String) : List String → Except EvidenceError Unit
  | [] => .ok ()
  | option :: options => do
    bailWhen (Text.contains help option = false) (.missingOption option)
    checkOptions help options

/-- The status of a report. -/
def statusOf (changes : List String) : String :=
  if changes = [] then "offline-checks-passed" else "needs-review"

/-- The report of a comparison. -/
def report (supported version : String) (changes : List String) : JsonTree String PyScalar :=
  .object [("supported_codex_version", str supported), ("candidate_codex_version", str version),
    ("status", str (statusOf changes)), ("schema_changes", .array (changes.map str)),
    ("live_relay_validated", .scalar (.bool false))]

/-- The `compare` command of `main` -/
def compare (source : List Char) (version baselineHelp candidateHelp : String)
    (baseline candidate : SchemaBundle) : Except EvidenceError (JsonTree String PyScalar) := do
  let version ← (stableVersion version).mapError .script
  checkOptions baselineHelp requiredOptions
  checkOptions candidateHelp requiredOptions
  let changes ← (schemaChanges baseline candidate).mapError .schema
  let supported ← supportedVersion source
  return report supported version changes

/-! ### The check of the evidence -/

/-- A member is this text. -/
def isText (value : String) : Option (JsonTree String PyScalar) → Bool
  | some (.scalar (.str s)) => s == value
  | _ => false

/-- A change is a text of at most 1024 characters. -/
def isChange : JsonTree String PyScalar → Bool
  | .scalar (.str s) => s.length ≤ 1024
  | _ => false

/-- The status of evidence. -/
def checkStatus : Option (JsonTree String PyScalar) → Except EvidenceError String
  | some (.scalar (.str s)) => do
    bailWhen (s ≠ "needs-review" ∧ s ≠ "offline-checks-passed") .invalid
    return s
  | some (.array _) | some (.object _) => .error .unhashable
  | _ => .error .invalid

/-- The changes of evidence. -/
def checkChanges : Option (JsonTree String PyScalar) → Except EvidenceError Unit
  | some (.array items) => bailWhen (10000 < items.length ∨ items.all isChange = false) .invalid
  | _ => .error .invalid

/-- Evidence says that nothing was validated live. -/
def isOffline : Option (JsonTree String PyScalar) → Bool
  | some (.scalar (.bool false)) => true
  | _ => false

/-- `validate_evidence`, with the status -/
def validateEvidence (source : List Char) (evidence : JsonTree String PyScalar)
    (version : String) : Except EvidenceError String :=
  match evidence with
  | .object members => do
    bailWhen (isText version (members.lookup "candidate_codex_version") = false) .invalid
    let supported ← supportedVersion source
    bailWhen (isText supported (members.lookup "supported_codex_version") = false) .invalid
    let status ← checkStatus (members.lookup "status")
    bailWhen (isOffline (members.lookup "live_relay_validated") = false) .invalid
    checkChanges (members.lookup "schema_changes")
    return status
  | _ => .error .notMapping

/-- Every report of a comparison has a status that is accepted. -/
theorem checkStatus_statusOf (changes : List String) :
    checkStatus (some (str (statusOf changes))) = .ok (statusOf changes) := by
  unfold statusOf
  split_ifs <;> rfl

/-- The changes of a report are accepted if they are not too many and not too long. -/
theorem checkChanges_report {changes : List String} {u : Unit} :
    checkChanges (some (.array (changes.map str))) = .ok u ↔
      changes.length ≤ 10000 ∧ ∀ change ∈ changes, change.length ≤ 1024 := by
  have hall : (changes.map str).all isChange = false ↔
      ¬∀ change ∈ changes, change.length ≤ 1024 := by
    simp [isChange, str]
  rw [checkChanges, bailWhen_eq_ok_iff, List.length_map, hall, not_or, not_lt, not_not]

/-- What a comparison reports. -/
theorem exists_of_compare {source : List Char} {version baselineHelp candidateHelp : String}
    {baseline candidate : SchemaBundle} {evidence : JsonTree String PyScalar}
    (h : compare source version baselineHelp candidateHelp baseline candidate = .ok evidence) :
    ∃ changes supported, stableVersion version = .ok version ∧
      schemaChanges baseline candidate = .ok changes ∧
      supportedVersion source = .ok supported ∧ evidence = report supported version changes := by
  obtain ⟨stable, hstable, h⟩ := bind_eq_ok_iff.mp h
  obtain ⟨-, -, h⟩ := bind_eq_ok_iff.mp h
  obtain ⟨-, -, h⟩ := bind_eq_ok_iff.mp h
  obtain ⟨changes, hchanges, h⟩ := bind_eq_ok_iff.mp h
  obtain ⟨supported, hsupported, h⟩ := bind_eq_ok_iff.mp h
  rw [mapError_eq_ok_iff] at hstable
  obtain rfl := eq_of_stableVersion hstable
  exact ⟨changes, supported, hstable, mapError_eq_ok_iff.mp hchanges, hsupported,
    (pure_eq_ok_iff.mp h).symm⟩

/-- The check of a report. -/
theorem validateEvidence_report {source : List Char} {supported version proposed status : String}
    {changes : List String} :
    validateEvidence source (report supported version changes) proposed = .ok status ↔
      status = statusOf changes ∧ version = proposed ∧ supportedVersion source = .ok supported ∧
        changes.length ≤ 10000 ∧ ∀ change ∈ changes, change.length ≤ 1024 := by
  have hcheck : validateEvidence source (report supported version changes) proposed = (do
      bailWhen ((version == proposed) = false) .invalid
      let baseline ← supportedVersion source
      bailWhen ((supported == baseline) = false) .invalid
      let status ← checkStatus (some (str (statusOf changes)))
      bailWhen (true = false) .invalid
      checkChanges (some (.array (changes.map str)))
      return status) := rfl
  rw [hcheck, checkStatus_statusOf]
  simp only [bind_eq_ok_iff, bailWhen_eq_ok_iff, checkChanges_report, pure_eq_ok_iff,
    Except.ok.injEq]
  constructor
  · intro h
    obtain ⟨-, hversion, baseline, hbaseline, -, hsupported, found, rfl, -, -, -, hlimits, rfl⟩ := h
    rw [Bool.not_eq_false, beq_iff_eq] at hversion hsupported
    exact ⟨rfl, hversion, hsupported ▸ hbaseline, hlimits⟩
  · intro h
    obtain ⟨rfl, rfl, hbaseline, hlimits⟩ := h
    exact ⟨(), by simp, supported, hbaseline, (), by simp, _, rfl, (), by simp, (), hlimits, rfl⟩

/-- A source with the version of the baseline. -/
def baselineSource : List Char :=
  "pub const VALIDATED_CODEX_VERSION: &str = \"0.161.0\";".toList

/-- A help with the options. -/
def remoteHelp : String := "--remote <ADDR> --remote-auth-token-env <NAME>"

/-- The report of a comparison in which a schema has changed. -/
theorem compare_changed :
    Script.compare baselineSource "0.162.0" remoteHelp remoteHelp (constantBundle .null)
      (constantBundle (.bool true)) =
        .ok (report "0.161.0" "0.162.0" ["changed: Initialize.json"]) := by
  have hstable : (Script.stableVersion "0.162.0").mapError EvidenceError.script =
      .ok "0.162.0" := by
    decide +kernel
  have hoptions : checkOptions remoteHelp requiredOptions = .ok () := by decide +kernel
  have hchanges : schemaChanges (constantBundle .null) (constantBundle (.bool true)) =
      .ok ["changed: Initialize.json"] := by
    decide +kernel
  have hsupported : supportedVersion baselineSource = .ok "0.161.0" := by decide +kernel
  rw [Script.compare, hstable, hoptions, hchanges, hsupported]
  rfl

end Script

end Rcodex
