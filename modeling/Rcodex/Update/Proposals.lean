import Mathlib.Logic.Function.Basic
import Rcodex.Foundation.Machine
import Rcodex.Foundation.Writes
import Rcodex.Update.Evidence

/-!
# Compatibility proposals

A scheduled workflow proposes every new Codex release for review: it commits the evidence to a
branch named after the release, pushes it, and opens a draft pull request.  Its jobs run one at a
time; a job may stop at any step, and a push or a request that fails may have arrived.  Meanwhile
people push, delete and merge branches and open and edit pull requests.

`forgeStep` is one step of the job that runs, or of a person.  `proposed_once` says that no run
opens two pull requests for one release, and what those it opens look like; `leaves_review` that a
release with a pull request is left alone; `retry_proposes` that a job which is repeated after an
interruption opens exactly one.
-/

namespace Rcodex

open JsonTree Machine Result

namespace Script

/-- A commit. -/
structure Commit where
  /-- Its short name. -/
  revision : String
  /-- The names of the commits it was made from. -/
  ancestors : List String
  /-- Its files. -/
  file : String → Option (List UInt8)

/-- A pull request. -/
structure Pull where
  /-- The branch that is proposed. -/
  head : String
  /-- The branch it is proposed for. -/
  base : String
  /-- The title. -/
  title : String
  /-- The description. -/
  body : String
  /-- It is a draft. -/
  draft : Bool
  /-- It is neither closed nor merged. -/
  isOpen : Bool
deriving DecidableEq

/-- The hosted repository. -/
structure Hub where
  /-- The branches. -/
  heads : String → Option Commit
  /-- The pull requests; none is ever deleted. -/
  pulls : List Pull

/-- What a job is given. -/
structure JobInputs where
  /-- The release, from the check of the registry. -/
  candidate : String
  /-- The report, if there is one. -/
  report : Option (List UInt8)
  /-- The text of `src/compatibility.rs`. -/
  source : List Char
  /-- The commit that is checked out. -/
  checkout : Commit
  /-- The name of the commit it is going to make. -/
  revision : String
  /-- The default branch. -/
  defaultBranch : String
  /-- The address of the run. -/
  runUrl : String

/-- What the script is given by its libraries. -/
structure EvidenceTools where
  /-- `json.loads` -/
  loads : List UInt8 → Option (JsonTree String PyScalar)
  /-- `str.strip` -/
  strip : List UInt8 → List UInt8

/-- Evidence that was read and checked. -/
structure Evidence where
  /-- Its status. -/
  status : String
  /-- All of it. -/
  document : JsonTree String PyScalar

/-- The branch of a release. -/
def branchOf (version : String) : String := "automation/codex-compatibility-" ++ version

/-- The path of the evidence. -/
def reportPath (version : String) : String := "compatibility/candidates/" ++ version ++ ".json"

/-- The evidence of a job. -/
def readEvidence (tools : EvidenceTools) (inputs : JobInputs) : Except EvidenceError Evidence := do
  let version ← (stableVersion inputs.candidate).mapError .script
  let content ← context .unreadable inputs.report
  bailWhen (1024 * 1024 < content.length) .tooLarge
  let document ← context .notJson (tools.loads content)
  let status ← validateEvidence inputs.source document version
  return ⟨status, document⟩

/-- The evidence that a job reads. -/
theorem readEvidence_eq_ok_iff {tools : EvidenceTools} {inputs : JobInputs} {evidence : Evidence} :
    readEvidence tools inputs = .ok evidence ↔
      ∃ content, inputs.report = some content ∧ content.length ≤ 1024 * 1024 ∧
        tools.loads content = some evidence.document ∧
        stableVersion inputs.candidate = .ok inputs.candidate ∧
        validateEvidence inputs.source evidence.document inputs.candidate =
          .ok evidence.status := by
  constructor
  · intro h
    obtain ⟨version, hversion, h⟩ := bind_eq_ok_iff.mp h
    obtain ⟨content, hcontent, h⟩ := bind_eq_ok_iff.mp h
    obtain ⟨_, hsize, h⟩ := bind_eq_ok_iff.mp h
    obtain ⟨document, hdocument, h⟩ := bind_eq_ok_iff.mp h
    obtain ⟨status, hstatus, h⟩ := bind_eq_ok_iff.mp h
    obtain rfl := pure_eq_ok_iff.mp h
    rw [mapError_eq_ok_iff] at hversion
    obtain rfl := eq_of_stableVersion hversion
    exact ⟨content, context_eq_ok_iff.mp hcontent, not_lt.mp (bailWhen_eq_ok_iff.mp hsize),
      context_eq_ok_iff.mp hdocument, hversion, hstatus⟩
  · intro h
    obtain ⟨content, hcontent, hsize, hdocument, hversion, hstatus⟩ := h
    refine bind_eq_ok_iff.mpr ⟨_, mapError_eq_ok_iff.mpr hversion, bind_eq_ok_iff.mpr
      ⟨content, context_eq_ok_iff.mpr hcontent, bind_eq_ok_iff.mpr
      ⟨(), bailWhen_eq_ok_iff.mpr (not_lt.mpr hsize), ?_⟩⟩⟩
    exact bind_eq_ok_iff.mpr ⟨_, context_eq_ok_iff.mpr hdocument,
      bind_eq_ok_iff.mpr ⟨_, hstatus, rfl⟩⟩

/-- A job accepts the report of a comparison exactly if the job is for the release that the report
is about, the baseline is still the one it was made with, and neither the file nor the list of the
changes is too long. -/
theorem compare_validated_iff {tools : EvidenceTools} {inputs : JobInputs} {source : List Char}
    {version baselineHelp candidateHelp : String} {baseline candidate : SchemaBundle}
    {document : JsonTree String PyScalar} {content : List UInt8}
    (h : Script.compare source version baselineHelp candidateHelp baseline candidate =
      .ok document)
    (hcontent : inputs.report = some content) (hloads : tools.loads content = some document) :
    (∃ evidence, readEvidence tools inputs = .ok evidence) ↔
      inputs.candidate = version ∧ supportedVersion inputs.source = supportedVersion source ∧
        content.length ≤ 1024 * 1024 ∧
        ∃ changes, schemaChanges baseline candidate = .ok changes ∧ changes.length ≤ 10000 ∧
          ∀ change ∈ changes, change.length ≤ 1024 := by
  obtain ⟨changes, supported, hstable, hchanges, hsupported, rfl⟩ := exists_of_compare h
  constructor
  · intro h
    obtain ⟨evidence, h⟩ := h
    obtain ⟨found, hfound, hsize, hdocument, -, hvalid⟩ := readEvidence_eq_ok_iff.mp h
    obtain rfl := Option.some.inj (hcontent.symm.trans hfound)
    rw [← Option.some.inj (hloads.symm.trans hdocument)] at hvalid
    obtain ⟨-, hversion, hlater, hlimits⟩ := validateEvidence_report.mp hvalid
    exact ⟨hversion.symm, hlater.trans hsupported.symm, hsize, changes, hchanges, hlimits⟩
  · intro h
    obtain ⟨hversion, hlater, hsize, changes', hchanges', hlimits⟩ := h
    obtain rfl := Except.ok.inj (hchanges.symm.trans hchanges')
    refine ⟨⟨statusOf changes, report supported version changes⟩, readEvidence_eq_ok_iff.mpr
      ⟨content, hcontent, hsize, hloads, ?_, ?_⟩⟩
    · rw [hversion]
      exact hstable
    · exact validateEvidence_report.mpr ⟨rfl, hversion.symm, hlater.trans hsupported, hlimits⟩

/-- The report of `compare_changed`. -/
def changedReport : JsonTree String PyScalar :=
  report "0.161.0" "0.162.0" ["changed: Initialize.json"]

/-- Its text. -/
def changedText : List UInt8 :=
  ("\x7b\"supported_codex_version\": \"0.161.0\", \"candidate_codex_version\": \"0.162.0\", " ++
    "\"status\": \"needs-review\", \"schema_changes\": [\"changed: Initialize.json\"], " ++
    "\"live_relay_validated\": false\x7d\n").toUTF8.toList

/-- Libraries that read it. -/
def changedTools : EvidenceTools where
  loads content :=
    if content = changedText ∨ content = changedText.dropLast then some changedReport else none
  strip content := if content = changedText then changedText.dropLast else content

/-- A job for it. -/
def changedInputs : JobInputs where
  candidate := "0.162.0"
  report := some changedText
  source := baselineSource
  checkout := { revision := "89abcde", ancestors := [], file := fun _ => none }
  revision := "fedcba9"
  defaultBranch := "main"
  runUrl := ""

/-- The evidence of the job. -/
theorem readEvidence_changed :
    readEvidence changedTools changedInputs = .ok ⟨"needs-review", changedReport⟩ := by
  have hstable : stableVersion "0.162.0" = .ok "0.162.0" := by decide +kernel
  have hsize : changedText.length ≤ 1024 * 1024 := by decide +kernel
  have hloads : changedTools.loads changedText = some changedReport := if_pos (Or.inl rfl)
  have hsupported : supportedVersion baselineSource = .ok "0.161.0" := by decide +kernel
  have hvalid : validateEvidence baselineSource changedReport "0.162.0" = .ok "needs-review" :=
    validateEvidence_report.mpr ⟨by decide, rfl, hsupported, by decide, by decide +kernel⟩
  exact readEvidence_eq_ok_iff.mpr ⟨changedText, rfl, hsize, hloads, hstable, hvalid⟩

/-- The job accepts the report, and a job for the next release does not. -/
theorem compare_validated_iff_changed :
    ((∃ evidence, readEvidence changedTools changedInputs = .ok evidence) ↔
      "0.162.0" = "0.162.0" ∧ supportedVersion baselineSource = supportedVersion baselineSource ∧
        changedText.length ≤ 1024 * 1024 ∧
        ∃ changes, schemaChanges (constantBundle .null) (constantBundle (.bool true)) =
          .ok changes ∧ changes.length ≤ 10000 ∧ ∀ change ∈ changes, change.length ≤ 1024) ∧
    ¬∃ evidence, readEvidence changedTools { changedInputs with candidate := "0.163.0" } =
      .ok evidence := by
  have hloads : changedTools.loads changedText = some changedReport := if_pos (Or.inl rfl)
  have hother : ({ changedInputs with candidate := "0.163.0" } : JobInputs).report =
    some changedText := rfl
  refine ⟨compare_validated_iff compare_changed rfl hloads, fun h => ?_⟩
  exact absurd ((compare_validated_iff compare_changed hother hloads).mp h).1 (by decide)

/-- The description of a pull request. -/
def pullBody (version status runUrl revision : String) : String :=
  "Codex " ++ version ++ " is available. Offline result: `" ++ status ++ "`. [Check evidence](" ++
  runUrl ++ "). This proposal records schema/CLI evidence; the validation baseline stays " ++
  "unchanged.\n\nAfter live validation, make a separate implementation change to the validation " ++
  "baseline, tests, README and changelog, then rerun CI and personal testing. Do not treat a " ++
  "matching schema as proof of relay compatibility.\n\n## Manual test\n\n- [ ] I personally " ++
  "tested this feature and approve merging.\n\nTest plan: On a dedicated authenticated Mac and " ++
  "paired test host running Codex " ++ version ++ ", test enrollment/session refresh, relay " ++
  "initialization, then the stock TUI with a remote task and cancellation using a candidate " ++
  "build. Confirm reconnect and cleanup.\n\nRevision to test: " ++ revision ++
  " (evidence only; candidate runtime revision must be recorded separately).\n"

/-- The pull request of a job. -/
def pullOf (inputs : JobInputs) (evidence : Evidence) (revision : String) : Pull where
  head := branchOf inputs.candidate
  base := inputs.defaultBranch
  title := "Review compatibility with Codex " ++ inputs.candidate
  body := pullBody inputs.candidate evidence.status inputs.runUrl revision
  draft := true
  isOpen := true

/-- Where a job is. -/
inductive JobPhase where
  /-- It has done nothing. -/
  | begun
  /-- It has read its evidence. -/
  | checked (evidence : Evidence)
  /-- It has found no pull request. -/
  | unlisted (evidence : Evidence)
  /-- It has found the branch. -/
  | found (evidence : Evidence)
  /-- It has committed the evidence. -/
  | committed (evidence : Evidence)
  /-- The branch has the evidence. -/
  | ready (evidence : Evidence) (revision : String)

/-- The evidence that a job has read. -/
def JobPhase.evidence : JobPhase → Option Evidence
  | .begun => none
  | .checked evidence | .unlisted evidence | .found evidence | .committed evidence
  | .ready evidence _ => some evidence

/-- The job has found no pull request. -/
def JobPhase.Listed : JobPhase → Prop
  | .begun | .checked _ => False
  | _ => True

/-- A job. -/
structure Job where
  /-- What it was given. -/
  inputs : JobInputs
  /-- Where it is. -/
  phase : JobPhase

/-- The repository, and the job that runs. -/
structure Forge where
  /-- The repository. -/
  hub : Hub
  /-- The job. -/
  job : Option Job

/-- What a person does. -/
inductive HumanAct where
  /-- A branch is pushed, perhaps with force. -/
  | push (branch : String) (commit : Commit)
  | delete (branch : String)
  | propose (pull : Pull)
  /-- A pull request is edited, closed, merged or opened again. -/
  | edit (position : ℕ) (title base body : String) (draft isOpen : Bool)

/-- A step. -/
inductive ForgeEvent where
  /-- A job starts, unless one runs. -/
  | start (inputs : JobInputs)
  /-- The job goes on, and its command ends like this. -/
  | advance (ending : Effect.Write)
  /-- The job is stopped. -/
  | cancel
  | human (act : HumanAct)

/-- What a step does. -/
inductive ForgeOutput where
  | silent
  | pushes (branch : String)
  | creates (pull : Pull)

/-- The job pushes the branch or opens a pull request for it. -/
def ForgeOutput.Touches (branch : String) : ForgeOutput → Prop
  | .silent => False
  | .pushes pushed => pushed = branch
  | .creates pull => pull.head = branch

namespace Hub

/-- A branch has another commit. -/
def push (hub : Hub) (branch : String) (commit : Commit) : Hub :=
  { hub with heads := Function.update hub.heads branch (some commit) }

/-- One more pull request. -/
def openPull (hub : Hub) (pull : Pull) : Hub := { hub with pulls := hub.pulls ++ [pull] }

/-- A person does something. -/
def human (hub : Hub) : HumanAct → Hub
  | .push branch commit => hub.push branch commit
  | .delete branch => { hub with heads := Function.update hub.heads branch none }
  | .propose pull => hub.openPull pull
  | .edit position title base body draft isOpen =>
    { hub with pulls := hub.pulls.modify position fun pull =>
        { pull with title, base, body, draft, isOpen } }

/-- There is a pull request for the branch. -/
def HasPull (hub : Hub) (branch : String) : Prop := ∃ pull ∈ hub.pulls, pull.head = branch

instance (hub : Hub) (branch : String) : Decidable (hub.HasPull branch) := by
  unfold HasPull
  infer_instance

end Hub

namespace Job

/-- The branch of the job. -/
def branch (job : Job) : String := branchOf job.inputs.candidate

/-- The path of the evidence. -/
def path (job : Job) : String := reportPath job.inputs.candidate

/-- The commit of the job. -/
def commit (job : Job) : Commit where
  revision := job.inputs.revision
  ancestors := job.inputs.checkout.revision :: job.inputs.checkout.ancestors
  file := Function.update job.inputs.checkout.file job.path job.inputs.report

/-- The job goes on. -/
def goes (job : Job) (hub : Hub) (phase : JobPhase) : ForgeOutput × Forge :=
  (.silent, ⟨hub, some { job with phase }⟩)

/-- A push without force is accepted for a new branch, or one whose commit the pushed one was made
from. -/
def AcceptsPush (job : Job) (hub : Hub) : Prop :=
  ∀ commit ∈ hub.heads job.branch, commit.revision ∈ job.commit.ancestors

/-- A pull request is accepted for a branch that exists and has no open one. -/
def AcceptsPull (job : Job) (hub : Hub) : Prop :=
  (hub.heads job.branch).isSome = true ∧ ∀ pull ∈ hub.pulls,
    ¬(pull.head = job.branch ∧ pull.base = job.inputs.defaultBranch ∧ pull.isOpen = true)

instance (job : Job) (hub : Hub) : Decidable (job.AcceptsPush hub) := by
  unfold AcceptsPush
  infer_instance

instance (job : Job) (hub : Hub) : Decidable (job.AcceptsPull hub) := by
  unfold AcceptsPull
  infer_instance

/-- The evidence on the branch. -/
def previous (tools : EvidenceTools) (job : Job) (commit : Commit) :
    Option (JsonTree String PyScalar) :=
  (commit.file job.path).bind fun content => tools.loads (tools.strip content)

/-- The job goes on by one command of the script's `main`; a command that fails ends it. -/
def advance (tools : EvidenceTools) (ending : Effect.Write) (hub : Hub) (job : Job) :
    ForgeOutput × Forge :=
  match job.phase with
  | .begun =>
    match readEvidence tools job.inputs with
    | .ok evidence => job.goes hub (.checked evidence)
    | .error _ => (.silent, ⟨hub, none⟩)
  | .checked evidence =>
    if ending = .done ∧ ¬hub.HasPull job.branch then job.goes hub (.unlisted evidence)
    else (.silent, ⟨hub, none⟩)
  | .unlisted evidence =>
    if ending = .done then
      if (hub.heads job.branch).isSome then job.goes hub (.found evidence)
      -- there is nothing to commit
      else if job.inputs.checkout.file job.path = job.inputs.report then (.silent, ⟨hub, none⟩)
      else job.goes hub (.committed evidence)
    else (.silent, ⟨hub, none⟩)
  | .found evidence =>
    match hub.heads job.branch with
    | none => (.silent, ⟨hub, none⟩)
    | some commit =>
      if ending = .done ∧ (job.previous tools commit).any fun previous =>
          eqWith PyScalar.eq previous evidence.document then
        job.goes hub (.ready evidence commit.revision)
      else (.silent, ⟨hub, none⟩)
  | .committed evidence =>
    if job.AcceptsPush hub ∧ ending.arrives = true then
      (.pushes job.branch, ⟨hub.push job.branch job.commit, if ending = .done then
        some { job with phase := .ready evidence job.inputs.revision } else none⟩)
    else (.silent, ⟨hub, none⟩)
  | .ready evidence revision =>
    if job.AcceptsPull hub ∧ ending.arrives = true then
      (.creates (pullOf job.inputs evidence revision),
        ⟨hub.openPull (pullOf job.inputs evidence revision), none⟩)
    else (.silent, ⟨hub, none⟩)

end Job

/-- One step of the job or of a person. -/
def forgeStep (tools : EvidenceTools) (forge : Forge) : ForgeEvent → ForgeOutput × Forge
  | .start inputs =>
    match forge.job with
    | none => (.silent, { forge with job := some ⟨inputs, .begun⟩ })
    | some _ => (.silent, forge)
  | .advance ending =>
    match forge.job with
    | none => (.silent, forge)
    | some job => job.advance tools ending forge.hub
  | .cancel => (.silent, { forge with job := none })
  | .human act => (.silent, { forge with hub := forge.hub.human act })

/-! ### What a job can do -/

/-- Everything a command of a job can do. -/
inductive JobOutcome (tools : EvidenceTools) (hub : Hub) (job : Job) :
    ForgeOutput × Forge → Prop
  /-- The job ends. -/
  | stops : JobOutcome tools hub job (.silent, ⟨hub, none⟩)
  /-- It reads its evidence. -/
  | reads (evidence : Evidence) (hphase : job.phase = .begun)
      (hread : readEvidence tools job.inputs = .ok evidence) :
    JobOutcome tools hub job (job.goes hub (.checked evidence))
  /-- It finds no pull request. -/
  | lists (evidence : Evidence) (hphase : job.phase = .checked evidence)
      (hnone : ¬hub.HasPull job.branch) :
    JobOutcome tools hub job (job.goes hub (.unlisted evidence))
  /-- It looks at the branch, commits, or compares the evidence. -/
  | prepares (phase : JobPhase) (hlisted : job.phase.Listed) (hnext : phase.Listed)
      (hevidence : phase.evidence = job.phase.evidence) :
    JobOutcome tools hub job (job.goes hub phase)
  /-- It pushes the branch. -/
  | pushes (next : Option JobPhase) (hlisted : job.phase.Listed) (haccepts : job.AcceptsPush hub)
      (hnext : ∀ phase ∈ next, phase.Listed ∧ phase.evidence = job.phase.evidence) :
    JobOutcome tools hub job (.pushes job.branch,
      ⟨hub.push job.branch job.commit, next.map fun phase => { job with phase }⟩)
  /-- It opens the pull request. -/
  | creates (evidence : Evidence) (revision : String)
      (hphase : job.phase = .ready evidence revision)
      (hbranch : (hub.heads job.branch).isSome = true) :
    JobOutcome tools hub job (.creates (pullOf job.inputs evidence revision),
      ⟨hub.openPull (pullOf job.inputs evidence revision), none⟩)

/-- Every command has one of these outcomes. -/
theorem Job.advance_outcome (tools : EvidenceTools) (ending : Effect.Write) (hub : Hub)
    (job : Job) : JobOutcome tools hub job (job.advance tools ending hub) := by
  unfold Job.advance
  cases hphase : job.phase with
  | begun =>
    dsimp only
    cases hread : readEvidence tools job.inputs with
    | error error => exact .stops
    | ok evidence => exact .reads evidence hphase hread
  | checked evidence =>
    dsimp only
    split_ifs with h
    · exact .lists evidence hphase h.2
    · exact .stops
  | unlisted evidence =>
    have hlisted : job.phase.Listed := by rw [hphase]; trivial
    dsimp only
    split_ifs
    · exact .prepares _ hlisted trivial (by rw [hphase]; rfl)
    · exact .stops
    · exact .prepares _ hlisted trivial (by rw [hphase]; rfl)
    · exact .stops
  | found evidence =>
    have hlisted : job.phase.Listed := by rw [hphase]; trivial
    dsimp only
    cases hub.heads job.branch with
    | none => exact .stops
    | some commit =>
      dsimp only
      split_ifs
      · exact .prepares _ hlisted trivial (by rw [hphase]; rfl)
      · exact .stops
  | committed evidence =>
    have hlisted : job.phase.Listed := by rw [hphase]; trivial
    dsimp only
    split_ifs with h hdone
    · refine .pushes (some (.ready evidence job.inputs.revision)) hlisted h.1 fun phase hnext => ?_
      obtain rfl := Option.some.inj hnext
      exact ⟨trivial, by rw [hphase]; rfl⟩
    · exact .pushes none hlisted h.1 fun phase hnext => by contradiction
    · exact .stops
  | ready evidence revision =>
    dsimp only
    split_ifs with h
    · exact .creates evidence revision hphase h.1.1
    · exact .stops

namespace Hub

/-- The pull requests for the branch. -/
def proposals (hub : Hub) (branch : String) : ℕ := hub.pulls.countP fun pull => pull.head = branch

/-- Editing a pull request leaves its branch. -/
theorem map_head_modify (pulls : List Pull) (position : ℕ) (title base body : String)
    (draft isOpen : Bool) :
    (pulls.modify position fun pull => { pull with title, base, body, draft, isOpen }).map
      Pull.head = pulls.map Pull.head := by
  refine List.ext_getElem (by simp) fun i _ _ => ?_
  rw [List.getElem_map, List.getElem_map, List.getElem_modify]
  split_ifs <;> rfl

/-- How many there are can be read off the branches. -/
theorem proposals_eq (hub : Hub) (branch : String) :
    hub.proposals branch = (hub.pulls.map Pull.head).count branch := by
  rw [List.count, List.countP_map]
  exact List.countP_congr fun pull _ => by simp

/-- There is one if there are some. -/
theorem hasPull_iff {hub : Hub} {branch : String} :
    hub.HasPull branch ↔ 0 < hub.proposals branch := by
  simp [HasPull, proposals, List.countP_pos_iff]

/-- Another pull request. -/
theorem proposals_openPull (hub : Hub) (pull : Pull) (branch : String) :
    (hub.openPull pull).proposals branch =
      hub.proposals branch + if pull.head = branch then 1 else 0 := by
  simp [proposals, openPull, List.countP_append, List.countP_singleton]

/-- A person removes no pull request. -/
theorem proposals_human (hub : Hub) (act : HumanAct) (branch : String) :
    hub.proposals branch ≤ (hub.human act).proposals branch := by
  cases act with
  | push other commit => exact le_rfl
  | delete other => exact le_rfl
  | propose pull =>
    rw [human, proposals_openPull]
    exact Nat.le_add_right _ _
  | edit position title base body draft isOpen =>
    rw [proposals_eq, proposals_eq, human, map_head_modify]

end Hub

/-! ### One pull request for each release -/

/-- A release that is left alone: there is a pull request for its branch, and the job that runs has
not found that there is none. -/
structure Reviewed (branch : String) (forge : Forge) : Prop where
  /-- There is a pull request. -/
  pull : forge.hub.HasPull branch
  /-- The job is for another branch or has not looked yet. -/
  job : ∀ job ∈ forge.job, job.phase.Listed → job.branch ≠ branch

/-- A command of a job for a release that is left alone. -/
theorem Reviewed.advance {branch : String} {hub : Hub} {job : Job} {tools : EvidenceTools}
    {done : ForgeOutput × Forge} (h : Reviewed branch ⟨hub, some job⟩)
    (hdone : JobOutcome tools hub job done) :
    Reviewed branch done.2 ∧ ¬done.1.Touches branch := by
  have hother : job.phase.Listed → job.branch ≠ branch := h.job job rfl
  cases hdone with
  | stops => exact ⟨⟨h.pull, by simp⟩, id⟩
  | reads evidence hphase hread =>
    refine ⟨⟨h.pull, fun next hnext hlisted => ?_⟩, id⟩
    obtain rfl := Option.some.inj hnext
    exact hlisted.elim
  | lists evidence hphase hnone =>
    refine ⟨⟨h.pull, fun next hnext hlisted hbranch => ?_⟩, id⟩
    obtain rfl := Option.some.inj hnext
    exact hnone (hbranch ▸ h.pull)
  | prepares phase hlisted hnext hevidence =>
    refine ⟨⟨h.pull, fun next hsome _ => ?_⟩, id⟩
    obtain rfl := Option.some.inj hsome
    exact hother hlisted
  | pushes next hlisted haccepts hnext =>
    refine ⟨⟨h.pull, fun later hlater _ => ?_⟩, hother hlisted⟩
    obtain ⟨phase, -, rfl⟩ := Option.mem_map.mp hlater
    exact hother hlisted
  | creates evidence revision hphase hbranch =>
    have hlisted : job.phase.Listed := by rw [hphase]; trivial
    refine ⟨⟨?_, by simp⟩, hother hlisted⟩
    rw [Hub.hasPull_iff, Hub.proposals_openPull]
    exact Nat.add_pos_left (Hub.hasPull_iff.mp h.pull) _

/-- A release stays left alone, whatever happens. -/
theorem Reviewed.step {branch : String} {forge : Forge} (h : Reviewed branch forge)
    (tools : EvidenceTools) (event : ForgeEvent) :
    Reviewed branch (forgeStep tools forge event).2 ∧
      ¬(forgeStep tools forge event).1.Touches branch := by
  obtain ⟨hub, running⟩ := forge
  cases event with
  | start inputs =>
    cases running with
    | none =>
      refine ⟨⟨h.pull, fun job hjob hlisted => ?_⟩, id⟩
      obtain rfl := Option.some.inj hjob
      exact hlisted.elim
    | some job => exact ⟨h, id⟩
  | advance ending =>
    cases running with
    | none => exact ⟨h, id⟩
    | some job => exact h.advance (job.advance_outcome tools ending hub)
  | cancel => exact ⟨⟨h.pull, by simp [forgeStep]⟩, id⟩
  | human act =>
    refine ⟨⟨?_, h.job⟩, id⟩
    have hpull := Hub.hasPull_iff.mp h.pull
    exact Hub.hasPull_iff.mpr (hpull.trans_le (hub.proposals_human act branch))

/-- The job that runs was started, and what it has read was accepted. -/
def Informed (tools : EvidenceTools) (events : List ForgeEvent) (forge : Forge) : Prop :=
  ∀ job ∈ forge.job, .start job.inputs ∈ events ∧
    ∀ evidence ∈ job.phase.evidence, readEvidence tools job.inputs = .ok evidence

/-- A pull request looks like those of the script, for a job that was started with evidence that is
accepted. -/
def IsProposal (tools : EvidenceTools) (events : List ForgeEvent) (pull : Pull) : Prop :=
  ∃ inputs evidence revision, .start inputs ∈ events ∧ readEvidence tools inputs = .ok evidence ∧
    pull = pullOf inputs evidence revision

/-- More happens. -/
theorem Informed.append {tools : EvidenceTools} {events : List ForgeEvent} {forge : Forge}
    (h : Informed tools events forge) (more : List ForgeEvent) :
    Informed tools (events ++ more) forge := fun job hjob =>
  ⟨List.mem_append_left more (h job hjob).1, (h job hjob).2⟩

/-- More happens. -/
theorem IsProposal.append {tools : EvidenceTools} {events : List ForgeEvent} {pull : Pull}
    (h : IsProposal tools events pull) (more : List ForgeEvent) :
    IsProposal tools (events ++ more) pull := by
  obtain ⟨inputs, evidence, revision, hstart, hread, hpull⟩ := h
  exact ⟨inputs, evidence, revision, List.mem_append_left more hstart, hread, hpull⟩

/-- A command of a job that acts on evidence that was accepted. -/
theorem Informed.advance {tools : EvidenceTools} {events : List ForgeEvent} {hub : Hub} {job : Job}
    {done : ForgeOutput × Forge} (h : Informed tools events ⟨hub, some job⟩)
    (hdone : JobOutcome tools hub job done) :
    Informed tools events done.2 ∧
      ∀ pull, done.1 = .creates pull → IsProposal tools events pull ∧
        Reviewed pull.head done.2 := by
  obtain ⟨hstart, hread⟩ := h job rfl
  cases hdone with
  | stops => exact ⟨by simp [Informed], by simp⟩
  | reads evidence hphase hnew =>
    refine ⟨fun next hnext => ?_, by simp [Job.goes]⟩
    obtain rfl := Option.some.inj hnext
    refine ⟨hstart, fun found hfound => ?_⟩
    obtain rfl := Option.some.inj hfound
    exact hnew
  | lists evidence hphase hnone =>
    refine ⟨fun next hnext => ?_, by simp [Job.goes]⟩
    obtain rfl := Option.some.inj hnext
    exact ⟨hstart, fun found hfound => hread found (by rw [hphase]; exact hfound)⟩
  | prepares phase hlisted hnext hevidence =>
    refine ⟨fun next hsome => ?_, by simp [Job.goes]⟩
    obtain rfl := Option.some.inj hsome
    exact ⟨hstart, fun found hfound => hread found (hevidence ▸ hfound)⟩
  | pushes next hlisted haccepts hnext =>
    refine ⟨fun later hlater => ?_, by simp⟩
    obtain ⟨phase, hphase, rfl⟩ := Option.mem_map.mp hlater
    exact ⟨hstart, fun found hfound => hread found ((hnext phase hphase).2 ▸ hfound)⟩
  | creates evidence revision hphase hbranch =>
    refine ⟨by simp [Informed], fun pull hpull => ?_⟩
    obtain rfl := ForgeOutput.creates.inj hpull
    have haccepted := hread evidence (by rw [hphase]; rfl)
    refine ⟨⟨job.inputs, evidence, revision, hstart, haccepted, rfl⟩, ⟨?_, by simp⟩⟩
    rw [Hub.hasPull_iff, Hub.proposals_openPull, if_pos rfl]
    exact Nat.succ_pos _

/-- A job acts on evidence that was accepted; whoever opens a pull request has ended. -/
theorem Informed.step {tools : EvidenceTools} {events : List ForgeEvent} {forge : Forge}
    (h : Informed tools events forge) (event : ForgeEvent) :
    Informed tools (events ++ [event]) (forgeStep tools forge event).2 ∧
      ∀ pull, (forgeStep tools forge event).1 = .creates pull →
        IsProposal tools (events ++ [event]) pull ∧
          Reviewed pull.head (forgeStep tools forge event).2 := by
  obtain ⟨hub, running⟩ := forge
  cases event with
  | start inputs =>
    cases running with
    | none =>
      refine ⟨fun job hjob => ?_, by simp [forgeStep]⟩
      obtain rfl := Option.some.inj hjob
      exact ⟨List.mem_append_right events (List.mem_singleton_self _),
        by simp [JobPhase.evidence]⟩
    | some job => exact ⟨h.append _, by simp [forgeStep]⟩
  | advance ending =>
    cases running with
    | none => exact ⟨h.append _, by simp [forgeStep]⟩
    | some job => exact (h.append _).advance (job.advance_outcome tools ending hub)
  | cancel => exact ⟨by simp [Informed, forgeStep], by simp [forgeStep]⟩
  | human act => exact ⟨h.append _, by simp [forgeStep]⟩

/-- The pull request of a job is the last thing a job does for its release. -/
def Precedes (earlier later : ForgeOutput) : Prop :=
  ∀ pull, earlier = .creates pull → ¬later.Touches pull.head

/-- Whatever jobs and people do, a pull request of the script is the last thing a job does for its
release: no later job opens another one or pushes the branch again.  Each one is that of a job that
was started, made from its evidence, which was accepted. -/
theorem proposed_once (tools : EvidenceTools) (hub : Hub) (events : List ForgeEvent) :
    (outputs (forgeStep tools) ⟨hub, none⟩ events).Pairwise Precedes ∧
      ∀ pull, .creates pull ∈ outputs (forgeStep tools) ⟨hub, none⟩ events →
        IsProposal tools events pull := by
  have hrun := history_induction (forgeStep tools) (s := ⟨hub, none⟩)
    (P := fun pre forge => Informed tools pre forge ∧
      (outputs (forgeStep tools) ⟨hub, none⟩ pre).Pairwise Precedes ∧
      ∀ pull, .creates pull ∈ outputs (forgeStep tools) ⟨hub, none⟩ pre →
        IsProposal tools pre pull ∧ Reviewed pull.head forge)
    ⟨by simp [Informed], .nil, by simp⟩ events ?_
  · exact ⟨hrun.2.1, fun pull hpull => (hrun.2.2 pull hpull).1⟩
  · intro pre event post _ h
    obtain ⟨hinformed, hordered, hproposals⟩ := h
    have hnext := hinformed.step event
    rw [outputs_append, outputs_cons, outputs_nil]
    refine ⟨hnext.1, List.pairwise_append.mpr ⟨hordered, List.pairwise_singleton _ _, ?_⟩, ?_⟩
    · rintro _ hpast output houtput pull rfl
      obtain rfl := List.mem_singleton.mp houtput
      exact ((hproposals pull hpast).2.step tools event).2
    · intro pull hpull
      rcases List.mem_append.mp hpull with hpast | hnow
      · obtain ⟨hproposal, hreviewed⟩ := hproposals pull hpast
        exact ⟨hproposal.append _, (hreviewed.step tools event).1⟩
      · exact hnext.2 pull (List.mem_singleton.mp hnow).symm

/-- Once no job runs, a release with a pull request, whoever opened it and whatever has become of
it, is left alone: no later job pushes its branch or opens another one. -/
theorem leaves_review {hub : Hub} {branch : String} (hpull : hub.HasPull branch)
    (tools : EvidenceTools) (events : List ForgeEvent) :
    ∀ output ∈ outputs (forgeStep tools) ⟨hub, none⟩ events, ¬output.Touches branch := by
  intro output houtput
  obtain ⟨pre, post, hsplit⟩ := List.append_of_mem houtput
  refine (outputs_induction (forgeStep tools) (J := fun _ forge => Reviewed branch forge)
    (P := fun _ output => ¬output.Touches branch) ⟨hpull, by simp⟩ events
    fun history forge event _ h => ?_).2 pre output post hsplit
  exact h.step tools event

/-- The repository when a pull request for the release was merged. -/
def mergedHub : Hub :=
  ⟨fun _ => none, [{ pullOf changedInputs ⟨"needs-review", changedReport⟩ "fedcba9" with
    isOpen := false }]⟩

/-- A release whose pull request was merged. -/
theorem leaves_review_merged :
    mergedHub.HasPull (branchOf "0.162.0") ∧
      ∀ output ∈ outputs (forgeStep changedTools) ⟨mergedHub, none⟩
          [.start changedInputs, .advance .done, .advance .done],
        ¬output.Touches (branchOf "0.162.0") := by
  have hpull : mergedHub.HasPull (branchOf "0.162.0") := ⟨_, List.mem_singleton_self _, rfl⟩
  exact ⟨hpull, leaves_review hpull changedTools _⟩

/-! ### A job that is repeated -/

/-- Branches of different releases are different. -/
theorem branchOf_inj {a b : String} : branchOf a = branchOf b ↔ a = b :=
  String.append_right_inj _

/-- A person does nothing to the branch. -/
def HumanAct.Spares (branch : String) : HumanAct → Prop
  | .push other _ | .delete other => other ≠ branch
  | .propose pull => pull.head ≠ branch
  | .edit .. => True

/-- Jobs for the release have this report, and people leave its branch alone. -/
def ForgeEvent.Spares (candidate : String) (content : Option (List UInt8)) : ForgeEvent → Prop
  | .start inputs => inputs.candidate = candidate → inputs.report = content
  | .human act => act.Spares (branchOf candidate)
  | _ => True

/-- The branch of a release after jobs that may have been interrupted. -/
structure Resumable (candidate : String) (content : Option (List UInt8)) (forge : Forge) :
    Prop where
  /-- There is at most one pull request. -/
  one : forge.hub.proposals (branchOf candidate) ≤ 1
  /-- It has a branch. -/
  backed : forge.hub.HasPull (branchOf candidate) →
    (forge.hub.heads (branchOf candidate)).isSome = true
  /-- The branch has the report. -/
  branch : ∀ commit ∈ forge.hub.heads (branchOf candidate),
    commit.file (reportPath candidate) = content
  /-- So has the job, which has found no pull request if there is none. -/
  job : ∀ job ∈ forge.job, job.inputs.candidate = candidate → job.inputs.report = content ∧
    (job.phase.Listed → ¬forge.hub.HasPull (branchOf candidate))

section Resumable

variable {candidate : String} {content : Option (List UInt8)} {hub : Hub} {job : Job}

/-- A person who leaves the branch alone leaves its pull requests and its commit alone. -/
theorem HumanAct.Spares.human {act : HumanAct} {branch : String} (h : act.Spares branch)
    (hub : Hub) : (hub.human act).proposals branch = hub.proposals branch ∧
      (hub.human act).heads branch = hub.heads branch := by
  cases act with
  | push other commit => exact ⟨rfl, Function.update_of_ne (Ne.symm h) _ _⟩
  | delete other => exact ⟨rfl, Function.update_of_ne (Ne.symm h) _ _⟩
  | propose pull =>
    have hhead : pull.head ≠ branch := h
    refine ⟨?_, rfl⟩
    rw [Hub.human, Hub.proposals_openPull, if_neg hhead, Nat.add_zero]
  | edit position title base body draft isOpen =>
    refine ⟨?_, rfl⟩
    rw [Hub.proposals_eq, Hub.proposals_eq, Hub.human, Hub.map_head_modify]

/-- Only the branch of the release and its pull requests matter. -/
theorem Resumable.congr {running : Option Job} (h : Resumable candidate content ⟨hub, running⟩)
    (hub' : Hub)
    (hpulls : hub'.proposals (branchOf candidate) = hub.proposals (branchOf candidate))
    (hheads : hub'.heads (branchOf candidate) = hub.heads (branchOf candidate))
    {next : Option Job} (hnext : ∀ job ∈ next, job.inputs.candidate = candidate →
      job.inputs.report = content ∧ (job.phase.Listed → ¬hub.HasPull (branchOf candidate))) :
    Resumable candidate content ⟨hub', next⟩ := by
  have hhas : hub'.HasPull (branchOf candidate) ↔ hub.HasPull (branchOf candidate) := by
    rw [Hub.hasPull_iff, Hub.hasPull_iff, hpulls]
  refine ⟨hpulls.trans_le h.one, fun hpull => ?_, fun commit hcommit => ?_,
    fun job hjob hcandidate => ?_⟩
  · exact hheads ▸ h.backed (hhas.mp hpull)
  · exact h.branch commit (hheads ▸ hcommit)
  · obtain ⟨hreport, hnone⟩ := hnext job hjob hcandidate
    exact ⟨hreport, fun hlisted hpull => hnone hlisted (hhas.mp hpull)⟩

/-- Every command of a job keeps this. -/
theorem Resumable.advance {tools : EvidenceTools} {done : ForgeOutput × Forge}
    (h : Resumable candidate content ⟨hub, some job⟩) (hdone : JobOutcome tools hub job done) :
    Resumable candidate content done.2 := by
  have hjob : job.inputs.candidate = candidate → job.inputs.report = content ∧
      (job.phase.Listed → ¬hub.HasPull (branchOf candidate)) := h.job job rfl
  cases hdone with
  | stops => exact h.congr hub rfl rfl (by simp)
  | reads evidence hphase hread =>
    refine h.congr hub rfl rfl fun next hnext hcandidate => ?_
    obtain rfl := Option.some.inj hnext
    exact ⟨(hjob hcandidate).1, fun hlisted => hlisted.elim⟩
  | lists evidence hphase hnone =>
    refine h.congr hub rfl rfl fun next hnext hcandidate => ?_
    obtain rfl := Option.some.inj hnext
    have hbranch : job.branch = branchOf candidate := congrArg branchOf hcandidate
    exact ⟨(hjob hcandidate).1, fun _ hpull => hnone (hbranch ▸ hpull)⟩
  | prepares phase hlisted hnext hevidence =>
    refine h.congr hub rfl rfl fun next hsome hcandidate => ?_
    obtain rfl := Option.some.inj hsome
    exact ⟨(hjob hcandidate).1, fun _ => (hjob hcandidate).2 hlisted⟩
  | pushes next hlisted haccepts hnext =>
    have hlater : ∀ later ∈ next.map fun phase => { job with phase },
        later.inputs.candidate = candidate → later.inputs.report = content ∧
          (later.phase.Listed → ¬hub.HasPull (branchOf candidate)) := by
      intro later hlater hcandidate
      obtain ⟨phase, -, rfl⟩ := Option.mem_map.mp hlater
      exact ⟨(hjob hcandidate).1, fun _ => (hjob hcandidate).2 hlisted⟩
    by_cases hcandidate : job.inputs.candidate = candidate
    · have hbranch : job.branch = branchOf candidate := congrArg branchOf hcandidate
      have hnone := (hjob hcandidate).2 hlisted
      refine ⟨h.one, fun hpull => (hnone hpull).elim, fun commit hcommit => ?_, hlater⟩
      rw [← hbranch] at hcommit
      have hpushed : (hub.push job.branch job.commit).heads job.branch = some job.commit :=
        Function.update_self ..
      obtain rfl := Option.some.inj (hpushed.symm.trans hcommit)
      rw [← hcandidate]
      exact (Function.update_self ..).trans (hjob hcandidate).1
    · have hbranch : branchOf candidate ≠ job.branch :=
        fun heq => hcandidate (branchOf_inj.mp heq).symm
      refine h.congr (hub.push job.branch job.commit) rfl ?_ hlater
      exact Function.update_of_ne hbranch _ _
  | creates evidence revision hphase hbacked =>
    have hlisted : job.phase.Listed := by rw [hphase]; trivial
    by_cases hcandidate : job.inputs.candidate = candidate
    · have hbranch : job.branch = branchOf candidate := congrArg branchOf hcandidate
      have hnone := (hjob hcandidate).2 hlisted
      rw [Hub.hasPull_iff, Nat.not_lt, Nat.le_zero] at hnone
      refine ⟨?_, fun _ => hbranch ▸ hbacked, h.branch, by simp⟩
      change (hub.openPull _).proposals _ ≤ 1
      rw [Hub.proposals_openPull, hnone, Nat.zero_add]
      split_ifs
      · exact le_rfl
      · exact Nat.zero_le 1
    · have hhead : (pullOf job.inputs evidence revision).head ≠ branchOf candidate :=
        fun heq => hcandidate (branchOf_inj.mp heq)
      refine h.congr (hub.openPull (pullOf job.inputs evidence revision)) ?_ rfl
        fun next hnext => by contradiction
      rw [Hub.proposals_openPull, if_neg hhead, Nat.add_zero]

/-- Everything that happens keeps this, if people leave the branch alone. -/
theorem Resumable.step {forge : Forge} (h : Resumable candidate content forge)
    (tools : EvidenceTools) {event : ForgeEvent} (hevent : event.Spares candidate content) :
    Resumable candidate content (forgeStep tools forge event).2 := by
  obtain ⟨hub, running⟩ := forge
  cases event with
  | start inputs =>
    cases running with
    | none =>
      refine h.congr hub rfl rfl fun job hjob hcandidate => ?_
      obtain rfl := Option.some.inj hjob
      exact ⟨hevent hcandidate, fun hlisted => hlisted.elim⟩
    | some job => exact h
  | advance ending =>
    cases running with
    | none => exact h
    | some job => exact h.advance (job.advance_outcome tools ending hub)
  | cancel => exact h.congr hub rfl rfl (by simp)
  | human act =>
    obtain ⟨hpulls, hheads⟩ := HumanAct.Spares.human hevent hub
    exact h.congr (hub.human act) hpulls hheads h.job

end Resumable

/-- Python finds the report of a comparison equal to itself. -/
theorem eqWith_report (supported version : String) (changes : List String) :
    eqWith PyScalar.eq (report supported version changes) (report supported version changes) =
      true := by
  have hstr : ∀ s, eqWith PyScalar.eq (str s) (str s) = true := by
    intro s
    simp [str, eqWith, PyScalar.eq, PyScalar.number]
  have hchanges : eqWith PyScalar.eq (.array (changes.map str)) (.array (changes.map str)) =
      true := by
    refine (eqWith_array_iff _).mpr (List.forall₂_same.mpr fun t ht => ?_)
    obtain ⟨s, -, rfl⟩ := List.mem_map.mp ht
    exact hstr s
  rw [eqWith] at hchanges
  simp [report, eqWith, eqMembers, List.lookup_cons, hstr, hchanges, PyScalar.eq, PyScalar.number]

/-- A job that nothing interrupts. -/
def undisturbed (inputs : JobInputs) : List ForgeEvent :=
  .start inputs :: List.replicate 5 (.advance .done)

section Undisturbed

variable {tools : EvidenceTools} {inputs : JobInputs} {evidence : Evidence}

/-- A job that has read its evidence. -/
theorem advance_begun (h : readEvidence tools inputs = .ok evidence) (hub : Hub) :
    forgeStep tools ⟨hub, some ⟨inputs, .begun⟩⟩ (.advance .done) =
      (.silent, ⟨hub, some ⟨inputs, .checked evidence⟩⟩) := by
  simp only [forgeStep, Job.advance, h]
  rfl

/-- A job that finds no pull request. -/
theorem advance_checked {hub : Hub} (h : ¬hub.HasPull (branchOf inputs.candidate)) :
    forgeStep tools ⟨hub, some ⟨inputs, .checked evidence⟩⟩ (.advance .done) =
      (.silent, ⟨hub, some ⟨inputs, .unlisted evidence⟩⟩) :=
  if_pos ⟨rfl, h⟩

/-- A job that finds no branch commits the evidence and pushes it. -/
theorem advance_pushes (tools : EvidenceTools) (evidence : Evidence) {hub : Hub}
    (hbranch : hub.heads (branchOf inputs.candidate) = none)
    (hnew : inputs.checkout.file (reportPath inputs.candidate) ≠ inputs.report) :
    ∃ pushed, pushed.pulls = hub.pulls ∧ (pushed.heads (branchOf inputs.candidate)).isSome = true ∧
      final (forgeStep tools) ⟨hub, some ⟨inputs, .unlisted evidence⟩⟩
        [.advance .done, .advance .done] =
          ⟨pushed, some ⟨inputs, .ready evidence inputs.revision⟩⟩ := by
  set job : Job := ⟨inputs, .committed evidence⟩
  have hcommits : forgeStep tools ⟨hub, some ⟨inputs, .unlisted evidence⟩⟩ (.advance .done) =
      (.silent, ⟨hub, some job⟩) := by
    simp only [forgeStep, Job.advance, Job.branch, Job.path, hbranch, hnew, if_true, if_false,
      Option.isSome_none, Bool.false_eq_true]
    rfl
  have haccepts : job.AcceptsPush hub := by
    intro commit hcommit
    rw [Job.branch, hbranch] at hcommit
    contradiction
  have hpushes : forgeStep tools ⟨hub, some job⟩ (.advance .done) =
      (.pushes job.branch, ⟨hub.push job.branch job.commit,
        some ⟨inputs, .ready evidence inputs.revision⟩⟩) :=
    if_pos ⟨haccepts, rfl⟩
  refine ⟨hub.push job.branch job.commit, rfl, ?_, ?_⟩
  · have hhead : (hub.push job.branch job.commit).heads job.branch = some job.commit :=
      Function.update_self ..
    exact Option.isSome_iff_exists.mpr ⟨job.commit, hhead⟩
  · rw [final_cons_of_step _ hcommits, final_cons_of_step _ hpushes, final_nil]

/-- A job that finds the branch with its evidence goes on with that. -/
theorem advance_resumes {hub : Hub} {commit : Commit}
    (hbranch : hub.heads (branchOf inputs.candidate) = some commit)
    (hsame : (Job.previous tools ⟨inputs, .found evidence⟩ commit).any (fun previous =>
      eqWith PyScalar.eq previous evidence.document) = true) :
    final (forgeStep tools) ⟨hub, some ⟨inputs, .unlisted evidence⟩⟩
        [.advance .done, .advance .done] =
      ⟨hub, some ⟨inputs, .ready evidence commit.revision⟩⟩ := by
  have hfinds : forgeStep tools ⟨hub, some ⟨inputs, .unlisted evidence⟩⟩ (.advance .done) =
      (.silent, ⟨hub, some ⟨inputs, .found evidence⟩⟩) := by
    simp only [forgeStep, Job.advance, Job.branch, hbranch, if_true, Option.isSome_some]
    rfl
  have hcompares : forgeStep tools ⟨hub, some ⟨inputs, .found evidence⟩⟩ (.advance .done) =
      (.silent, ⟨hub, some ⟨inputs, .ready evidence commit.revision⟩⟩) := by
    simp only [forgeStep, Job.advance, Job.branch, hbranch]
    exact if_pos ⟨trivial, hsame⟩
  rw [final_cons_of_step _ hfinds, final_cons_of_step _ hcompares, final_nil]

/-- A job whose branch is ready opens a pull request if there is none. -/
theorem advance_creates {hub : Hub} {revision : String}
    (hbranch : (hub.heads (branchOf inputs.candidate)).isSome = true)
    (hnone : ¬hub.HasPull (branchOf inputs.candidate)) :
    (forgeStep tools ⟨hub, some ⟨inputs, .ready evidence revision⟩⟩
      (.advance .done)).2.hub.HasPull (branchOf inputs.candidate) := by
  have haccepts : Job.AcceptsPull ⟨inputs, .ready evidence revision⟩ hub :=
    ⟨hbranch, fun pull hpull h => hnone ⟨pull, hpull, h.1⟩⟩
  have hstep : forgeStep tools ⟨hub, some ⟨inputs, .ready evidence revision⟩⟩ (.advance .done) =
      (.creates (pullOf inputs evidence revision),
        ⟨hub.openPull (pullOf inputs evidence revision), none⟩) :=
    if_pos ⟨haccepts, rfl⟩
  have hhead : (pullOf inputs evidence revision).head = branchOf inputs.candidate := rfl
  rw [hstep, Hub.hasPull_iff, Hub.proposals_openPull, if_pos hhead]
  exact Nat.succ_pos _

end Undisturbed

/-- A job that nothing interrupts leaves a pull request for its release. -/
theorem hasPull_undisturbed {tools : EvidenceTools} {inputs : JobInputs} {evidence : Evidence}
    (hread : readEvidence tools inputs = .ok evidence)
    (hself : eqWith PyScalar.eq evidence.document evidence.document = true)
    (hstrip : ∀ content ∈ inputs.report, tools.loads (tools.strip content) = tools.loads content)
    (hnew : inputs.checkout.file (reportPath inputs.candidate) ≠ inputs.report) {hub : Hub}
    (h : Resumable inputs.candidate inputs.report ⟨hub, none⟩) :
    (final (forgeStep tools) ⟨hub, none⟩ (undisturbed inputs)).hub.HasPull
      (branchOf inputs.candidate) := by
  by_cases hpull : hub.HasPull (branchOf inputs.candidate)
  · have hreviewed : Reviewed (branchOf inputs.candidate) ⟨hub, none⟩ := ⟨hpull, by simp⟩
    have hkept := final_induction (forgeStep tools)
      (P := Reviewed (branchOf inputs.candidate)) (fun _ event h => (h.step tools event).1)
      hreviewed (undisturbed inputs)
    exact hkept.pull
  · have hstart : forgeStep tools ⟨hub, none⟩ (.start inputs) =
        (.silent, ⟨hub, some ⟨inputs, .begun⟩⟩) := rfl
    have hsplit : undisturbed inputs = .start inputs :: .advance .done :: .advance .done ::
        ([.advance .done, .advance .done] ++ [.advance .done]) := rfl
    rw [hsplit, final_cons_of_step _ hstart, final_cons_of_step _ (advance_begun hread hub),
      final_cons_of_step _ (advance_checked hpull), final_concat]
    cases hbranch : hub.heads (branchOf inputs.candidate) with
    | none =>
      obtain ⟨pushed, hpulls, hbacked, hpushed⟩ := advance_pushes tools evidence hbranch hnew
      rw [hpushed]
      refine advance_creates hbacked ?_
      rwa [Hub.HasPull, hpulls]
    | some commit =>
      obtain ⟨content, hcontent, -, hloads, -⟩ := readEvidence_eq_ok_iff.mp hread
      have hprevious : Job.previous tools ⟨inputs, .found evidence⟩ commit =
          some evidence.document := by
        have hfile := h.branch commit hbranch
        rw [Job.previous, Job.path, hfile, hcontent, Option.bind_some, hstrip content hcontent,
          hloads]
      rw [advance_resumes hbranch (by rw [hprevious]; exact hself)]
      exact advance_creates (by rw [hbranch]; rfl) hpull

/-- A release that is new: after any number of jobs, for it and for others, each of which may stop
anywhere, have a push or a request fail that has arrived, or be repeated, the next job that nothing
interrupts leaves exactly one pull request for it, on a branch that has the evidence. -/
theorem retry_proposes {tools : EvidenceTools} {inputs : JobInputs} {evidence : Evidence}
    {version baselineHelp candidateHelp : String} {source : List Char}
    {baseline candidate : SchemaBundle}
    (hread : readEvidence tools inputs = .ok evidence)
    (hreport : Script.compare source version baselineHelp candidateHelp baseline candidate =
      .ok evidence.document)
    (hstrip : ∀ content ∈ inputs.report, tools.loads (tools.strip content) = tools.loads content)
    (hnew : inputs.checkout.file (reportPath inputs.candidate) ≠ inputs.report) {hub : Hub}
    (hpull : ¬hub.HasPull (branchOf inputs.candidate))
    (hbranch : hub.heads (branchOf inputs.candidate) = none) {events : List ForgeEvent}
    (hevents : ∀ event ∈ events, event.Spares inputs.candidate inputs.report) :
    let later := final (forgeStep tools) ⟨hub, none⟩ (events ++ .cancel :: undisturbed inputs)
    later.hub.proposals (branchOf inputs.candidate) = 1 ∧
      ∃ commit, later.hub.heads (branchOf inputs.candidate) = some commit ∧
        commit.file (reportPath inputs.candidate) = inputs.report := by
  intro later
  have hkept : ∀ {forge : Forge} (run : List ForgeEvent),
      (∀ event ∈ run, event.Spares inputs.candidate inputs.report) →
        Resumable inputs.candidate inputs.report forge →
          Resumable inputs.candidate inputs.report (final (forgeStep tools) forge run) := by
    intro forge run hrun h
    exact final_induction_mem (forgeStep tools)
      (fun state event hevent hstate => hstate.step tools (hrun event hevent)) h
  have hfirst : Resumable inputs.candidate inputs.report ⟨hub, none⟩ := by
    refine ⟨?_, fun h => (hpull h).elim, fun commit hcommit => ?_, by simp⟩
    · rw [Hub.hasPull_iff, Nat.not_lt] at hpull
      exact hpull.trans (Nat.zero_le 1)
    · rw [hbranch] at hcommit
      contradiction
  have hcancel : ForgeEvent.Spares inputs.candidate inputs.report .cancel := trivial
  have hstopped := (hkept events hevents hfirst).step tools hcancel
  have hself : eqWith PyScalar.eq evidence.document evidence.document = true := by
    obtain ⟨changes, supported, -, -, -, hdocument⟩ := exists_of_compare hreport
    rw [hdocument]
    exact eqWith_report supported version changes
  have hlater : later = final (forgeStep tools)
      (forgeStep tools (final (forgeStep tools) ⟨hub, none⟩ events) .cancel).2
      (undisturbed inputs) := final_append ..
  have hdone := hkept (undisturbed inputs) (by
    intro event hevent
    rcases List.mem_cons.mp hevent with rfl | hevent
    · exact fun _ => rfl
    · obtain rfl := List.eq_of_mem_replicate hevent
      trivial) hstopped
  have hproposed := hasPull_undisturbed hread hself hstrip hnew hstopped
  rw [hlater]
  refine ⟨le_antisymm hdone.one (Hub.hasPull_iff.mp hproposed), ?_⟩
  obtain ⟨commit, hcommit⟩ := Option.isSome_iff_exists.mp (hdone.backed hproposed)
  exact ⟨commit, hcommit, hdone.branch commit hcommit⟩

/-- A release whose first job ends although its push has arrived. -/
theorem retry_proposes_changed :
    let later := final (forgeStep changedTools) ⟨⟨fun _ => none, []⟩, none⟩
      ([.start changedInputs, .advance .done, .advance .done, .advance .done,
        .advance (.failed true)] ++ .cancel :: undisturbed changedInputs)
    later.hub.proposals (branchOf "0.162.0") = 1 ∧
      ∃ commit, later.hub.heads (branchOf "0.162.0") = some commit ∧
        commit.file (reportPath "0.162.0") = some changedText := by
  refine retry_proposes readEvidence_changed compare_changed ?_ (by simp [changedInputs])
    (by simp [Hub.HasPull]) rfl ?_
  · intro content hcontent
    obtain rfl := Option.some.inj hcontent
    have hstrip : changedTools.strip changedText = changedText.dropLast := if_pos rfl
    rw [hstrip]
    exact (if_pos (Or.inr rfl)).trans (if_pos (Or.inl rfl)).symm
  · simp [ForgeEvent.Spares]

end Script

end Rcodex
