import Rcodex.Broker.Protocol
import Rcodex.Update.Verified
import Rcodex.Foundation.Splitting

/-!
# Two comparisons of versions

Before a session starts, `verifyRemoteCodexVersion` compares the version of the local Codex with
the one the host reports.  It reads the first token of the report.  The updater's `find` compares
the local version with the report as it is.  `Embellishes` describes the reports with the local
version as their token, and `parity_agrees_iff` says that the two comparisons differ exactly on
those of them that are not the version itself.
-/

namespace Rcodex

open Effect Result Splitting Text

/-- Why a version cannot be read. -/
inductive VersionError where
  | control
  | empty
  | malformed
deriving DecidableEq

/-- The text of an error. -/
def VersionError.text : VersionError → String
  | .control => "version contains control characters"
  | .empty => "version is empty"
  | .malformed => "version token is malformed"

/-- Why Codex cannot be used with a host. -/
inductive CompatibilityError where
  | stockControl
  | notCodex
  | noVersion
  | stockInvalid (reason : VersionError)
  | localInvalid (reason : VersionError)
  | unreported (host : String)
  | remoteInvalid (host : String) (reason : VersionError)
  | mismatch (host remoteVersion localVersion : String)
deriving DecidableEq

/-- The text of an error. -/
def CompatibilityError.text : CompatibilityError → String
  | .stockControl => "stock Codex CLI reported a malformed version"
  | .notCodex => "stock Codex CLI version must start with `codex-cli`"
  | .noVersion => "stock Codex CLI did not report a version"
  | .stockInvalid _ => "stock Codex CLI reported an invalid version"
  | .localInvalid _ => "local Codex CLI version is invalid"
  | .unreported host => "remote host " ++ host ++ " does not report a Codex App Server version"
  | .remoteInvalid host _ =>
    "remote host " ++ host ++ " reported an invalid Codex App Server version"
  | .mismatch host remoteVersion localVersion =>
    "remote host " ++ host ++ " runs remote Codex App Server " ++ remoteVersion ++
      ", but PATH provides local Codex CLI " ++ localVersion ++
      "; update the older installation so both versions match"

/-- A token that starts with a digit and has only letters, digits, full stops and signs. -/
def IsVersionToken (token : List Char) : Prop :=
  (∃ c ∈ token.head?, c.isDigit = true) ∧
    ∀ c ∈ token, c.isAlphanum = true ∨ c = '.' ∨ c = '+' ∨ c = '-'

instance : DecidablePred IsVersionToken := fun token =>
  decidable_of_iff (token.head?.any Char.isDigit = true ∧
    token.all (fun c => c.isAlphanum || c == '.' || c == '+' || c == '-') = true) (by
      simp [IsVersionToken, Option.any_eq_true, or_assoc])

/-- `parse_version_token` -/
def parseVersionToken (value : String) : Except VersionError String := do
  let value := trim value
  bailWhen (value.toList.any isControl = true) .control
  let version ← context .empty (words Text.isAsciiWhitespace value.toList).head?
  bailWhen (¬IsVersionToken version) .malformed
  return String.ofList version

/-- `parse_stock_codex_version` -/
def parseStockCodexVersion (versionOutput : String) : Except CompatibilityError String := do
  let output := trim versionOutput
  bailWhen (output.toList.any isControl = true) .stockControl
  let fields := words Text.isAsciiWhitespace output.toList
  bailWhen (fields.head? ≠ some "codex-cli".toList) .notCodex
  let version ← context .noVersion fields[1]?
  (parseVersionToken (String.ofList version)).mapError .stockInvalid

/-- `verify_remote_codex_version` -/
def verifyRemoteCodexVersion (localVersion : String) (environment : RemoteEnvironment) :
    Except CompatibilityError Unit := do
  let localVersion ← (parseVersionToken localVersion).mapError .localInvalid
  let remoteOutput ← context (.unreported environment.label) environment.appServerVersion
  let remoteVersion ←
    (parseVersionToken remoteOutput).mapError (.remoteInvalid environment.label)
  bailWhen (remoteVersion ≠ localVersion)
    (.mismatch environment.label remoteVersion localVersion)

/-! ### Tokens -/

/-- The report is the version with white space around it, or followed by a space and more text
without control characters. -/
def Embellishes (version report : List Char) : Prop :=
  ∃ before after, report = before ++ version ++ after ∧
    (∀ c ∈ before, isWhitespace c = true) ∧
    (∀ c ∈ (after.rdropWhile isWhitespace).head?, c = ' ') ∧
    ∀ c ∈ after.rdropWhile isWhitespace, isControl c = false

/-- The characters of a token are no white space and no control characters. -/
theorem IsVersionToken.plain {token : List Char} (h : IsVersionToken token) :
    ∀ c ∈ token, isWhitespace c = false ∧ Text.isAsciiWhitespace c = false ∧
      isControl c = false := by
  intro c hc
  rcases h.2 c hc with h | rfl | rfl | rfl
  · exact plain_of_isAlphanum h
  · decide
  · decide
  · decide

/-- A token is not empty. -/
theorem IsVersionToken.ne_nil {token : List Char} (h : IsVersionToken token) : token ≠ [] := by
  rintro rfl
  simpa using h.1

/-- ASCII white space is white space. -/
theorem isWhitespace_of_isAsciiWhitespace {c : Char} (h : Text.isAsciiWhitespace c = true) :
    isWhitespace c = true := by
  simp only [Text.isAsciiWhitespace, Bool.or_eq_true, beq_iff_eq] at h
  rcases h with (((rfl | rfl) | rfl) | rfl) | rfl <;> decide

/-- The only ASCII white space that is no control character is the space. -/
theorem eq_space {c : Char} (h : Text.isAsciiWhitespace c = true) (hc : isControl c = false) :
    c = ' ' := by
  simp only [Text.isAsciiWhitespace, Bool.or_eq_true, beq_iff_eq] at h
  rcases h with (((rfl | rfl) | rfl) | rfl) | rfl
  · rfl
  all_goals revert hc; decide

/-- What is left of a report that embellishes a version. -/
theorem Embellishes.words_strip {version report : List Char} (hversion : IsVersionToken version)
    (h : Embellishes version report) :
    (∀ c ∈ strip isWhitespace report, isControl c = false) ∧
      (words Text.isAsciiWhitespace (strip isWhitespace report)).head? = some version := by
  obtain ⟨before, after, rfl, hbefore, hspace, hcontrol⟩ := h
  have hplain := hversion.plain
  rw [strip_append hbefore hversion.ne_nil fun c hc => (hplain c hc).1]
  constructor
  · intro c hc
    rcases List.mem_append.mp hc with hc | hc
    · exact (hplain c hc).2.2
    · exact hcontrol c hc
  · rw [words_append hversion.ne_nil fun c hc => (hplain c hc).2.1]
    · rfl
    · intro c hc
      rw [hspace c hc]
      decide

/-- A report from which a version is read embellishes it. -/
theorem embellishes_of_words_strip {version report : List Char}
    (hversion : IsVersionToken version)
    (hcontrol : ∀ c ∈ strip isWhitespace report, isControl c = false)
    (hword : (words Text.isAsciiWhitespace (strip isWhitespace report)).head? = some version) :
    Embellishes version report := by
  have hprefix : strip isWhitespace report <+: report.dropWhile isWhitespace :=
    List.rdropWhile_prefix _ _
  have hne : strip isWhitespace report ≠ [] := by
    intro hnil
    simp [hnil, words] at hword
  have hhead : ∀ c ∈ (strip isWhitespace report).head?, Text.isAsciiWhitespace c = false := by
    intro c hc
    obtain ⟨later, hlater⟩ := hprefix
    have hdrop := List.head?_dropWhile_not isWhitespace report
    rw [← hlater, List.head?_append, Option.mem_def.mp hc] at hdrop
    by_contra h
    simp [isWhitespace_of_isAsciiWhitespace (by simpa using h)] at hdrop
  rw [words_eq_cons hne hhead, List.head?_cons, Option.some_inj] at hword
  have hstrip : version ++ (strip isWhitespace report).dropWhile
      (fun c => !Text.isAsciiWhitespace c) = strip isWhitespace report := by
    rw [← hword, List.takeWhile_append_dropWhile]
  obtain ⟨after, hafter⟩ : version <+: report.dropWhile isWhitespace := by
    rw [← hword]
    exact (List.takeWhile_prefix _).trans hprefix
  have hreport : report = report.takeWhile isWhitespace ++ version ++ after := by
    rw [List.append_assoc, hafter, List.takeWhile_append_dropWhile]
  have hbefore : ∀ c ∈ report.takeWhile isWhitespace, isWhitespace c = true :=
    fun c hc => List.mem_takeWhile_imp hc
  have hkept : strip isWhitespace report = version ++ after.rdropWhile isWhitespace := by
    conv_lhs => rw [hreport]
    exact strip_append hbefore hversion.ne_nil fun c hc => (hversion.plain c hc).1
  have hrest : after.rdropWhile isWhitespace =
      (strip isWhitespace report).dropWhile fun c => !Text.isAsciiWhitespace c :=
    List.append_cancel_left (hkept.symm.trans hstrip.symm)
  have hplain : ∀ c ∈ after.rdropWhile isWhitespace, isControl c = false :=
    fun c hc => hcontrol c (by rw [hkept]; exact List.mem_append_right _ hc)
  refine ⟨_, after, hreport, hbefore, fun c hc => ?_, hplain⟩
  refine eq_space ?_ (hplain c (List.mem_of_mem_head? hc))
  have hdrop := List.head?_dropWhile_not (fun c => !Text.isAsciiWhitespace c)
    (strip isWhitespace report)
  rw [← hrest, Option.mem_def.mp hc] at hdrop
  simpa using hdrop

/-- The reports from which a version is read. -/
theorem parseVersionToken_eq_ok_iff {value version : String} :
    parseVersionToken value = .ok version ↔
      IsVersionToken version.toList ∧ Embellishes version.toList value.toList := by
  have htrim : (trim value).toList = strip isWhitespace value.toList := String.toList_ofList
  have hcontrol : ¬(strip isWhitespace value.toList).any isControl = true ↔
      ∀ c ∈ strip isWhitespace value.toList, isControl c = false := by
    simp
  simp only [parseVersionToken, bind_eq_ok_iff, bailWhen_eq_ok_iff, context_eq_ok_iff,
    pure_eq_ok_iff, htrim, hcontrol, not_not]
  constructor
  · rintro ⟨_, hplain, token, hword, _, htoken, rfl⟩
    rw [String.toList_ofList]
    exact ⟨htoken, embellishes_of_words_strip htoken hplain hword⟩
  · rintro ⟨htoken, hembellishes⟩
    obtain ⟨hplain, hword⟩ := hembellishes.words_strip htoken
    exact ⟨(), hplain, version.toList, hword, (), htoken, String.ofList_toList⟩

/-! ### The comparison of the updater -/

/-- An error that is not about different Codex versions. -/
def UpdateError.NotParity (e : UpdateError) : Prop :=
  ∀ localVersion remoteVersion, e ≠ .codexMismatch localVersion remoteVersion

section Find

variable {tools : UpdateTools} {outside : Outside}

/-- A version fails with errors of its own. -/
theorem failsOnly_stableVersion (value : String) :
    FailsOnly UpdateError.NotParity (stableVersion tools value) :=
  .bind (.context (by simp [UpdateError.NotParity]) _) fun _ =>
    .bind (.bailWhen (by simp [UpdateError.NotParity]) _) fun _ => .ok _

/-- So does an asset. -/
theorem failsOnly_validateAssets (version : String) (seen : List String)
    (assets : List ReleaseAsset) :
    FailsOnly UpdateError.NotParity (validateAssets version seen assets) := by
  induction assets generalizing seen with
  | nil => exact .ok ()
  | cons asset assets ih =>
    exact .bind (.bailWhen (by simp [UpdateError.NotParity]) _) fun _ => ih _

/-- So does a manifest. -/
theorem failsOnly_select (manifest : ReleaseManifest)
    (current localVersion remoteVersion target : String) :
    FailsOnly UpdateError.NotParity
      (manifest.select tools current localVersion remoteVersion target) := by
  refine .bind ?_ fun _ => .bind (failsOnly_stableVersion _) fun version =>
    .bind (failsOnly_stableVersion _) fun currentVersion => ?_
  · exact .bind (failsOnly_stableVersion _) fun _ =>
      .bind (.bailWhen (by simp [UpdateError.NotParity]) _) fun _ =>
        .bind (.mapM failsOnly_stableVersion _) fun _ => failsOnly_validateAssets _ _ _
  · split_ifs
    · exact .ok none
    · exact .ok _

/-- So does a download. -/
theorem failsOnly_receive (limit : ℕ) (response : Option Body) :
    FailsOnly UpdateError.NotParity (receive limit response) := by
  have hcollect : ∀ chunks bytes, FailsOnly UpdateError.NotParity (collect limit bytes chunks) := by
    intro chunks
    induction chunks with
    | nil => exact fun bytes => .ok bytes
    | cons chunk chunks ih =>
      exact fun bytes => .bind (.bailWhen (by simp [UpdateError.NotParity]) _) fun _ => ih _
  exact .bind (.context (by simp [UpdateError.NotParity]) _) fun body =>
    .bind (.bailWhen (by simp [UpdateError.NotParity]) _) fun _ =>
      .bind (hcollect _ _) fun bytes =>
        .bind (.bailWhen (by simp [UpdateError.NotParity]) _) fun _ => .ok bytes

/-- A download fails with errors of its own. -/
theorem download_fails (url : String) (limit : ℕ) :
    Triple (fun _ => True) (download outside url limit) (fun _ _ => True)
      (fun e _ => e.NotParity) :=
  (Triple.ask fun _ _ => trivial).bind (Q := fun _ _ => True) fun _ =>
    Triple.lift (fun _ _ _ _ => trivial) fun e he _ _ => failsOnly_receive _ _ e he

/-- So does the loop over the releases. -/
theorem findAmong_fails (assetBase current localVersion remoteVersion target : String)
    (releases : List GitHubRelease) :
    Triple (fun _ => True)
      (findAmong tools outside assetBase current localVersion remoteVersion target releases)
      (fun _ _ => True) (fun e _ => e.NotParity) := by
  induction releases with
  | nil => exact Triple.ret fun _ _ => trivial
  | cons release releases ih =>
    rw [findAmong]
    by_cases hmanifest : manifestName ∉ release.assets
    · rw [if_pos hmanifest]
      exact ih
    rw [if_neg hmanifest]
    refine Triple.bind (download_fails _ _) fun bytes => ?_
    refine Triple.bind (Q := fun _ _ => True) ?_ fun _ => ?_
    · refine Triple.bind (Q := fun _ _ => True) (Triple.ask fun _ _ => trivial) fun accepted => ?_
      refine Triple.bind (Q := fun _ _ => True)
        (Triple.failWhen_of (fun _ _ _ => trivial) fun _ _ _ => by simp [UpdateError.NotParity])
        fun _ => ?_
      exact Triple.change fun _ _ => trivial
    refine Triple.bind (Q := fun _ _ => True) (Triple.lift (fun _ _ _ _ => trivial) fun e he _ _ =>
      FailsOnly.context (by simp [UpdateError.NotParity]) _ e he) fun manifest => ?_
    refine Triple.bind (Q := fun _ _ => True)
      (Triple.failWhen_of (fun _ _ _ => trivial) fun _ _ _ => by simp [UpdateError.NotParity])
      fun _ => ?_
    refine Triple.bind (Q := fun _ _ => True) (Triple.lift (fun _ _ _ _ => trivial) fun e he _ _ =>
      failsOnly_select _ _ _ _ _ e he) fun selected => ?_
    cases selected with
    | none => exact ih
    | some asset =>
      refine Triple.bind (Q := fun _ _ => True)
        (Triple.failWhen_of (fun _ _ _ => trivial) fun _ _ _ => by simp [UpdateError.NotParity])
        fun _ => ?_
      exact Triple.ret fun _ _ => trivial

/-- `find` complains about different Codex versions exactly if the two texts differ. -/
theorem find_parity_iff {releasesUrl assetBase current localVersion remoteVersion target : String}
    {currentVersion : StableVersion}
    (hcurrent : stableVersion tools current = .ok currentVersion) (world : World) :
    (find tools outside releasesUrl assetBase current localVersion remoteVersion target world).1 =
      .error (.codexMismatch localVersion remoteVersion) ↔ localVersion ≠ remoteVersion := by
  constructor
  · intro herror hcommon
    have htriple : Triple (fun _ => True)
        (find tools outside releasesUrl assetBase current localVersion remoteVersion target)
        (fun _ _ => True) (fun e _ => e.NotParity) := by
      refine Triple.bind (Q := fun _ _ => True) (Triple.lift (fun _ _ _ _ => trivial)
        fun e he _ _ => failsOnly_stableVersion _ e he) fun currentVersion => ?_
      refine Triple.bind (Q := fun _ _ => True) (Triple.failWhen_of (fun _ _ _ => trivial)
        fun _ _ hne => absurd hcommon hne) fun _ => ?_
      refine Triple.bind (download_fails _ _) fun bytes => ?_
      refine Triple.bind (Q := fun _ _ => True) (Triple.lift (fun _ _ _ _ => trivial)
        fun e he _ _ => FailsOnly.context (by simp [UpdateError.NotParity]) _ e he)
        fun releases => ?_
      refine Triple.bind (Q := fun _ _ => True) (Triple.failWhen_of (fun _ _ _ => trivial)
        fun _ _ _ => by simp [UpdateError.NotParity]) fun _ => ?_
      exact findAmong_fails _ _ _ _ _ _
    exact htriple.of_error trivial herror _ _ rfl
  · intro hne
    have hcheck : bailWhen (localVersion ≠ remoteVersion)
        (UpdateError.codexMismatch localVersion remoteVersion) =
          .error (.codexMismatch localVersion remoteVersion) := if_pos hne
    rw [find, Effect.bind_apply, Effect.andThen, Effect.lift, hcurrent]
    change (Effect.andThen _ _ world).1 = _
    rw [Effect.andThen, Effect.failWhen, Effect.lift, hcheck]

end Find

/-- The token that is read from the output of the local Codex. -/
theorem isVersionToken_of_parseStock {output localVersion : String}
    (h : parseStockCodexVersion output = .ok localVersion) :
    IsVersionToken localVersion.toList := by
  obtain ⟨_, -, h⟩ := bind_eq_ok_iff.mp h
  obtain ⟨_, -, h⟩ := bind_eq_ok_iff.mp h
  obtain ⟨version, -, h⟩ := bind_eq_ok_iff.mp h
  exact (parseVersionToken_eq_ok_iff.mp (mapError_eq_ok_iff.mp h)).1

/-- A version embellishes itself. -/
theorem Embellishes.refl (version : List Char) : Embellishes version version :=
  ⟨[], [], by simp, by simp, by simp, by simp⟩

/-- A host is accepted if its report embellishes the local version. -/
theorem verifyRemoteCodexVersion_iff {localVersion report : String}
    {environment : RemoteEnvironment} (hlocal : IsVersionToken localVersion.toList)
    (hreport : environment.appServerVersion = some report) :
    verifyRemoteCodexVersion localVersion environment = .ok () ↔
      Embellishes localVersion.toList report.toList := by
  have hself : parseVersionToken localVersion = .ok localVersion :=
    parseVersionToken_eq_ok_iff.mpr ⟨hlocal, .refl _⟩
  simp only [verifyRemoteCodexVersion, bind_eq_ok_iff, mapError_eq_ok_iff, context_eq_ok_iff,
    bailWhen_eq_ok_iff, not_not, hself, hreport]
  constructor
  · rintro ⟨token, htoken, remoteOutput, hsome, version, hversion, hsame⟩
    obtain rfl := Except.ok.inj htoken
    obtain rfl := Option.some.inj hsome
    obtain rfl := hsame
    exact (parseVersionToken_eq_ok_iff.mp hversion).2
  · exact fun h => ⟨_, rfl, _, rfl, _, parseVersionToken_eq_ok_iff.mpr ⟨hlocal, h⟩, rfl⟩

/-- The two comparisons agree on a report exactly if it is not the local version with something
around it. -/
theorem parity_agrees_iff {tools : UpdateTools} {outside : Outside} {world : World}
    {output localVersion report releasesUrl assetBase current target : String}
    {currentVersion : StableVersion} {environment : RemoteEnvironment}
    (hlocal : parseStockCodexVersion output = .ok localVersion)
    (hreport : environment.appServerVersion = some report)
    (hcurrent : stableVersion tools current = .ok currentVersion) :
    (verifyRemoteCodexVersion localVersion environment = .ok () ↔
        (find tools outside releasesUrl assetBase current localVersion report target world).1 ≠
          .error (.codexMismatch localVersion report)) ↔
      ¬(Embellishes localVersion.toList report.toList ∧ report ≠ localVersion) := by
  have htoken := isVersionToken_of_parseStock hlocal
  rw [verifyRemoteCodexVersion_iff htoken hreport, Ne, find_parity_iff hcurrent, not_not]
  constructor
  · intro h hboth
    exact hboth.2 (h.mp hboth.1).symm
  · intro h
    constructor
    · intro hembellishes
      by_contra hne
      exact h ⟨hembellishes, fun heq => hne heq.symm⟩
    · rintro rfl
      exact .refl _

/-- A host that reports a version. -/
def reportingHost (report : String) : RemoteEnvironment where
  envId := "env-id"
  displayName := some "host"
  name := none
  hostName := none
  online := true
  busy := false
  appServerVersion := some report
  os := none
  arch := none

/-- The two comparisons agree on a bare version. -/
theorem parity_agrees_bare :
    verifyRemoteCodexVersion "0.162.0" (reportingHost "0.162.0") = .ok () ↔
      (find releaseTools releaseOutside "releases" "download" "0.1.0" "0.162.0" "0.162.0"
        "aarch64-apple-darwin" (.start ⟨[], none⟩)).1 ≠
          .error (.codexMismatch "0.162.0" "0.162.0") :=
  (parity_agrees_iff
    (show parseStockCodexVersion "codex-cli 0.162.0\n" = .ok "0.162.0" by decide +kernel) rfl
    (show stableVersion releaseTools "0.1.0" = .ok ⟨0, 1, 0⟩ by decide +kernel)).mpr
      fun h => h.2 rfl

/-- A host that reports its build is accepted for a session and refused by the updater. -/
theorem parity_differs_on_build :
    parseStockCodexVersion "codex-cli 0.162.0\n" = .ok "0.162.0" ∧
      verifyRemoteCodexVersion "0.162.0" (reportingHost "0.162.0 (build)") = .ok () ∧
      (find releaseTools releaseOutside "releases" "download" "0.1.0" "0.162.0" "0.162.0 (build)"
        "aarch64-apple-darwin" (.start ⟨[], none⟩)).1 =
          .error (.codexMismatch "0.162.0" "0.162.0 (build)") := by
  decide +kernel

end Rcodex
