import Rcodex.Update.Verified

/-!
# The release that is found

A release is eligible if it is published, its tag names a stable version newer than the running
one, and its manifest is valid, has that version, works with the common Codex version and has a
binary for the target.  `find` retains the releases with such a tag, sorts them and looks at their
manifests from the newest on.  `find_best` says that what it returns is an eligible release with
the greatest version, and that it returns nothing only if no release is eligible.
-/

namespace Rcodex

open Effect Json Result

section Eligible

variable (tools : UpdateTools) (manifestOf : String → Option ReleaseManifest)
  (currentVersion : StableVersion) (localVersion target : String)

/-- The release can be installed. -/
structure Eligible (release : GitHubRelease) (manifest : ReleaseManifest)
    (version : StableVersion) : Prop where
  /-- It is published. -/
  published : release.draft = false
  /-- It is not a pre-release. -/
  stable : release.prerelease = false
  /-- Its tag is `v` and a stable version. -/
  tag_eq : tagVersion tools release.tagName = some version
  /-- The version is newer than the running one. -/
  newer : currentVersion < version
  /-- It lists the manifest. -/
  signed : manifestName ∈ release.assets
  /-- This is its manifest. -/
  manifest_eq : manifestOf release.tagName = some manifest
  /-- The manifest is valid. -/
  valid : manifest.validate tools = .ok ()
  /-- The manifest has the version of the tag. -/
  version_eq : stableVersion tools manifest.version = .ok version
  /-- It works with the Codex version. -/
  listed : localVersion ∈ manifest.codexVersions
  /-- It has a binary for the target. -/
  built : ∃ asset ∈ manifest.assets, asset.target = target

/-- The release from which a binary is chosen. -/
structure Chosen (current remoteVersion : String) (release : GitHubRelease)
    (manifest : ReleaseManifest) (asset : ReleaseAsset) : Prop where
  /-- It lists the manifest. -/
  signed : manifestName ∈ release.assets
  /-- This is its manifest. -/
  manifest_eq : manifestOf release.tagName = some manifest
  /-- The manifest has the version of the tag. -/
  tag_eq : release.tagName = "v" ++ manifest.version
  /-- The binary is the one that the manifest has for the target. -/
  selected : manifest.select tools current localVersion remoteVersion target = .ok (some asset)
  /-- The release lists the binary. -/
  listed : asset.name ∈ release.assets

/-- What the loop over the releases returns: nothing is eligible before the release it chooses. -/
inductive Searched (current remoteVersion : String) :
    List GitHubRelease → Option (ReleaseManifest × ReleaseAsset) → Prop
  | nothing : Searched current remoteVersion [] none
  | skip {release : GitHubRelease} {releases : List GitHubRelease}
      {found : Option (ReleaseManifest × ReleaseAsset)}
      (hskip : ∀ manifest version,
        ¬Eligible tools manifestOf currentVersion localVersion target release manifest version)
      (hrest : Searched current remoteVersion releases found) :
      Searched current remoteVersion (release :: releases) found
  | choose {release : GitHubRelease} {releases : List GitHubRelease} {manifest : ReleaseManifest}
      {asset : ReleaseAsset} (hchosen : Chosen tools manifestOf localVersion target current
        remoteVersion release manifest asset) :
      Searched current remoteVersion (release :: releases) (some (manifest, asset))

/-- The manifest and the asset belong to an eligible release with the greatest version. -/
structure IsBest (releases : List GitHubRelease) (release : GitHubRelease)
    (manifest : ReleaseManifest) (version : StableVersion) (asset : ReleaseAsset) : Prop where
  /-- The release is one of the releases. -/
  mem : release ∈ releases
  /-- It is eligible. -/
  eligible :
    Eligible tools manifestOf currentVersion localVersion target release manifest version
  /-- No eligible release has a greater version. -/
  greatest : ∀ other ∈ releases, ∀ manifest' version',
    Eligible tools manifestOf currentVersion localVersion target other manifest' version' →
      version' ≤ version
  /-- The asset belongs to the manifest. -/
  asset_mem : asset ∈ manifest.assets
  /-- It is built for the target. -/
  target_eq : asset.target = target
  /-- It is the only one for the target. -/
  unique : ∀ other ∈ manifest.assets, other.target = target → other = asset
  /-- The release lists it. -/
  listed : asset.name ∈ release.assets

/-- A server with these releases and manifests. A request may fail at any time. -/
structure ServesReleases (outside : Outside) (releasesUrl assetBase : String)
    (releases : List GitHubRelease) : Prop where
  /-- What it sends as the list of releases. -/
  releases_eq : ∀ n bytes,
    receive maxMetadataBytes (outside.respond n releasesUrl) = .ok bytes →
      (tools.parse bytes).bind (Value.asListOf GitHubRelease.deserialize) = some releases
  /-- What it sends as the manifest of a tag. -/
  manifest_eq : ∀ n tag bytes, receive maxMetadataBytes
    (outside.respond n (assetBase ++ "/" ++ tag ++ "/" ++ manifestName)) = .ok bytes →
      (tools.parse bytes).bind ReleaseManifest.deserialize = manifestOf tag

end Eligible

section Lemmas

variable {tools : UpdateTools}

/-- The version a tag names. -/
theorem tagVersion_v (version : String) :
    tagVersion tools ("v" ++ version) = (stableVersion tools version).toOption := by
  rw [tagVersion, String.toList_append]
  change (stableVersion tools (String.ofList version.toList)).toOption = _
  rw [String.ofList_toList]

/-- A tag that names a version is `v` and a text that is parsed. -/
theorem exists_of_tagVersion {tag : String} {version : StableVersion}
    (h : tagVersion tools tag = some version) :
    ∃ text semantic, tag = "v" ++ text ∧ tools.parseVersion text = some semantic := by
  unfold tagVersion at h
  split at h
  · next text hlist =>
    refine ⟨String.ofList text, ?_⟩
    have htag : tag = "v" ++ String.ofList text := by
      rw [← String.toList_inj, String.toList_append, String.toList_ofList, hlist,
        String.toList_ofList]
      rfl
    cases hparse : tools.parseVersion (String.ofList text) with
    | some semantic => exact ⟨semantic, htag, rfl⟩
    | none =>
      rw [stableVersion, hparse] at h
      contradiction
  · simp at h

/-- What a selection returns. -/
theorem select_eq_ok {manifest : ReleaseManifest}
    {current localVersion remoteVersion target : String} {selected : Option ReleaseAsset}
    (h : manifest.select tools current localVersion remoteVersion target = .ok selected) :
    manifest.validate tools = .ok () ∧ ∃ version currentVersion,
      stableVersion tools manifest.version = .ok version ∧
      stableVersion tools current = .ok currentVersion ∧
      selected = if version ≤ currentVersion ∨ localVersion ≠ remoteVersion ∨
        localVersion ∉ manifest.codexVersions then none
        else manifest.assets.find? fun asset => asset.target = target := by
  obtain ⟨_, hvalid, h⟩ := bind_eq_ok_iff.mp h
  obtain ⟨version, hversion, h⟩ := bind_eq_ok_iff.mp h
  obtain ⟨currentVersion, hcurrent, h⟩ := bind_eq_ok_iff.mp h
  refine ⟨hvalid, version, currentVersion, hversion, hcurrent, ?_⟩
  split_ifs at h ⊢ with hrejected
  · exact (pure_eq_ok_iff.mp h).symm
  · exact (pure_eq_ok_iff.mp h).symm

/-- The targets of valid assets are different from each other and from those seen before. -/
theorem targets_of_validateAssets {version : String} {seen : List String}
    {assets : List ReleaseAsset} (h : validateAssets version seen assets = .ok ()) :
    (assets.map ReleaseAsset.target).Nodup ∧ ∀ asset ∈ assets, asset.target ∉ seen := by
  induction assets generalizing seen with
  | nil => simp
  | cons asset assets ih =>
    obtain ⟨_, hasset, hrest⟩ := bind_eq_ok_iff.mp h
    have hvalid := not_not.mp (bailWhen_eq_ok_iff.mp hasset)
    obtain ⟨hnodup, hseen⟩ := ih hrest
    refine ⟨List.nodup_cons.mpr ⟨fun hmem => ?_, hnodup⟩, fun other hmem => ?_⟩
    · obtain ⟨other, hother, htarget⟩ := List.mem_map.mp hmem
      exact hseen other hother (by simp [htarget])
    · rcases List.mem_cons.mp hmem with rfl | hmem
      · exact hvalid.2.1
      · exact fun hother => hseen other hmem (List.mem_cons_of_mem _ hother)

/-- A valid manifest has one asset for a target. -/
theorem eq_of_target_eq {manifest : ReleaseManifest} (h : manifest.validate tools = .ok ())
    {asset other : ReleaseAsset} (hasset : asset ∈ manifest.assets)
    (hother : other ∈ manifest.assets) (htarget : other.target = asset.target) :
    other = asset := by
  obtain ⟨_, -, h⟩ := bind_eq_ok_iff.mp h
  obtain ⟨_, -, h⟩ := bind_eq_ok_iff.mp h
  obtain ⟨_, -, h⟩ := bind_eq_ok_iff.mp h
  exact List.inj_on_of_nodup_map (targets_of_validateAssets h).1 hother hasset htarget

/-- Nothing is selected from the manifest of a release only if the release is not eligible. -/
theorem not_eligible_of_select {manifestOf : String → Option ReleaseManifest}
    {currentVersion : StableVersion} {current localVersion remoteVersion target : String}
    {release : GitHubRelease} {manifest : ReleaseManifest}
    (hcurrent : stableVersion tools current = .ok currentVersion)
    (hcommon : localVersion = remoteVersion)
    (hmanifest : manifestOf release.tagName = some manifest)
    (hselect : manifest.select tools current localVersion remoteVersion target = .ok none)
    (manifest' : ReleaseManifest) (version : StableVersion) :
    ¬Eligible tools manifestOf currentVersion localVersion target release manifest' version := by
  intro h
  obtain rfl := Option.some.inj (h.manifest_eq.symm.trans hmanifest)
  obtain ⟨-, version', currentVersion', hversion', hcurrent', hselected⟩ := select_eq_ok hselect
  obtain rfl := Except.ok.inj (hversion'.symm.trans h.version_eq)
  obtain rfl := Except.ok.inj (hcurrent'.symm.trans hcurrent)
  obtain ⟨asset, hasset, htarget⟩ := h.built
  rw [if_neg] at hselected
  · have hfind := List.find?_eq_none.mp hselected.symm asset hasset
    exact hfind (by simpa using htarget)
  · rintro (hle | hne | hunlisted)
    · exact absurd h.newer (not_lt.mpr hle)
    · exact hne hcommon
    · exact hunlisted h.listed

/-- The release from which a binary is chosen is eligible. -/
theorem Chosen.eligible {manifestOf : String → Option ReleaseManifest}
    {currentVersion : StableVersion} {current localVersion remoteVersion target : String}
    {release : GitHubRelease} {manifest : ReleaseManifest} {asset : ReleaseAsset}
    (h : Chosen tools manifestOf localVersion target current remoteVersion release manifest asset)
    (hcurrent : stableVersion tools current = .ok currentVersion)
    (hpublished : release.draft = false) (hstable : release.prerelease = false) :
    ∃ version, Eligible tools manifestOf currentVersion localVersion target release manifest
      version := by
  have hselects := selects_of_select h.selected
  obtain ⟨version, currentVersion', hversion, hcurrent', hnewer⟩ := hselects.newer
  obtain rfl := Except.ok.inj (hcurrent'.symm.trans hcurrent)
  refine ⟨version, hpublished, hstable, ?_, hnewer, h.signed, h.manifest_eq, hselects.valid,
    hversion, hselects.listed, asset, hselects.mem, hselects.target_eq⟩
  rw [h.tag_eq, tagVersion_v, hversion]
  rfl

end Lemmas

/-! ### The search -/

section Search

variable {tools : UpdateTools} {outside : Outside} {manifestOf : String → Option ReleaseManifest}
  {releasesUrl assetBase current localVersion remoteVersion target : String}
  {currentVersion : StableVersion}

/-- What a download returns is what the server sends to one of the requests. -/
theorem download_triple (url : String) (limit : ℕ) :
    Triple (fun _ => True) (download outside url limit)
      (fun bytes _ => (∃ n, receive limit (outside.respond n url) = .ok bytes) ∧ True)
      (fun _ _ => True) := by
  refine Triple.bind (Q := fun response _ => ∃ n, response = outside.respond n url)
    (Triple.ask fun world _ => ⟨world.questions, rfl⟩) fun response => ?_
  refine Triple.lift ?_ fun _ _ _ _ => trivial
  rintro bytes hbytes world ⟨n, rfl⟩
  exact ⟨⟨n, hbytes⟩, trivial⟩

/-- Bytes are verified or the verification fails. -/
theorem verifyBytes_triple (bytes : List UInt8) (tag : String) :
    Triple (fun _ => True) (verifyBytes outside bytes tag) (fun _ _ => True) (fun _ _ => True) :=
  (triple_verifyBytes ⟨fun _ _ => trivial, fun _ _ _ => trivial⟩ bytes tag).conseq
    (fun _ h => h) (fun _ _ _ => trivial) fun _ _ h => h

/-- The loop over the releases. -/
theorem findAmong_triple {listed : List GitHubRelease}
    (hserves : ServesReleases tools manifestOf outside releasesUrl assetBase listed)
    (hcurrent : stableVersion tools current = .ok currentVersion)
    (hcommon : localVersion = remoteVersion) (releases : List GitHubRelease) :
    Triple (fun _ => True)
      (findAmong tools outside assetBase current localVersion remoteVersion target releases)
      (fun found _ => Searched tools manifestOf currentVersion localVersion target current
        remoteVersion releases found) (fun _ _ => True) := by
  induction releases with
  | nil => exact Triple.ret fun _ _ => .nothing
  | cons release releases ih =>
    rw [findAmong]
    by_cases hmanifest : manifestName ∉ release.assets
    · rw [if_pos hmanifest]
      exact ih.conseq (fun _ h => h)
        (fun _ _ h => .skip (fun _ _ heligible => hmanifest heligible.signed) h) fun _ _ h => h
    rw [if_neg hmanifest]
    refine Triple.bind (download_triple _ _) fun bytes => ?_
    refine Triple.of_fact fun hbytes => ?_
    obtain ⟨n, hbytes⟩ := hbytes
    have hmanifestOf := hserves.manifest_eq n release.tagName bytes hbytes
    refine Triple.bind (verifyBytes_triple bytes release.tagName) fun _ => ?_
    rw [hmanifestOf]
    refine Triple.bind (Q := fun manifest _ => manifestOf release.tagName = some manifest ∧ True)
      (Triple.lift ?_ fun _ _ _ _ => trivial) fun manifest => Triple.of_fact fun hmanifestOf => ?_
    · intro manifest hcontext _ _
      exact ⟨context_eq_ok_iff.mp hcontext, trivial⟩
    refine Triple.bind (Q := fun _ _ => release.tagName = "v" ++ manifest.version ∧ True)
      (Triple.failWhen_of (fun _ _ htag => ⟨not_not.mp htag, trivial⟩) fun _ _ _ => trivial)
      fun _ => Triple.of_fact fun htag => ?_
    refine Triple.bind (Q := fun selected _ => manifest.select tools current localVersion
      remoteVersion target = .ok selected ∧ True)
      (Triple.lift (fun _ hselect _ _ => ⟨hselect, trivial⟩) fun _ _ _ _ => trivial)
      fun selected => Triple.of_fact fun hselect => ?_
    cases selected with
    | none =>
      exact ih.conseq (fun _ h => h) (fun _ _ h => .skip
        (not_eligible_of_select hcurrent hcommon hmanifestOf hselect) h) fun _ _ h => h
    | some asset =>
      refine Triple.bind (Q := fun _ _ => asset.name ∈ release.assets)
        (Triple.failWhen_of (fun _ _ hlisted => not_not.mp hlisted) fun _ _ _ => trivial)
        fun _ => Triple.ret fun _ hlisted => ?_
      exact .choose ⟨not_not.mp hmanifest, hmanifestOf, htag, hselect, hlisted⟩

/-- The releases that are retained. -/
theorem mem_candidates {releases : List GitHubRelease} {release : GitHubRelease} :
    release ∈ candidates tools currentVersion releases ↔ release ∈ releases ∧
      release.draft = false ∧ release.prerelease = false ∧
        ∃ version ∈ tagVersion tools release.tagName, currentVersion < version := by
  simp [candidates]

/-- The releases are sorted, the newest first. -/
theorem pairwise_candidates (releases : List GitHubRelease) :
    (candidates tools currentVersion releases).Pairwise fun a b =>
      releaseKey tools b ≤ releaseKey tools a := by
  let newest (a b : GitHubRelease) : Bool := releaseKey tools b ≤ releaseKey tools a
  have htrans : ∀ a b c, newest a b → newest b c → newest a c := by
    intro a b c hab hbc
    simp only [newest, decide_eq_true_eq] at hab hbc ⊢
    exact hbc.trans hab
  have htotal : ∀ a b, (newest a b || newest b a) = true := by
    intro a b
    simpa [newest] using le_total (releaseKey tools b) (releaseKey tools a)
  have hsorted := List.pairwise_mergeSort htrans htotal
    (releases.filter fun release => ¬release.draft ∧ ¬release.prerelease ∧
      ∃ version ∈ tagVersion tools release.tagName, currentVersion < version)
  simpa [candidates, newest] using hsorted

/-- A release that is retained has a tag that is parsed again. -/
theorem parses_of_mem_candidates {releases : List GitHubRelease} {release : GitHubRelease}
    (h : release ∈ candidates tools currentVersion releases) :
    ∃ text semantic, release.tagName = "v" ++ text ∧ tools.parseVersion text = some semantic := by
  obtain ⟨-, -, -, version, htag, -⟩ := mem_candidates.mp h
  exact exists_of_tagVersion htag

/-- An eligible release is sorted by its version. -/
theorem Eligible.releaseKey_eq {release : GitHubRelease} {manifest : ReleaseManifest}
    {version : StableVersion}
    (h : Eligible tools manifestOf currentVersion localVersion target release manifest version) :
    releaseKey tools release = version := by
  rw [releaseKey, h.tag_eq, Option.getD_some]

/-- An eligible release is retained. -/
theorem Eligible.mem_candidates {releases : List GitHubRelease} {release : GitHubRelease}
    {manifest : ReleaseManifest} {version : StableVersion}
    (h : Eligible tools manifestOf currentVersion localVersion target release manifest version)
    (hmem : release ∈ releases) : release ∈ candidates tools currentVersion releases :=
  Rcodex.mem_candidates.mpr ⟨hmem, h.published, h.stable, version, h.tag_eq, h.newer⟩

/-- If nothing is found, no release is eligible. -/
theorem Searched.not_eligible {releases : List GitHubRelease}
    {found : Option (ReleaseManifest × ReleaseAsset)}
    (h : Searched tools manifestOf currentVersion localVersion target current remoteVersion
      releases found) (hfound : found = none) :
    ∀ release ∈ releases, ∀ manifest version,
      ¬Eligible tools manifestOf currentVersion localVersion target release manifest version := by
  induction h with
  | nothing => simp
  | skip hskip _ ih =>
    intro release hmem
    rcases List.mem_cons.mp hmem with rfl | hmem
    · exact hskip
    · exact ih hfound release hmem
  | choose => simp at hfound

/-- Where a binary is found. -/
theorem Searched.exists_chosen {releases : List GitHubRelease}
    {found : Option (ReleaseManifest × ReleaseAsset)} {manifest : ReleaseManifest}
    {asset : ReleaseAsset}
    (h : Searched tools manifestOf currentVersion localVersion target current remoteVersion
      releases found) (hfound : found = some (manifest, asset)) :
    ∃ before release after, releases = before ++ release :: after ∧
      (∀ earlier ∈ before, ∀ manifest' version,
        ¬Eligible tools manifestOf currentVersion localVersion target earlier manifest' version) ∧
      Chosen tools manifestOf localVersion target current remoteVersion release manifest
        asset := by
  induction h with
  | nothing => simp at hfound
  | @skip first _ _ hskip _ ih =>
    obtain ⟨before, release, after, rfl, hbefore, hchosen⟩ := ih hfound
    refine ⟨first :: before, release, after, rfl, fun earlier hmem => ?_, hchosen⟩
    rcases List.mem_cons.mp hmem with rfl | hmem
    · exact hskip
    · exact hbefore earlier hmem
  | choose hchosen =>
    obtain ⟨rfl, rfl⟩ := Prod.mk.inj (Option.some.inj hfound)
    exact ⟨[], _, _, rfl, by simp, hchosen⟩

/-- What the search chooses among the sorted releases is the best. -/
theorem exists_isBest {releases : List GitHubRelease} {manifest : ReleaseManifest}
    {asset : ReleaseAsset} (hcurrent : stableVersion tools current = .ok currentVersion)
    (h : Searched tools manifestOf currentVersion localVersion target current remoteVersion
      (candidates tools currentVersion releases) (some (manifest, asset))) :
    ∃ release version, IsBest tools manifestOf currentVersion localVersion target releases release
      manifest version asset := by
  obtain ⟨before, release, after, hsplit, hbefore, hchosen⟩ := h.exists_chosen rfl
  have hmem : release ∈ candidates tools currentVersion releases := by simp [hsplit]
  obtain ⟨hreleases, hpublished, hstable, -⟩ := mem_candidates.mp hmem
  obtain ⟨version, heligible⟩ := hchosen.eligible hcurrent hpublished hstable
  have hselects := selects_of_select hchosen.selected
  refine ⟨release, version, hreleases, heligible, ?_, hselects.mem, hselects.target_eq, ?_,
    hchosen.listed⟩
  · intro other hother manifest' version' hother'
    have hsorted : (candidates tools currentVersion releases).Pairwise fun a b =>
        releaseKey tools b ≤ releaseKey tools a := pairwise_candidates releases
    have hplace := hother'.mem_candidates hother
    rw [hsplit] at hsorted hplace
    rcases List.mem_append.mp hplace with hplace | hplace
    · exact absurd hother' (hbefore other hplace manifest' version')
    · rcases List.mem_cons.mp hplace with rfl | hplace
      · rw [← hother'.releaseKey_eq, heligible.releaseKey_eq]
      · have hle := (List.pairwise_cons.mp (List.pairwise_append.mp hsorted).2.1).1 other hplace
        rwa [hother'.releaseKey_eq, heligible.releaseKey_eq] at hle
  · intro other hother htarget
    exact eq_of_target_eq hselects.valid hselects.mem hother
      (htarget.trans hselects.target_eq.symm)

/-- `find` searches the releases that it retains. -/
theorem find_triple {releases : List GitHubRelease}
    (hserves : ServesReleases tools manifestOf outside releasesUrl assetBase releases) :
    Triple (fun _ => True)
      (find tools outside releasesUrl assetBase current localVersion remoteVersion target)
      (fun found _ => localVersion = remoteVersion ∧ ∃ currentVersion,
        stableVersion tools current = .ok currentVersion ∧
          Searched tools manifestOf currentVersion localVersion target current remoteVersion
            (candidates tools currentVersion releases) found) (fun _ _ => True) := by
  refine Triple.bind (Q := fun currentVersion _ =>
    stableVersion tools current = .ok currentVersion ∧ True)
    (Triple.lift (fun _ hcurrent _ _ => ⟨hcurrent, trivial⟩) fun _ _ _ _ => trivial)
    fun currentVersion => Triple.of_fact fun hcurrent => ?_
  refine Triple.bind (Q := fun _ _ => localVersion = remoteVersion ∧ True)
    (Triple.failWhen_of (fun _ _ hcommon => ⟨not_not.mp hcommon, trivial⟩) fun _ _ _ => trivial)
    fun _ => Triple.of_fact fun hcommon => ?_
  refine Triple.bind (download_triple _ _) fun bytes => Triple.of_fact fun hbytes => ?_
  obtain ⟨n, hbytes⟩ := hbytes
  rw [hserves.releases_eq n bytes hbytes]
  refine Triple.bind (Q := fun listed _ => listed = releases ∧ True)
    (Triple.lift ?_ fun _ _ _ _ => trivial) fun listed => Triple.of_fact fun hlisted => ?_
  · intro listed hcontext _ _
    exact ⟨(Option.some.inj (context_eq_ok_iff.mp hcontext)).symm, trivial⟩
  rw [hlisted]
  refine Triple.bind (Q := fun _ _ => True) (Triple.failWhen_keeps fun _ _ => trivial)
    fun _ => ?_
  exact (findAmong_triple hserves hcurrent hcommon _).conseq (fun _ h => h)
    (fun _ _ h => ⟨hcommon, currentVersion, hcurrent, h⟩) fun _ _ h => h

/-- A search that has received the list looks at its candidates. -/
theorem find_eq {currentVersion : StableVersion} {releases : List GitHubRelease}
    {bytes : List UInt8} {world : World}
    (hcurrent : stableVersion tools current = .ok currentVersion)
    (hcommon : localVersion = remoteVersion)
    (hdownload : (download outside releasesUrl maxMetadataBytes world).1 = .ok bytes)
    (hparse : (tools.parse bytes).bind (Value.asListOf GitHubRelease.deserialize) = some releases)
    (hcount : releases.length ≤ 20) :
    find tools outside releasesUrl assetBase current localVersion remoteVersion target world =
      findAmong tools outside assetBase current localVersion remoteVersion target
        (candidates tools currentVersion releases)
        (download outside releasesUrl maxMetadataBytes world).2 := by
  have hpair : download outside releasesUrl maxMetadataBytes world =
      (.ok bytes, (download outside releasesUrl maxMetadataBytes world).2) :=
    Prod.ext hdownload rfl
  rw [find, hcurrent, lift_ok_bind, failWhen_bind, if_neg (not_not.mpr hcommon), bind_apply,
    andThen, hpair]
  dsimp only
  rw [hparse, context, lift_ok_bind, failWhen_bind, if_neg (not_lt.mpr hcount)]

/-- The search returns the best eligible release, or nothing if there is none, and the tags it
sorts by can be parsed. -/
theorem find_best {releases : List GitHubRelease}
    (hserves : ServesReleases tools manifestOf outside releasesUrl assetBase releases) :
    (∀ currentVersion, ∀ release ∈ candidates tools currentVersion releases,
      ∃ text semantic, release.tagName = "v" ++ text ∧ tools.parseVersion text = some semantic) ∧
    ∀ world found, (find tools outside releasesUrl assetBase current localVersion remoteVersion
        target world).1 = .ok found →
      localVersion = remoteVersion ∧ ∃ currentVersion,
        stableVersion tools current = .ok currentVersion ∧
        (found = none → ∀ release ∈ releases, ∀ manifest version,
          ¬Eligible tools manifestOf currentVersion localVersion target release manifest
            version) ∧
        ∀ manifest asset, found = some (manifest, asset) → ∃ release version,
          IsBest tools manifestOf currentVersion localVersion target releases release manifest
            version asset := by
  refine ⟨fun _ _ => parses_of_mem_candidates, fun world found hfound => ?_⟩
  have htriple : Triple (fun _ => True)
      (find tools outside releasesUrl assetBase current localVersion remoteVersion target)
      (fun found _ => localVersion = remoteVersion ∧ ∃ currentVersion,
        stableVersion tools current = .ok currentVersion ∧
          Searched tools manifestOf currentVersion localVersion target current remoteVersion
            (candidates tools currentVersion releases) found) (fun _ _ => True) :=
    find_triple hserves
  obtain ⟨hcommon, currentVersion, hcurrent, hsearched⟩ := htriple.of_ok trivial hfound
  refine ⟨hcommon, currentVersion, hcurrent, ?_, ?_⟩
  · intro hnone release hmem manifest version heligible
    exact hsearched.not_eligible hnone release (heligible.mem_candidates hmem) manifest version
      heligible
  · rintro manifest asset rfl
    exact exists_isBest hcurrent hsearched

end Search

/-- A list of two releases: the newer one has the same assets for its own version. -/
def searchedDocument : Value :=
  .array [.object [("tag_name", .string "v0.3.0"), ("draft", .bool false),
      ("prerelease", .bool false), ("assets", .array [.object [("name", .string manifestName)],
        .object [("name", .string "rcodex-0.3.0-aarch64-apple-darwin")]])],
    .object [("tag_name", .string "v0.2.0"), ("draft", .bool false),
      ("prerelease", .bool false), ("assets", .array [.object [("name", .string manifestName)],
        .object [("name", .string "rcodex-0.2.0-aarch64-apple-darwin")]])]]

/-- The manifest of the newer release, which is for another Codex version. -/
def newerDocument : Value :=
  .object [("schema_version", .ofU64 1), ("version", .string "0.3.0"),
    ("codex_versions", .array [.string "0.162.0"]), ("assets", .array [.object
      [("name", .string "rcodex-0.3.0-aarch64-apple-darwin"),
        ("target", .string "aarch64-apple-darwin"), ("size", .ofU64 10), ("sha256", .string
          "2f17c9ffb972a6c5da72c2b3df01f7e2ccf52dad2c0059dac631232a15126d2e")]])]

/-- Libraries that know both. -/
def searchTools : UpdateTools :=
  { releaseTools with
    parse := (plainCodec [searchedDocument, manifestDocument, newerDocument]).fromSlice
    parseVersion := fun value => [("0.1.0", ⟨0, 1, 0, "", ""⟩), ("0.2.0", ⟨0, 2, 0, "", ""⟩),
      ("0.3.0", ⟨0, 3, 0, "", ""⟩), ("0.153.0", ⟨0, 153, 0, "", ""⟩),
      ("0.162.0", ⟨0, 162, 0, "", ""⟩)].lookup value }

/-- The releases of the list. -/
def searchedReleases : List GitHubRelease :=
  [⟨"v0.3.0", false, false, [manifestName, "rcodex-0.3.0-aarch64-apple-darwin"]⟩,
    ⟨"v0.2.0", false, false, [manifestName, "rcodex-0.2.0-aarch64-apple-darwin"]⟩]

/-- The manifest of a version for one target. -/
def manifestOfVersion (version codexVersion : String) : ReleaseManifest where
  schemaVersion := 1
  version
  codexVersions := [codexVersion]
  assets := [⟨"rcodex-" ++ version ++ "-aarch64-apple-darwin", "aarch64-apple-darwin",
    "2f17c9ffb972a6c5da72c2b3df01f7e2ccf52dad2c0059dac631232a15126d2e", 10⟩]

/-- The binary of the older release. -/
def listedAsset : ReleaseAsset :=
  ⟨"rcodex-0.2.0-aarch64-apple-darwin", "aarch64-apple-darwin",
    "2f17c9ffb972a6c5da72c2b3df01f7e2ccf52dad2c0059dac631232a15126d2e", 10⟩

/-- A document as a server sends it. -/
def sentDocument (document : Value) : Option Body :=
  some ⟨none, [(plainCodec []).toVec document], true⟩

/-- What a server sends that has the manifests at their addresses and the list elsewhere. -/
def addressedDocument (url : String) : Value :=
  if url = "download/v0.2.0/rcodex-update.json" then manifestDocument
  else if url = "download/v0.3.0/rcodex-update.json" then newerDocument
  else searchedDocument

/-- This server. -/
def addressedOutside : Outside where
  respond := fun _ url => sentDocument (addressedDocument url)
  accepts := fun _ _ _ => true
  file := fun _ => .done

/-- The manifest of a tag. -/
def addressedManifest (tag : String) : Option ReleaseManifest :=
  ReleaseManifest.deserialize (addressedDocument ("download" ++ "/" ++ tag ++ "/" ++ manifestName))

/-- What the server sends is received and parsed. -/
theorem parse_sentDocument {url : String} {bytes : List UInt8}
    (h : receive maxMetadataBytes (sentDocument (addressedDocument url)) = .ok bytes) :
    searchTools.parse bytes = some (addressedDocument url) := by
  have hsent : ∀ document ∈ [manifestDocument, newerDocument, searchedDocument],
      receive maxMetadataBytes (sentDocument document) = .ok ((plainCodec []).toVec document) ∧
        searchTools.parse ((plainCodec []).toVec document) = some document := by
    decide +kernel
  have hmem : addressedDocument url ∈ [manifestDocument, newerDocument, searchedDocument] := by
    unfold addressedDocument
    split_ifs <;> simp
  obtain ⟨hreceived, hparsed⟩ := hsent _ hmem
  obtain rfl := Except.ok.inj (hreceived.symm.trans h)
  exact hparsed

/-- The server serves the releases. -/
theorem servesReleases_addressed :
    ServesReleases searchTools addressedManifest addressedOutside "releases" "download"
      searchedReleases := by
  constructor
  · intro n bytes hbytes
    rw [parse_sentDocument hbytes]
    decide +kernel
  · intro n tag bytes hbytes
    rw [parse_sentDocument hbytes]
    rfl

/-- Both releases are looked at, the newer one first. -/
theorem candidates_searched :
    candidates searchTools ⟨0, 1, 0⟩ searchedReleases = searchedReleases := by
  have hall : searchedReleases.filter (fun release => ¬release.draft ∧ ¬release.prerelease ∧
      ∃ version ∈ tagVersion searchTools release.tagName, ⟨0, 1, 0⟩ < version) =
        searchedReleases := by
    decide +kernel
  have hsorted : searchedReleases.Pairwise fun a b =>
      decide (releaseKey searchTools b ≤ releaseKey searchTools a) = true := by
    decide +kernel
  rw [candidates, hall]
  exact List.mergeSort_of_pairwise hsorted

/-- The search finds the older release, which is the best for its target and the Codex version. -/
theorem find_best_searched :
    (find searchTools addressedOutside "releases" "download" "0.1.0" "0.153.0" "0.153.0"
      "aarch64-apple-darwin" (.start ⟨[], none⟩)).1 =
        .ok (some (manifestOfVersion "0.2.0" "0.153.0", listedAsset)) ∧
    ∃ release version, IsBest searchTools addressedManifest ⟨0, 1, 0⟩ "0.153.0"
      "aarch64-apple-darwin" searchedReleases release (manifestOfVersion "0.2.0" "0.153.0") version
      listedAsset := by
  have hversion : stableVersion searchTools "0.1.0" = .ok ⟨0, 1, 0⟩ := by decide +kernel
  have hdownload : (download addressedOutside "releases" maxMetadataBytes (.start ⟨[], none⟩)).1 =
      .ok ((plainCodec []).toVec searchedDocument) := by decide +kernel
  have hparse : (searchTools.parse ((plainCodec []).toVec searchedDocument)).bind
      (Value.asListOf GitHubRelease.deserialize) = some searchedReleases := by decide +kernel
  have hfound : (find searchTools addressedOutside "releases" "download" "0.1.0" "0.153.0"
      "0.153.0" "aarch64-apple-darwin" (.start ⟨[], none⟩)).1 =
        .ok (some (manifestOfVersion "0.2.0" "0.153.0", listedAsset)) := by
    rw [find_eq hversion rfl hdownload hparse (by decide), candidates_searched]
    decide +kernel
  obtain ⟨-, currentVersion, hcurrent, -, hbest⟩ :=
    (find_best servesReleases_addressed).2 _ _ hfound
  obtain rfl := Except.ok.inj (hcurrent.symm.trans hversion)
  exact ⟨hfound, hbest _ _ rfl⟩

end Rcodex
