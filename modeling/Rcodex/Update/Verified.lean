import Rcodex.Update.Install
import Rcodex.Foundation.CompactJson

/-!
# Only verified code is installed

Every executable that was ever in place is the first one, a backup that was there before and was
put back by a rollback, or the bytes of a binary that the verifier has accepted together with its
manifest (`Verified`).  The backup holds one of these too.

`Sound` says so of all moments up to now.  Each computation of the updater keeps it, whether it
succeeds or fails (`sound_find`, `sound_install`, `sound_rollback`), so every run of commands does
(`only_verified_installed`).
-/

namespace Rcodex

open Json Result Effect

variable {tools : UpdateTools} {outside : Outside} {initial : Disk}
  {commands : List UpdateCommand}

/-- The manifest was accepted under the tag of its version, and the asset was selected from it. -/
structure Found (tools : UpdateTools) (attested : List Attested)
    (current localVersion remoteVersion target : String) (manifest : ReleaseManifest)
    (asset : ReleaseAsset) : Prop where
  /-- The verifier has accepted the text of the manifest. -/
  accepted : ∃ bytes, ⟨"v" ++ manifest.version, bytes⟩ ∈ attested ∧
    (tools.parse bytes).bind ReleaseManifest.deserialize = some manifest
  /-- The asset was selected from it. -/
  selects : Selects tools manifest current localVersion remoteVersion target asset

/-- These bytes are a binary that an update may install: the verifier has accepted them and the
manifest under the same tag, and they have the size and the digest of the asset. -/
def Verified (tools : UpdateTools) (commands : List UpdateCommand) (attested : List Attested)
    (bytes : List UInt8) : Prop :=
  ∃ current localVersion remoteVersion target exclusive manifest asset,
    .update current localVersion remoteVersion target exclusive ∈ commands ∧
    Found tools attested current localVersion remoteVersion target manifest asset ∧
    ⟨"v" ++ manifest.version, bytes⟩ ∈ attested ∧ bytes.length = asset.size.toNat ∧
    tools.sha256Hex bytes = asset.sha256

/-- What the executable and its backup may hold at a moment. -/
structure Allowed (tools : UpdateTools) (commands : List UpdateCommand) (initial : Disk)
    (attested : List Attested) (moment : Moment) : Prop where
  /-- The executable. -/
  executable : moment.disk.executable = initial.executable ∨
    (moment.rolledBack = true ∧ initial.backup = some moment.disk.executable) ∨
    Verified tools commands attested moment.disk.executable
  /-- The backup. -/
  backup : ∀ bytes ∈ moment.disk.backup, bytes = initial.executable ∨
    initial.backup = some bytes ∨ Verified tools commands attested bytes

/-- All moments up to now are allowed. -/
def Sound (tools : UpdateTools) (commands : List UpdateCommand) (initial : Disk) (world : World) :
    Prop :=
  ∀ moment ∈ world.moments, Allowed tools commands initial world.attested moment

/-- What was found is still found when the verifier has accepted more. -/
theorem Found.mono {attested attested' : List Attested}
    {current localVersion remoteVersion target : String} {manifest : ReleaseManifest}
    {asset : ReleaseAsset}
    (h : Found tools attested current localVersion remoteVersion target manifest asset)
    (hsub : attested ⊆ attested') :
    Found tools attested' current localVersion remoteVersion target manifest asset :=
  ⟨h.accepted.imp fun _ haccepted => ⟨hsub haccepted.1, haccepted.2⟩, h.selects⟩

/-- What was verified stays so. -/
theorem Verified.mono {attested attested' : List Attested} {bytes : List UInt8}
    (h : Verified tools commands attested bytes) (hsub : attested ⊆ attested') :
    Verified tools commands attested' bytes := by
  obtain ⟨current, localVersion, remoteVersion, target, exclusive, manifest, asset, hmem, hfound,
    haccepted, hsize, hdigest⟩ := h
  exact ⟨current, localVersion, remoteVersion, target, exclusive, manifest, asset, hmem,
    hfound.mono hsub, hsub haccepted, hsize, hdigest⟩

/-- What was allowed stays so. -/
theorem Allowed.mono {attested attested' : List Attested} {moment : Moment}
    (h : Allowed tools commands initial attested moment) (hsub : attested ⊆ attested') :
    Allowed tools commands initial attested' moment where
  executable := h.executable.imp_right fun h' => h'.imp_right fun hverified => hverified.mono hsub
  backup := fun bytes hbytes => (h.backup bytes hbytes).imp_right
    fun h' => h'.imp_right fun hverified => hverified.mono hsub

namespace Sound

variable {world : World}

/-- The files before anything happens are allowed. -/
theorem start (tools : UpdateTools) (commands : List UpdateCommand) (initial : Disk) :
    Sound tools commands initial (.start initial) := by
  intro moment hmoment
  obtain rfl := List.mem_singleton.mp hmoment
  exact ⟨Or.inl rfl, fun bytes hbytes => Or.inr (Or.inl hbytes)⟩

/-- A question changes nothing. -/
theorem asked (h : Sound tools commands initial world) :
    Sound tools commands initial world.asked := h

/-- More that is accepted changes nothing. -/
theorem attest (h : Sound tools commands initial world) (entry : Attested) :
    Sound tools commands initial (world.attest entry) :=
  fun moment hmoment => (h moment hmoment).mono (List.subset_cons_self _ _)

/-- One more moment that is allowed. -/
theorem turn (h : Sound tools commands initial world) {moment : Moment}
    (hmoment : Allowed tools commands initial world.attested moment) :
    Sound tools commands initial (world.turn moment) := by
  intro other hother
  rcases List.mem_cons.mp hother with rfl | hother
  · exact hmoment
  · exact h other hother

/-- The present moment is allowed. -/
theorem now (h : Sound tools commands initial world) :
    Allowed tools commands initial world.attested world.now := h _ List.mem_cons_self

end Sound

/-! ### The computations of the updater -/

/-- A condition that neither questions nor more accepted things can break. -/
structure Lasting (P : World → Prop) : Prop where
  /-- A question does not break it. -/
  asked : ∀ world, P world → P world.asked
  /-- Nor does the verifier. -/
  attest : ∀ world entry, P world → P (world.attest entry)

/-- Soundness lasts, and so does what was found. -/
theorem lasting_sound : Lasting (Sound tools commands initial) :=
  ⟨fun _ h => h.asked, fun _ entry h => h.attest entry⟩

section Lasting

variable {P : World → Prop}

/-- A question keeps the condition. -/
theorem triple_question (hP : Lasting P) {α : Type} (answer : ℕ → α) :
    Triple P (question answer) (fun _ => P) (fun _ => P) :=
  Triple.ask fun world h => hP.asked world h

/-- A download keeps the condition. -/
theorem triple_download (hP : Lasting P) (url : String) (limit : ℕ) :
    Triple P (download outside url limit) (fun _ => P) (fun _ => P) :=
  (triple_question hP _).bind fun _ => Triple.lift_keeps fun _ _ h => h

/-- A verification that succeeds is recorded. -/
theorem triple_verifyBytes (hP : Lasting P) (bytes : List UInt8) (tag : String) :
    Triple P (verifyBytes outside bytes tag)
      (fun _ world => P world ∧ ⟨tag, bytes⟩ ∈ world.attested) (fun _ => P) := by
  refine Triple.bind (triple_question hP _) fun accepted => ?_
  refine Triple.bind (Triple.failWhen_keeps fun world h => h) fun _ => ?_
  exact Triple.change fun world h => ⟨hP.attest world _ h, List.mem_cons_self⟩

/-- A check of a file keeps the condition. -/
theorem triple_fileCheck (hP : Lasting P) :
    Triple P (fileCheck outside) (fun _ => P) (fun _ => P) :=
  (triple_question hP _).bind fun _ => Triple.failWhen_keeps fun _ h => h

/-- A write leads from the present moment to the written one, or fails before that. -/
theorem triple_atomicWrite {Q : World → Prop} (hP : Lasting P) {write : Moment → Moment}
    (hwrite : ∀ world, P world → Q (world.turn (write world.now)))
    (hkeep : ∀ world, P world → Q world) :
    Triple P (atomicWrite outside write) (fun _ => Q) (fun _ => Q) := by
  refine Triple.bind (Q := fun _ => P) ?_ fun outcome => ?_
  · exact (triple_question hP _).conseq (fun _ h => h) (fun _ _ h => h) fun _ => hkeep
  refine Triple.bind (Triple.failWhen_keeps hkeep) fun _ => ?_
  refine Triple.bind (Q := fun _ => Q) (Triple.change hwrite) fun _ => ?_
  exact Triple.failWhen_keeps fun _ h => h

end Lasting

/-! ### Find -/

/-- What `find` returns is found. -/
def FoundIn (tools : UpdateTools) (commands : List UpdateCommand) (initial : Disk)
    (current localVersion remoteVersion target : String)
    (found : Option (ReleaseManifest × ReleaseAsset)) (world : World) : Prop :=
  Sound tools commands initial world ∧ ∀ pair ∈ found, Found tools world.attested current
    localVersion remoteVersion target pair.1 pair.2

/-- The loop over the candidates. -/
theorem sound_findAmong (assetBase current localVersion remoteVersion target : String)
    (releases : List GitHubRelease) :
    Triple (Sound tools commands initial)
      (findAmong tools outside assetBase current localVersion remoteVersion target releases)
      (FoundIn tools commands initial current localVersion remoteVersion target)
      (fun _ => Sound tools commands initial) := by
  induction releases with
  | nil =>
    apply Triple.ret
    intro world h
    exact ⟨h, by simp⟩
  | cons release releases ih =>
    rw [findAmong]
    by_cases hmanifest : manifestName ∉ release.assets
    · rw [if_pos hmanifest]
      exact ih
    rw [if_neg hmanifest]
    refine Triple.bind (triple_download lasting_sound _ _) fun bytes => ?_
    refine Triple.bind ((triple_verifyBytes lasting_sound bytes release.tagName)) fun _ => ?_
    refine Triple.bind (Q := fun manifest world => Sound tools commands initial world ∧
      ⟨release.tagName, bytes⟩ ∈ world.attested ∧
      (tools.parse bytes).bind ReleaseManifest.deserialize = some manifest) ?_ fun manifest => ?_
    · exact Triple.lift (fun manifest hparse world h => ⟨h.1, h.2, context_eq_ok_iff.mp hparse⟩)
        fun _ _ _ h => h.1
    refine Triple.bind (Triple.failWhen fun _ h => h.1) fun _ => ?_
    refine Triple.bind (Q := fun selected world => Sound tools commands initial world ∧
      ∀ asset ∈ selected, Found tools world.attested current localVersion remoteVersion target
        manifest asset) ?_ fun selected => ?_
    · refine Triple.lift (fun selected hselect world h => ⟨h.1.1, ?_⟩) fun _ _ _ h => h.1.1
      rintro asset rfl
      obtain ⟨⟨-, haccepted, hparse⟩, htag⟩ := h
      rw [not_not.mp htag] at haccepted
      exact ⟨⟨bytes, haccepted, hparse⟩, selects_of_select hselect⟩
    cases selected with
    | none => exact ih.conseq (fun _ h => h.1) (fun _ _ h => h) fun _ _ h => h
    | some asset =>
      refine Triple.bind (Triple.failWhen_keeps fun _ h => h.1) fun _ => ?_
      refine Triple.ret fun world h => ⟨h.1, ?_⟩
      intro pair hpair
      obtain rfl := Option.some.inj hpair
      exact h.2 asset rfl

/-- `find` keeps soundness, and what it returns is found. -/
theorem sound_find (releasesUrl assetBase current localVersion remoteVersion target : String) :
    Triple (Sound tools commands initial)
      (find tools outside releasesUrl assetBase current localVersion remoteVersion target)
      (FoundIn tools commands initial current localVersion remoteVersion target)
      (fun _ => Sound tools commands initial) := by
  refine Triple.bind (Triple.lift_keeps fun _ _ h => h) fun currentVersion => ?_
  refine Triple.bind (Triple.failWhen_keeps fun _ h => h) fun _ => ?_
  refine Triple.bind (triple_download lasting_sound _ _) fun bytes => ?_
  refine Triple.bind (Triple.lift_keeps fun _ _ h => h) fun releases => ?_
  refine Triple.bind (Triple.failWhen_keeps fun _ h => h) fun _ => ?_
  exact sound_findAmong assetBase current localVersion remoteVersion target _

/-! ### Install and rollback -/

/-- The backup may hold these bytes. -/
def MayBackUp (tools : UpdateTools) (commands : List UpdateCommand) (initial : Disk)
    (attested : List Attested) (bytes : List UInt8) : Prop :=
  bytes = initial.executable ∨ initial.backup = some bytes ∨ Verified tools commands attested bytes

/-- What may be backed up still may when the verifier has accepted more. -/
theorem MayBackUp.mono {attested attested' : List Attested} {bytes : List UInt8}
    (h : MayBackUp tools commands initial attested bytes) (hsub : attested ⊆ attested') :
    MayBackUp tools commands initial attested' bytes :=
  h.imp_right fun h' => h'.imp_right fun hverified => hverified.mono hsub

/-- Soundness and a fact about accepted things last. -/
theorem lasting_sound_and {F : List Attested → Prop}
    (hF : ∀ attested entry, F attested → F (entry :: attested)) :
    Lasting fun world => Sound tools commands initial world ∧ F world.attested :=
  ⟨fun _ h => ⟨h.1.asked, h.2⟩, fun _ entry h => ⟨h.1.attest entry, hF _ entry h.2⟩⟩

/-- `replace` keeps soundness, if the bytes are a verified binary. -/
theorem sound_replace {current localVersion remoteVersion target : String} {exclusive : Bool}
    (hmem : .update current localVersion remoteVersion target exclusive ∈ commands)
    (manifest : ReleaseManifest) (asset : ReleaseAsset) (bytes : List UInt8) :
    Triple (fun world => Sound tools commands initial world ∧
        Found tools world.attested current localVersion remoteVersion target manifest asset ∧
        ⟨"v" ++ manifest.version, bytes⟩ ∈ world.attested)
      (replace tools outside exclusive bytes asset)
      (fun _ => Sound tools commands initial) (fun _ => Sound tools commands initial) := by
  refine Triple.bind (Triple.failWhen_keeps fun _ h => h.1) fun _ => ?_
  refine Triple.bind (Q := fun _ world => Sound tools commands initial world ∧
    Verified tools commands world.attested bytes) ?_ fun _ => ?_
  · refine Triple.failWhen_of (fun world h hwrong => ⟨h.1, ?_⟩) fun _ h _ => h.1
    obtain ⟨hsize, hdigest⟩ := not_or.mp hwrong
    exact ⟨current, localVersion, remoteVersion, target, exclusive, manifest, asset, hmem, h.2.1,
      h.2.2, not_not.mp hsize, not_not.mp hdigest⟩
  have hverified : Lasting fun world => Sound tools commands initial world ∧
      Verified tools commands world.attested bytes :=
    lasting_sound_and (F := fun attested => Verified tools commands attested bytes)
      fun _ _ h => h.mono (List.subset_cons_self _ _)
  have hcheck : Triple (fun world => Sound tools commands initial world ∧
      Verified tools commands world.attested bytes) (fileCheck outside)
      (fun _ world => Sound tools commands initial world ∧
        Verified tools commands world.attested bytes) (fun _ => Sound tools commands initial) :=
    (triple_fileCheck hverified).conseq (fun _ h => h) (fun _ _ h => h) fun _ _ h => h.1
  refine Triple.bind hcheck fun _ => Triple.bind hcheck fun _ => Triple.bind hcheck fun _ => ?_
  refine Triple.bind (Q := fun executable world => Sound tools commands initial world ∧
    Verified tools commands world.attested bytes ∧
    MayBackUp tools commands initial world.attested executable) ?_ fun executable => ?_
  · refine Triple.read fun world h => ⟨h.1, h.2, ?_⟩
    exact h.1.now.executable.imp_right fun h' => h'.imp_left fun hback => hback.2
  -- first the backup
  refine Triple.bind (Q := fun _ world => Sound tools commands initial world ∧
    Verified tools commands world.attested bytes) ?_ fun _ => ?_
  · have hlasting : Lasting fun world => Sound tools commands initial world ∧
        Verified tools commands world.attested bytes ∧
        MayBackUp tools commands initial world.attested executable :=
      lasting_sound_and (F := fun attested => Verified tools commands attested bytes ∧
        MayBackUp tools commands initial attested executable) fun _ _ h =>
          ⟨h.1.mono (List.subset_cons_self _ _), h.2.mono (List.subset_cons_self _ _)⟩
    refine (triple_atomicWrite hlasting (Q := fun world => Sound tools commands initial world ∧
      Verified tools commands world.attested bytes) (fun world h => ⟨h.1.turn ?_, h.2.1⟩)
      fun world h => ⟨h.1, h.2.1⟩).conseq (fun _ h => h) (fun _ _ h => h) fun _ _ h => h.1
    refine ⟨h.1.now.executable, fun other hother => ?_⟩
    obtain rfl := Option.some.inj hother
    exact h.2.2
  -- then the executable
  · refine triple_atomicWrite hverified (fun world h => h.1.turn ?_) fun world h => h.1
    exact ⟨Or.inr (Or.inr h.2), h.1.now.backup⟩

/-- `install` keeps soundness, if its manifest and asset were found. -/
theorem sound_install (assetBase : String) {current localVersion remoteVersion target : String}
    {exclusive : Bool}
    (hmem : .update current localVersion remoteVersion target exclusive ∈ commands)
    (manifest : ReleaseManifest) (asset : ReleaseAsset) :
    Triple (fun world => Sound tools commands initial world ∧
        Found tools world.attested current localVersion remoteVersion target manifest asset)
      (install tools outside assetBase exclusive manifest asset)
      (fun _ => Sound tools commands initial) (fun _ => Sound tools commands initial) := by
  have hlasting : Lasting fun world => Sound tools commands initial world ∧
      Found tools world.attested current localVersion remoteVersion target manifest asset :=
    lasting_sound_and (F := fun attested => Found tools attested current localVersion
      remoteVersion target manifest asset) fun _ _ h => h.mono (List.subset_cons_self _ _)
  refine Triple.bind ((triple_download hlasting _ _).conseq (fun _ h => h) (fun _ _ h => h)
    fun _ _ h => h.1) fun bytes => ?_
  refine Triple.bind ((triple_verifyBytes hlasting bytes _).conseq (fun _ h => h) (fun _ _ h => h)
    fun _ _ h => h.1) fun _ => ?_
  exact (sound_replace hmem manifest asset bytes).conseq (fun _ h => ⟨h.1.1, h.1.2, h.2⟩)
    (fun _ _ h => h) fun _ _ h => h

/-- `rollback` keeps soundness. -/
theorem sound_rollback (exclusive : Bool) :
    Triple (Sound tools commands initial) (rollback outside exclusive)
      (fun _ => Sound tools commands initial) (fun _ => Sound tools commands initial) := by
  refine Triple.bind (Triple.failWhen_keeps fun _ h => h) fun _ => ?_
  have hcheck : Triple (Sound tools commands initial) (fileCheck outside)
      (fun _ => Sound tools commands initial) (fun _ => Sound tools commands initial) :=
    triple_fileCheck lasting_sound
  refine Triple.bind hcheck fun _ => Triple.bind hcheck fun _ => Triple.bind hcheck fun _ => ?_
  refine Triple.bind (Q := fun backup world => Sound tools commands initial world ∧
    ∀ bytes ∈ backup, MayBackUp tools commands initial world.attested bytes) ?_ fun backup => ?_
  · exact Triple.read fun world h => ⟨h, h.now.backup⟩
  refine Triple.bind (Q := fun bytes world => Sound tools commands initial world ∧
    MayBackUp tools commands initial world.attested bytes) ?_ fun bytes => ?_
  · exact Triple.lift (fun bytes hbytes world h => ⟨h.1, h.2 bytes (context_eq_ok_iff.mp hbytes)⟩)
      fun _ _ _ h => h.1
  have hlasting : Lasting fun world => Sound tools commands initial world ∧
      MayBackUp tools commands initial world.attested bytes :=
    lasting_sound_and (F := fun attested => MayBackUp tools commands initial attested bytes)
      fun _ _ h => h.mono (List.subset_cons_self _ _)
  refine triple_atomicWrite hlasting (fun world h => h.1.turn ?_) fun world h => h.1
  exact ⟨h.2.imp_right fun h' => h'.imp_left fun hback => ⟨rfl, hback⟩, h.1.now.backup⟩

/-! ### Whole runs -/

/-- A command keeps soundness. -/
theorem sound_command (releasesUrl assetBase : String) {command : UpdateCommand}
    (hmem : command ∈ commands) :
    Triple (Sound tools commands initial) (command.run tools outside releasesUrl assetBase)
      (fun _ => Sound tools commands initial) (fun _ => Sound tools commands initial) := by
  cases command with
  | update current localVersion remoteVersion target exclusive =>
    refine Triple.bind (sound_find releasesUrl assetBase current localVersion remoteVersion target)
      fun found => ?_
    cases found with
    | none => exact Triple.ret fun world h => h.1
    | some pair =>
      obtain ⟨manifest, asset⟩ := pair
      exact (sound_install assetBase hmem manifest asset).conseq
        (fun world h => ⟨h.1, h.2 _ rfl⟩) (fun _ _ h => h) fun _ _ h => h
  | rollback exclusive => exact sound_rollback exclusive

/-- A run of some of the commands keeps soundness. -/
theorem sound_runCommands (releasesUrl assetBase : String) {run : List UpdateCommand}
    (hsub : run ⊆ commands) :
    Triple (Sound tools commands initial) (runCommands tools outside releasesUrl assetBase run)
      (fun _ => Sound tools commands initial) (fun _ => Sound tools commands initial) := by
  induction run with
  | nil => exact Triple.ret fun world h => h
  | cons command run ih =>
    refine Triple.bind (Triple.attempt_keeps ?_) fun _ => ih (List.subset_of_cons_subset hsub)
    exact sound_command releasesUrl assetBase (hsub List.mem_cons_self)

/-- In every run of updates and rollbacks, whatever the server sends, the verifier says and the file
operations do: at every moment the executable is the first one, the first backup after a rollback
or verified bytes, and the backup is one of these. -/
theorem only_verified_installed (tools : UpdateTools) (outside : Outside)
    (releasesUrl assetBase : String) (initial : Disk) (commands : List UpdateCommand) :
    ∀ moment ∈ (runCommands tools outside releasesUrl assetBase commands
        (.start initial)).2.moments,
      Allowed tools commands initial (runCommands tools outside releasesUrl assetBase commands
        (.start initial)).2.attested moment := by
  have htriple : Triple (Sound tools commands initial)
      (runCommands tools outside releasesUrl assetBase commands)
      (fun _ => Sound tools commands initial) (fun _ => Sound tools commands initial) :=
    sound_runCommands releasesUrl assetBase (List.Subset.refl commands)
  exact htriple.state (Sound.start tools commands initial)

/-- The bytes of a text. -/
def bytesOf (text : String) : List UInt8 := Text.utf8 text

/-- A release with a manifest and a binary. -/
def releasesDocument : Value :=
  .array [.object [("tag_name", .string "v0.2.0"), ("draft", .bool false),
    ("prerelease", .bool false), ("assets", .array [.object [("name", .string manifestName)],
      .object [("name", .string "rcodex-0.2.0-aarch64-apple-darwin")]])]]

/-- Its manifest. -/
def manifestDocument : Value :=
  .object [("schema_version", .ofU64 1), ("version", .string "0.2.0"),
    ("codex_versions", .array [.string "0.153.0"]), ("assets", .array [.object
      [("name", .string "rcodex-0.2.0-aarch64-apple-darwin"),
        ("target", .string "aarch64-apple-darwin"), ("size", .ofU64 10), ("sha256", .string
          "2f17c9ffb972a6c5da72c2b3df01f7e2ccf52dad2c0059dac631232a15126d2e")]])]

/-- Libraries that know this release. -/
def releaseTools : UpdateTools where
  parse := (plainCodec [releasesDocument, manifestDocument]).fromSlice
  parseVersion := fun value => [("0.1.0", ⟨0, 1, 0, "", ""⟩), ("0.2.0", ⟨0, 2, 0, "", ""⟩),
    ("0.153.0", ⟨0, 153, 0, "", ""⟩)].lookup value
  sha256Hex := fun bytes => if bytes = bytesOf "new binary" then
    "2f17c9ffb972a6c5da72c2b3df01f7e2ccf52dad2c0059dac631232a15126d2e" else ""

/-- A server with this release, a verifier that accepts it and files that can be written. -/
def releaseOutside : Outside where
  respond := fun n _ => [(0, ⟨none, [(plainCodec []).toVec releasesDocument], true⟩),
    (1, ⟨none, [(plainCodec []).toVec manifestDocument], true⟩),
    (3, ⟨some 10, [bytesOf "new ", bytesOf "binary"], true⟩)].lookup n
  accepts := fun _ _ _ => true
  file := fun _ => .done

/-- The release is installed, and the old executable is kept. -/
theorem only_verified_installed_release :
    let commands : List UpdateCommand :=
      [.update "0.1.0" "0.153.0" "0.153.0" "aarch64-apple-darwin" true]
    let initial : Disk := ⟨bytesOf "old binary", none⟩
    let moment : Moment := ⟨⟨bytesOf "new binary", some (bytesOf "old binary")⟩, false⟩
    moment ∈ (runCommands releaseTools releaseOutside "releases" "download" commands
        (.start initial)).2.moments ∧
      Allowed releaseTools commands initial (runCommands releaseTools releaseOutside "releases"
        "download" commands (.start initial)).2.attested moment := by
  intro commands initial moment
  have hmem : moment ∈ (runCommands releaseTools releaseOutside "releases" "download" commands
      (.start initial)).2.moments := by
    decide +kernel
  exact ⟨hmem, only_verified_installed _ _ _ _ initial commands moment hmem⟩

end Rcodex
