import Rcodex.Update.Release
import Rcodex.Foundation.Effect

/-!
# Finding and installing a release

`find` looks for a release, `install` downloads its binary and replaces the executable, and
`rollback` puts the previous executable back.  They act on a `World`: the executable and its
backup, every state these two files have been in, and what the provenance verifier has accepted.
What the server sends, what the verifier says and which file operations fail is given by an
`Outside`, one answer for each question in turn.
-/

namespace Rcodex

open Json Result

/-- What a server sends. -/
structure Body where
  /-- The length it announces. -/
  contentLength : Option ℕ
  /-- The pieces in which the contents arrive. -/
  chunks : List (List UInt8)
  /-- Whether the contents arrive to the end. -/
  complete : Bool

/-- How a file operation ends: done, not done, or done with an error afterwards. -/
inductive FileOutcome where
  | done
  | failed
  | unsynced
deriving DecidableEq

/-- What the world outside answers to each question. -/
structure Outside where
  /-- The answer to a request; none if it fails. -/
  respond : ℕ → String → Option Body
  /-- Whether the verifier accepts these bytes under this tag. -/
  accepts : ℕ → String → List UInt8 → Bool
  /-- The outcome of a file operation. -/
  file : ℕ → FileOutcome

/-- The two files of an installation. -/
structure Disk where
  /-- The executable. -/
  executable : List UInt8
  /-- Its backup. -/
  backup : Option (List UInt8)
deriving DecidableEq

/-- The two files at some moment. -/
structure Moment where
  /-- The files. -/
  disk : Disk
  /-- Whether a rollback has replaced the executable. -/
  rolledBack : Bool
deriving DecidableEq

/-- Something the verifier has accepted. -/
structure Attested where
  /-- The tag. -/
  tag : String
  /-- The bytes. -/
  bytes : List UInt8
deriving DecidableEq

/-- The installation and its history. -/
structure World where
  /-- How many questions were asked. -/
  questions : ℕ
  /-- The present moment. -/
  now : Moment
  /-- The moments before. -/
  past : List Moment
  /-- What the verifier has accepted. -/
  attested : List Attested

/-- An installation before anything happens. -/
def World.start (disk : Disk) : World := ⟨0, ⟨disk, false⟩, [], []⟩

/-- All moments so far. -/
def World.moments (world : World) : List Moment := world.now :: world.past

/-- A question was asked. -/
def World.asked (world : World) : World := { world with questions := world.questions + 1 }

/-- The files change. -/
def World.turn (world : World) (moment : Moment) : World :=
  { world with now := moment, past := world.moments }

/-- The verifier has accepted something. -/
def World.attest (world : World) (entry : Attested) : World :=
  { world with attested := entry :: world.attested }

/-- A computation of the updater. -/
abbrev Update := Effect World UpdateError

section Outside

variable (tools : UpdateTools) (outside : Outside)

/-- Ask the world outside. -/
def question {α : Type} (answer : ℕ → α) : Update α :=
  Effect.ask fun world => (answer world.questions, world.asked)

/-- The loop of `download` over the pieces; `bytes` are those received. -/
def collect (limit : ℕ) (bytes : List UInt8) :
    List (List UInt8) → Except UpdateError (List UInt8)
  | [] => .ok bytes
  | chunk :: chunks => do
    bailWhen (limit < bytes.length + chunk.length) .tooLarge
    collect limit (bytes ++ chunk) chunks

/-- `download`, given the answer of the server. -/
def receive (limit : ℕ) (response : Option Body) : Except UpdateError (List UInt8) := do
  let body ← context .request response
  bailWhen (∃ length ∈ body.contentLength, limit < length) .tooLarge
  let bytes ← collect limit [] body.chunks
  bailWhen (body.complete = false) .request
  return bytes

/-- `download` -/
def download (url : String) (limit : ℕ) : Update (List UInt8) := do
  let response ← question fun n => outside.respond n url
  Effect.lift (receive limit response)

/-- `verify_bytes` -/
def verifyBytes (bytes : List UInt8) (tag : String) : Update Unit := do
  let accepted ← question fun n => outside.accepts n tag bytes
  Effect.failWhen (accepted = false) .attestation
  Effect.change fun world => world.attest ⟨tag, bytes⟩

/-- The loop of `Repository::find` over the candidates. -/
def findAmong (assetBase current localVersion remoteVersion target : String) :
    List GitHubRelease → Update (Option (ReleaseManifest × ReleaseAsset))
  | [] => return none
  | release :: releases =>
    if manifestName ∉ release.assets then
      findAmong assetBase current localVersion remoteVersion target releases
    else do
      let bytes ← download outside (assetBase ++ "/" ++ release.tagName ++ "/" ++ manifestName)
        maxMetadataBytes
      verifyBytes outside bytes release.tagName
      let manifest ← Effect.lift (context .manifest
        ((tools.parse bytes).bind ReleaseManifest.deserialize))
      Effect.failWhen (release.tagName ≠ "v" ++ manifest.version) .wrongTag
      let selected ← Effect.lift
        (manifest.select tools current localVersion remoteVersion target)
      match selected with
      | some asset =>
        Effect.failWhen (asset.name ∉ release.assets) .missingBinary
        return some (manifest, asset)
      | none => findAmong assetBase current localVersion remoteVersion target releases

/-- `Repository::find` -/
def find (releasesUrl assetBase current localVersion remoteVersion target : String) :
    Update (Option (ReleaseManifest × ReleaseAsset)) := do
  let currentVersion ← Effect.lift (stableVersion tools current)
  Effect.failWhen (localVersion ≠ remoteVersion) (.codexMismatch localVersion remoteVersion)
  let bytes ← download outside releasesUrl maxMetadataBytes
  let releases ← Effect.lift (context .releases
    ((tools.parse bytes).bind (Value.asListOf GitHubRelease.deserialize)))
  Effect.failWhen (20 < releases.length) .tooManyReleases
  findAmong tools outside assetBase current localVersion remoteVersion target
    (candidates tools currentVersion releases)

/-- A check or a read of a file, which may fail. -/
def fileCheck : Update Unit := do
  let outcome ← question outside.file
  Effect.failWhen (outcome ≠ .done) .file

/-- `atomic_write`: what it does to the files. It may fail before and after it is done. -/
def atomicWrite (write : Moment → Moment) : Update Unit := do
  let outcome ← question outside.file
  Effect.failWhen (outcome = .failed) .file
  Effect.change fun world => world.turn (write world.now)
  Effect.failWhen (outcome = .unsynced) .file

/-- `Installation::replace` -/
def replace (exclusive : Bool) (bytes : List UInt8) (asset : ReleaseAsset) : Update Unit := do
  Effect.failWhen (exclusive = false) .notExclusive
  Effect.failWhen (bytes.length ≠ asset.size.toNat ∨ tools.sha256Hex bytes ≠ asset.sha256)
    .wrongBinary
  fileCheck outside
  fileCheck outside
  fileCheck outside
  let executable ← Effect.read fun world => world.now.disk.executable
  atomicWrite outside fun moment =>
    { moment with disk := { moment.disk with backup := some executable } }
  atomicWrite outside fun moment =>
    { moment with disk := { moment.disk with executable := bytes } }

/-- `Installation::rollback` -/
def rollback (exclusive : Bool) : Update Unit := do
  Effect.failWhen (exclusive = false) .rollbackNotExclusive
  fileCheck outside
  fileCheck outside
  fileCheck outside
  let backup ← Effect.read fun world => world.now.disk.backup
  let bytes ← Effect.lift (context .missingFile backup)
  atomicWrite outside fun moment =>
    { disk := { moment.disk with executable := bytes }, rolledBack := true }

/-- `Repository::install` -/
def install (assetBase : String) (exclusive : Bool) (manifest : ReleaseManifest)
    (asset : ReleaseAsset) : Update Unit := do
  let tag := "v" ++ manifest.version
  let bytes ← download outside (assetBase ++ "/" ++ tag ++ "/" ++ asset.name) asset.size.toNat
  verifyBytes outside bytes tag
  replace tools outside exclusive bytes asset

/-- What is run on an installation: an update that installs what it finds, or a rollback. -/
inductive UpdateCommand where
  | update (current localVersion remoteVersion target : String) (exclusive : Bool)
  | rollback (exclusive : Bool)
deriving DecidableEq

/-- Run a command. -/
def UpdateCommand.run (releasesUrl assetBase : String) : UpdateCommand → Update Unit
  | .update current localVersion remoteVersion target exclusive => do
    let found ← find tools outside releasesUrl assetBase current localVersion remoteVersion target
    match found with
    | some (manifest, asset) => install tools outside assetBase exclusive manifest asset
    | none => return ()
  | .rollback exclusive => Rcodex.rollback outside exclusive

/-- Run commands one after the other, whether they succeed or fail. -/
def runCommands (releasesUrl assetBase : String) : List UpdateCommand → Update Unit
  | [] => return ()
  | command :: commands => do
    let _ ← (command.run tools outside releasesUrl assetBase).attempt
    runCommands releasesUrl assetBase commands

end Outside

end Rcodex
