import Rcodex.Auth.Merge
import Rcodex.Foundation.Machine
import Rcodex.Foundation.PrettyJson
import Mathlib.Logic.Function.Basic

/-!
# Concurrent refreshes of one file

Any number of processes run `refresh_codex_auth` on one file, which other programs replace as well.
A refresher takes a snapshot of the file, loads it, asks for new tokens, compares the file with the
snapshot and, if nothing has changed, replaces it.  Each of these is a step of its own, and between
two of them anything may happen; a number stands for one run of the function.  The file counts how
often it was replaced, and a snapshot and a comparison record the count.

`overwrites_final` says what a refresher can overwrite: the document of its snapshot, or one that
was installed after the comparison.  The second case occurs (`overwrites_newer_document`).  A
refresher that is alone with the file does what `refreshCodexAuth` says (`final_alone`).
-/

namespace Rcodex

open Json Result

/-- What a refresher reads before the exchange. -/
structure Snapshot where
  /-- The bytes of the file. -/
  bytes : List UInt8
  /-- The document they denote. -/
  document : Value
  /-- How often the file was replaced before. -/
  takenAt : ℕ
deriving DecidableEq

/-- Where a refresher is in `refresh_codex_auth`. -/
inductive RefreshPhase where
  | idle
  | read (snapshot : Snapshot)
  | loaded (snapshot : Snapshot)
  | exchanged (snapshot : Snapshot) (response : RefreshResponse)
  | compared (snapshot : Snapshot) (response : RefreshResponse) (comparedAt : ℕ)
  | installed
  | abandoned
  | ended (result : Except RefreshError CodexAuth)
deriving DecidableEq

/-- One step of a refresher, with the outcome of what it asks for, or a replacement of the file by
another program. -/
inductive RefreshEvent where
  | read (pid : ℕ) (succeeds : Bool)
  | load (pid : ℕ) (succeeds : Bool)
  | exchange (pid : ℕ) (response : Option RefreshResponse)
  | compare (pid : ℕ) (succeeds : Bool)
  | install (pid : ℕ) (refreshedAt : String) (succeeds : Bool)
  | reload (pid : ℕ) (succeeds : Bool)
  | replace (contents : List UInt8)

/-- A replacement of the file by a refresher. -/
structure Overwrite where
  /-- The refresher. -/
  pid : ℕ
  /-- What it has read before the exchange. -/
  snapshot : Snapshot
  /-- How often the file was replaced before it compared. -/
  comparedAt : ℕ
  /-- How often the file was replaced before. -/
  installs : ℕ
  /-- The contents it replaces. -/
  replaced : List UInt8
deriving DecidableEq

/-- What a step does to the file. -/
inductive RefreshOutput where
  | silent
  | abandons (pid : ℕ)
  | overwrites (overwrite : Overwrite)
deriving DecidableEq

/-- The file and its refreshers. -/
structure AuthFile where
  /-- The contents of the file. -/
  contents : List UInt8
  /-- How often it was replaced. -/
  installs : ℕ
  /-- The phases of the refreshers. -/
  phases : ℕ → RefreshPhase

namespace AuthFile

/-- A file that no refresher has read yet. -/
def start (contents : List UInt8) : AuthFile := ⟨contents, 0, fun _ => .idle⟩

/-- A refresher goes on to a phase. -/
def enter (file : AuthFile) (pid : ℕ) (phase : RefreshPhase) : AuthFile :=
  { file with phases := Function.update file.phases pid phase }

/-- The file is replaced. -/
def put (file : AuthFile) (contents : List UInt8) : AuthFile :=
  { file with contents, installs := file.installs + 1 }

@[simp] theorem enter_phases (file : AuthFile) (pid : ℕ) (phase : RefreshPhase) (other : ℕ) :
    (file.enter pid phase).phases other = if other = pid then phase else file.phases other := by
  simp [enter, Function.update_apply]

@[simp] theorem put_installs (file : AuthFile) (contents : List UInt8) :
    (file.put contents).installs = file.installs + 1 := rfl

end AuthFile

section Step

variable (codec : Codec) (toVecPretty : Value → List UInt8)

/-- `load_codex_auth`, given the bytes of the file. -/
def loadContents (contents : List UInt8) : Except AuthError CodexAuth :=
  context .parse (codec.fromSlice contents) >>= loadCodexAuth codec

namespace AuthFile

/-! A step that the refresher is not at does nothing. -/

/-- A refresher reads the file before the exchange. -/
def read (file : AuthFile) (pid : ℕ) (succeeds : Bool) : RefreshOutput × AuthFile :=
  match file.phases pid, succeeds with
  | .idle, true =>
    match codec.fromSlice file.contents with
    | some document =>
      (.silent, file.enter pid (.read ⟨file.contents, document.ofWritten, file.installs⟩))
    | none => (.silent, file.enter pid (.ended (.error .parse)))
  | .idle, false => (.silent, file.enter pid (.ended (.error .read)))
  | _, _ => (.silent, file)

/-- A refresher loads the file. -/
def load (file : AuthFile) (pid : ℕ) (succeeds : Bool) : RefreshOutput × AuthFile :=
  match file.phases pid, succeeds with
  | .read snapshot, true =>
    match loadContents codec file.contents with
    | .ok _ => (.silent, file.enter pid (.loaded snapshot))
    | .error error => (.silent, file.enter pid (.ended (.error (.auth error))))
  | .read _, false => (.silent, file.enter pid (.ended (.error .inspect)))
  | _, _ => (.silent, file)

/-- A refresher gets an answer of the token server, or none. -/
def exchange (file : AuthFile) (pid : ℕ) (response : Option RefreshResponse) :
    RefreshOutput × AuthFile :=
  match file.phases pid, response with
  | .loaded snapshot, some response => (.silent, file.enter pid (.exchanged snapshot response))
  | .loaded _, none => (.silent, file.enter pid (.ended (.error .exchange)))
  | _, _ => (.silent, file)

/-- A refresher compares the file with its snapshot. -/
def compare (file : AuthFile) (pid : ℕ) (succeeds : Bool) : RefreshOutput × AuthFile :=
  match file.phases pid, succeeds with
  | .exchanged snapshot response, true =>
    if file.contents = snapshot.bytes then
      (.silent, file.enter pid (.compared snapshot response file.installs))
    else (.abandons pid, file.enter pid .abandoned)
  | .exchanged _ _, false => (.silent, file.enter pid (.ended (.error .reread)))
  | _, _ => (.silent, file)

/-- A refresher replaces the file. -/
def install (file : AuthFile) (pid : ℕ) (refreshedAt : String) (succeeds : Bool) :
    RefreshOutput × AuthFile :=
  match file.phases pid with
  | .compared snapshot response comparedAt =>
    match mergeRefreshResponse codec snapshot.document response refreshedAt, succeeds with
    | .ok updated, true =>
      (.overwrites ⟨pid, snapshot, comparedAt, file.installs, file.contents⟩,
        (file.put (toVecPretty updated ++ [10])).enter pid .installed)
    | .ok _, false => (.silent, file.enter pid (.ended (.error .save)))
    | .error error, _ => (.silent, file.enter pid (.ended (.error (.auth error))))
  | _ => (.silent, file)

/-- A refresher loads the file after it has replaced it or found it changed. -/
def reload (file : AuthFile) (pid : ℕ) (succeeds : Bool) : RefreshOutput × AuthFile :=
  match file.phases pid, succeeds with
  | .installed, true | .abandoned, true =>
    (.silent, file.enter pid (.ended ((loadContents codec file.contents).mapError .auth)))
  | .installed, false | .abandoned, false =>
    (.silent, file.enter pid (.ended (.error .inspect)))
  | _, _ => (.silent, file)

end AuthFile

/-- One step of the refreshers and the other programs. -/
def refreshStep (file : AuthFile) : RefreshEvent → RefreshOutput × AuthFile
  | .read pid succeeds => file.read codec pid succeeds
  | .load pid succeeds => file.load codec pid succeeds
  | .exchange pid response => file.exchange pid response
  | .compare pid succeeds => file.compare pid succeeds
  | .install pid refreshedAt succeeds => file.install codec toVecPretty pid refreshedAt succeeds
  | .reload pid succeeds => file.reload codec pid succeeds
  | .replace contents => (.silent, file.put contents)

end Step

/-! ### What a step can do -/

/-- The snapshot a refresher holds. -/
def RefreshPhase.snapshot : RefreshPhase → Option Snapshot
  | .read snapshot | .loaded snapshot | .exchanged snapshot _ | .compared snapshot _ _ =>
    some snapshot
  | _ => none

/-- The refresher may still replace the file. -/
def RefreshPhase.IsOpen : RefreshPhase → Prop
  | .installed | .abandoned | .ended _ => False
  | _ => True

/-- Everything a step can do. -/
inductive RefreshOutcome (file : AuthFile) : RefreshOutput × AuthFile → Prop
  /-- Nothing happens. -/
  | stays : RefreshOutcome file (.silent, file)
  /-- A refresher goes on, short of a comparison that succeeds. -/
  | advances (pid : ℕ) (phase : RefreshPhase)
      (hopen : phase.IsOpen → (file.phases pid).IsOpen)
      (hcompared : ∀ snapshot response comparedAt, phase ≠ .compared snapshot response comparedAt)
      (hsnapshot : ∀ snapshot ∈ phase.snapshot,
        snapshot ∈ (file.phases pid).snapshot ∨ snapshot.takenAt = file.installs) :
    RefreshOutcome file (.silent, file.enter pid phase)
  /-- A refresher finds the file unchanged. -/
  | compares (pid : ℕ) (snapshot : Snapshot) (response : RefreshResponse)
      (hphase : file.phases pid = .exchanged snapshot response)
      (hsame : file.contents = snapshot.bytes) :
    RefreshOutcome file (.silent, file.enter pid (.compared snapshot response file.installs))
  /-- A refresher finds the file changed. -/
  | abandons (pid : ℕ) (snapshot : Snapshot) (response : RefreshResponse)
      (hphase : file.phases pid = .exchanged snapshot response)
      (hchanged : file.contents ≠ snapshot.bytes) :
    RefreshOutcome file (.abandons pid, file.enter pid .abandoned)
  /-- A refresher replaces the file. -/
  | overwrites (pid : ℕ) (snapshot : Snapshot) (response : RefreshResponse) (comparedAt : ℕ)
      (contents : List UInt8) (hphase : file.phases pid = .compared snapshot response comparedAt) :
    RefreshOutcome file (.overwrites ⟨pid, snapshot, comparedAt, file.installs, file.contents⟩,
      (file.put contents).enter pid .installed)
  /-- Another program replaces the file. -/
  | replaced (contents : List UInt8) : RefreshOutcome file (.silent, file.put contents)

variable {codec : Codec} {toVecPretty : Value → List UInt8}

/-- A refresher can always end. -/
theorem RefreshOutcome.ends (file : AuthFile) (pid : ℕ) (result : Except RefreshError CodexAuth) :
    RefreshOutcome file (.silent, file.enter pid (.ended result)) :=
  .advances pid (.ended result) False.elim (by simp) fun _ h => by cases h

/-- A refresher that keeps its snapshot goes on. -/
theorem RefreshOutcome.keeps {file : AuthFile} {pid : ℕ} {old new : RefreshPhase}
    (hold : file.phases pid = old) (hopen : new.IsOpen → old.IsOpen)
    (hcompared : ∀ snapshot response comparedAt, new ≠ .compared snapshot response comparedAt)
    (hsnapshot : new.snapshot = old.snapshot) :
    RefreshOutcome file (.silent, file.enter pid new) :=
  .advances pid new (by rw [hold]; exact hopen) hcompared
    fun snapshot h => Or.inl (by rw [hold, ← hsnapshot]; exact h)

/-- Everything a read can do. -/
theorem read_outcome (file : AuthFile) (pid : ℕ) (succeeds : Bool) :
    RefreshOutcome file (file.read codec pid succeeds) := by
  unfold AuthFile.read
  split
  next hphase =>
    cases hparse : codec.fromSlice file.contents with
    | none => exact .ends file pid _
    | some document =>
      apply RefreshOutcome.advances pid _ (fun _ => by rw [hphase]; trivial) (by simp)
      intro snapshot h
      obtain rfl := Option.some.inj h
      exact Or.inr rfl
  next => exact .ends file pid _
  next => exact .stays

/-- Everything a load can do. -/
theorem load_outcome (file : AuthFile) (pid : ℕ) (succeeds : Bool) :
    RefreshOutcome file (file.load codec pid succeeds) := by
  unfold AuthFile.load
  split
  next snapshot hphase =>
    cases hload : loadContents codec file.contents with
    | error => exact .ends file pid _
    | ok => exact .keeps hphase (fun _ => trivial) (by simp) rfl
  next => exact .ends file pid _
  next => exact .stays

/-- Everything an exchange can do. -/
theorem exchange_outcome (file : AuthFile) (pid : ℕ) (response : Option RefreshResponse) :
    RefreshOutcome file (file.exchange pid response) := by
  unfold AuthFile.exchange
  split
  next hphase => exact .keeps hphase (fun _ => trivial) (by simp) rfl
  next => exact .ends file pid _
  next => exact .stays

/-- Everything a comparison can do. -/
theorem compare_outcome (file : AuthFile) (pid : ℕ) (succeeds : Bool) :
    RefreshOutcome file (file.compare pid succeeds) := by
  unfold AuthFile.compare
  split
  next hphase =>
    split_ifs with hsame
    · exact .compares pid _ _ hphase hsame
    · exact .abandons pid _ _ hphase hsame
  next => exact .ends file pid _
  next => exact .stays

/-- Everything an installation can do. -/
theorem install_outcome (file : AuthFile) (pid : ℕ) (refreshedAt : String) (succeeds : Bool) :
    RefreshOutcome file (file.install codec toVecPretty pid refreshedAt succeeds) := by
  unfold AuthFile.install
  split
  next hphase =>
    split
    next => exact .overwrites pid _ _ _ _ hphase
    next => exact .ends file pid _
    next => exact .ends file pid _
  next => exact .stays

/-- Everything the last load can do. -/
theorem reload_outcome (file : AuthFile) (pid : ℕ) (succeeds : Bool) :
    RefreshOutcome file (file.reload codec pid succeeds) := by
  unfold AuthFile.reload
  split
  case h_5 => exact .stays
  all_goals exact .ends file pid _

/-- Every step has one of these outcomes. -/
theorem refreshStep_outcome (codec : Codec) (toVecPretty : Value → List UInt8) (file : AuthFile)
    (event : RefreshEvent) : RefreshOutcome file (refreshStep codec toVecPretty file event) := by
  cases event with
  | read pid succeeds => exact read_outcome file pid succeeds
  | load pid succeeds => exact load_outcome file pid succeeds
  | exchange pid response => exact exchange_outcome file pid response
  | compare pid succeeds => exact compare_outcome file pid succeeds
  | install pid refreshedAt succeeds => exact install_outcome file pid refreshedAt succeeds
  | reload pid succeeds => exact reload_outcome file pid succeeds
  | replace contents => exact .replaced contents

/-! ### Closed refreshers -/

variable (codec toVecPretty) in
/-- A refresher that cannot replace the file any more does not do so, and never can again. -/
theorem closed_step {file : AuthFile} {pid : ℕ} (h : ¬(file.phases pid).IsOpen)
    (event : RefreshEvent) :
    ¬((refreshStep codec toVecPretty file event).2.phases pid).IsOpen ∧
      ∀ overwrite, (refreshStep codec toVecPretty file event).1 = .overwrites overwrite →
        overwrite.pid ≠ pid := by
  have houtcome := refreshStep_outcome codec toVecPretty file event
  generalize refreshStep codec toVecPretty file event = result at houtcome
  cases houtcome with
  | stays => exact ⟨h, by simp⟩
  | advances other phase hopen =>
    refine ⟨?_, by simp⟩
    rw [AuthFile.enter_phases]
    split_ifs with heq
    · exact fun hphase => h (heq ▸ hopen hphase)
    · exact h
  | compares other snapshot response hphase =>
    refine ⟨?_, by simp⟩
    rw [AuthFile.enter_phases, if_neg]
    · exact h
    · rintro rfl
      exact h (by rw [hphase]; trivial)
  | abandons other =>
    refine ⟨?_, by simp⟩
    rw [AuthFile.enter_phases]
    split_ifs
    · exact id
    · exact h
  | overwrites other snapshot response comparedAt contents hphase =>
    have hne : other ≠ pid := by
      rintro rfl
      exact h (by rw [hphase]; trivial)
    refine ⟨?_, fun overwrite heq => ?_⟩
    · rw [AuthFile.enter_phases, if_neg hne.symm]
      exact h
    · obtain rfl := RefreshOutput.overwrites.inj heq
      exact hne
  | replaced => exact ⟨h, by simp⟩

/-- In a whole run such a refresher replaces nothing. -/
theorem closed_outputs {file : AuthFile} {pid : ℕ} (h : ¬(file.phases pid).IsOpen)
    (events : List RefreshEvent) {overwrite : Overwrite}
    (hmem : .overwrites overwrite ∈ Machine.outputs (refreshStep codec toVecPretty) file events) :
    overwrite.pid ≠ pid := by
  induction events generalizing file with
  | nil => simp at hmem
  | cons event events ih =>
    obtain ⟨hclosed, hoverwrites⟩ := closed_step codec toVecPretty h event
    rcases List.mem_cons.mp hmem with heq | hlater
    · exact hoverwrites overwrite heq.symm
    · exact ih hclosed hlater

/-! ### What a refresher overwrites -/

/-- What the count of replacements says about an overwrite: nothing was installed between the
comparison and the replacement only if what is replaced is what the snapshot holds. -/
structure Overwrite.Guarded (overwrite : Overwrite) : Prop where
  /-- The snapshot is older than the comparison. -/
  taken_le : overwrite.snapshot.takenAt ≤ overwrite.comparedAt
  /-- The comparison is older than the replacement. -/
  compared_le : overwrite.comparedAt ≤ overwrite.installs
  /-- A document installed before the comparison is overwritten only if it has the same bytes. -/
  replaced_eq : overwrite.comparedAt = overwrite.installs →
    overwrite.replaced = overwrite.snapshot.bytes

/-- What the outputs so far say about the file and its refreshers. -/
structure Guarded (history : List RefreshOutput) (file : AuthFile) : Prop where
  /-- A refresher that may still replace the file has not done so. -/
  unused : ∀ pid, (file.phases pid).IsOpen → ∀ overwrite,
    .overwrites overwrite ∈ history → overwrite.pid ≠ pid
  /-- Snapshots were taken before now. -/
  taken : ∀ pid, ∀ snapshot ∈ (file.phases pid).snapshot, snapshot.takenAt ≤ file.installs
  /-- After a comparison the file is unchanged or was replaced. -/
  compared : ∀ pid snapshot response comparedAt,
    file.phases pid = .compared snapshot response comparedAt →
      snapshot.takenAt ≤ comparedAt ∧ comparedAt ≤ file.installs ∧
        (comparedAt = file.installs → file.contents = snapshot.bytes)
  /-- Every overwrite is guarded. -/
  overwrites : ∀ overwrite, .overwrites overwrite ∈ history → overwrite.Guarded

namespace Guarded

variable {history : List RefreshOutput} {file : AuthFile}

/-- Nothing has happened at the start. -/
theorem start (contents : List UInt8) : Guarded [] (.start contents) where
  unused := by simp
  taken := fun _ _ h => by cases h
  compared := fun _ _ _ _ h => by cases h
  overwrites := by simp

/-- An output that is no overwrite says nothing. -/
theorem silent (h : Guarded history file) {output : RefreshOutput}
    (houtput : ∀ overwrite, output ≠ .overwrites overwrite) :
    Guarded (history ++ [output]) file := by
  have hmem : ∀ {overwrite}, .overwrites overwrite ∈ history ++ [output] →
      .overwrites overwrite ∈ history := by
    intro overwrite hmem
    rcases List.mem_append.mp hmem with hmem | hmem
    · exact hmem
    · exact absurd (List.mem_singleton.mp hmem).symm (houtput overwrite)
  exact ⟨fun pid hopen overwrite h' => h.unused pid hopen overwrite (hmem h'), h.taken, h.compared,
    fun overwrite h' => h.overwrites overwrite (hmem h')⟩

/-- A refresher that goes on without replacing the file keeps the guard. -/
theorem enter (h : Guarded history file) {pid : ℕ} {phase : RefreshPhase}
    (hopen : phase.IsOpen → (file.phases pid).IsOpen)
    (hsnapshot : ∀ snapshot ∈ phase.snapshot, snapshot.takenAt ≤ file.installs)
    (hcompared : ∀ snapshot response comparedAt, phase = .compared snapshot response comparedAt →
      comparedAt = file.installs ∧ file.contents = snapshot.bytes) :
    Guarded history (file.enter pid phase) where
  unused := fun other hother => by
    rw [AuthFile.enter_phases] at hother
    refine h.unused other ?_
    split_ifs at hother with heq
    · exact heq ▸ hopen hother
    · exact hother
  taken := fun other snapshot hmem => by
    rw [AuthFile.enter_phases] at hmem
    split_ifs at hmem
    · exact hsnapshot snapshot hmem
    · exact h.taken other snapshot hmem
  compared := fun other snapshot response comparedAt hphase => by
    rw [AuthFile.enter_phases] at hphase
    split_ifs at hphase
    · obtain ⟨rfl, hsame⟩ := hcompared snapshot response comparedAt hphase
      exact ⟨hsnapshot snapshot (by rw [hphase]; rfl), le_rfl, fun _ => hsame⟩
    · exact h.compared other snapshot response comparedAt hphase
  overwrites := h.overwrites

/-- A file that is replaced keeps the guard. -/
theorem put (h : Guarded history file) (contents : List UInt8) :
    Guarded history (file.put contents) where
  unused := h.unused
  taken := fun pid snapshot hmem => (h.taken pid snapshot hmem).trans (Nat.le_succ _)
  compared := fun pid snapshot response comparedAt hphase => by
    obtain ⟨htaken, hle, -⟩ := h.compared pid snapshot response comparedAt hphase
    refine ⟨htaken, hle.trans (Nat.le_succ _), fun heq => ?_⟩
    rw [AuthFile.put_installs] at heq
    omega
  overwrites := h.overwrites

/-- An overwrite that is guarded may be added to the history, if its refresher is closed. -/
theorem overwrite (h : Guarded history file) {overwrite : Overwrite} (hguarded : overwrite.Guarded)
    (hclosed : ¬(file.phases overwrite.pid).IsOpen) :
    Guarded (history ++ [.overwrites overwrite]) file where
  unused := fun pid hopen other hmem => by
    rcases List.mem_append.mp hmem with hmem | hmem
    · exact h.unused pid hopen other hmem
    · obtain rfl := RefreshOutput.overwrites.inj (List.mem_singleton.mp hmem)
      rintro rfl
      exact hclosed hopen
  taken := h.taken
  compared := h.compared
  overwrites := fun other hmem => by
    rcases List.mem_append.mp hmem with hmem | hmem
    · exact h.overwrites other hmem
    · obtain rfl := RefreshOutput.overwrites.inj (List.mem_singleton.mp hmem)
      exact hguarded

end Guarded

/-- Every step keeps the guard. -/
theorem guarded_step {history : List RefreshOutput} {file : AuthFile} (h : Guarded history file)
    (event : RefreshEvent) :
    Guarded (history ++ [(refreshStep codec toVecPretty file event).1])
      (refreshStep codec toVecPretty file event).2 := by
  have houtcome := refreshStep_outcome codec toVecPretty file event
  generalize refreshStep codec toVecPretty file event = result at houtcome
  cases houtcome with
  | stays => exact h.silent (by simp)
  | advances pid phase hopen hcompared hsnapshot =>
    refine (h.enter hopen (fun snapshot hmem => ?_) fun snapshot response comparedAt heq =>
      absurd heq (hcompared snapshot response comparedAt)).silent (by simp)
    rcases hsnapshot snapshot hmem with hold | hnow
    · exact h.taken pid snapshot hold
    · exact hnow.le
  | compares pid snapshot response hphase hsame =>
    refine (h.enter (fun _ => by rw [hphase]; trivial) (fun other hmem => ?_) ?_).silent (by simp)
    · obtain rfl := Option.some.inj hmem
      exact h.taken pid snapshot (by rw [hphase]; rfl)
    · intro other response' comparedAt heq
      obtain ⟨rfl, -, rfl⟩ := RefreshPhase.compared.inj heq
      exact ⟨rfl, hsame⟩
  | abandons pid =>
    have hentered : Guarded history (file.enter pid .abandoned) :=
      h.enter False.elim (fun snapshot hmem => by cases hmem) (by simp)
    exact hentered.silent (by simp)
  | overwrites pid snapshot response comparedAt contents hphase =>
    obtain ⟨htaken, hle, hsame⟩ := h.compared pid snapshot response comparedAt hphase
    have hclosed : Guarded history ((file.put contents).enter pid .installed) :=
      (h.put contents).enter False.elim (fun snapshot hmem => by cases hmem) (by simp)
    refine hclosed.overwrite ⟨htaken, hle, hsame⟩ ?_
    rw [AuthFile.enter_phases, if_pos rfl]
    exact id
  | replaced contents => exact (h.put contents).silent (by simp)

/-- Every run keeps the guard. -/
theorem guarded_final (codec : Codec) (toVecPretty : Value → List UInt8) (contents : List UInt8)
    (events : List RefreshEvent) :
    Guarded (Machine.outputs (refreshStep codec toVecPretty) (.start contents) events)
      (Machine.final (refreshStep codec toVecPretty) (.start contents) events) := by
  refine Machine.history_induction (refreshStep codec toVecPretty)
    (P := fun pre file =>
      Guarded (Machine.outputs (refreshStep codec toVecPretty) (.start contents) pre) file)
    (Guarded.start contents) events ?_
  intro pre event post _ h
  rw [Machine.outputs_append]
  exact guarded_step h event

/-- A comparison that finds other bytes is abandoned. -/
theorem compare_changed {file : AuthFile} {pid : ℕ} {snapshot : Snapshot}
    {response : RefreshResponse} (hphase : file.phases pid = .exchanged snapshot response)
    (hchanged : file.contents ≠ snapshot.bytes) :
    refreshStep codec toVecPretty file (.compare pid true) =
      (.abandons pid, file.enter pid .abandoned) := by
  simp only [refreshStep, AuthFile.compare, hphase, if_neg hchanged]

/-- In every run of any number of refreshers and other programs, a refresher overwrites only the
document of its snapshot or one that was installed after its comparison; and a refresher whose
comparison finds other bytes overwrites nothing in the whole run. -/
theorem overwrites_final (codec : Codec) (toVecPretty : Value → List UInt8) (contents : List UInt8)
    (events : List RefreshEvent) :
    (∀ overwrite, .overwrites overwrite ∈
        Machine.outputs (refreshStep codec toVecPretty) (.start contents) events →
      overwrite.Guarded) ∧
    ∀ before after pid snapshot response, events = before ++ .compare pid true :: after →
      (Machine.final (refreshStep codec toVecPretty) (.start contents) before).phases pid =
        .exchanged snapshot response →
      (Machine.final (refreshStep codec toVecPretty) (.start contents) before).contents ≠
        snapshot.bytes →
      ∀ overwrite, .overwrites overwrite ∈
        Machine.outputs (refreshStep codec toVecPretty) (.start contents) events →
      overwrite.pid ≠ pid := by
  refine ⟨(guarded_final codec toVecPretty contents events).overwrites, ?_⟩
  intro before after pid snapshot response heq hphase hchanged overwrite hmem
  obtain rfl := heq
  have hbefore := guarded_final codec toVecPretty contents before
  rw [Machine.outputs_append, Machine.outputs_cons] at hmem
  generalize Machine.final (refreshStep codec toVecPretty) (.start contents) before = file at *
  rw [compare_changed hphase hchanged] at hmem
  rcases List.mem_append.mp hmem with hmem | hmem
  · exact hbefore.unused pid (by rw [hphase]; trivial) overwrite hmem
  · have hclosed : ¬((file.enter pid .abandoned).phases pid).IsOpen := by
      rw [AuthFile.enter_phases, if_pos rfl]
      exact id
    exact closed_outputs hclosed after ((List.mem_cons.mp hmem).resolve_left (by simp))

/-! ### A refresher that is alone -/

/-- The steps of a refresher that is alone with the file. -/
def aloneEvents (exchange : Exchange) (refreshedAt : String) : List RefreshEvent :=
  [.read 0 true, .load 0 true, .exchange 0 exchange.response, .compare 0 exchange.reread,
    .install 0 refreshedAt exchange.saved, .reload 0 exchange.reloaded]

/-- A refresher that is alone with the file ends with the result of `refreshCodexAuth`, and the file
has its document. -/
theorem final_alone {contents : List UInt8} {stored : Value} {exchange : Exchange}
    {refreshedAt : String} (hparse : codec.fromSlice contents = some stored)
    (hwritten : ∀ response ∈ exchange.response, ∀ updated,
      mergeRefreshResponse codec stored.ofWritten response refreshedAt = .ok updated →
        codec.fromSlice (toVecPretty updated ++ [10]) = some updated) :
    let file := Machine.final (refreshStep codec toVecPretty) (.start contents)
      (aloneEvents exchange refreshedAt)
    file.phases 0 = .ended (refreshCodexAuth codec stored exchange refreshedAt).1 ∧
      codec.fromSlice file.contents =
        some (refreshCodexAuth codec stored exchange refreshedAt).2 := by
  obtain ⟨response, reread, saved, reloaded⟩ := exchange
  have hcontents : loadContents codec contents = loadCodexAuth codec stored := by
    rw [loadContents, hparse]
    rfl
  simp only [aloneEvents, Machine.final_cons, Machine.final_nil, refreshStep, AuthFile.read,
    AuthFile.load, AuthFile.exchange, AuthFile.compare, AuthFile.install, AuthFile.reload,
    AuthFile.start, AuthFile.enter, AuthFile.put, Function.update_self, hparse, hcontents,
    refreshCodexAuth]
  cases hload : loadCodexAuth codec stored with
  | error error => simp [hparse]
  | ok auth =>
    cases response with
    | none => simp [hparse]
    | some response =>
      cases hmerge : mergeRefreshResponse codec stored.ofWritten response refreshedAt with
      | error error => cases reread <;> simp [hmerge, hparse]
      | ok updated =>
        have hupdated := hwritten response rfl updated hmerge
        have hreload : loadContents codec (toVecPretty updated ++ [10]) =
            loadCodexAuth codec updated := by
          rw [loadContents, hupdated]
          rfl
        cases reread <;> cases saved <;> cases reloaded <;>
          simp [hmerge, hparse, hupdated, hreload]

/-- The contents of a file with this document. -/
def fileText (document : Value) : List UInt8 :=
  Json.toVecPretty (fun _ => [48, 46, 48]) document ++ [10]

/-- A codec that knows the claims and the file of the member. -/
def fileCodec : Codec :=
  { claimsCodec with
    fromSlice := fun bytes =>
      if bytes = fileText memberDocument then some memberDocument
      else claimsCodec.fromSlice bytes }

/-- The file of the member, before it was replaced. -/
def memberSnapshot : Snapshot := ⟨fileText memberDocument, memberDocument, 0⟩

/-- The overwrite of a refresher that has read the file of the member. -/
def memberOverwrite (installs : ℕ) (replaced : List UInt8) : Overwrite :=
  ⟨0, memberSnapshot, 0, installs, replaced⟩

/-- Two refreshers that read the file before either has replaced it. -/
def twoRefreshers : List RefreshEvent :=
  [.read 0 true, .read 1 true, .load 0 true, .load 1 true,
    .exchange 0 (some ⟨none, none, some "new"⟩), .exchange 1 (some ⟨none, none, some "newer"⟩),
    .compare 0 true, .install 0 "now" true]

/-- The first of two refreshers overwrites the document of its snapshot, and the other one, which
finds the new document, overwrites nothing. -/
theorem overwrites_final_twoRefreshers :
    let events := twoRefreshers ++ .compare 1 true :: [.install 1 "now" true, .reload 1 true]
    .overwrites (memberOverwrite 0 (fileText memberDocument)) ∈
        Machine.outputs (refreshStep fileCodec (Json.toVecPretty fun _ => [48, 46, 48]))
          (.start (fileText memberDocument)) events ∧
      (memberOverwrite 0 (fileText memberDocument)).Guarded ∧
      ∀ overwrite, .overwrites overwrite ∈
        Machine.outputs (refreshStep fileCodec (Json.toVecPretty fun _ => [48, 46, 48]))
          (.start (fileText memberDocument)) events → overwrite.pid ≠ 1 := by
  intro events
  have hmem : .overwrites (memberOverwrite 0 (fileText memberDocument)) ∈
      Machine.outputs (refreshStep fileCodec (Json.toVecPretty fun _ => [48, 46, 48]))
        (.start (fileText memberDocument)) events := by
    decide +kernel
  obtain ⟨hphase, hchanged⟩ :
      (Machine.final (refreshStep fileCodec (Json.toVecPretty fun _ => [48, 46, 48]))
        (.start (fileText memberDocument)) twoRefreshers).phases 1 =
          .exchanged memberSnapshot ⟨none, none, some "newer"⟩ ∧
      (Machine.final (refreshStep fileCodec (Json.toVecPretty fun _ => [48, 46, 48]))
        (.start (fileText memberDocument)) twoRefreshers).contents ≠ memberSnapshot.bytes := by
    decide +kernel
  have hfinal := overwrites_final fileCodec (Json.toVecPretty fun _ => [48, 46, 48])
    (fileText memberDocument) events
  exact ⟨hmem, hfinal.1 _ hmem, hfinal.2 twoRefreshers _ 1 _ _ rfl hphase hchanged⟩

/-- Another program installs a document after the comparison: the refresher overwrites it. -/
theorem overwrites_newer_document :
    let events : List RefreshEvent := [.read 0 true, .load 0 true,
      .exchange 0 (some ⟨none, none, some "new"⟩), .compare 0 true, .replace (fileText .null),
      .install 0 "now" true]
    ∃ overwrite, .overwrites overwrite ∈
        Machine.outputs (refreshStep fileCodec (Json.toVecPretty fun _ => [48, 46, 48]))
          (.start (fileText memberDocument)) events ∧
      overwrite.snapshot.takenAt < overwrite.installs ∧ overwrite.replaced = fileText .null :=
  ⟨memberOverwrite 1 (fileText .null), by decide +kernel, by decide, rfl⟩

end Rcodex
