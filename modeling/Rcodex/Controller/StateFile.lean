import Mathlib.Logic.Function.Basic
import Rcodex.Foundation.Machine
import Rcodex.Foundation.Decode
import Rcodex.Foundation.PrettyJson
import Rcodex.Identity.Enroll
import Rcodex.Identity.Separation

/-!
# The state file

The state of the controller is one file.  A process that saves it writes a temporary file of its own
and renames it; others load the file or remove it meanwhile, every operation may fail, and a process
may end between any two.  `stateFile_refines` says that all of them together behave like one value
that is stored, removed and loaded at once: this is the state file that the enrollment and the
removal of the client act on.  `private_stateFile` says that nobody else can read a state at any
time, and `save_again` that nothing that happened before keeps a state from being saved.
-/

namespace Rcodex

open Json Machine

/-! ### The document -/

/-- The document of an enrollment. -/
def EnrollmentRecord.document (enrollment : EnrollmentRecord) : Value :=
  .object [("accountUserId", .string enrollment.accountUserId),
    ("algorithm", .string enrollment.algorithm), ("clientId", .string enrollment.clientId),
    ("keyId", .string enrollment.keyId), ("protectionClass", .string enrollment.protectionClass),
    ("publicKeySpkiDerBase64", .string enrollment.publicKeySpkiDerBase64)]

/-- The enrollment a document denotes. -/
def EnrollmentRecord.deserialize (document : Value) : Option EnrollmentRecord := do
  match ← openFields ["accountUserId", "algorithm", "clientId", "keyId", "protectionClass",
    "publicKeySpkiDerBase64"] document with
  | [accountUserId, algorithm, clientId, keyId, protectionClass, publicKeySpkiDerBase64] =>
    return { accountUserId := ← (← accountUserId).asStr,
             algorithm := ← (← algorithm).asStr,
             clientId := ← (← clientId).asStr,
             keyId := ← (← keyId).asStr,
             protectionClass := ← (← protectionClass).asStr,
             publicKeySpkiDerBase64 := ← (← publicKeySpkiDerBase64).asStr }
  | _ => none

/-- The document of a state. -/
def ControllerState.document (state : ControllerState) : Value :=
  .object [("enrollment", state.enrollment.document)]

/-- The state a document denotes. -/
def ControllerState.deserialize (document : Value) : Option ControllerState := do
  match ← openFields ["enrollment"] document with
  | [enrollment] => return ⟨← EnrollmentRecord.deserialize (← enrollment)⟩
  | _ => none

/-- The document of an enrollment denotes it. -/
theorem EnrollmentRecord.deserialize_document (enrollment : EnrollmentRecord) :
    EnrollmentRecord.deserialize enrollment.document = some enrollment := by
  have hfields : openFields ["accountUserId", "algorithm", "clientId", "keyId", "protectionClass",
      "publicKeySpkiDerBase64"] enrollment.document =
        some [some (.string enrollment.accountUserId), some (.string enrollment.algorithm),
          some (.string enrollment.clientId), some (.string enrollment.keyId),
          some (.string enrollment.protectionClass),
          some (.string enrollment.publicKeySpkiDerBase64)] := by
    simp [openFields, document, Map.get_cons]
  rw [deserialize, hfields]
  rfl

/-- The document of a state denotes it. -/
theorem ControllerState.deserialize_document (state : ControllerState) :
    ControllerState.deserialize state.document = some state := by
  have hfields : openFields ["enrollment"] state.document =
      some [some state.enrollment.document] := by
    simp [openFields, document, Map.get_cons]
  simp [deserialize, hfields, state.enrollment.deserialize_document]

/-- The text of a state; it has no doubles. -/
def ControllerState.text (state : ControllerState) : List UInt8 :=
  toVecPretty (fun _ => []) state.document

/-! ### The folder -/

/-- The permissions of a file. -/
abbrev FileMode := BitVec 9

/-- The owner may read and write. -/
def ownerMode : FileMode := 0o600

/-- The permissions of the group and of others. -/
def sharedMode : FileMode := 0o077

/-- A file. -/
structure StateFile where
  /-- It is a regular file. -/
  regular : Bool
  /-- Its permissions. -/
  mode : FileMode
  /-- Its contents. -/
  bytes : List UInt8
deriving DecidableEq

/-- Nobody but the owner has permissions. -/
def StateFile.IsPrivate (file : StateFile) : Prop := file.mode &&& sharedMode = 0

instance (file : StateFile) : Decidable file.IsPrivate := inferInstanceAs (Decidable (_ = _))

/-- The file with more at its end. -/
def StateFile.append (file : StateFile) (bytes : List UInt8) : StateFile :=
  { file with bytes := file.bytes ++ bytes }

/-- Why the state file cannot be used. -/
inductive StateFileError where
  | directory
  | create
  | write
  | finish
  | flush
  | protect
  | install
  | inspect
  | notRegular
  | shared
  | read
  | parse
  | delete
deriving DecidableEq

/-- The text of an error, without the paths. -/
def StateFileError.text : StateFileError → String
  | .directory => "create rcodex state directory"
  | .create => "create temporary rcodex state"
  | .write => "write rcodex state"
  | .finish => "finish rcodex state"
  | .flush => "flush rcodex state"
  | .protect => "protect rcodex state"
  | .install => "install rcodex state"
  | .inspect => "inspect rcodex state file"
  | .notRegular => "rcodex state path is not a regular file"
  | .shared => "rcodex state file must not be accessible by group or others"
  | .read => "read rcodex state"
  | .parse => "parse rcodex state"
  | .delete => "delete rcodex state"

/-- What a process does next with its temporary file. -/
inductive SaveStep where
  | create
  | write
  | finish
  | flush
  | protect
  | rename
deriving DecidableEq

/-- The error of a step that fails. -/
def SaveStep.error : SaveStep → StateFileError
  | .create => .create
  | .write => .write
  | .finish => .finish
  | .flush => .flush
  | .protect => .protect
  | .rename => .install

/-- The step that follows. -/
def SaveStep.next : SaveStep → Option SaveStep
  | .create => some .write
  | .write => some .finish
  | .finish => some .flush
  | .flush => some .protect
  | .protect => some .rename
  | .rename => none

/-- How an operation ends. -/
structure Ending where
  /-- It succeeds. -/
  succeeds : Bool
  /-- How much is written when it does not. -/
  written : ℕ
  /-- The permissions that new files do not get. -/
  umask : FileMode

/-- A new file is created under a name that is free; a file that is renamed must exist. -/
def SaveStep.Possible (file : Option StateFile) : SaveStep → Prop
  | .create => file = none
  | .rename => file.isSome = true
  | _ => True

instance (file : Option StateFile) : ∀ step : SaveStep, Decidable (step.Possible file)
  | .create => inferInstanceAs (Decidable (_ = _))
  | .rename => inferInstanceAs (Decidable (_ = _))
  | .write | .finish | .flush | .protect => inferInstanceAs (Decidable True)

/-- The temporary file after a step that succeeds. -/
def SaveStep.after (state : ControllerState) (ending : Ending) (file : Option StateFile) :
    SaveStep → Option StateFile
  | .create => some ⟨true, ownerMode &&& ~~~ending.umask, []⟩
  | .write => file.map fun file => file.append state.text
  | .finish => file.map fun file => file.append [10]
  | .flush => file
  | .protect => file.map fun file => { file with mode := ownerMode }
  | .rename => none

/-- The temporary file after a step that fails. -/
def SaveStep.afterFailure (state : ControllerState) (ending : Ending) (file : Option StateFile) :
    SaveStep → Option StateFile
  | .write => file.map fun file => file.append (state.text.take ending.written)
  | _ => file

/-- Where a process is. -/
inductive StatePhase where
  | idle
  /-- It is going to create the directory. -/
  | preparing (state : ControllerState)
  /-- It is going to do a step with its temporary file. -/
  | saving (step : SaveStep) (state : ControllerState) (name : ℕ)
  /-- A step has failed, and it is going to remove its temporary file. -/
  | cleaning (error : StateFileError) (name : ℕ)
  /-- It has found the state file. -/
  | reading

/-- The folder of the state file, and the processes that use it. -/
structure StateFolder where
  /-- The state file. -/
  file : Option StateFile
  /-- The temporary files. -/
  temporaries : ℕ → Option StateFile
  /-- The name of the next temporary file; no name is used twice. -/
  made : ℕ
  /-- The processes. -/
  phases : ℕ → StatePhase

/-- What happens. -/
inductive StateEvent where
  | save (pid : ℕ) (state : ControllerState)
  | load (pid : ℕ) (ending : Ending)
  | delete (ending : Ending)
  /-- A process goes on. -/
  | go (pid : ℕ) (ending : Ending)
  /-- A process ends, whatever it is doing. -/
  | crash (pid : ℕ)

/-- What a step does. -/
inductive StateOutput where
  | silent
  /-- A process has saved this state. -/
  | saved (state : ControllerState)
  /-- A process has removed the state file, if there was one. -/
  | deleted
  /-- A process has loaded this state. -/
  | loaded (state : ControllerState)
  /-- A process that loads the state finds no file. -/
  | absent
  /-- An operation of the system has failed. -/
  | failed (error : StateFileError)
  /-- A process does not accept the state file. -/
  | refused (error : StateFileError)
deriving DecidableEq

namespace StateFolder

/-- A folder without files. -/
def start : StateFolder := ⟨none, fun _ => none, 0, fun _ => .idle⟩

/-- A process is in another phase. -/
def enter (folder : StateFolder) (pid : ℕ) (phase : StatePhase) : StateFolder :=
  { folder with phases := Function.update folder.phases pid phase }

/-- A temporary file changes. -/
def put (folder : StateFolder) (name : ℕ) (file : Option StateFile) : StateFolder :=
  { folder with temporaries := Function.update folder.temporaries name file }

/-- `load_controller_state`, up to the reading -/
def inspect (folder : StateFolder) (pid : ℕ) (ending : Ending) : StateOutput × StateFolder :=
  if ending.succeeds = true then
    match folder.file with
    | none => (.absent, folder)
    | some file =>
      if file.regular = false then (.refused .notRegular, folder)
      else if ¬file.IsPrivate then (.refused .shared, folder)
      else (.silent, folder.enter pid .reading)
  else (.failed .inspect, folder)

/-- The rest of `load_controller_state` -/
def read (parse : List UInt8 → Option Value) (folder : StateFolder) (ending : Ending) :
    StateOutput :=
  match folder.file with
  | none => .failed .read
  | some file =>
    if ending.succeeds = true then
      match (parse file.bytes).bind ControllerState.deserialize with
      | some state => .loaded state
      | none => .refused .parse
    else .failed .read

/-- `save_controller_state`, one operation after the other -/
def saveStep (folder : StateFolder) (pid : ℕ) (step : SaveStep) (state : ControllerState)
    (name : ℕ) (ending : Ending) : StateOutput × StateFolder :=
  let file := folder.temporaries name
  if ending.succeeds = true ∧ step.Possible file then
    match step.next with
    | some next =>
      (.silent, (folder.put name (step.after state ending file)).enter pid
        (.saving next state name))
    | none => (.saved state, { (folder.put name none).enter pid .idle with file := file })
  else
    (.silent, (folder.put name (step.afterFailure state ending file)).enter pid
      (.cleaning step.error name))

/-- A process goes on with what it is doing. -/
def go (parse : List UInt8 → Option Value) (folder : StateFolder) (pid : ℕ) (ending : Ending) :
    StateOutput × StateFolder :=
  match folder.phases pid with
  | .idle => (.silent, folder)
  | .preparing state =>
    if ending.succeeds = true then
      (.silent, { folder.enter pid (.saving .create state folder.made) with
        made := folder.made + 1 })
    else (.failed .directory, folder.enter pid .idle)
  | .saving step state name => folder.saveStep pid step state name ending
  | .cleaning error name =>
    (.failed error,
      (if ending.succeeds = true then folder.put name none else folder).enter pid .idle)
  | .reading => (folder.read parse ending, folder.enter pid .idle)

end StateFolder

/-- One step of a process. -/
def stateStep (parse : List UInt8 → Option Value) (folder : StateFolder) :
    StateEvent → StateOutput × StateFolder
  | .save pid state =>
    match folder.phases pid with
    | .idle => (.silent, folder.enter pid (.preparing state))
    | _ => (.silent, folder)
  | .load pid ending =>
    match folder.phases pid with
    | .idle => folder.inspect pid ending
    | _ => (.silent, folder)
  | .delete ending =>
    if ending.succeeds = true then (.deleted, { folder with file := none })
    else (.failed .delete, folder)
  | .go pid ending => folder.go parse pid ending
  | .crash pid => (.silent, folder.enter pid .idle)

/-! ### One value -/

/-- The state that is stored after a step. -/
def StateOutput.stores (before : Option ControllerState) : StateOutput → Option ControllerState
  | .saved state => some state
  | .deleted => none
  | _ => before

/-- The state that is stored after these steps. -/
def stored (history : List StateOutput) : Option ControllerState :=
  history.foldl StateOutput.stores none

/-- What a process that loads the state sees is what is stored. -/
def StateOutput.Agrees (before : Option ControllerState) : StateOutput → Prop
  | .loaded state => before = some state
  | .absent => before = none
  | .refused _ => False
  | _ => True

/-- The file of a state. -/
def StateFile.ofState (state : ControllerState) : StateFile :=
  ⟨true, ownerMode, state.text ++ [10]⟩

/-- One more step. -/
theorem stored_concat (history : List StateOutput) (output : StateOutput) :
    stored (history ++ [output]) = output.stores (stored history) := by
  rw [stored, stored, List.foldl_append]
  rfl

/-! ### Temporary files -/

/-- The temporary file before a step. -/
def SaveStep.Expects (state : ControllerState) (file : Option StateFile) : SaveStep → Prop
  | .create => file = none
  | .write => ∃ mode, file = some ⟨true, mode, []⟩
  | .finish => ∃ mode, file = some ⟨true, mode, state.text⟩
  | .flush | .protect => ∃ mode, file = some ⟨true, mode, state.text ++ [10]⟩
  | .rename => file = some (StateFile.ofState state)

namespace SaveStep

variable {step next : SaveStep} {state : ControllerState} {file : Option StateFile}

/-- A step is possible at the file it expects. -/
theorem Expects.possible (h : step.Expects state file) : step.Possible file := by
  cases step with
  | create => exact h
  | rename => exact Option.isSome_iff_exists.mpr ⟨_, h⟩
  | write | finish | flush | protect => trivial

/-- A step leaves the file that the next one expects. -/
theorem Expects.after (h : step.Expects state file) (hnext : step.next = some next)
    (ending : Ending) : next.Expects state (step.after state ending file) := by
  cases step with
  | create =>
    obtain rfl := Option.some.inj hnext
    exact ⟨_, rfl⟩
  | write =>
    obtain rfl := Option.some.inj hnext
    obtain ⟨mode, rfl⟩ := h
    exact ⟨mode, rfl⟩
  | finish =>
    obtain rfl := Option.some.inj hnext
    obtain ⟨mode, rfl⟩ := h
    exact ⟨mode, rfl⟩
  | flush =>
    obtain rfl := Option.some.inj hnext
    exact h
  | protect =>
    obtain rfl := Option.some.inj hnext
    obtain ⟨mode, rfl⟩ := h
    rfl
  | rename => contradiction

/-- Nobody gets permissions by a step. -/
theorem private_after (h : ∀ f ∈ file, f.IsPrivate) (ending : Ending) :
    ∀ f ∈ step.after state ending file, f.IsPrivate := by
  have hmasked : ∀ umask : FileMode, (ownerMode &&& umask) &&& sharedMode = 0 := by decide +kernel
  intro f hf
  cases step with
  | create =>
    obtain rfl := Option.some.inj hf
    exact hmasked _
  | write | finish =>
    obtain ⟨before, hbefore, rfl⟩ := Option.map_eq_some_iff.mp hf
    exact h before hbefore
  | flush => exact h f hf
  | protect =>
    obtain ⟨before, hbefore, rfl⟩ := Option.map_eq_some_iff.mp hf
    exact (by decide : ownerMode &&& sharedMode = 0)
  | rename => contradiction

/-- Nor by one that fails. -/
theorem private_afterFailure (h : ∀ f ∈ file, f.IsPrivate) (ending : Ending) :
    ∀ f ∈ step.afterFailure state ending file, f.IsPrivate := by
  intro f hf
  cases step with
  | write =>
    obtain ⟨before, hbefore, rfl⟩ := Option.map_eq_some_iff.mp hf
    exact h before hbefore
  | create | finish | flush | protect | rename => exact h f hf

end SaveStep

namespace StatePhase

/-- The temporary file of a process. -/
def name : StatePhase → Option ℕ
  | .saving _ _ name | .cleaning _ name => some name
  | _ => none

/-- The state that a process saves. -/
def state : StatePhase → Option ControllerState
  | .preparing state | .saving _ state _ => some state
  | _ => none

end StatePhase

namespace StateFolder

/-- Every process has a temporary file of its own, which is as far as the process is, and nobody
else can read. -/
structure Tidy (Known : ControllerState → Prop) (folder : StateFolder) : Prop where
  /-- A process has got as far as its file. -/
  saving : ∀ pid step state name, folder.phases pid = .saving step state name →
    step.Expects state (folder.temporaries name)
  /-- What is being saved is known. -/
  known : ∀ pid, ∀ state ∈ (folder.phases pid).state, Known state
  /-- Names have been made. -/
  names : ∀ pid, ∀ name ∈ (folder.phases pid).name, name < folder.made
  /-- No two processes have one name. -/
  unique : ∀ pid other, ∀ name ∈ (folder.phases pid).name, name ∈ (folder.phases other).name →
    pid = other
  /-- There is no file yet under a name that has not been made. -/
  fresh : ∀ name, folder.made ≤ name → folder.temporaries name = none
  /-- The files are private. -/
  closed : ∀ name, ∀ file ∈ folder.temporaries name, file.IsPrivate

namespace Tidy

variable {Known : ControllerState → Prop} {folder : StateFolder} {pid : ℕ} {phase : StatePhase}

/-- The phase of a process that has entered it. -/
theorem phases_enter (folder : StateFolder) (pid other : ℕ) (phase : StatePhase) :
    (folder.enter pid phase).phases other = if other = pid then phase else folder.phases other :=
  Function.update_apply ..

/-- The temporary files after a change. -/
theorem temporaries_put (folder : StateFolder) (name other : ℕ) (file : Option StateFile) :
    (folder.put name file).temporaries other =
      if other = name then file else folder.temporaries other :=
  Function.update_apply ..

/-- The folder without files. -/
theorem start : Tidy Known StateFolder.start := by
  refine ⟨?_, ?_, ?_, ?_, fun _ _ => rfl, ?_⟩ <;> simp [StateFolder.start, StatePhase.name,
    StatePhase.state]

/-- The state file does not matter. -/
theorem of_file (h : Tidy Known folder) (file : Option StateFile) :
    Tidy Known { folder with file } :=
  ⟨h.saving, h.known, h.names, h.unique, h.fresh, h.closed⟩

/-- A process that owns a temporary file changes it and goes on. -/
theorem replace (h : Tidy Known folder) {name : ℕ} (hpid : (folder.phases pid).name = some name)
    {file : Option StateFile} (hname : ∀ other ∈ phase.name, other = name)
    (hstate : ∀ state ∈ phase.state, Known state)
    (hexpects : ∀ step state other, phase = .saving step state other → step.Expects state file)
    (hclosed : ∀ f ∈ file, f.IsPrivate) :
    Tidy Known ((folder.put name file).enter pid phase) := by
  have howner : ∀ other, name ∈ (folder.phases other).name → other = pid := fun other hother =>
    h.unique other pid name hother hpid
  have hlt : name < folder.made := h.names pid name hpid
  constructor
  · intro other step state file' hphase
    rw [phases_enter] at hphase
    change step.Expects state ((folder.put name file).temporaries file')
    rw [temporaries_put]
    split_ifs at hphase with hother
    · have hsame : file' = name := hname file' (by rw [hphase]; rfl)
      rw [if_pos hsame]
      exact hexpects step state file' hphase
    · have hne : file' ≠ name := by
        rintro rfl
        exact hother (howner other (by rw [show folder.phases other = _ from hphase]; rfl))
      rw [if_neg hne]
      exact h.saving other step state file' hphase
  · intro other state hknown
    rw [phases_enter] at hknown
    split_ifs at hknown
    · exact hstate state hknown
    · exact h.known other state hknown
  · intro other file' hfile
    rw [phases_enter] at hfile
    split_ifs at hfile
    · exact hname file' hfile ▸ hlt
    · exact h.names other file' hfile
  · intro first second file' hfirst hsecond
    rw [phases_enter] at hfirst hsecond
    split_ifs at hfirst hsecond with hf hs hs
    · rw [hf, hs]
    · obtain rfl := hname file' hfirst
      exact hf.trans (howner second hsecond).symm
    · obtain rfl := hname file' hsecond
      exact (howner first hfirst).trans hs.symm
    · exact h.unique first second file' hfirst hsecond
  · intro other hother
    change (folder.put name file).temporaries other = none
    have hle : folder.made ≤ other := hother
    rw [temporaries_put, if_neg (by omega)]
    exact h.fresh other hle
  · intro other f hf
    change f ∈ (folder.put name file).temporaries other at hf
    rw [temporaries_put] at hf
    split_ifs at hf
    · exact hclosed f hf
    · exact h.closed other f hf

/-- A process enters a phase in which it has no temporary file. -/
theorem enter (h : Tidy Known folder) (hname : phase.name = none)
    (hstate : ∀ state ∈ phase.state, Known state) : Tidy Known (folder.enter pid phase) := by
  constructor
  · intro other step state name hphase
    rw [phases_enter] at hphase
    split_ifs at hphase
    · rw [hphase] at hname
      contradiction
    · exact h.saving other step state name hphase
  · intro other state hknown
    rw [phases_enter] at hknown
    split_ifs at hknown
    · exact hstate state hknown
    · exact h.known other state hknown
  · intro other name hfile
    rw [phases_enter] at hfile
    split_ifs at hfile
    · rw [hname] at hfile
      contradiction
    · exact h.names other name hfile
  · intro first second name hfirst hsecond
    rw [phases_enter] at hfirst hsecond
    split_ifs at hfirst hsecond
    · rw [hname] at hfirst
      contradiction
    · rw [hname] at hfirst
      contradiction
    · rw [hname] at hsecond
      contradiction
    · exact h.unique first second name hfirst hsecond
  · exact h.fresh
  · exact h.closed

/-- A process gets the next name. -/
theorem reserve (h : Tidy Known folder) {state : ControllerState} (hstate : Known state) :
    Tidy Known { folder.enter pid (.saving .create state folder.made) with
      made := folder.made + 1 } := by
  have hnot : ∀ other, folder.made ∉ (folder.phases other).name := fun other hother =>
    Nat.lt_irrefl _ (h.names other _ hother)
  constructor
  · intro other step saved name hphase
    change (folder.enter pid _).phases other = _ at hphase
    rw [phases_enter] at hphase
    split_ifs at hphase
    · obtain ⟨rfl, rfl, rfl⟩ := StatePhase.saving.inj hphase
      exact h.fresh _ le_rfl
    · exact h.saving other step saved name hphase
  · intro other saved hknown
    change saved ∈ ((folder.enter pid _).phases other).state at hknown
    rw [phases_enter] at hknown
    split_ifs at hknown
    · obtain rfl := Option.some.inj hknown
      exact hstate
    · exact h.known other saved hknown
  · intro other name hname
    change name ∈ ((folder.enter pid _).phases other).name at hname
    rw [phases_enter] at hname
    split_ifs at hname
    · obtain rfl := Option.some.inj hname
      exact Nat.lt_succ_self _
    · exact Nat.lt_succ_of_lt (h.names other name hname)
  · intro first second name hfirst hsecond
    change name ∈ ((folder.enter pid _).phases first).name at hfirst
    change name ∈ ((folder.enter pid _).phases second).name at hsecond
    rw [phases_enter] at hfirst hsecond
    split_ifs at hfirst hsecond with hf hs hs
    · rw [hf, hs]
    · obtain rfl := Option.some.inj hfirst
      exact (hnot second hsecond).elim
    · obtain rfl := Option.some.inj hsecond
      exact (hnot first hfirst).elim
    · exact h.unique first second name hfirst hsecond
  · exact fun name hname => h.fresh name (Nat.le_of_succ_le hname)
  · exact h.closed

end Tidy

/-- The folder after these steps. -/
structure Consistent (Known : ControllerState → Prop) (history : List StateOutput)
    (folder : StateFolder) : Prop where
  /-- The temporary files. -/
  tidy : folder.Tidy Known
  /-- The state file has what is stored. -/
  file : folder.file = (stored history).map .ofState
  /-- That was known. -/
  known : ∀ state ∈ stored history, Known state

/-- The texts of known states are read as their documents. -/
def Reads (parse : List UInt8 → Option Value) (Known : ControllerState → Prop) : Prop :=
  ∀ state, Known state → parse (state.text ++ [10]) = some state.document

/-- A step that keeps the folder consistent, and in which a process that loads the state sees what
is stored. -/
structure Continues (parse : List UInt8 → Option Value) (Known : ControllerState → Prop)
    (history : List StateOutput) (done : StateOutput × StateFolder) : Prop where
  /-- The folder is consistent. -/
  consistent : Consistent Known (history ++ [done.1]) done.2
  /-- What is seen is stored. -/
  agrees : Reads parse Known → done.1.Agrees (stored history)

namespace Consistent

variable {Known : ControllerState → Prop} {history : List StateOutput} {folder : StateFolder}
  {parse : List UInt8 → Option Value}

/-- A step that stores nothing. -/
theorem of_tidy (h : Consistent Known history folder) {output : StateOutput} {next : StateFolder}
    (hstores : output.stores (stored history) = stored history) (hfile : next.file = folder.file)
    (htidy : next.Tidy Known) : Consistent Known (history ++ [output]) next := by
  have hsame : stored (history ++ [output]) = stored history :=
    (stored_concat history output).trans hstores
  exact ⟨htidy, by rw [hfile, h.file, hsame], by rw [hsame]; exact h.known⟩

/-- Nothing happens. -/
theorem silent (h : Consistent Known history folder) :
    Continues parse Known history (.silent, folder) :=
  ⟨h.of_tidy rfl rfl h.tidy, fun _ => trivial⟩

/-- A process enters a phase in which it saves nothing. -/
theorem enter (h : Consistent Known history folder) (pid : ℕ) {phase : StatePhase}
    {output : StateOutput} (hname : phase.name = none) (hstate : phase.state = none)
    (hstores : output.stores (stored history) = stored history)
    (hagrees : Reads parse Known → output.Agrees (stored history)) :
    Continues parse Known history (output, folder.enter pid phase) := by
  refine ⟨h.of_tidy hstores rfl (h.tidy.enter hname fun state hsome => ?_), hagrees⟩
  rw [hstate] at hsome
  contradiction

/-- A step with the temporary file of a process. -/
theorem saveStep (h : Consistent Known history folder) {pid name : ℕ} {step : SaveStep}
    {state : ControllerState} (hphase : folder.phases pid = .saving step state name)
    (ending : Ending) :
    Continues parse Known history (folder.saveStep pid step state name ending) := by
  have hname : (folder.phases pid).name = some name := by rw [hphase]; rfl
  have hknown : Known state := h.tidy.known pid state (by rw [hphase]; rfl)
  have hexpects := h.tidy.saving pid step state name hphase
  have hclosed := h.tidy.closed name
  unfold StateFolder.saveStep
  dsimp only
  split_ifs
  · cases hnext : step.next with
    | some next =>
      refine ⟨h.of_tidy rfl rfl (h.tidy.replace hname (fun other hother => ?_)
        (fun saved hsaved => ?_) (fun later saved other hlater => ?_)
        (SaveStep.private_after hclosed ending)), fun _ => trivial⟩
      · exact (Option.some.inj hother).symm
      · exact Option.some.inj hsaved ▸ hknown
      · obtain ⟨rfl, rfl, rfl⟩ := StatePhase.saving.inj hlater
        exact hexpects.after hnext ending
    | none =>
      have hstep : step = .rename := by cases step <;> first | rfl | contradiction
      rw [hstep] at hexpects
      have hfile : folder.temporaries name = some (StateFile.ofState state) := hexpects
      refine ⟨⟨(h.tidy.replace hname (by simp [StatePhase.name]) (by simp [StatePhase.state])
        (by simp) (by simp)).of_file _, ?_, ?_⟩, fun _ => trivial⟩
      · rw [stored_concat, hfile]
        rfl
      · rw [stored_concat]
        intro saved hsaved
        obtain rfl := Option.some.inj hsaved
        exact hknown
  · refine ⟨h.of_tidy rfl rfl (h.tidy.replace hname (fun other hother => ?_)
      (by simp [StatePhase.state]) (by simp) (SaveStep.private_afterFailure hclosed ending)),
      fun _ => trivial⟩
    exact (Option.some.inj hother).symm

/-- What a process finds before it reads the state file. -/
theorem inspect (h : Consistent Known history folder) (pid : ℕ) (ending : Ending) :
    Continues parse Known history (folder.inspect pid ending) := by
  have hfile := h.file
  unfold StateFolder.inspect
  split_ifs
  · cases hstored : stored history with
    | none =>
      rw [hstored, Option.map_none] at hfile
      rw [hfile]
      exact ⟨h.of_tidy rfl rfl h.tidy, fun _ => hstored⟩
    | some state =>
      rw [hstored, Option.map_some] at hfile
      have hregular : ¬(StateFile.ofState state).regular = false := Bool.noConfusion
      have hprivate : ¬¬(StateFile.ofState state).IsPrivate :=
        not_not.mpr (by decide : ownerMode &&& sharedMode = 0)
      simp only [hfile, if_neg hregular, if_neg hprivate]
      exact h.enter pid rfl rfl rfl fun _ => trivial
  · exact ⟨h.of_tidy rfl rfl h.tidy, fun _ => trivial⟩

/-- What a process reads. -/
theorem read (h : Consistent Known history folder) (hparse : Reads parse Known)
    (ending : Ending) : (folder.read parse ending).Agrees (stored history) := by
  have hfile := h.file
  unfold StateFolder.read
  cases hstored : stored history with
  | none =>
    rw [hstored, Option.map_none] at hfile
    rw [hfile]
    trivial
  | some state =>
    rw [hstored, Option.map_some] at hfile
    have hdocument : parse (StateFile.ofState state).bytes = some state.document :=
      hparse state (h.known state hstored)
    simp only [hfile, hdocument, Option.bind_some, state.deserialize_document]
    split_ifs
    · rfl
    · trivial

/-- A load leaves the stored state. -/
theorem stores_read (parse : List UInt8 → Option Value) (folder : StateFolder) (ending : Ending)
    (before : Option ControllerState) : (folder.read parse ending).stores before = before := by
  unfold StateFolder.read
  split
  · rfl
  · split_ifs
    · split <;> rfl
    · rfl

/-- A process goes on. -/
theorem go (h : Consistent Known history folder) (pid : ℕ) (ending : Ending) :
    Continues parse Known history (folder.go parse pid ending) := by
  unfold StateFolder.go
  cases hphase : folder.phases pid with
  | idle => exact h.silent
  | preparing state =>
    have hstate : Known state := h.tidy.known pid state (by rw [hphase]; rfl)
    dsimp only
    split_ifs
    · exact ⟨h.of_tidy rfl rfl (h.tidy.reserve hstate), fun _ => trivial⟩
    · exact h.enter pid rfl rfl rfl fun _ => trivial
  | saving step state name => exact h.saveStep hphase ending
  | cleaning error name =>
    have hname : (folder.phases pid).name = some name := by rw [hphase]; rfl
    dsimp only
    split_ifs
    · exact ⟨h.of_tidy rfl rfl (h.tidy.replace hname (by simp [StatePhase.name])
        (by simp [StatePhase.state]) (by simp) (by simp)), fun _ => trivial⟩
    · exact h.enter pid rfl rfl rfl fun _ => trivial
  | reading =>
    exact h.enter pid rfl rfl (stores_read parse folder ending _)
      fun hparse => h.read hparse ending

/-- Every step keeps the folder consistent. -/
theorem step (h : Consistent Known history folder) {event : StateEvent}
    (hevent : ∀ pid state, event = .save pid state → Known state) :
    Continues parse Known history (stateStep parse folder event) := by
  cases event with
  | save pid state =>
    have hstate : Known state := hevent pid state rfl
    unfold stateStep
    dsimp only
    cases folder.phases pid with
    | idle =>
      refine ⟨h.of_tidy rfl rfl (h.tidy.enter rfl fun saved hsaved => ?_), fun _ => trivial⟩
      exact Option.some.inj hsaved ▸ hstate
    | _ => exact h.silent
  | load pid ending =>
    unfold stateStep
    dsimp only
    cases folder.phases pid with
    | idle => exact h.inspect pid ending
    | _ => exact h.silent
  | delete ending =>
    unfold stateStep
    dsimp only
    split_ifs
    · refine ⟨⟨h.tidy.of_file none, ?_, ?_⟩, fun _ => trivial⟩ <;> rw [stored_concat]
      · rfl
      · intro state hstate
        contradiction
    · exact ⟨h.of_tidy rfl rfl h.tidy, fun _ => trivial⟩
  | go pid ending => exact h.go pid ending
  | crash pid => exact h.enter pid rfl rfl rfl fun _ => trivial

/-- A folder without files. -/
theorem start : Consistent Known [] .start :=
  ⟨.start, rfl, fun state hstate => by contradiction⟩

/-- Every run keeps the folder consistent, and what is loaded is what is stored. -/
theorem run (Known : ControllerState → Prop) (parse : List UInt8 → Option Value)
    {events : List StateEvent} (hevents : ∀ pid state, .save pid state ∈ events → Known state) :
    Consistent Known (outputs (stateStep parse) .start events)
        (final (stateStep parse) .start events) ∧
      ∀ pre output post, outputs (stateStep parse) .start events = pre ++ output :: post →
        Reads parse Known → output.Agrees (stored pre) := by
  refine outputs_induction (stateStep parse) (J := fun history folder =>
    Consistent Known history folder) (P := fun history output =>
    Reads parse Known → output.Agrees (stored history)) start events
    fun history folder event hevent h => ?_
  have hstep : Continues parse Known history (stateStep parse folder event) :=
    h.step fun pid state heq => hevents pid state (heq ▸ hevent)
  exact ⟨hstep.consistent, hstep.agrees⟩

end Consistent

end StateFolder

open StateFolder

/-- Whatever any number of processes do at the same time, and wherever they fail or end, the state
file is that of the last state that was saved and not removed, and every process that loads it
gets this state: none ever finds a part of one, or a file that it does not accept. -/
theorem stateFile_refines {parse : List UInt8 → Option Value} {events : List StateEvent}
    (hparse : ∀ pid state, .save pid state ∈ events →
      parse (state.text ++ [10]) = some state.document) :
    (final (stateStep parse) .start events).file =
        (stored (outputs (stateStep parse) .start events)).map .ofState ∧
      ∀ pre output post, outputs (stateStep parse) .start events = pre ++ output :: post →
        output.Agrees (stored pre) := by
  obtain ⟨hfinal, hagrees⟩ := Consistent.run
    (fun state => parse (state.text ++ [10]) = some state.document) parse hparse
  exact ⟨hfinal.file, fun pre output post hsplit => hagrees pre output post hsplit fun _ => id⟩

/-- A state that replaces that of `enrolledRecord`. -/
def replacedState : ControllerState := ⟨{ enrolledRecord with clientId := "client-2" }⟩

/-- An operation that succeeds. -/
def success : Ending := ⟨true, 0, 0⟩

/-- Process 0 saves a state while process 1 loads and process 2, a part of whose write fails, ends
before it has removed its temporary file; process 1 loads the state while process 3 saves another
one. -/
def savedThenLoaded : List StateEvent :=
  [.save 0 ⟨enrolledRecord⟩, .save 2 replacedState, .go 0 success, .go 2 success, .go 0 success,
    .go 2 success, .go 2 ⟨false, 3, 0⟩, .load 1 success, .go 0 success, .crash 2, .go 0 success,
    .go 0 success, .go 0 success, .go 0 success, .save 3 replacedState, .load 1 success,
    .go 3 success, .go 3 success, .go 3 success, .go 1 success]

/-- A library that reads both states. -/
def parseEnrolled (bytes : List UInt8) : Option Value :=
  ([⟨enrolledRecord⟩, replacedState].find? fun state => bytes = state.text ++ [10]).map
    ControllerState.document

/-- Process 1 finds no file, and then the state of process 0. -/
theorem stateFile_refines_loaded :
    (outputs (stateStep parseEnrolled) .start savedThenLoaded).filter (fun o => o ≠ .silent) =
        [.absent, .saved ⟨enrolledRecord⟩, .loaded ⟨enrolledRecord⟩] ∧
      (final (stateStep parseEnrolled) .start savedThenLoaded).file =
        (stored (outputs (stateStep parseEnrolled) .start savedThenLoaded)).map .ofState ∧
      ∀ pre output post,
        outputs (stateStep parseEnrolled) .start savedThenLoaded = pre ++ output :: post →
          output.Agrees (stored pre) := by
  refine ⟨by decide +kernel, stateFile_refines fun pid state hsave => ?_⟩
  have hstate : state ∈ [⟨enrolledRecord⟩, replacedState] := by
    simp only [savedThenLoaded, List.mem_cons, StateEvent.save.injEq, reduceCtorEq, false_or,
      List.not_mem_nil, or_false] at hsave ⊢
    tauto
  have hparse : ∀ state ∈ [⟨enrolledRecord⟩, replacedState],
      parseEnrolled (state.text ++ [10]) = some state.document := by
    decide +kernel
  exact hparse state hstate

/-- At no time has anybody but the owner permissions for a file with a state in it. -/
theorem private_stateFile (parse : List UInt8 → Option Value) (events : List StateEvent) :
    (∀ file ∈ (final (stateStep parse) .start events).file, file.IsPrivate) ∧
      ∀ name, ∀ file ∈ (final (stateStep parse) .start events).temporaries name,
        file.IsPrivate := by
  have hknown : ∀ pid state, StateEvent.save pid state ∈ events → True := fun _ _ _ => trivial
  obtain ⟨hfinal, -⟩ := Consistent.run (fun _ => True) parse hknown
  refine ⟨fun file hfile => ?_, hfinal.tidy.closed⟩
  rw [hfinal.file] at hfile
  obtain ⟨state, -, rfl⟩ := Option.map_eq_some_iff.mp hfile
  exact (by decide : ownerMode &&& sharedMode = 0)

/-! ### Saving again -/

/-- A process saves a state, and nothing fails. -/
def savesAlone (pid : ℕ) (state : ControllerState) (umask : FileMode) : List StateEvent :=
  .crash pid :: .save pid state :: List.replicate 7 (.go pid ⟨true, 0, umask⟩)

section SavesAlone

variable (parse : List UInt8 → Option Value) {folder : StateFolder} {pid name : ℕ}
  {state : ControllerState}

/-- A process is going to do this step, and its file is ready for it. -/
def StateFolder.Ready (folder : StateFolder) (pid name : ℕ) (state : ControllerState)
    (step : SaveStep) : Prop :=
  folder.phases pid = .saving step state name ∧ step.Expects state (folder.temporaries name)

/-- A step that succeeds. -/
theorem StateFolder.Ready.go {step next : SaveStep} (h : folder.Ready pid name state step)
    (hnext : step.next = some next) (umask : FileMode) :
    ∃ later, stateStep parse folder (.go pid ⟨true, 0, umask⟩) = (.silent, later) ∧
      later.Ready pid name state next := by
  obtain ⟨hphase, hexpects⟩ := h
  refine ⟨(folder.put name (step.after state ⟨true, 0, umask⟩ (folder.temporaries name))).enter pid
    (.saving next state name), ?_, Function.update_self .., ?_⟩
  · simp only [stateStep, StateFolder.go, hphase, StateFolder.saveStep, hexpects.possible, hnext,
      and_self, if_true]
  · have hfile : ((folder.put name (step.after state ⟨true, 0, umask⟩
        (folder.temporaries name))).enter pid (.saving next state name)).temporaries name =
          step.after state ⟨true, 0, umask⟩ (folder.temporaries name) := Function.update_self ..
    rw [hfile]
    exact hexpects.after hnext _

/-- The last step. -/
theorem StateFolder.Ready.rename (h : folder.Ready pid name state .rename) (umask : FileMode) :
    ∃ later, stateStep parse folder (.go pid ⟨true, 0, umask⟩) = (.saved state, later) := by
  obtain ⟨hphase, hexpects⟩ := h
  refine ⟨{ (folder.put name none).enter pid .idle with file := folder.temporaries name }, ?_⟩
  simp only [stateStep, StateFolder.go, hphase, StateFolder.saveStep, hexpects.possible,
    SaveStep.next, and_self, if_true]

/-- The first steps. -/
theorem StateFolder.ready_create {Known : ControllerState → Prop} (h : folder.Tidy Known)
    (pid : ℕ) (state : ControllerState) (umask : FileMode) :
    (final (stateStep parse) folder
      [.crash pid, .save pid state, .go pid ⟨true, 0, umask⟩]).Ready pid folder.made state
        .create := by
  have hidle : (folder.enter pid .idle).phases pid = .idle := Function.update_self ..
  have hsave : stateStep parse (folder.enter pid .idle) (.save pid state) =
      (.silent, (folder.enter pid .idle).enter pid (.preparing state)) := by
    simp only [stateStep, hidle]
  have hpreparing : ((folder.enter pid .idle).enter pid (.preparing state)).phases pid =
      .preparing state := Function.update_self ..
  have hgo : stateStep parse ((folder.enter pid .idle).enter pid (.preparing state))
      (.go pid ⟨true, 0, umask⟩) = (.silent,
        { ((folder.enter pid .idle).enter pid (.preparing state)).enter pid
            (.saving .create state folder.made) with made := folder.made + 1 }) := by
    simp only [stateStep, StateFolder.go, hpreparing, if_true]
    rfl
  have hcrash : stateStep parse folder (.crash pid) = (.silent, folder.enter pid .idle) := rfl
  rw [final_cons_of_step _ hcrash, final_cons_of_step _ hsave, final_cons_of_step _ hgo, final_nil]
  exact ⟨Function.update_self .., h.fresh _ le_rfl⟩

end SavesAlone

/-- Whatever has happened before, and whatever files it has left, a process that then saves a state
without a failure has saved it. -/
theorem save_again (parse : List UInt8 → Option Value) (events : List StateEvent) (pid : ℕ)
    (state : ControllerState) (umask : FileMode) :
    (outputs (stateStep parse) .start (events ++ savesAlone pid state umask)).getLast? =
        some (.saved state) ∧
      (final (stateStep parse) .start (events ++ savesAlone pid state umask)).file =
        some (.ofState state) := by
  have hrun : ∀ run, StateFolder.Consistent (fun _ => True) (outputs (stateStep parse) .start run)
      (final (stateStep parse) .start run) := fun run =>
    (Consistent.run (fun _ => True) parse fun _ _ _ => trivial).1
  have hsplit : events ++ savesAlone pid state umask =
      events ++ ([.crash pid, .save pid state, .go pid ⟨true, 0, umask⟩] ++
        List.replicate 6 (.go pid ⟨true, 0, umask⟩)) := rfl
  have hcreate := ready_create parse (hrun events).tidy pid state umask
  have hlast : (outputs (stateStep parse) .start (events ++ savesAlone pid state umask)).getLast? =
      some (.saved state) := by
    rw [hsplit, outputs_append, outputs_append]
    obtain ⟨written, hwrite, hready⟩ := hcreate.go parse rfl umask
    obtain ⟨finished, hfinish, hready⟩ := hready.go parse rfl umask
    obtain ⟨flushed, hflush, hready⟩ := hready.go parse rfl umask
    obtain ⟨protected', hprotect, hready⟩ := hready.go parse rfl umask
    obtain ⟨renamed, hrename, hready⟩ := hready.go parse rfl umask
    obtain ⟨saved, hsaved⟩ := hready.rename parse umask
    have hsix : List.replicate 6 (StateEvent.go pid ⟨true, 0, umask⟩) =
        [.go pid ⟨true, 0, umask⟩, .go pid ⟨true, 0, umask⟩, .go pid ⟨true, 0, umask⟩,
          .go pid ⟨true, 0, umask⟩, .go pid ⟨true, 0, umask⟩, .go pid ⟨true, 0, umask⟩] := rfl
    rw [hsix, outputs_cons_of_step _ hwrite, outputs_cons_of_step _ hfinish,
      outputs_cons_of_step _ hflush, outputs_cons_of_step _ hprotect,
      outputs_cons_of_step _ hrename, outputs_cons_of_step _ hsaved, outputs_nil]
    simp
  refine ⟨hlast, ?_⟩
  obtain ⟨before, hbefore⟩ := List.getLast?_eq_some_iff.mp hlast
  rw [(hrun _).file, hbefore, stored_concat]
  rfl

end Rcodex
