import Rcodex.Identity.Orphan
import Rcodex.Foundation.Machine

/-!
# Revoking an enrollment

`unenroll` revokes the client at the relay, deletes the key pair from the Keychain and removes the
state file.  The three stores know nothing of each other, and any operation may fail, or the process
may end, before or after it had its effect.  Since the state file is removed last and each deletion
accepts that its object is gone, an attempt can be repeated from whatever the ones before have left
(`unenroll_retries`).

The path that is made of a client's ID is a parameter, and so is the client that the relay takes it
for.  Both have to agree on the client of the enrollment: `ClientPath` says of which IDs they do.
-/

namespace Rcodex

open Result

/-- Why an attempt fails. -/
inductive UnenrollError where
  | notEnrolled
  | emptyClientId
  | auth
  | send
  | refresh
  | status (code : ℕ)
  | deletion (error : EnrollError)
  | stateDeletion
deriving DecidableEq

/-- The text of an error, as the source reports it; `display` is how a status is shown. -/
def UnenrollError.text (display : ℕ → String) : UnenrollError → String
  | .notEnrolled => "rcodex is not enrolled; no controller state was found"
  | .emptyClientId => "rcodex client ID is empty"
  | .send => "send remote-control request"
  | .status code => "remote-control request failed (" ++ display code ++ ")"
  | .deletion _ => "delete the rcodex Keychain key after revocation"
  | .stateDeletion => "delete rcodex state"
  | .auth | .refresh => ""

/-- The relay, the Keychain and the state file. -/
structure Stores where
  /-- The clients that the relay knows. -/
  registered : List String
  /-- The keys in the Keychain. -/
  keychain : List KeyItem
  /-- The state file. -/
  stateFile : Option ControllerState
  /-- How many operations there were in this attempt. -/
  operations : ℕ
deriving DecidableEq

/-- What becomes of an operation. A process that ends during it sees no result, as after a failure
the attempt is over. -/
inductive Outcome where
  | succeeds
  | fails (afterEffect : Bool)
deriving DecidableEq

/-- A status of a response that is neither a success nor `404`. -/
def IsRefusal (code : ℕ) : Prop := ¬(200 ≤ code ∧ code < 300) ∧ code ≠ 404

/-- What becomes of a request to delete a client. -/
inductive Reply where
  /-- The relay handles it: `204` if it knew the client, `404` if not. -/
  | answered
  /-- There is no response, before or after the effect. -/
  | lost (afterEffect : Bool)
  /-- The relay refuses it, or fails before or after the effect. -/
  | refused (code : {code : ℕ // IsRefusal code}) (afterEffect : Bool)

/-- What becomes of the operations of an attempt, by their numbers. -/
structure Attempt where
  /-- The operations of the process. -/
  outcome : ℕ → Outcome
  /-- The requests to the relay. -/
  reply : ℕ → Reply
  /-- The clients that the relay has dropped on its own before an operation. -/
  drops : ℕ → List String

/-- What a store reports of a deletion. -/
inductive Removal where
  | removed
  | notFound
  | failed
deriving DecidableEq

/-- A computation of the attempt. -/
abbrev Unenroll := Effect Stores UnenrollError

/-- The stores at the next operation. -/
def Stores.next (stores : Stores) (dropped : List String) : Stores :=
  { stores with
    registered := stores.registered.filter fun client => client ∉ dropped
    operations := stores.operations + 1 }

/-- `client_revocation_path`, where `segment` appends the client to the path of all clients. -/
def clientRevocationPath (segment : String → String) (clientId : String) :
    Except UnenrollError String := do
  bailWhen (Text.trim clientId = "") .emptyClientId
  return segment clientId

section Attempt

variable (library : SigningLibrary) (segment : String → String)
  (addressed : String → String → Bool) (attempt : Attempt)

/-- An operation that may fail and changes nothing. -/
def storeOperation (error : UnenrollError) : Unenroll Unit := do
  let outcome ← Effect.ask fun stores =>
    (attempt.outcome stores.operations, stores.next (attempt.drops stores.operations))
  Effect.failWhen (outcome ≠ .succeeds) error

/-- A deletion. -/
def storeDelete (found : Stores → Bool) (remove : Stores → Stores) : Unenroll Removal := do
  let outcome ← Effect.ask fun stores =>
    (attempt.outcome stores.operations, stores.next (attempt.drops stores.operations))
  let isThere ← Effect.read found
  match outcome with
  | .succeeds =>
    Effect.change remove
    return if isThere then .removed else .notFound
  | .fails afterEffect =>
    Effect.change fun stores => if afterEffect then remove stores else stores
    return .failed

/-- The relay forgets the clients that it takes this path for. -/
def Stores.forget (stores : Stores) (path : String) : Stores :=
  { stores with registered := stores.registered.filter fun client => !addressed path client }

/-- The request to delete the client with this path, up to the status of the response. -/
def sendDelete (path : String) : Unenroll ℕ := do
  let reply ← Effect.ask fun stores =>
    (attempt.reply stores.operations, stores.next (attempt.drops stores.operations))
  let known ← Effect.read fun stores => stores.registered.any (addressed path)
  match reply with
  | .answered =>
    Effect.change fun stores => stores.forget addressed path
    return if known then 204 else 404
  | .lost afterEffect =>
    Effect.change fun stores => if afterEffect then stores.forget addressed path else stores
    Effect.fail .send
  | .refused code afterEffect =>
    Effect.change fun stores => if afterEffect then stores.forget addressed path else stores
    return code

/-- The loop of `send_with_status_policy`. -/
def sendLoop (request : Unenroll ℕ) (allowNotFound refreshedAfterUnauthorized : Bool)
    (retryCount : ℕ) : Unenroll ℕ := do
  let status ← request
  if h : status = 401 ∧ refreshedAfterUnauthorized = false then
    storeOperation attempt .refresh
    sendLoop request allowNotFound true retryCount
  else if h : (status = 429 ∨ 500 ≤ status ∧ status < 600) ∧ retryCount < 3 then
    sendLoop request allowNotFound refreshedAfterUnauthorized (retryCount + 1)
  else
    Effect.failWhen (¬(200 ≤ status ∧ status < 300 ∨ allowNotFound = true ∧ status = 404))
      (.status status)
    return status
termination_by (3 - retryCount, if refreshedAfterUnauthorized then 0 else 1)
decreasing_by
  · exact Prod.Lex.right _ (by simp [h.2])
  · exact Prod.Lex.left _ _ (by omega)

/-- `send_with_status_policy` -/
def sendWithStatusPolicy (request : Unenroll ℕ) (allowNotFound : Bool) : Unenroll ℕ := do
  storeOperation attempt .auth
  sendLoop attempt request allowNotFound false 0

/-- `RelayApi::revoke_client` -/
def revokeClient (clientId : String) : Unenroll Unit := do
  let path ← Effect.lift (clientRevocationPath segment clientId)
  let _ ← sendWithStatusPolicy attempt (sendDelete addressed attempt path) true
  return ()

/-- The keys of a class and a label are deleted. -/
def Stores.removeKey (stores : Stores) (item : KeyItem) : Stores :=
  { stores with keychain := stores.keychain.filter (· ≠ item) }

/-- One pass of the loop of `macos::delete`. -/
def deleteKeyClass (keyId : String) (item : KeyItem) : Unenroll Unit := do
  let removal ← storeDelete attempt (fun stores => decide (item ∈ stores.keychain))
    (·.removeKey item)
  match removal with
  | .removed | .notFound => return ()
  | .failed => Effect.fail (.deletion (.deletion keyId))

/-- `macos::delete`, called by `delete_os_protected_device_key` -/
def deleteDeviceKey (keyId : String) : Unenroll Unit := do
  let label ← Effect.lift ((applicationLabel library keyId).mapError .deletion)
  deleteKeyClass attempt keyId ⟨.privateKey, label⟩
  deleteKeyClass attempt keyId ⟨.publicKey, label⟩

/-- `load_controller_state` -/
def loadControllerState : Unenroll ControllerState := do
  storeOperation attempt .notEnrolled
  let stateFile ← Effect.read Stores.stateFile
  Effect.lift (context .notEnrolled stateFile)

/-- `delete_controller_state` -/
def deleteControllerState : Unenroll Unit := do
  let removal ← storeDelete attempt (fun stores => stores.stateFile.isSome)
    fun stores => { stores with stateFile := none }
  match removal with
  | .removed | .notFound => return ()
  | .failed => Effect.fail .stateDeletion

/-- `Command::Unenroll` -/
def unenroll : Unenroll Unit := do
  let state ← loadControllerState attempt
  revokeClient segment addressed attempt state.enrollment.clientId
  deleteDeviceKey library attempt state.enrollment.keyId
  deleteControllerState attempt

end Attempt

/-- One attempt, from the stores as it finds them. -/
def unenrollStep (library : SigningLibrary) (segment : String → String)
    (addressed : String → String → Bool) (stores : Stores) (attempt : Attempt) :
    Except UnenrollError Unit × Stores :=
  unenroll library segment addressed attempt { stores with operations := 0 }

/-! ### What an operation keeps -/

/-- Nothing was added to the relay and to the Keychain, and the state file is the same. -/
structure Stores.Shrinks (before after : Stores) : Prop where
  /-- The clients. -/
  registered : after.registered ⊆ before.registered
  /-- The keys. -/
  keychain : after.keychain ⊆ before.keychain
  /-- The state file. -/
  stateFile : after.stateFile = before.stateFile

/-- A condition that is kept when something is removed from the relay or the Keychain. -/
def Enduring (P : Stores → Prop) : Prop := ∀ before after, before.Shrinks after → P before → P after

/-- The relay does not know the client. -/
def Stores.Forgotten (clientId : String) (stores : Stores) : Prop := clientId ∉ stores.registered

/-- No operation of the attempt fails. -/
def Attempt.Clean (attempt : Attempt) : Prop :=
  ∀ n, attempt.outcome n = .succeeds ∧ attempt.reply n = .answered

section Enduring

variable {P Q : Stores → Prop}

/-- Conditions about the state file endure. -/
theorem enduring_stateFile (S : Option ControllerState → Prop) :
    Enduring fun stores => S stores.stateFile := by
  intro before after h hS
  rw [h.stateFile]
  exact hS

/-- A client that is forgotten stays so. -/
theorem enduring_forgotten (clientId : String) : Enduring (Stores.Forgotten clientId) :=
  fun _ _ h hforgotten hmem => hforgotten (h.registered hmem)

/-- A key that is not there stays away. -/
theorem enduring_notMem (item : KeyItem) : Enduring fun stores => item ∉ stores.keychain :=
  fun _ _ h hnot hmem => hnot (h.keychain hmem)

/-- Both conditions endure. -/
theorem Enduring.and (hP : Enduring P) (hQ : Enduring Q) :
    Enduring fun stores => P stores ∧ Q stores :=
  fun _ _ h hboth => ⟨hP _ _ h hboth.1, hQ _ _ h hboth.2⟩

end Enduring

/-- The next operation. -/
theorem Stores.shrinks_next (stores : Stores) (dropped : List String) :
    stores.Shrinks (stores.next dropped) :=
  ⟨List.filter_subset_self _, List.Subset.refl _, rfl⟩

/-- The relay forgets a client. -/
theorem Stores.shrinks_forget (addressed : String → String → Bool) (stores : Stores)
    (path : String) : stores.Shrinks (stores.forget addressed path) :=
  ⟨List.filter_subset_self _, List.Subset.refl _, rfl⟩

/-- A key is deleted. -/
theorem Stores.shrinks_removeKey (stores : Stores) (item : KeyItem) :
    stores.Shrinks (stores.removeKey item) :=
  ⟨List.Subset.refl _, List.filter_subset_self _, rfl⟩

/-- A client that the relay takes the path for is forgotten. -/
theorem Stores.forgotten_forget {addressed : String → String → Bool} {path clientId : String}
    (h : addressed path clientId = true) (stores : Stores) :
    (stores.forget addressed path).Forgotten clientId := by
  intro hmem
  have hkept := (List.mem_filter.mp hmem).2
  simp [h] at hkept

/-- What was deleted is not there. -/
theorem Stores.notMem_removeKey (stores : Stores) (item : KeyItem) :
    item ∉ (stores.removeKey item).keychain := by
  intro hmem
  simpa using (List.mem_filter.mp hmem).2

section Operations

variable {library : SigningLibrary} {segment : String → String}
  {addressed : String → String → Bool} {attempt : Attempt} {P : Stores → Prop}
  {E : UnenrollError → Stores → Prop}

/-- What an operation meets, the clients that the relay drops meanwhile included. -/
theorem meeting_triple {β : Type} {met : ℕ → β} {T : β → Prop} (hP : Enduring P)
    (hT : ∀ operations, attempt.Clean → T (met operations)) :
    Effect.Triple P (Effect.ask fun stores =>
        (met stores.operations, stores.next (attempt.drops stores.operations)))
      (fun b stores => P stores ∧ (attempt.Clean → T b)) E :=
  Effect.Triple.ask fun stores hstores => ⟨hP _ _ (stores.shrinks_next _) hstores, hT _⟩

/-- An effect that may have taken place before a failure. -/
theorem effect_triple {p : Prop} {effect : Stores → Stores} {afterEffect : Bool}
    (heffect : ∀ stores, P stores → P (effect stores)) (hp : ¬p) :
    Effect.Triple (fun stores => P stores ∧ (attempt.Clean → p))
      (Effect.change fun stores => if afterEffect then effect stores else stores)
      (fun _ stores => P stores ∧ ¬attempt.Clean) E := by
  refine Effect.Triple.change fun stores hstores => ⟨?_, fun hclean => hp (hstores.2 hclean)⟩
  cases afterEffect
  · exact hstores.1
  · exact heffect _ hstores.1

/-- An operation keeps an enduring condition. -/
theorem storeOperation_triple {error : UnenrollError} (hP : Enduring P)
    (hE : ¬attempt.Clean → ∀ stores, P stores → E error stores) :
    Effect.Triple P (storeOperation attempt error) (fun _ => P) E := by
  refine Effect.Triple.bind (meeting_triple (T := (· = .succeeds)) hP
    fun _ hclean => (hclean _).1) fun outcome => ?_
  refine Effect.Triple.failWhen_of (fun stores hstores _ => hstores.1) ?_
  intro stores hstores hfails
  exact hE (fun hclean => hfails (hstores.2 hclean)) stores hstores.1

/-- A deletion that does not fail had its effect; a condition that its effect keeps holds in any
case. -/
theorem storeDelete_triple {found : Stores → Bool} {remove : Stores → Stores}
    {R : Stores → Prop} (hP : Enduring P) (hremove : ∀ stores, P stores → P (remove stores))
    (hremoved : ∀ stores, R (remove stores)) :
    Effect.Triple P (storeDelete attempt found remove) (fun removal stores => P stores ∧
      (removal ≠ .failed → R stores) ∧ (attempt.Clean → removal ≠ .failed)) E := by
  refine Effect.Triple.bind (meeting_triple (T := (· = .succeeds)) hP
    fun _ hclean => (hclean _).1) fun outcome => ?_
  refine Effect.Triple.bind (Q := fun _ stores => P stores ∧
    (attempt.Clean → outcome = .succeeds)) (Effect.Triple.read fun _ h => h) fun isThere => ?_
  cases outcome with
  | succeeds =>
    refine Effect.Triple.bind (Q := fun _ stores => P stores ∧ R stores) ?_ fun _ => ?_
    · exact Effect.Triple.change fun stores hstores => ⟨hremove _ hstores.1, hremoved _⟩
    · refine Effect.Triple.ret fun stores hstores => ⟨hstores.1, fun _ => hstores.2, fun _ => ?_⟩
      cases isThere <;> simp
  | fails afterEffect =>
    refine Effect.Triple.bind (effect_triple hremove (by simp)) fun _ => ?_
    exact Effect.Triple.ret fun stores hstores =>
      ⟨hstores.1, fun hne => absurd rfl hne, fun hclean => absurd hclean hstores.2⟩

/-- A deletion that finds nothing to delete has succeeded too. -/
theorem deleted_triple {error : UnenrollError} {R : Stores → Prop} (removal : Removal)
    (hE : ¬attempt.Clean → ∀ stores, P stores → E error stores) :
    Effect.Triple (fun stores => P stores ∧ (removal ≠ .failed → R stores) ∧
        (attempt.Clean → removal ≠ .failed))
      (match removal with
        | .removed | .notFound => return ()
        | .failed => Effect.fail error : Unenroll Unit)
      (fun _ stores => P stores ∧ R stores) E := by
  cases removal with
  | failed =>
    exact Effect.Triple.fail fun stores hstores =>
      hE (fun hclean => hstores.2.2 hclean rfl) _ hstores.1
  | _ => exact Effect.Triple.ret fun stores hstores => ⟨hstores.1, hstores.2.1 (by simp)⟩

/-- The statuses with which the relay reports that it does not know the client any more. -/
def Accepted (status : ℕ) : Prop := 200 ≤ status ∧ status < 300 ∨ status = 404

/-- The relay has forgotten the client if it says so. -/
theorem sendDelete_triple {path clientId : String} (haddressed : addressed path clientId = true)
    (hP : Enduring P) (hE : ¬attempt.Clean → ∀ stores, P stores → E .send stores) :
    Effect.Triple P (sendDelete addressed attempt path) (fun status stores => P stores ∧
      (Accepted status → stores.Forgotten clientId) ∧ (attempt.Clean → Accepted status)) E := by
  have hforget : ∀ stores, P stores → P (stores.forget addressed path) :=
    fun stores hstores => hP _ _ (stores.shrinks_forget addressed path) hstores
  refine Effect.Triple.bind (meeting_triple (T := (· = .answered)) hP
    fun _ hclean => (hclean _).2) fun reply => ?_
  refine Effect.Triple.bind (Q := fun _ stores => P stores ∧
    (attempt.Clean → reply = .answered)) (Effect.Triple.read fun _ h => h) fun known => ?_
  cases reply with
  | answered =>
    refine Effect.Triple.bind (Q := fun _ stores => P stores ∧ stores.Forgotten clientId) ?_
      fun _ => ?_
    · exact Effect.Triple.change fun stores hstores =>
        ⟨hforget stores hstores.1, stores.forgotten_forget haddressed⟩
    · refine Effect.Triple.ret fun stores hstores => ⟨hstores.1, fun _ => hstores.2, fun _ => ?_⟩
      cases known <;> simp [Accepted]
  | lost afterEffect =>
    refine Effect.Triple.bind (effect_triple hforget (by simp)) fun _ => ?_
    exact Effect.Triple.fail fun stores hstores => hE hstores.2 stores hstores.1
  | refused code afterEffect =>
    have hrefused : ¬Accepted code := by
      have hcode := code.2
      unfold IsRefusal at hcode
      unfold Accepted
      omega
    refine Effect.Triple.bind (effect_triple hforget (by simp)) fun _ => ?_
    exact Effect.Triple.ret fun stores hstores => ⟨hstores.1,
      fun haccepted => absurd haccepted hrefused, fun hclean => absurd hclean hstores.2⟩

/-- The loop returns a status that is accepted: what an accepted status says of the stores is true
at its end. -/
theorem sendLoop_triple {request : Unenroll ℕ} {F : Stores → Prop} (hP : Enduring P)
    (hrequest : Effect.Triple P request (fun status stores => P stores ∧
      (Accepted status → F stores) ∧ (attempt.Clean → Accepted status)) E)
    (hE : ¬attempt.Clean → ∀ error stores, P stores → E error stores)
    (refreshedAfterUnauthorized : Bool) (retryCount : ℕ) :
    Effect.Triple P (sendLoop attempt request true refreshedAfterUnauthorized retryCount)
      (fun _ stores => P stores ∧ F stores) E := by
  induction refreshedAfterUnauthorized, retryCount using sendLoop.induct with
  | case1 refreshedAfterUnauthorized retryCount ihRefresh ihRetry =>
    rw [sendLoop]
    refine Effect.Triple.bind hrequest fun status => ?_
    split_ifs with hunauthorized hretry
    · refine Effect.Triple.bind ?_ fun _ => ihRefresh status hunauthorized
      exact (storeOperation_triple hP fun hclean => hE hclean _).conseq (fun _ h => h.1)
        (fun _ _ h => h) fun _ _ h => h
    · exact (ihRetry status hretry).conseq (fun _ h => h.1) (fun _ _ h => h) fun _ _ h => h
    · refine Effect.Triple.bind (Q := fun _ stores => P stores ∧ F stores) ?_ fun _ =>
        Effect.Triple.ret fun _ h => h
      refine Effect.Triple.failWhen_of (fun stores hstores haccepted => ?_)
        fun stores hstores h => ?_
      · rw [not_not, eq_self_iff_true, true_and] at haccepted
        exact ⟨hstores.1, hstores.2.1 haccepted⟩
      · rw [eq_self_iff_true, true_and] at h
        exact hE (fun hclean => h (hstores.2.2 hclean)) _ _ hstores.1

/-- The client is forgotten, unless it has no ID. -/
theorem revokeClient_triple {clientId : String}
    (haddressed : addressed (segment clientId) clientId = true) (hP : Enduring P)
    (hempty : Text.trim clientId = "" → ∀ stores, P stores → E .emptyClientId stores)
    (hE : ¬attempt.Clean → ∀ error stores, P stores → E error stores) :
    Effect.Triple P (revokeClient segment addressed attempt clientId)
      (fun _ stores => P stores ∧ stores.Forgotten clientId) E := by
  refine Effect.Triple.bind (Q := fun path stores => path = segment clientId ∧ P stores) ?_
    fun path => Effect.Triple.of_fact fun hpath => ?_
  · refine Effect.Triple.lift (fun path hpath stores hstores => ?_)
      fun error herror stores hstores => ?_
    · obtain ⟨_, -, h⟩ := bind_eq_ok_iff.mp hpath
      exact ⟨(pure_eq_ok_iff.mp h).symm, hstores⟩
    · by_cases hblank : Text.trim clientId = ""
      · rw [clientRevocationPath, bailWhen, if_pos hblank] at herror
        obtain rfl : UnenrollError.emptyClientId = error := Except.error.inj herror
        exact hempty hblank stores hstores
      · rw [clientRevocationPath, bailWhen, if_neg hblank] at herror
        contradiction
  · subst hpath
    refine Effect.Triple.bind ?_ fun _ => Effect.Triple.ret fun _ h => h
    refine Effect.Triple.bind (storeOperation_triple hP fun hclean => hE hclean _) fun _ => ?_
    exact sendLoop_triple hP (sendDelete_triple haddressed hP fun hclean => hE hclean _) hE _ _

/-- The keys of a class are gone. -/
theorem deleteKeyClass_triple {keyId : String} {item : KeyItem} (hP : Enduring P)
    (hE : ¬attempt.Clean → ∀ error stores, P stores → E error stores) :
    Effect.Triple P (deleteKeyClass attempt keyId item)
      (fun _ stores => P stores ∧ item ∉ stores.keychain) E := by
  refine Effect.Triple.bind (storeDelete_triple (R := fun stores => item ∉ stores.keychain) hP
    (fun stores hstores => hP _ _ (stores.shrinks_removeKey item) hstores)
    fun stores => stores.notMem_removeKey item) fun removal => ?_
  exact deleted_triple removal fun hclean => hE hclean _

/-- Both keys are gone, unless the ID of the key has no label. -/
theorem deleteDeviceKey_triple {keyId : String} (hP : Enduring P)
    (hlabel : ∀ error, applicationLabel library keyId = .error error →
      ∀ stores, P stores → E (.deletion error) stores)
    (hE : ¬attempt.Clean → ∀ error stores, P stores → E error stores) :
    Effect.Triple P (deleteDeviceKey library attempt keyId) (fun _ stores => P stores ∧
      ∀ keyClass label, applicationLabel library keyId = .ok label →
        ⟨keyClass, label⟩ ∉ stores.keychain) E := by
  refine Effect.Triple.bind
    (Q := fun label stores => applicationLabel library keyId = .ok label ∧ P stores) ?_
    fun label => Effect.Triple.of_fact fun hok => ?_
  · refine Effect.Triple.lift (fun label h stores hstores => ⟨mapError_eq_ok_iff.mp h, hstores⟩) ?_
    intro error h stores hstores
    cases hresult : applicationLabel library keyId with
    | ok label => simp [hresult, Except.mapError] at h
    | error e =>
      rw [hresult] at h
      obtain rfl : UnenrollError.deletion e = error := Except.error.inj h
      exact hlabel e hresult stores hstores
  · refine Effect.Triple.bind (deleteKeyClass_triple hP hE) fun _ => ?_
    refine (deleteKeyClass_triple (hP.and (enduring_notMem _)) fun hclean error stores hstores =>
      hE hclean error stores hstores.1).conseq (fun _ h => h) (fun _ stores hstores => ?_)
      fun _ _ h => h
    obtain ⟨⟨hP, hprivate⟩, hpublic⟩ := hstores
    refine ⟨hP, fun keyClass label' hlabel' => ?_⟩
    obtain rfl := Except.ok.inj (hok.symm.trans hlabel')
    cases keyClass
    · exact hprivate
    · exact hpublic

end Operations

/-! ### An attempt -/

/-- Nothing of the enrollment is left at the relay and in the Keychain. -/
structure Stores.Gone (library : SigningLibrary) (enrollment : EnrollmentRecord)
    (stores : Stores) : Prop where
  /-- The relay does not know the client. -/
  client : stores.Forgotten enrollment.clientId
  /-- The keys are not there. -/
  keys : ∀ keyClass label, applicationLabel library enrollment.keyId = .ok label →
    ⟨keyClass, label⟩ ∉ stores.keychain

/-- The state file is there, or nothing is left of the enrollment. -/
def Stores.Safe (library : SigningLibrary) (state : ControllerState) (stores : Stores) : Prop :=
  stores.stateFile = some state ∨
    stores.stateFile = none ∧ stores.Gone library state.enrollment

/-- Without the state file nothing is left. -/
theorem Stores.Safe.gone {library : SigningLibrary} {state : ControllerState} {stores : Stores}
    (h : stores.Safe library state) (hnone : stores.stateFile = none) :
    stores.Gone library state.enrollment := by
  rcases h with hstate | ⟨-, hgone⟩
  · rw [hnone] at hstate
    contradiction
  · exact hgone

/-- An enrollment that can be revoked: the client has an ID and the key a label. -/
def EnrollmentRecord.Revocable (library : SigningLibrary) (enrollment : EnrollmentRecord) : Prop :=
  Text.trim enrollment.clientId ≠ "" ∧
    ∃ label, applicationLabel library enrollment.keyId = .ok label

/-- The relay takes the path that is made of the client's ID for this client. -/
def EnrollmentRecord.IsAddressed (segment : String → String) (addressed : String → String → Bool)
    (enrollment : EnrollmentRecord) : Prop :=
  addressed (segment enrollment.clientId) enrollment.clientId = true

section Attempts

variable {library : SigningLibrary} {segment : String → String}
  {addressed : String → String → Bool} {attempt : Attempt} {state : ControllerState}

/-- What is gone stays so. -/
theorem enduring_gone (enrollment : EnrollmentRecord) :
    Enduring (Stores.Gone library enrollment) :=
  fun _ _ h hgone => ⟨enduring_forgotten _ _ _ h hgone.client, fun keyClass label hlabel =>
    enduring_notMem _ _ _ h (hgone.keys keyClass label hlabel)⟩

/-- A safe state stays safe. -/
theorem enduring_safe : Enduring (Stores.Safe library state) := by
  intro before after h hsafe
  rw [Stores.Safe, h.stateFile]
  exact hsafe.imp_right fun hgone => ⟨hgone.1, enduring_gone _ _ _ h hgone.2⟩

/-- Reading the state file. -/
theorem loadControllerState_triple {E : UnenrollError → Stores → Prop}
    (hE : ¬attempt.Clean → ∀ error stores, stores.stateFile = some state → E error stores) :
    Effect.Triple (fun stores => stores.stateFile = some state) (loadControllerState attempt)
      (fun loaded stores => loaded = state ∧ stores.stateFile = some state) E := by
  refine Effect.Triple.bind (storeOperation_triple (enduring_stateFile (· = some state))
    fun hclean => hE hclean _) fun _ => ?_
  refine Effect.Triple.bind (Q := fun stateFile stores => stateFile = some state ∧
    stores.stateFile = some state) (Effect.Triple.read fun _ h => ⟨h, h⟩) fun stateFile =>
      Effect.Triple.of_fact fun hstateFile => ?_
  subst hstateFile
  exact Effect.Triple.ret fun _ h => ⟨rfl, h⟩

/-- Removing the state file. -/
theorem deleteControllerState_triple {E : UnenrollError → Stores → Prop}
    (hE : ¬attempt.Clean → ∀ error stores, stores.Safe library state → E error stores) :
    Effect.Triple (fun stores => stores.Safe library state ∧
        stores.Gone library state.enrollment) (deleteControllerState attempt)
      (fun _ stores => stores.stateFile = none ∧ stores.Gone library state.enrollment)
      E := by
  refine Effect.Triple.bind (storeDelete_triple (R := fun stores => stores.stateFile = none)
    (enduring_safe.and (enduring_gone _)) (fun stores hstores => ?_) fun _ => rfl) fun removal => ?_
  · have hgone : Stores.Gone library state.enrollment { stores with stateFile := none } :=
      ⟨hstores.2.client, hstores.2.keys⟩
    exact ⟨Or.inr ⟨rfl, hgone⟩, hgone⟩
  · exact (deleted_triple removal fun hclean stores hstores => hE hclean _ stores hstores.1).conseq
      (fun _ h => h) (fun _ _ h => ⟨h.2, h.1.2⟩) fun _ _ h => h

/-- An attempt that finds the state file returns when nothing is left, and it fails only if an
operation does or the enrollment cannot be revoked. -/
theorem unenroll_triple (haddressed : state.enrollment.IsAddressed segment addressed) :
    Effect.Triple (fun stores => stores.stateFile = some state)
      (unenroll library segment addressed attempt)
      (fun _ stores => stores.stateFile = none ∧ stores.Gone library state.enrollment)
      fun _ stores => stores.Safe library state ∧
        ¬(attempt.Clean ∧ state.enrollment.Revocable library) := by
  have hfile : Enduring fun stores => stores.stateFile = some state :=
    enduring_stateFile (· = some state)
  refine Effect.Triple.bind (loadControllerState_triple fun hclean _ stores hstores =>
    ⟨Or.inl hstores, fun h => hclean h.1⟩) fun loaded => Effect.Triple.of_fact fun hloaded => ?_
  subst hloaded
  refine Effect.Triple.bind (revokeClient_triple haddressed hfile
    (fun hblank stores hstores => ⟨Or.inl hstores, fun h => h.2.1 hblank⟩)
    fun hclean _ stores hstores => ⟨Or.inl hstores, fun h => hclean h.1⟩) fun _ => ?_
  refine Effect.Triple.bind (deleteDeviceKey_triple (hfile.and (enduring_forgotten _))
    (fun error herror stores hstores => ⟨Or.inl hstores.1, fun h => ?_⟩)
    fun hclean _ stores hstores => ⟨Or.inl hstores.1, fun h => hclean h.1⟩) fun _ => ?_
  · obtain ⟨label, hlabel⟩ := h.2.2
    rw [hlabel] at herror
    contradiction
  · refine (deleteControllerState_triple fun hclean _ stores hsafe =>
      ⟨hsafe, fun h => hclean h.1⟩).conseq (fun stores hstores => ?_) (fun _ _ h => h)
      fun _ _ h => h
    exact ⟨Or.inl hstores.1.1, hstores.1.2, hstores.2⟩

/-- An attempt without a state file fails and changes nothing. -/
theorem unenroll_triple_of_none {P : Stores → Prop} (hP : Enduring P) :
    Effect.Triple (fun stores => stores.stateFile = none ∧ P stores)
      (unenroll library segment addressed attempt) (fun _ _ => False)
      fun _ stores => stores.stateFile = none ∧ P stores := by
  have hboth := (enduring_stateFile (· = none)).and hP
  refine Effect.Triple.bind (Q := fun _ _ => False) ?_ fun _ => Effect.Triple.of_false
  refine Effect.Triple.bind (storeOperation_triple hboth fun _ _ h => h) fun _ => ?_
  refine Effect.Triple.bind (Q := fun stateFile stores => stateFile = none ∧
    stores.stateFile = none ∧ P stores) (Effect.Triple.read fun _ h => ⟨h.1, h⟩) fun stateFile =>
      Effect.Triple.of_fact fun hstateFile => ?_
  subst hstateFile
  exact Effect.Triple.fail fun _ h => h

/-- What one attempt keeps, and what it ends with. -/
theorem unenrollStep_cases (haddressed : state.enrollment.IsAddressed segment addressed)
    {stores : Stores} (h : stores.Safe library state) (attempt : Attempt) :
    let ended := unenrollStep library segment addressed stores attempt
    ended.2.Safe library state ∧ (ended.1 = .ok () → ended.2.stateFile = none) ∧
      (attempt.Clean → state.enrollment.Revocable library → ended.2.stateFile = none ∧
        (stores.stateFile = some state → ended.1 = .ok ())) := by
  rcases h with hstate | ⟨hnone, hgone⟩
  · have htriple := @unenroll_triple library segment addressed attempt state haddressed
    obtain ⟨⟨⟩, after, hended, hgone⟩ | ⟨error, after, hended, hsafe, hnot⟩ :=
      htriple.ends (s := { stores with operations := 0 }) hstate
    · rw [unenrollStep, hended]
      exact ⟨Or.inr hgone, fun _ => hgone.1, fun _ _ => ⟨hgone.1, fun _ => rfl⟩⟩
    · rw [unenrollStep, hended]
      exact ⟨hsafe, by simp, fun hclean hrevocable => absurd ⟨hclean, hrevocable⟩ hnot⟩
  · have htriple := @unenroll_triple_of_none library segment addressed attempt _
      (@enduring_gone library state.enrollment)
    obtain ⟨_, _, -, hfalse⟩ | ⟨error, after, hended, hnone', hgone'⟩ :=
      htriple.ends (s := { stores with operations := 0 }) ⟨hnone, hgone.client, hgone.keys⟩
    · exact hfalse.elim
    · rw [unenrollStep, hended]
      refine ⟨Or.inr ⟨hnone', hgone'⟩, by simp, fun _ _ => ⟨hnone', fun hstate => ?_⟩⟩
      rw [hnone] at hstate
      contradiction

end Attempts

/-- For all attempts at an enrollment whose client the relay is asked for, whatever fails or stops
in them: the state file is there as long as anything of the enrollment is left, and an attempt that
returns leaves nothing.  So does one whose operations do not fail, and it returns if it finds the
state file. -/
theorem unenroll_retries (library : SigningLibrary) (segment : String → String)
    (addressed : String → String → Bool) (state : ControllerState)
    (haddressed : state.enrollment.IsAddressed segment addressed) (stores : Stores)
    (hstate : stores.stateFile = some state) (attempts : List Attempt) :
    let reached := Machine.final (unenrollStep library segment addressed) stores attempts
    reached.Safe library state ∧
    ∀ attempt : Attempt,
      let ended := unenrollStep library segment addressed reached attempt
      (ended.1 = .ok () → ended.2.stateFile = none ∧ ended.2.Gone library state.enrollment) ∧
      (attempt.Clean → state.enrollment.Revocable library →
        ended.2.stateFile = none ∧ ended.2.Gone library state.enrollment ∧
        (reached.stateFile = some state → ended.1 = .ok ())) := by
  intro reached
  have hreached : reached.Safe library state :=
    Machine.final_induction (P := Stores.Safe library state) _
      (fun _ attempt hsafe => (unenrollStep_cases haddressed hsafe attempt).1) (Or.inl hstate)
      attempts
  refine ⟨hreached, fun attempt => ?_⟩
  obtain ⟨hsafe, hreturns, hclean⟩ := unenrollStep_cases haddressed hreached attempt
  refine ⟨fun hok => ⟨hreturns hok, hsafe.gone (hreturns hok)⟩, fun h hrevocable => ?_⟩
  obtain ⟨hnone, hok⟩ := hclean h hrevocable
  exact ⟨hnone, hsafe.gone hnone, hok⟩

/-- The enrollment of a controller. -/
def controllerRecord : EnrollmentRecord where
  accountUserId := "account-user"
  algorithm := "ecdsa_p256_sha256"
  clientId := "client"
  keyId := "rcodex_osn_" ++ zeroLabelText
  protectionClass := "os_protected_nonextractable"
  publicKeySpkiDerBase64 := ""

/-- The stores of this controller. -/
def controllerStores : Stores where
  registered := ["client"]
  keychain := [⟨.privateKey, zeroLabel⟩, ⟨.publicKey, zeroLabel⟩]
  stateFile := some ⟨controllerRecord⟩
  operations := 0

/-- An attempt in which the process ends after the operation with this number. -/
def endingAfter (operation : ℕ) : Attempt :=
  ⟨fun n => if n = operation then .fails true else .succeeds, fun _ => .answered, fun _ => []⟩

/-- The path of a client whose ID needs no encoding. -/
def plainSegment (clientId : String) : String := "/wham/remote/control/clients/" ++ clientId

/-- A relay that takes such a path for its client. -/
def plainAddressed (path clientId : String) : Bool := plainSegment clientId = path

/-- After an attempt that has only revoked the client and deleted the private key, the next one
leaves nothing. -/
theorem unenroll_retries_controllerStores :
    let step := unenrollStep keyLibrary plainSegment plainAddressed
    (step (Machine.final step controllerStores [endingAfter 3])
      ⟨fun _ => .succeeds, fun _ => .answered, fun _ => []⟩).2.stateFile = none := by
  have hlabel : applicationLabel keyLibrary ("rcodex_osn_" ++ zeroLabelText) = .ok zeroLabel := by
    decide +kernel
  have hclient : Text.trim "client" ≠ "" := by decide +kernel
  exact (((unenroll_retries keyLibrary plainSegment plainAddressed ⟨controllerRecord⟩
    (decide_eq_true rfl) controllerStores rfl [endingAfter 3]).2
    ⟨fun _ => .succeeds, fun _ => .answered, fun _ => []⟩).2 (fun _ => ⟨rfl, rfl⟩)
      ⟨hclient, zeroLabel, hlabel⟩).1

end Rcodex
