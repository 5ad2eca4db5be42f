import Rcodex.Identity.Enroll

/-!
# Keys that an enrollment leaves behind

A failed enrollment deletes the key it has created if it knows the ID of the key, that is, if
`createKey` has returned it.  `EnrollOutside.Traceable` says when that is so;
`leavesNoOrphan_iff` shows that exactly then no outcome leaves a private key behind.
-/

namespace Rcodex

open Json Result Effect

/-- A private key of this call is in the Keychain, and no deletion has reported a failure. -/
def Device.Orphaned (device : Device) : Prop :=
  device.deletionFailed = false ∧ ∃ item ∈ device.created, item.keyClass = .privateKey

/-- The state names a private key of this call. -/
def Device.Names (library : SigningLibrary) (device : Device) (state : ControllerState) : Prop :=
  ∃ label, ⟨.privateKey, label⟩ ∈ device.created ∧ state.enrollment.keyId = keyIdOf library label

/-- An enrollment on this device leaves no private key behind if it fails, and leaves the state file
as it was; if it returns, the state file names a key that exists. -/
structure LeavesNoOrphan (library : SigningLibrary) (outside : EnrollOutside) (device : Device) :
    Prop where
  /-- After an error no private key of this call is left, unless a deletion has failed, and the
  state file is as it was. -/
  error : ∀ error after, enroll library outside device = (.error error, after) →
    ¬after.Orphaned ∧ after.stateFile = device.stateFile
  /-- After a success the state file names a key that exists. -/
  ok : ∀ enrolled after, enroll library outside device = (.ok enrolled, after) →
    ∃ state, after.stateFile = some state ∧ after.Names library state

/-- A point that is written without compression. -/
def IsUncompressed (point : List UInt8) : Prop := point.length = 65 ∧ point.head? = some 0x04

/-- The access policy for the new key is created. -/
def EnrollOutside.GrantsAccess (outside : EnrollOutside) : Prop :=
  outside.succeeds .trustBinary = true ∧ outside.succeeds .trustedList = true ∧
    outside.succeeds .accessPolicy = true

/-- The relay starts an enrollment of this user, on a device that is not enrolled. -/
def EnrollOutside.Starts (outside : EnrollOutside) (device : Device) : Prop :=
  device.stateFile = none ∧ ∃ auth start, outside.auth = some auth ∧ outside.start = some start ∧
    (auth.MatchesRelayAccountUserId start.accountUserId ∧
      start.deviceKeyChallenge.accountUserId = start.accountUserId ∧
      start.deviceKeyChallenge.clientId = start.clientId) ∧
    outside.startedAt < start.deviceKeyChallenge.challengeExpiresAt

/-- If a pair is created, both halves are returned; and if the private key cannot be exported, its
application label can be read and has 20 bytes, and the public key is exported as an uncompressed
point. -/
def EnrollOutside.Traceable (outside : EnrollOutside) : Prop :=
  ∀ label ∈ outside.createdLabel,
    outside.succeeds .publicRef = true ∧ outside.succeeds .privateRef = true ∧
      (outside.exported = none → outside.succeeds .readLabel = true ∧
        (∃ point ∈ outside.publicPoint, IsUncompressed point) ∧ label.length = 20)

variable {library : SigningLibrary} {outside : EnrollOutside} {device : Device}

/-! ### The Keychain -/

/-- A step that may fail. -/
theorem enrollStep_triple {step : EnrollStep} {error : EnrollError} {P : Device → Prop}
    {E : EnrollError → Device → Prop}
    (h : ∀ d, P d → outside.succeeds step = false → E error d) :
    Triple P (enrollStep outside step error)
      (fun _ d => P d ∧ outside.succeeds step = true) E :=
  Triple.failWhen_of (fun _ hd hstep => ⟨hd, by simpa using hstep⟩) h

/-- A step that may fail without consequences. -/
theorem enrollStep_keeps {step : EnrollStep} {error : EnrollError} {P : Device → Prop}
    {E : EnrollError → Device → Prop} (h : ∀ d, P d → E error d) :
    Triple P (enrollStep outside step error) (fun _ => P) E :=
  Triple.failWhen_keeps h

/-- No policy, no access. -/
theorem promptFreeAccess_triple :
    Triple (· = device) (promptFreeAccessForCurrentBinary outside)
      (fun _ d => outside.GrantsAccess ∧ d = device)
      (fun _ d => ¬outside.GrantsAccess ∧ d = device) := by
  have hno : ∀ {step}, (outside.GrantsAccess → outside.succeeds step = true) →
      outside.succeeds step = false → ¬outside.GrantsAccess := by
    intro step himp hstep haccess
    rw [himp haccess] at hstep
    contradiction
  refine Triple.bind (enrollStep_triple fun d hd hstep => ⟨hno (·.1) hstep, hd⟩) fun _ => ?_
  refine Triple.bind (enrollStep_triple fun d hd hstep => ⟨hno (·.2.1) hstep, hd.1⟩) fun _ => ?_
  refine (enrollStep_triple fun d hd hstep => ⟨hno (·.2.2) hstep, hd.1.1⟩).conseq (fun _ hd => hd)
    (fun _ d hd => ⟨⟨hd.1.1.2, hd.1.2, hd.2⟩, hd.1.1.1⟩) fun _ _ hd => hd

/-- A deletion that succeeds or reports a failure. -/
theorem keychainDelete_triple {step : EnrollStep} {remove : Device → Device} {error : EnrollError}
    {P Q : Device → Prop} {E : EnrollError → Device → Prop} (hok : ∀ d, P d → Q (remove d))
    (herror : ∀ d, P d → E error { d with deletionFailed := true }) :
    Triple P (keychainDelete outside step remove error) (fun _ => Q) E := by
  refine Triple.bind (Triple.change (R := fun _ d => if outside.succeeds step = true then Q d
    else E error d) fun d hd => ?_) fun _ => ?_
  · by_cases hstep : outside.succeeds step = true
    · simpa only [if_pos hstep] using hok d hd
    · simpa only [if_neg hstep] using herror d hd
  · refine Triple.failWhen_of (fun d hd hstep => ?_) fun d hd hstep => ?_
    · rwa [if_pos (by simpa using hstep)] at hd
    · rwa [if_neg (by simp [hstep])] at hd

/-- Nothing is left behind, and the state file is this. -/
def Settled (stateFile : Option ControllerState) (device : Device) : Prop :=
  ¬device.Orphaned ∧ device.stateFile = stateFile

variable {stateFile : Option ControllerState}

/-- A failure has been reported. -/
theorem settled_of_failed {d : Device} (h : d.stateFile = stateFile) :
    Settled stateFile { d with deletionFailed := true } :=
  ⟨fun horphaned => Bool.noConfusion horphaned.1, h⟩

/-- A device with fewer keys of this call. -/
theorem Settled.of_subset {d d' : Device} (h : Settled stateFile d)
    (hcreated : d'.created ⊆ d.created) (hfailed : d'.deletionFailed = d.deletionFailed)
    (hstate : d'.stateFile = d.stateFile) : Settled stateFile d' := by
  refine ⟨fun horphaned => h.1 ?_, hstate.trans h.2⟩
  obtain ⟨hfalse, item, hitem, hprivate⟩ := horphaned
  exact ⟨hfailed ▸ hfalse, item, hcreated hitem, hprivate⟩

/-- Deleting the private key of this call. -/
theorem settled_removeCreated {d : Device} (h : d.stateFile = stateFile) :
    Settled stateFile (d.removeCreated .privateKey) := by
  refine ⟨fun horphaned => ?_, h⟩
  obtain ⟨-, item, hitem, hprivate⟩ := horphaned
  have hne := (List.mem_filter.mp hitem).2
  simp [hprivate] at hne

/-- Deleting the private key with the label of the pair. -/
theorem settled_removeLabel {d : Device} {label : List UInt8}
    (hcreated : d.created = [⟨.privateKey, label⟩, ⟨.publicKey, label⟩])
    (h : d.stateFile = stateFile) : Settled stateFile (d.removeLabel .privateKey label) := by
  refine ⟨fun horphaned => ?_, h⟩
  obtain ⟨-, item, hitem, hprivate⟩ := horphaned
  obtain ⟨hmem, hne⟩ := List.mem_filter.mp hitem
  rw [hcreated] at hmem
  rcases List.mem_pair.mp hmem with rfl | rfl
  · simp at hne
  · contradiction

/-- A pair whose private key can be exported is refused, and nothing is left behind. -/
theorem refusePair_triple {exported : List UInt8} :
    Triple (fun d => d.stateFile = stateFile) (refusePair outside exported) (fun _ _ => False)
      (fun _ => Settled stateFile) := by
  have hkeeps : ∀ d, Settled stateFile d → Settled stateFile (d.removeCreated .publicKey) :=
    fun d hd => hd.of_subset List.filter_sublist.subset rfl rfl
  refine Triple.bind (Triple.attempt_keeps (S := Settled stateFile) ?_) fun _ => ?_
  · exact keychainDelete_triple (fun d => settled_removeCreated) fun d => settled_of_failed
  refine Triple.bind (Triple.attempt_keeps (S := Settled stateFile) ?_) fun _ => ?_
  · exact keychainDelete_triple hkeeps fun d hd => settled_of_failed hd.2
  exact Triple.fail fun _ hd => hd

/-! ### Creating the key -/

/-- The label can be read and the public key can be exported. -/
def EnrollOutside.Describes (outside : EnrollOutside) : Prop :=
  outside.succeeds .readLabel = true ∧ ∃ point ∈ outside.publicPoint, IsUncompressed point

/-- Only an uncompressed point has a DER form. -/
theorem p256X963ToSpkiDer_eq_ok_iff {point der : List UInt8} :
    p256X963ToSpkiDer point = .ok der ↔ IsUncompressed point ∧ p256SpkiPrefix ++ point = der := by
  simp only [p256X963ToSpkiDer, bind_eq_ok_iff, bailWhen_eq_ok_iff, pure_eq_ok_iff, not_or, not_not,
    IsUncompressed, exists_const]

/-- A pair is described if its label can be read and its public key exported. -/
theorem describePair_triple {label : List UInt8} {d₀ : Device} :
    Triple (· = d₀) (describePair library outside label)
      (fun identity d => d = d₀ ∧ outside.Describes ∧ identity.keyId = keyIdOf library label)
      (fun _ d => d = d₀ ∧ ¬outside.Describes) := by
  refine Triple.bind (enrollStep_triple fun d hd hstep => ⟨hd, fun h => ?_⟩) fun _ => ?_
  · rw [h.1] at hstep
    contradiction
  refine Triple.bind (Q := fun point d => (d = d₀ ∧ outside.succeeds .readLabel = true) ∧
    outside.publicPoint = some point) (Triple.lift (fun point hpoint d hd =>
      ⟨hd, context_eq_ok_iff.mp hpoint⟩) fun e he d hd => ⟨hd.1, fun h => ?_⟩) fun point => ?_
  · obtain ⟨point, hpoint, -⟩ := h.2
    rw [Option.mem_def.mp hpoint] at he
    contradiction
  refine Triple.bind (Q := fun _ d => d = d₀ ∧ outside.Describes) (Triple.lift
    (fun der hder d hd => ⟨hd.1.1, hd.1.2, point, hd.2, (p256X963ToSpkiDer_eq_ok_iff.mp hder).1⟩)
    fun e he d hd => ⟨hd.1.1, fun h => ?_⟩) fun der => ?_
  · obtain ⟨point', hpoint', hvalid⟩ := h.2
    obtain rfl := Option.some.inj (hd.2.symm.trans hpoint')
    rw [p256X963ToSpkiDer_eq_ok_iff.mpr ⟨hvalid, rfl⟩] at he
    contradiction
  exact Triple.ret fun d hd => ⟨hd.1, hd.2, rfl⟩

/-- What must be known of the pair that was created. -/
theorem traceable_iff {label : List UInt8} (hlabel : outside.createdLabel = some label) :
    outside.Traceable ↔ outside.succeeds .publicRef = true ∧ outside.succeeds .privateRef = true ∧
      (outside.exported = none → outside.Describes ∧ label.length = 20) := by
  simp only [EnrollOutside.Traceable, EnrollOutside.Describes, hlabel, Option.mem_def,
    Option.some.injEq, forall_eq', and_assoc]

/-- Without keys of this call there is nothing to leave behind. -/
theorem not_orphaned (hcreated : device.created = []) : ¬device.Orphaned := by
  intro h
  obtain ⟨-, item, hitem, -⟩ := h
  rw [hcreated] at hitem
  contradiction

/-- The pair is in the Keychain, and nothing has failed. -/
theorem orphaned_withPair (hfailed : device.deletionFailed = false) (label : List UInt8) :
    (device.withPair label).Orphaned :=
  ⟨hfailed, ⟨.privateKey, label⟩, List.mem_cons_self, rfl⟩

/-- The creation of a key ends with a key that can be found again, or fails; then a private key is
left behind exactly if the pair is not traceable. -/
theorem createKey_triple (hcreated : device.created = [])
    (hfailed : device.deletionFailed = false) :
    Triple (· = device) (createKey library outside)
      (fun identity d => outside.GrantsAccess ∧ ∃ label, (identity.keyId = keyIdOf library label ∧
        (outside.Traceable ↔ label.length = 20)) ∧ d = device.withPair label)
      (fun _ d => d.stateFile = device.stateFile ∧
        (d.Orphaned ↔ outside.GrantsAccess ∧ ¬outside.Traceable)) := by
  refine Triple.bind (promptFreeAccess_triple.conseq (fun _ hd => hd) (fun _ _ hd => hd) ?_)
    fun _ => Triple.of_fact fun haccess => ?_
  · intro _ _ h
    obtain ⟨hno, rfl⟩ := h
    exact ⟨rfl, iff_of_false (not_orphaned hcreated) fun h => hno h.1⟩
  refine Triple.bind (Q := fun label d => outside.createdLabel = some label ∧ d = device)
    (Triple.lift (fun label h d hd => ⟨context_eq_ok_iff.mp h, hd⟩) ?_)
    fun label => Triple.of_fact fun hlabel => ?_
  · rintro e he d rfl
    have hnone : outside.createdLabel = none := by
      cases hlabel : outside.createdLabel with
      | none => rfl
      | some label => simp [hlabel, context] at he
    refine ⟨rfl, iff_of_false (not_orphaned hcreated) fun h => h.2 fun label hmem => ?_⟩
    rw [hnone] at hmem
    contradiction
  have hpair := orphaned_withPair hfailed label
  refine Triple.bind (Triple.change (R := fun _ d => d = device.withPair label)
    fun d hd => by rw [hd]) fun _ => ?_
  refine Triple.bind (Triple.failWhen_of (R := fun _ d => (outside.succeeds .publicRef = true ∧
    outside.succeeds .privateRef = true) ∧ d = device.withPair label)
      (fun d hd hrefs => ⟨by simpa using hrefs, hd⟩) ?_) fun _ => Triple.of_fact fun hrefs => ?_
  · intro d heq hrefs
    obtain rfl := heq
    refine ⟨rfl, iff_of_true hpair ⟨haccess, fun htrace => ?_⟩⟩
    obtain ⟨hpublic, hprivate, -⟩ := (traceable_iff hlabel).mp htrace
    simp [hpublic, hprivate] at hrefs
  cases hexported : outside.exported with
  | some exported =>
    refine Triple.conseq (P := fun d => d.stateFile = device.stateFile) refusePair_triple ?_
      (fun _ _ => False.elim) fun _ d hd => ?_
    · rintro d rfl
      rfl
    · refine ⟨hd.2, iff_of_false hd.1 fun h => h.2 ((traceable_iff hlabel).mpr ?_)⟩
      exact ⟨hrefs.1, hrefs.2, fun hnone => by rw [hexported] at hnone; cases hnone⟩
  | none =>
    refine describePair_triple.conseq (fun _ hd => hd) ?_ ?_
    · intro identity d h
      obtain ⟨rfl, hdescribes, hkey⟩ := h
      refine ⟨haccess, label, ⟨hkey, (traceable_iff hlabel).trans ?_⟩, rfl⟩
      exact ⟨fun h => (h.2.2 hexported).2, fun h => ⟨hrefs.1, hrefs.2, fun _ => ⟨hdescribes, h⟩⟩⟩
    · intro e d h
      obtain ⟨rfl, hdescribes⟩ := h
      refine ⟨rfl, iff_of_true hpair ⟨haccess, fun htrace => hdescribes ?_⟩⟩
      exact (((traceable_iff hlabel).mp htrace).2.2 hexported).1

/-! ### After the key was created -/

/-- The Keychain and the state file are as they were. -/
structure Device.Keeps (before after : Device) : Prop where
  /-- The keys of this call. -/
  created : after.created = before.created
  /-- The state file. -/
  stateFile : after.stateFile = before.stateFile
  /-- Whether a deletion has failed. -/
  deletionFailed : after.deletionFailed = before.deletionFailed

/-- Nothing has happened. -/
theorem Device.Keeps.of_eq {before : Device} (after : Device) (h : after = before) :
    before.Keeps after := by
  subst h
  exact ⟨rfl, rfl, rfl⟩

/-- A state that is saved is in the state file; otherwise the file is as it was. -/
theorem saveControllerState_triple {state : ControllerState} {d₀ : Device} :
    Triple (· = d₀) (saveControllerState outside state)
      (fun _ d => d.stateFile = some state ∧ d.created = d₀.created) (fun _ d => d₀.Keeps d) := by
  refine Triple.bind (enrollStep_keeps Device.Keeps.of_eq) fun _ => ?_
  refine Triple.bind (enrollStep_keeps Device.Keeps.of_eq) fun _ => ?_
  refine Triple.bind (Triple.attempt (Q := fun _ d => d.stateFile = some state ∧
    d.created = d₀.created) (E := fun _ d => d₀.Keeps d) ?_) fun result => ?_
  · refine Triple.bind (enrollStep_keeps Device.Keeps.of_eq) fun _ => ?_
    refine Triple.bind (Triple.change (R := fun _ d => d₀.Keeps d)
      fun d hd => ⟨by rw [hd], by rw [hd], by rw [hd]⟩) fun _ => ?_
    refine Triple.bind (enrollStep_keeps fun _ hd => hd) fun _ => ?_
    refine Triple.bind (enrollStep_keeps fun _ hd => hd) fun _ => ?_
    refine Triple.bind (enrollStep_keeps fun _ hd => hd) fun _ => ?_
    refine Triple.bind (enrollStep_keeps fun _ hd => hd) fun _ => ?_
    refine Triple.bind (enrollStep_keeps fun _ hd => hd) fun _ => ?_
    exact Triple.change fun d hd => ⟨rfl, hd.created⟩
  · cases result with
    | ok => exact Triple.ret fun _ hd => hd
    | error e =>
      refine Triple.bind (Triple.change (R := fun _ d => d₀.Keeps d) fun d hd => ?_)
        fun _ => Triple.fail fun _ hd => hd
      split_ifs
      · exact ⟨hd.created, hd.stateFile, hd.deletionFailed⟩
      · exact hd

/-- A signature is made with a key whose ID has a label. -/
theorem signWithKey_triple {keyId : String} {payload : List UInt8} {d₀ : Device} :
    Triple (· = d₀) (signWithKey library outside keyId payload)
      (fun _ d => d = d₀ ∧ ∃ label, applicationLabel library keyId = .ok label)
      (fun _ d => d = d₀) := by
  refine Triple.bind (Q := fun _ d => d = d₀ ∧ ∃ label, applicationLabel library keyId = .ok label)
    ?_ fun _ => Triple.lift_keeps fun _ _ hd => hd.1
  refine Triple.bind (Q := fun _ d => d = d₀ ∧ ∃ label, applicationLabel library keyId = .ok label)
    (Triple.lift (fun label hlabel _ hd => ⟨hd, label, hlabel⟩) fun _ _ _ hd => hd) fun label => ?_
  refine Triple.bind (enrollStep_keeps fun _ hd => hd.1) fun _ => ?_
  refine Triple.bind (Triple.read (Q := fun _ d => d = d₀ ∧
    ∃ label, applicationLabel library keyId = .ok label) fun _ hd => hd) fun _ => ?_
  refine Triple.bind (Triple.failWhen_keeps fun _ hd => hd.1) fun _ => ?_
  exact enrollStep_keeps fun _ hd => hd.1

/-- What comes after the creation of a key saves a state that names it, or changes nothing. -/
theorem enrollKey_triple {start : EnrollmentStartResponse} {identity : DeviceKeyIdentity}
    {d₀ : Device} :
    Triple (· = d₀) (enrollKey library outside start identity)
      (fun enrolled d => (∃ label, applicationLabel library identity.keyId = .ok label) ∧
        d.stateFile = some enrolled.1 ∧ enrolled.1.enrollment.keyId = identity.keyId ∧
        d.created = d₀.created)
      (fun _ d => d₀.Keeps d) := by
  refine Triple.bind (Triple.lift_keeps fun _ => Device.Keeps.of_eq) fun payload => ?_
  refine Triple.bind (signWithKey_triple.conseq (fun _ hd => hd) (fun _ _ hd => hd.symm)
    fun _ => Device.Keeps.of_eq) fun signature => Triple.of_fact fun hlabel => ?_
  refine Triple.bind (Triple.lift_keeps fun _ => Device.Keeps.of_eq) fun stepUpToken => ?_
  refine Triple.bind (Triple.lift_keeps fun _ => Device.Keeps.of_eq) fun session => ?_
  refine Triple.bind (Triple.lift_keeps fun _ => Device.Keeps.of_eq) fun _ => ?_
  refine Triple.bind saveControllerState_triple fun _ => Triple.ret fun d hd => ?_
  exact ⟨hlabel, hd.1, rfl, hd.2⟩

/-- The ID of a key has its label if the label has 20 bytes. -/
theorem applicationLabel_keyIdOf (hdecode : ∀ bytes, library.decode (library.encode bytes) =
    some bytes) {label label' : List UInt8} :
    applicationLabel library (keyIdOf library label) = .ok label' ↔
      label.length = 20 ∧ label = label' := by
  simp only [applicationLabel, keyIdOf, Text.stripPrefix_append, bind_eq_ok_iff, context_eq_ok_iff,
    Option.some.injEq, bailWhen_eq_ok_iff, not_not, pure_eq_ok_iff]
  constructor
  · intro h
    obtain ⟨_, rfl, decoded, hdecoded, _, hlength, rfl⟩ := h
    obtain rfl := Option.some.inj ((hdecode label).symm.trans hdecoded)
    exact ⟨hlength, rfl⟩
  · intro h
    obtain ⟨hlength, rfl⟩ := h
    exact ⟨_, rfl, label, hdecode label, (), hlength, rfl⟩

/-- A key whose ID has its label is deleted, or a failure is reported. -/
theorem deleteKey_triple {keyId : String} {label : List UInt8}
    (hlabel : applicationLabel library keyId = .ok label) :
    Triple (fun d => d.created = [⟨.privateKey, label⟩, ⟨.publicKey, label⟩] ∧
        d.stateFile = stateFile)
      (deleteKey library outside keyId) (fun _ => Settled stateFile)
      (fun _ => Settled stateFile) := by
  rw [deleteKey, hlabel]
  refine Triple.bind (Q := fun label' d => label = label' ∧
    d.created = [⟨.privateKey, label⟩, ⟨.publicKey, label⟩] ∧ d.stateFile = stateFile)
    (Triple.lift (fun _ h _ hd => ⟨Except.ok.inj h, hd⟩) fun _ h => by cases h) fun label' =>
      Triple.of_fact fun heq => ?_
  subst heq
  refine Triple.bind (keychainDelete_triple (fun d hd => settled_removeLabel hd.1 hd.2)
    fun d hd => settled_of_failed hd.2) fun _ => ?_
  exact keychainDelete_triple
    (fun d hd => hd.of_subset List.filter_sublist.subset rfl rfl) fun d hd => settled_of_failed hd.2

/-- A key whose ID has no label is not deleted. -/
theorem deleteKey_keeps {keyId : String} {P : Device → Prop}
    (hlabel : ∀ label, applicationLabel library keyId ≠ .ok label) :
    Triple P (deleteKey library outside keyId) (fun _ _ => False) (fun _ => P) :=
  Triple.bind (Q := fun _ _ => False)
    (Triple.lift (fun label h _ _ => hlabel label h) fun _ _ _ hd => hd) fun _ => Triple.of_false

/-! ### The whole enrollment -/

/-- After a failure the key of a pair is left behind exactly if its label has not 20 bytes. -/
theorem deleteKey_withPair (hdecode : ∀ bytes, library.decode (library.encode bytes) = some bytes)
    (hfailed : device.deletionFailed = false) (label : List UInt8) :
    Triple ((device.withPair label).Keeps ·)
      (deleteKey library outside (keyIdOf library label)).attempt
      (fun _ d => d.stateFile = device.stateFile ∧ (d.Orphaned ↔ label.length ≠ 20))
      (fun _ _ => False) := by
  by_cases hlength : label.length = 20
  · have hlabel := (applicationLabel_keyIdOf hdecode).mpr ⟨hlength, rfl⟩
    refine (Triple.attempt (deleteKey_triple hlabel)).conseq
      (fun d hd => ⟨hd.created, hd.stateFile⟩) (fun result d hd => ?_) fun _ _ hd => hd
    cases result <;> exact ⟨hd.2, iff_of_false hd.1 (not_not.mpr hlength)⟩
  · have hlabel : ∀ label', applicationLabel library (keyIdOf library label) ≠ .ok label' :=
      fun label' h => hlength ((applicationLabel_keyIdOf hdecode).mp h).1
    refine (Triple.attempt (deleteKey_keeps hlabel)).conseq (fun d hd => hd)
      (fun result d hd => ?_) fun _ _ hd => hd
    cases result with
    | ok => exact hd.elim
    | error =>
      refine ⟨hd.stateFile, iff_of_true ?_ hlength⟩
      refine ⟨hd.deletionFailed.trans hfailed, ⟨.privateKey, label⟩, ?_, rfl⟩
      rw [hd.created]
      exact List.mem_cons_self

/-- An enrollment is started on a device that is not enrolled. -/
theorem startEnrollment_triple :
    Triple (· = device) (startEnrollment outside) (fun _ d => outside.Starts device ∧ d = device)
      (fun _ d => ¬outside.Starts device ∧ d = device) := by
  refine Triple.bind (Triple.read (Q := fun enrolled d =>
    enrolled = device.stateFile.isSome ∧ d = device) fun d hd => ⟨by rw [hd], hd⟩) fun enrolled =>
      Triple.of_fact fun henrolled => ?_
  subst henrolled
  refine Triple.bind (Triple.failWhen_of (R := fun _ d => device.stateFile = none ∧ d = device)
    (fun d hd hnone => ⟨by simpa using hnone, hd⟩) fun d hd hsome => ⟨fun h => ?_, hd⟩) fun _ =>
      Triple.of_fact fun hfresh => ?_
  · simp [h.1] at hsome
  refine Triple.bind (Q := fun auth d => outside.auth = some auth ∧ d = device)
    (Triple.lift (fun auth h _ hd => ⟨context_eq_ok_iff.mp h, hd⟩) fun e he d hd =>
      ⟨fun h => ?_, hd⟩) fun auth => Triple.of_fact fun hauth => ?_
  · obtain ⟨-, auth, start, hauth, -⟩ := h
    rw [hauth] at he
    contradiction
  refine Triple.bind (Q := fun start d => outside.start = some start ∧ d = device)
    (Triple.lift (fun start h _ hd => ⟨context_eq_ok_iff.mp h, hd⟩) fun e he d hd =>
      ⟨fun h => ?_, hd⟩) fun start => Triple.of_fact fun hstart => ?_
  · obtain ⟨-, auth, start, -, hstart, -⟩ := h
    rw [hstart] at he
    contradiction
  have hiff : outside.Starts device ↔ (auth.MatchesRelayAccountUserId start.accountUserId ∧
      start.deviceKeyChallenge.accountUserId = start.accountUserId ∧
      start.deviceKeyChallenge.clientId = start.clientId) ∧
      outside.startedAt < start.deviceKeyChallenge.challengeExpiresAt := by
    simp only [EnrollOutside.Starts, hfresh, hauth, hstart, Option.some.injEq, true_and,
      exists_eq_left', exists_and_left]
  refine Triple.bind (Triple.failWhen_of (R := fun _ d =>
    (auth.MatchesRelayAccountUserId start.accountUserId ∧
      start.deviceKeyChallenge.accountUserId = start.accountUserId ∧
      start.deviceKeyChallenge.clientId = start.clientId) ∧ d = device)
    (fun d hd hmatches => ⟨by simpa only [not_or, not_not] using hmatches, hd⟩)
    fun d hd hmismatch => ⟨fun h => ?_, hd⟩) fun _ => Triple.of_fact fun hmatches => ?_
  · obtain ⟨hmatches, haccount, hclient⟩ := (hiff.mp h).1
    exact hmismatch.elim (· hmatches) fun h => h.elim (· haccount) (· hclient)
  refine Triple.bind (Triple.failWhen_of (R := fun _ d =>
    outside.startedAt < start.deviceKeyChallenge.challengeExpiresAt ∧ d = device)
    (fun d hd hle => ⟨Int64.not_le.mp hle, hd⟩) fun d hd hle => ⟨fun h => ?_, hd⟩) fun _ =>
      Triple.ret fun d hd => ⟨hiff.mpr ⟨hmatches, hd.1⟩, hd.2⟩
  exact Int64.not_le.mpr (hiff.mp h).2 hle

/-- An enrollment saves a state that names the key, or fails; then a private key is left behind
exactly if a key was to be created and the pair is not traceable. -/
theorem enroll_triple (hdecode : ∀ bytes, library.decode (library.encode bytes) = some bytes)
    (hcreated : device.created = []) (hfailed : device.deletionFailed = false) :
    Triple (· = device) (enroll library outside)
      (fun enrolled d => outside.Traceable ∧ d.stateFile = some enrolled.1 ∧
        d.Names library enrolled.1)
      (fun _ d => d.stateFile = device.stateFile ∧ (d.Orphaned ↔
        (outside.Starts device ∧ outside.GrantsAccess) ∧ ¬outside.Traceable)) := by
  refine Triple.bind (startEnrollment_triple.conseq (fun _ hd => hd) (fun _ _ hd => hd) ?_)
    fun start => Triple.of_fact fun hstarts => ?_
  · intro _ _ h
    obtain ⟨hno, rfl⟩ := h
    exact ⟨rfl, iff_of_false (not_orphaned hcreated) fun h => hno h.1.1⟩
  refine Triple.bind ((createKey_triple hcreated hfailed).conseq (fun _ hd => hd)
    (fun _ _ hd => hd) fun _ d hd => ⟨hd.1, hd.2.trans (by simp [hstarts])⟩) fun identity =>
      Triple.of_fact fun haccess => Triple.of_exists fun label => Triple.of_fact fun hlabel => ?_
  obtain ⟨hkey, htrace⟩ := hlabel
  refine Triple.bind (Triple.attempt enrollKey_triple) fun result => ?_
  cases result with
  | ok enrolled =>
    refine Triple.ret fun d hd => ?_
    obtain ⟨⟨label', hlabel'⟩, hstate, hkeyId, hcreated'⟩ := hd
    rw [hkey] at hlabel' hkeyId
    refine ⟨htrace.mpr ((applicationLabel_keyIdOf hdecode).mp hlabel').1, hstate, label, ?_, hkeyId⟩
    rw [hcreated']
    exact List.mem_cons_self
  | error error =>
    dsimp only
    rw [hkey]
    refine Triple.bind ((deleteKey_withPair hdecode hfailed label).conseq (fun _ hd => hd)
      (fun _ _ hd => hd) fun _ _ => False.elim) fun _ => Triple.fail fun d hd => ⟨hd.1, ?_⟩
    rw [hd.2, htrace]
    simp [hstarts, haccess]

/-- An enrollment leaves no private key behind, whatever its steps end with, if and only if a pair
that is created is traceable. -/
theorem leavesNoOrphan_iff (library : SigningLibrary)
    (hdecode : ∀ bytes, library.decode (library.encode bytes) = some bytes)
    (outside : EnrollOutside) (keychain : List KeyItem) (stateFile : Option ControllerState) :
    LeavesNoOrphan library outside (.start keychain stateFile) ↔
      (outside.Starts (.start keychain stateFile) → outside.GrantsAccess → outside.Traceable) := by
  have htriple : Triple (· = Device.start keychain stateFile) (enroll library outside) _ _ :=
    enroll_triple hdecode rfl rfl
  obtain ⟨enrolled, after, henroll, hresult⟩ | ⟨error, after, henroll, hresult⟩ :=
    htriple.ends rfl
  · refine iff_of_true ⟨fun error after' h => ?_, fun enrolled' after' h => ?_⟩
      fun _ _ => hresult.1
    · rw [henroll] at h
      cases h
    · rw [henroll] at h
      cases h
      exact ⟨_, hresult.2⟩
  · obtain ⟨hstate, horphaned⟩ := hresult
    constructor
    · intro h hstarts haccess
      by_contra htrace
      exact (h.error error after henroll).1 (horphaned.mpr ⟨⟨hstarts, haccess⟩, htrace⟩)
    · refine fun h => ⟨fun error' after' heq => ?_, fun enrolled after' heq => ?_⟩
      · rw [henroll] at heq
        cases heq
        exact ⟨fun hleft => (horphaned.mp hleft).2 (h (horphaned.mp hleft).1.1
          (horphaned.mp hleft).1.2), hstate⟩
      · rw [henroll] at heq
        cases heq

/-- The application label of a key. -/
def zeroLabel : List UInt8 := List.replicate 20 0

/-- The label in base64url. -/
def zeroLabelText : String := "AAAAAAAAAAAAAAAAAAAAAAAAAAA"

/-- Libraries that write the label in base64url and everything else in base64. -/
def keyLibrary : SigningLibrary where
  join := fun _ _ => none
  sha256 := fun _ => List.replicate 32 0
  encode := fun bytes => if bytes = zeroLabel then zeroLabelText else Base64.encode bytes
  decode := fun text => if text = zeroLabelText then some zeroLabel else Base64.decode text
  timestamp := fun _ => none
  floatText := fun _ => [48, 46, 48]

/-- An enrollment in which a pair is created and the challenge is refused afterwards. -/
def refusedOutside (publicPoint : Option (List UInt8)) : EnrollOutside where
  succeeds := fun _ => true
  auth := some
    { accessToken := "token", accountId := "account", accountUserId := "account-user",
      authUserId := none, expiresAt := 2000000000, refreshToken := "refresh" }
  start := some
    { accountUserId := "account-user", clientId := "client-id",
      deviceKeyChallenge :=
        { accountUserId := "account-user", audience := "remote_control_client_enrollment",
          challengeExpiresAt := 2000000000, challengeId := "challenge-id",
          challengeToken := "challenge-token", clientId := "client-id",
          deviceIdentityHash := none, nonce := "",
          purpose := "remote_control_client_enrollment", targetOrigin := "https://chatgpt.com",
          targetPath := "/backend-api/codex/remote/control/client/enroll/finish" } }
  startedAt := 1999999999
  createdLabel := some zeroLabel
  exported := none
  publicPoint := publicPoint
  signature := fun _ => none
  stepUp := none
  finish := fun _ => none
  finishedAt := 1999999999

/-- Decoding inverts encoding. -/
theorem decode_encode_keyLibrary (bytes : List UInt8) :
    keyLibrary.decode (keyLibrary.encode bytes) = some bytes := by
  by_cases hlabel : bytes = zeroLabel
  · simp only [keyLibrary, if_true, hlabel]
  · have hne : Base64.encode bytes ≠ zeroLabelText := by
      intro heq
      have hlength := Base64.length_encode bytes
      have htext : zeroLabelText.length = 27 := by decide
      rw [heq, htext] at hlength
      omega
    simp only [keyLibrary, if_neg hlabel, if_neg hne, Base64.decode_encode]

/-- The key is deleted after the challenge was refused. -/
theorem leavesNoOrphan_iff_refused :
    LeavesNoOrphan keyLibrary (refusedOutside (some (4 :: List.replicate 64 0)))
      (.start [] none) ∧
    (enroll keyLibrary (refusedOutside (some (4 :: List.replicate 64 0)))
      (.start [] none)).2 = .start [] none := by
  refine ⟨(leavesNoOrphan_iff keyLibrary decode_encode_keyLibrary _ _ _).mpr fun _ _ => ?_, ?_⟩
  · intro label hlabel
    obtain rfl := Option.some.inj hlabel
    exact ⟨rfl, rfl, fun _ => ⟨rfl, ⟨_, rfl, by decide, rfl⟩, by decide⟩⟩
  · decide

/-- The public key cannot be exported: the enrollment fails, and both keys are left. -/
theorem not_leavesNoOrphan_unexported :
    (enroll keyLibrary (refusedOutside none) (.start [] none)).2 =
      (Device.start [] none).withPair zeroLabel ∧
    ¬LeavesNoOrphan keyLibrary (refusedOutside none) (.start [] none) := by
  have hrun : enroll keyLibrary (refusedOutside none) (.start [] none) =
      (.error .publicKey, (Device.start [] none).withPair zeroLabel) := rfl
  refine ⟨congrArg Prod.snd hrun, fun h => (h.error _ _ hrun).1 ?_⟩
  exact ⟨rfl, ⟨.privateKey, zeroLabel⟩, List.mem_cons_self, rfl⟩

end Rcodex
