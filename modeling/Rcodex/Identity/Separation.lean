import Rcodex.Identity.Payload

/-!
# Signed payloads cannot be confused

The text of a payload determines its fields, since no payload has a double (`compact_inj`): no
string in a field can imitate the boundary of another.  Together with the checks that tie the
fields to the enrollment, to the session and to the target of the request, equal payloads have the
same meaning (`separatesPayloads`).
-/

namespace Rcodex

open Json Result

/-! ### Fields from texts -/

/-- An integer is no double. -/
theorem integral_ofI64 (n : Int64) : (Value.ofI64 n).Integral := by
  unfold Value.ofI64
  split_ifs <;> trivial

/-- An enrollment payload has no double. -/
theorem integral_enrollmentSigningPayload (challenge : EnrollmentChallenge)
    (challengeHash : String) : (enrollmentSigningPayload challenge challengeHash).Integral := by
  simp [enrollmentSigningPayload, Value.Integral, Value.IntegralMembers, integral_ofI64]

/-- A connection payload has no double. -/
theorem integral_connectionSigningPayload (challenge : ConnectionChallenge) :
    (connectionSigningPayload challenge).Integral := by
  simp [connectionSigningPayload, Value.Integral, Value.IntegralMembers, integral_ofI64,
    Value.integralList_iff]

variable {library : SigningLibrary}

/-- The signed text determines the payload. -/
theorem toVec_signingEnvelope_inj {payload payload' : Value} (h : payload.Integral)
    (h' : payload'.Integral)
    (heq : library.toVec (signingEnvelope payload) = library.toVec (signingEnvelope payload')) :
    payload = payload' := by
  have henvelope : signingEnvelope payload = signingEnvelope payload' :=
    compact_inj ⟨trivial, h, trivial⟩ ⟨trivial, h', trivial⟩ heq
  simpa [signingEnvelope] using henvelope

/-- The fields of an enrollment payload. -/
theorem enrollmentSigningPayload_inj {challenge challenge' : EnrollmentChallenge}
    {hash hash' : String}
    (h : enrollmentSigningPayload challenge hash = enrollmentSigningPayload challenge' hash') :
    challenge.accountUserId = challenge'.accountUserId ∧
      challenge.challengeExpiresAt = challenge'.challengeExpiresAt ∧
      challenge.challengeId = challenge'.challengeId ∧ challenge.clientId = challenge'.clientId ∧
      hash = hash' ∧ challenge.nonce = challenge'.nonce ∧
      challenge.targetPath = challenge'.targetPath := by
  simp only [enrollmentSigningPayload, Value.object.injEq, List.cons.injEq, Prod.mk.injEq,
    Value.string.injEq, true_and, and_true] at h
  obtain ⟨haccount, hexpires, hid, hclient, hhash, hnonce, -, hpath⟩ := h
  exact ⟨haccount, Value.ofI64_inj hexpires, hid, hclient, hhash, hnonce, hpath⟩

/-- The fields of a connection payload. -/
theorem connectionSigningPayload_inj {challenge challenge' : ConnectionChallenge}
    (h : connectionSigningPayload challenge = connectionSigningPayload challenge') :
    challenge.accountUserId = challenge'.accountUserId ∧
      challenge.clientId = challenge'.clientId ∧ challenge.nonce = challenge'.nonce ∧
      challenge.sessionId = challenge'.sessionId ∧
      challenge.tokenExpiresAt = challenge'.tokenExpiresAt ∧
      challenge.tokenSha256Base64url = challenge'.tokenSha256Base64url := by
  simp only [connectionSigningPayload, Value.object.injEq, List.cons.injEq, Prod.mk.injEq,
    Value.string.injEq, Value.array.injEq, true_and, and_true] at h
  obtain ⟨haccount, -, hclient, hnonce, -, hsession, -, -, hexpires, htoken⟩ := h
  exact ⟨haccount, hclient, hnonce, hsession, Value.ofI64_inj hexpires, htoken⟩

/-! ### Targets -/

/-- A relative reference of letters and slashes that is no absolute path. -/
def IsPlainReference (reference : String) : Prop :=
  reference.toList.head? ≠ some '/' ∧
    (reference.toList.all fun c => c.isAlpha || c == '/') = true

instance (reference : String) : Decidable (IsPlainReference reference) :=
  inferInstanceAs (Decidable (_ ∧ _))

/-- Joining the base of the relay with a plain reference appends the reference to its path. -/
def SigningLibrary.JoinsReferences (library : SigningLibrary) : Prop :=
  ∀ reference, IsPlainReference reference → library.join (apiBase ++ "/") reference =
    some ("https://chatgpt.com", "/backend-api/" ++ reference)

/-- The target of a plain reference. -/
theorem relayTarget_of_isPlainReference (h : library.JoinsReferences) {reference : String}
    (hplain : IsPlainReference reference) : relayTarget library ("/" ++ reference) =
      .ok ("https://chatgpt.com", "/backend-api/" ++ reference) := by
  have hstart : reference.toList.dropWhile (· = '/') = reference.toList := by
    cases hchars : reference.toList with
    | nil => rfl
    | cons c chars =>
      have hne : c ≠ '/' := fun heq => hplain.1 (by rw [hchars, heq]; rfl)
      rw [List.dropWhile_cons_of_neg (by simpa using hne)]
  have htrim : String.ofList (("/" ++ reference).toList.dropWhile (· = '/')) = reference := by
    have hslash : "/".toList = ['/'] := rfl
    rw [String.toList_append, hslash, List.cons_append, List.nil_append,
      List.dropWhile_cons_of_pos (by decide), hstart, String.ofList_toList]
  rw [relayTarget, htrim, context_eq_ok_iff]
  exact h reference hplain

/-! ### Equal payloads -/

/-- Two connection payloads with one meaning, each bound to a session of its enrollment. -/
structure ConnectionsAgree (library : SigningLibrary)
    (session : RemoteControlSession) (challenge : ConnectionChallenge)
    (session' : RemoteControlSession) (challenge' : ConnectionChallenge) : Prop where
  /-- They are for one client. -/
  clientId : challenge.clientId = challenge'.clientId
  /-- They are for one user. -/
  accountUserId : challenge.accountUserId = challenge'.accountUserId
  /-- Their sessions expire in the same second. -/
  expiresAt : library.timestamp session.expiresAt = library.timestamp session'.expiresAt
  /-- Their session tokens have one hash. -/
  token : library.sha256 (Text.utf8 session.remoteControlToken) =
    library.sha256 (Text.utf8 session'.remoteControlToken)
  /-- They are for one session. -/
  sessionId : challenge.sessionId = challenge'.sessionId
  /-- They have one nonce. -/
  nonce : challenge.nonce = challenge'.nonce

/-- Two enrollment payloads with one meaning. -/
structure EnrollmentsAgree (library : SigningLibrary)
    (record : EnrollmentRecord) (challenge : EnrollmentChallenge)
    (record' : EnrollmentRecord) (challenge' : EnrollmentChallenge) : Prop where
  /-- They are for one user. -/
  accountUserId : challenge.accountUserId = challenge'.accountUserId
  /-- They are for one client. -/
  clientId : challenge.clientId = challenge'.clientId
  /-- They answer one challenge. -/
  challengeId : challenge.challengeId = challenge'.challengeId
  /-- They expire at the same time. -/
  challengeExpiresAt : challenge.challengeExpiresAt = challenge'.challengeExpiresAt
  /-- They have one nonce. -/
  nonce : challenge.nonce = challenge'.nonce
  /-- They are for one device. -/
  identity : deviceIdentityHash library record = deviceIdentityHash library record'
  /-- They are for one path. -/
  targetPath : challenge.targetPath = challenge'.targetPath

/-- Signed payloads cannot be confused. -/
structure SeparatesPayloads (library : SigningLibrary) : Prop where
  /-- Equal connection payloads have one meaning, and each is bound to an unexpired session. -/
  connections : ∀ enrollment session challenge nowEpoch enrollment' session' challenge' nowEpoch'
    bytes, validateAndBuildConnectionSigningPayload library enrollment session challenge nowEpoch =
      .ok bytes →
    validateAndBuildConnectionSigningPayload library enrollment' session' challenge' nowEpoch' =
      .ok bytes →
    ConnectionsAgree library session challenge session' challenge' ∧
      BoundToSession library enrollment session challenge nowEpoch ∧
      BoundToSession library enrollment' session' challenge' nowEpoch'
  /-- Equal enrollment payloads have one meaning. -/
  enrollments : ∀ record challenge relativePath requireHash record' challenge' relativePath'
    requireHash' bytes,
    buildEnrollmentSigningPayload library record challenge relativePath requireHash = .ok bytes →
    buildEnrollmentSigningPayload library record' challenge' relativePath' requireHash' =
      .ok bytes →
    EnrollmentsAgree library record challenge record' challenge'
  /-- A payload that finishes an enrollment does not finish a refresh. -/
  targets : ∀ record challenge requireHash record' challenge' requireHash' bytes,
    buildEnrollmentSigningPayload library record challenge
      "/codex/remote/control/client/enroll/finish" requireHash = .ok bytes →
    buildEnrollmentSigningPayload library record' challenge'
      "/codex/remote/control/client/refresh/finish" requireHash' ≠ .ok bytes
  /-- No connection payload is an enrollment payload. -/
  kinds : ∀ challenge record challenge' relativePath requireHash bytes,
    buildConnectionSigningPayload library challenge = .ok bytes →
    buildEnrollmentSigningPayload library record challenge' relativePath requireHash ≠ .ok bytes

/-- Equal connection payloads have one meaning. -/
theorem connectionsAgree_of_eq_ok {enrollment enrollment' : EnrollmentRecord}
    {session session' : RemoteControlSession} {challenge challenge' : ConnectionChallenge}
    {nowEpoch nowEpoch' : Int64}
    (hbound : BoundToSession library enrollment session challenge nowEpoch)
    (hbound' : BoundToSession library enrollment' session' challenge' nowEpoch')
    (h : connectionSigningPayload challenge = connectionSigningPayload challenge') :
    ConnectionsAgree library session challenge session' challenge' := by
  obtain ⟨haccount, hclient, hnonce, hsession, hexpires, htoken⟩ := connectionSigningPayload_inj h
  refine ⟨hclient, haccount, ?_, ?_, hsession, hnonce⟩
  · rw [hbound.expiresAt, hbound'.expiresAt, hexpires]
  · have hdecode := hbound.token
    rw [htoken, hbound'.token] at hdecode
    exact (Option.some.inj hdecode).symm

/-- Equal enrollment payloads have one meaning. -/
theorem enrollmentsAgree_of_eq_ok {record record' : EnrollmentRecord}
    {challenge challenge' : EnrollmentChallenge} {relativePath relativePath' : String}
    {requireHash requireHash' : Bool} {bytes : List UInt8}
    (h : buildEnrollmentSigningPayload library record challenge relativePath requireHash =
      .ok bytes)
    (h' : buildEnrollmentSigningPayload library record' challenge' relativePath' requireHash' =
      .ok bytes) : EnrollmentsAgree library record challenge record' challenge' := by
  obtain ⟨-, rfl⟩ := buildEnrollmentSigningPayload_eq_ok_iff.mp h
  obtain ⟨-, heq⟩ := buildEnrollmentSigningPayload_eq_ok_iff.mp h'
  have hpayload := toVec_signingEnvelope_inj (integral_enrollmentSigningPayload _ _)
    (integral_enrollmentSigningPayload _ _) heq.symm
  obtain ⟨haccount, hexpires, hid, hclient, hhash, hnonce, hpath⟩ :=
    enrollmentSigningPayload_inj hpayload
  exact ⟨haccount, hclient, hid, hexpires, hnonce, hhash, hpath⟩

/-- Equal enrollment payloads are for one reference. -/
theorem reference_eq_of_eq_ok (hjoin : library.JoinsReferences)
    {record record' : EnrollmentRecord} {challenge challenge' : EnrollmentChallenge}
    {reference reference' : String} {requireHash requireHash' : Bool} {bytes : List UInt8}
    (hplain : IsPlainReference reference) (hplain' : IsPlainReference reference')
    (h : buildEnrollmentSigningPayload library record challenge ("/" ++ reference) requireHash =
      .ok bytes)
    (h' : buildEnrollmentSigningPayload library record' challenge' ("/" ++ reference')
      requireHash' = .ok bytes) : reference = reference' := by
  have htarget := (buildEnrollmentSigningPayload_eq_ok_iff.mp h).1.target
  have htarget' := (buildEnrollmentSigningPayload_eq_ok_iff.mp h').1.target
  rw [relayTarget_of_isPlainReference hjoin hplain] at htarget
  rw [relayTarget_of_isPlainReference hjoin hplain'] at htarget'
  have hpath : "/backend-api/" ++ reference = "/backend-api/" ++ reference' := by
    rw [(Prod.mk.inj (Except.ok.inj htarget)).2, (Prod.mk.inj (Except.ok.inj htarget')).2]
    exact (enrollmentsAgree_of_eq_ok h h').targetPath
  exact String.append_right_inj _ |>.mp hpath

/-- Signed payloads cannot be confused or transplanted. -/
theorem separatesPayloads (library : SigningLibrary) (hjoin : library.JoinsReferences) :
    SeparatesPayloads library where
  connections := by
    intro enrollment session challenge nowEpoch enrollment' session' challenge' nowEpoch' bytes h h'
    obtain ⟨hbound, -, rfl⟩ := validateAndBuildConnectionSigningPayload_eq_ok_iff.mp h
    obtain ⟨hbound', -, heq⟩ := validateAndBuildConnectionSigningPayload_eq_ok_iff.mp h'
    have hpayload := toVec_signingEnvelope_inj (integral_connectionSigningPayload _)
      (integral_connectionSigningPayload _) heq.symm
    exact ⟨connectionsAgree_of_eq_ok hbound hbound' hpayload, hbound, hbound'⟩
  enrollments := fun _ _ _ _ _ _ _ _ _ => enrollmentsAgree_of_eq_ok
  targets := by
    intro record challenge requireHash record' challenge' requireHash' bytes h h'
    have hreference : "codex/remote/control/client/enroll/finish" =
        "codex/remote/control/client/refresh/finish" :=
      reference_eq_of_eq_ok hjoin (by decide) (by decide) h h'
    exact absurd hreference (by decide)
  kinds := by
    intro challenge record challenge' relativePath requireHash bytes h h'
    obtain ⟨-, rfl⟩ := buildConnectionSigningPayload_eq_ok_iff.mp h
    obtain ⟨-, heq⟩ := buildEnrollmentSigningPayload_eq_ok_iff.mp h'
    have hpayload := toVec_signingEnvelope_inj (integral_enrollmentSigningPayload _ _)
      (integral_connectionSigningPayload _) heq
    simp [enrollmentSigningPayload, connectionSigningPayload] at hpayload

/-! ### An accepted payload -/

/-- The hash of the session token `relay-session-token`. -/
def tokenDigest : List UInt8 :=
  [22, 6, 169, 146, 69, 224, 76, 44, 219, 232, 140, 226, 130, 41, 240, 204, 131, 205, 157, 16,
    211, 204, 25, 77, 73, 212, 53, 1, 75, 132, 248, 30]

/-- The hash of the session token in base64url. -/
def tokenDigestText : String := "FgapkkXgTCzb6IziginwzIPNnRDTzBlNSdQ1AUuE-B4"

/-- A nonce of 32 zero bytes in base64url. -/
def zeroNonce : String := "AAAAAAAAAAAAAAAAAAAAAAAAAAAAAAAAAAAAAAAAAAA"

/-- Libraries that know the texts of one session. -/
def sessionLibrary : SigningLibrary where
  join := fun base reference =>
    if base = apiBase ++ "/" then some ("https://chatgpt.com", "/backend-api/" ++ reference)
    else none
  sha256 := fun bytes => if bytes = Text.utf8 "relay-session-token" then tokenDigest else []
  encode := fun bytes => if bytes = tokenDigest then tokenDigestText else ""
  decode := fun text =>
    if text = zeroNonce then some (List.replicate 32 0)
    else if text = tokenDigestText then some tokenDigest
    else none
  timestamp := fun text => if text = "2033-05-18T03:33:20Z" then some 2000000000 else none
  floatText := fun _ => [48, 46, 48]

/-- An enrollment. -/
def enrolledRecord : EnrollmentRecord where
  accountUserId := "account-user"
  algorithm := "ecdsa_p256_sha256"
  clientId := "client-id"
  keyId := "key-id"
  protectionClass := "os_protected_nonextractable"
  publicKeySpkiDerBase64 := "public-key"

/-- A session of the enrollment. -/
def relaySession : RemoteControlSession where
  accountUserId := "account-user"
  clientId := "client-id"
  expiresAt := "2033-05-18T03:33:20Z"
  remoteControlToken := "relay-session-token"
  scopes := [sessionScope]

/-- A challenge bound to the session. -/
def websocketChallenge : ConnectionChallenge where
  accountUserId := "account-user"
  audience := "remote_control_client_websocket"
  clientId := "client-id"
  nonce := zeroNonce
  purpose := "remote_control_client_websocket"
  scopes := [sessionScope]
  sessionId := "session-id"
  targetOrigin := "https://chatgpt.com"
  targetPath := "/backend-api/codex/remote/control/client"
  tokenExpiresAt := 2000000000
  tokenSha256Base64url := tokenDigestText

/-- These libraries join references. -/
theorem joinsReferences_sessionLibrary : sessionLibrary.JoinsReferences := by
  intro reference _
  simp only [sessionLibrary, if_true]

/-- The payload of the challenge is accepted, and cannot be confused with another. -/
theorem separatesPayloads_session :
    SeparatesPayloads sessionLibrary ∧
      validateAndBuildConnectionSigningPayload sessionLibrary enrolledRecord relaySession
          websocketChallenge 1999999999 =
        .ok (sessionLibrary.toVec
          (signingEnvelope (connectionSigningPayload websocketChallenge))) := by
  refine ⟨separatesPayloads sessionLibrary joinsReferences_sessionLibrary, ?_⟩
  have hnonce : sessionLibrary.decode zeroNonce = some (List.replicate 32 0) := rfl
  have htoken : sessionLibrary.decode tokenDigestText = some tokenDigest := by decide
  have hplain : IsPlainReference "codex/remote/control/client" := by decide
  have htarget := relayTarget_of_isPlainReference joinsReferences_sessionLibrary hplain
  rw [validateAndBuildConnectionSigningPayload_eq_ok_iff]
  refine ⟨⟨⟨rfl, rfl, rfl, by decide⟩, rfl, rfl, rfl, by decide, htoken⟩,
    ⟨⟨_, hnonce, by decide⟩, ⟨_, htoken, by decide⟩, htarget, rfl, rfl, rfl⟩, rfl⟩

end Rcodex
