import Rcodex.Foundation.CompactJson
import Rcodex.Foundation.Decode
import Rcodex.Foundation.Result
import Rcodex.Foundation.Saturating
import Rcodex.Foundation.Splitting
import Rcodex.Foundation.Text
import Mathlib.Data.List.Destutter
import Mathlib.Data.Set.Insert

/-!
# The step-up token

`validateStepUpToken` accepts the token of a fresh sign-in: it has to belong to the account, to be
issued a short time ago, to grant the scope of the enrollment and no other, and the password has to
be given a short time ago.  The time of the password is compared with the present from one side
only, so that one in the future passes (`PasswordTolerated`).
-/

namespace Rcodex

open Json Result

/-- Why a step-up token is refused. -/
inductive StepUpError where
  | notJwt
  | notBase64url
  | invalidPayload
  | noAccountUserId
  | otherAccount
  | notFresh
  | noFreshPassword
  | unexpectedScopes
deriving DecidableEq

/-- The text of an error, as the source reports it. -/
def StepUpError.text : StepUpError → String
  | .notJwt => "remote-control step-up token is not a JWT"
  | .notBase64url => "remote-control step-up token is not base64url"
  | .invalidPayload => "remote-control step-up token payload is invalid"
  | .noAccountUserId => "remote-control step-up token has no account user ID"
  | .otherAccount => "remote-control step-up token belongs to a different account"
  | .notFresh => "remote-control step-up token is not fresh"
  | .noFreshPassword => "remote-control step-up token has no fresh password authentication"
  | .unexpectedScopes => "remote-control step-up token has unexpected authorization scopes"

/-- `StepUpIdentity` -/
structure StepUpIdentity where
  /-- The user of the account. -/
  accountUserId : Option String
  /-- The user of the account, under its newer name. -/
  chatgptAccountUserId : Option String
deriving DecidableEq

/-- `StepUpClaims` -/
structure StepUpClaims where
  /-- The second at which the token was issued. -/
  iat : Int64
  /-- The millisecond at which the password was given. -/
  pwdAuthTime : Int64
  /-- The scopes as one text. -/
  scope : Option String
  /-- The scopes as a list. -/
  scp : List String
  /-- Whose token it is. -/
  auth : StepUpIdentity
deriving DecidableEq

/-- `ENROLL_SCOPE` -/
def enrollScope : String := "codex.remote_control.enroll"

/-- The identity a document denotes. -/
def StepUpIdentity.deserialize (document : Value) : Option StepUpIdentity := do
  match ← openFields ["account_user_id", "chatgpt_account_user_id"] document with
  | [accountUserId, chatgptAccountUserId] =>
    return { accountUserId := ← optionalField Value.asStr accountUserId,
             chatgptAccountUserId := ← optionalField Value.asStr chatgptAccountUserId }
  | _ => none

/-- The claims a document denotes. -/
def StepUpClaims.deserialize (document : Value) : Option StepUpClaims := do
  match ← openFields ["iat", "pwd_auth_time", "scope", "scp", "https://api.openai.com/auth"]
    document with
  | [iat, pwdAuthTime, scope, scp, auth] =>
    return { iat := .ofInt (← (← iat).asI64),
             pwdAuthTime := .ofInt (← (← pwdAuthTime).asI64),
             scope := ← optionalField Value.asStr scope,
             scp := ← match scp with
               | none => some []
               | some scp => scp.asListOf Value.asStr,
             auth := ← StepUpIdentity.deserialize (← auth) }
  | _ => none

namespace StepUpClaims

/-- The user the claims name. -/
def accountUserId (claims : StepUpClaims) : Option String :=
  claims.auth.chatgptAccountUserId.or claims.auth.accountUserId

/-- The scopes of the text. -/
def scopeWords (claims : StepUpClaims) : List String :=
  (Splitting.words Text.isWhitespace (claims.scope.getD "").toList).map .ofList

/-- The scopes of the text and of the list, sorted and without repetitions. -/
def scopes (claims : StepUpClaims) : List String :=
  ((claims.scopeWords ++ claims.scp).mergeSort fun a b => a ≤ b).destutter (· ≠ ·)

end StepUpClaims

section Codec

/-! `codec` is the JSON parser and the base64 decoder with the URL-safe alphabet. -/

variable (codec : Codec)

/-- The claims of a token, read at the start of `validate_step_up_token`. -/
def stepUpClaims (token : String) : Except StepUpError StepUpClaims := do
  let payload ← context .notJwt
    ((token.toList.splitOn '.')[1]?.filter fun part => part ≠ [])
  let bytes ← context .notBase64url (codec.decode (String.ofList payload))
  context .invalidPayload ((codec.fromSlice bytes).bind StepUpClaims.deserialize)

/-- `validate_step_up_token` -/
def validateStepUpToken (token expectedAccountUserId : String) (nowEpoch : Int64) :
    Except StepUpError Unit := do
  let claims ← stepUpClaims codec token
  let accountUserId ← context .noAccountUserId claims.accountUserId
  bailWhen (accountUserId ≠ expectedAccountUserId) .otherAccount
  bailWhen (claims.iat > Saturating.add nowEpoch 60 ∨
    Saturating.sub nowEpoch claims.iat > 300) .notFresh
  bailWhen (Saturating.sub (Saturating.mul nowEpoch 1000) claims.pwdAuthTime > 300000)
    .noFreshPassword
  bailWhen (claims.scopes ≠ [enrollScope]) .unexpectedScopes

end Codec

/-! ### The scopes -/

section Distinct

variable {α : Type} [DecidableEq α]

/-- What is left of a list without repetitions next to each other has the same elements. -/
theorem mem_destutter'_ne_iff {a x : α} {l : List α} :
    x ∈ l.destutter' (· ≠ ·) a ↔ x ∈ a :: l := by
  induction l generalizing a with
  | nil => simp
  | cons b l ih =>
    rw [List.destutter'_cons]
    split_ifs with h
    · rw [List.mem_cons, ih, List.mem_cons, List.mem_cons, List.mem_cons]
    · rw [ne_eq, not_not] at h
      subst h
      rw [ih]
      simp

/-- It is a single element exactly when the list has this element and no other. -/
theorem destutter_ne_eq_singleton_iff {l : List α} {a : α} :
    l.destutter (· ≠ ·) = [a] ↔ {x | x ∈ l} = ({a} : Set α) := by
  cases l with
  | nil =>
    rw [List.destutter_nil]
    apply iff_of_false (by simp)
    intro h
    have ha : a ∈ {x | x ∈ ([] : List α)} := h ▸ Set.mem_singleton a
    simp at ha
  | cons b l =>
    rw [List.destutter_cons']
    constructor
    · intro h
      ext x
      rw [Set.mem_ofPred_eq, ← mem_destutter'_ne_iff, h, List.mem_singleton, Set.mem_singleton_iff]
    · intro h
      have hall : ∀ x ∈ l.destutter' (· ≠ ·) b, x = a := by
        intro x hx
        have hmem : x ∈ {x | x ∈ b :: l} := mem_destutter'_ne_iff.mp hx
        rwa [h] at hmem
      have hchain := List.isChain_destutter' (· ≠ ·) l b
      -- two elements next to each other would differ
      cases hrest : l.destutter' (· ≠ ·) b with
      | nil => exact absurd hrest (List.destutter'_ne_nil l _)
      | cons x rest =>
        rw [hrest] at hall hchain
        obtain rfl := hall x List.mem_cons_self
        cases rest with
        | nil => rfl
        | cons y rest =>
          have hne : x ≠ y := (List.isChain_cons_cons.mp hchain).1
          exact absurd (hall y (by simp)).symm hne

end Distinct

/-- The check of the scopes. -/
theorem StepUpClaims.scopes_eq_iff {claims : StepUpClaims} :
    claims.scopes = [enrollScope] ↔
      {scope | scope ∈ claims.scopeWords ∨ scope ∈ claims.scp} = {enrollScope} := by
  rw [scopes, destutter_ne_eq_singleton_iff]
  simp only [List.mem_mergeSort, List.mem_append]

/-! ### The times -/

namespace StepUpClaims

/-- What the token has to say, the time of the password apart. -/
structure Matches (claims : StepUpClaims) (expectedAccountUserId : String) (nowEpoch : Int64) :
    Prop where
  /-- It belongs to the account. -/
  user : claims.accountUserId = some expectedAccountUserId
  /-- It grants the scope of the enrollment and no other. -/
  scopes : {scope | scope ∈ claims.scopeWords ∨ scope ∈ claims.scp} = {enrollScope}
  /-- It was issued in the last five minutes, or the clocks differ by at most one. -/
  issued : nowEpoch.toInt - 300 ≤ claims.iat.toInt ∧ claims.iat.toInt ≤ nowEpoch.toInt + 60

/-- The password was given in the same time. -/
def PasswordFresh (claims : StepUpClaims) (nowEpoch : Int64) : Prop :=
  (nowEpoch.toInt - 300) * 1000 ≤ claims.pwdAuthTime.toInt ∧
    claims.pwdAuthTime.toInt ≤ (nowEpoch.toInt + 60) * 1000

/-- The password was not given in this time, and the check passes: it was given later, or the
present is not a signed 64-bit number of milliseconds and the time of the password is almost the
greatest one. -/
def PasswordTolerated (claims : StepUpClaims) (nowEpoch : Int64) : Prop :=
  (nowEpoch.toInt + 60) * 1000 < claims.pwdAuthTime.toInt ∨
    Saturating.i64Max < nowEpoch.toInt * 1000 ∧
      Saturating.i64Max - 300000 ≤ claims.pwdAuthTime.toInt ∧
      claims.pwdAuthTime.toInt < (nowEpoch.toInt - 300) * 1000

/-- The checks of `validate_step_up_token` on integers of any size. -/
def exactVerdict (claims : StepUpClaims) (expectedAccountUserId : String) (nowEpoch : ℤ) :
    Except StepUpError Unit := do
  let accountUserId ← context .noAccountUserId claims.accountUserId
  bailWhen (accountUserId ≠ expectedAccountUserId) .otherAccount
  bailWhen (claims.iat.toInt > nowEpoch + 60 ∨ nowEpoch - claims.iat.toInt > 300) .notFresh
  bailWhen (nowEpoch * 1000 - claims.pwdAuthTime.toInt > 300000) .noFreshPassword
  bailWhen (claims.scopes ≠ [enrollScope]) .unexpectedScopes

variable {claims : StepUpClaims} {expectedAccountUserId : String} {nowEpoch : Int64}

/-- The check of the time of issue is exact. -/
theorem issued_check_iff :
    (claims.iat > Saturating.add nowEpoch 60 ∨ Saturating.sub nowEpoch claims.iat > 300) ↔
      (claims.iat.toInt > nowEpoch.toInt + 60 ∨ nowEpoch.toInt - claims.iat.toInt > 300) := by
  have hnow := (Saturating.toInt_mem nowEpoch).1
  have hsixty : (60 : Int64).toInt = 60 := rfl
  refine or_congr ?_ ?_
  · change Saturating.ofInt _ < _ ↔ _
    rw [Saturating.ofInt_lt_iff (by omega), hsixty, gt_iff_lt]
  · exact Saturating.lt_ofInt_iff (b := 300) (by decide) _

/-- The check of the time of the password is exact up to the present in milliseconds. -/
theorem password_check_iff :
    Saturating.sub (Saturating.mul nowEpoch 1000) claims.pwdAuthTime > 300000 ↔
      300000 < Saturating.clamp Saturating.i64Min Saturating.i64Max (nowEpoch.toInt * 1000) -
        claims.pwdAuthTime.toInt := by
  have hthousand : (1000 : Int64).toInt = 1000 := rfl
  rw [← hthousand, ← Saturating.toInt_ofInt]
  exact Saturating.lt_ofInt_iff (b := 300000) (by decide) _

/-- The check of the time of the password is passed if it is in the window or tolerated. -/
theorem not_password_check_iff :
    ¬Saturating.sub (Saturating.mul nowEpoch 1000) claims.pwdAuthTime > 300000 ↔
      claims.PasswordFresh nowEpoch ∨ claims.PasswordTolerated nowEpoch := by
  obtain ⟨hlow, hhigh⟩ := Saturating.toInt_mem claims.pwdAuthTime
  rw [password_check_iff, not_lt, PasswordFresh, PasswordTolerated]
  have hrange : Saturating.i64Min ≤ Saturating.i64Max := by decide
  rcases le_total (nowEpoch.toInt * 1000) Saturating.i64Min with hunder | hover
  · rw [Saturating.clamp_of_le_low hrange hunder]
    unfold Saturating.i64Min Saturating.i64Max at *
    omega
  rcases le_total Saturating.i64Max (nowEpoch.toInt * 1000) with hlarge | hsmall
  · rw [Saturating.clamp_of_high_le hrange hlarge]
    unfold Saturating.i64Min Saturating.i64Max at *
    omega
  · rw [Saturating.clamp_of_mem hover hsmall]
    unfold Saturating.i64Min Saturating.i64Max at *
    omega

/-- A password is not both. -/
theorem not_fresh_of_tolerated (h : claims.PasswordTolerated nowEpoch) :
    ¬claims.PasswordFresh nowEpoch := by
  intro hfresh
  obtain ⟨hafter, hbefore⟩ := hfresh
  rcases h with hlate | ⟨-, -, hearly⟩
  · exact absurd hbefore (not_le.mpr hlate)
  · exact absurd hafter (not_le.mpr hearly)

end StepUpClaims

/-! ### The verdict -/

section Verdict

variable {codec : Codec} {token expectedAccountUserId : String} {nowEpoch : Int64}
  {claims : StepUpClaims}

/-- The tokens that are accepted. -/
theorem validateStepUpToken_eq_ok_iff (hclaims : stepUpClaims codec token = .ok claims) :
    validateStepUpToken codec token expectedAccountUserId nowEpoch = .ok () ↔
      claims.Matches expectedAccountUserId nowEpoch ∧
        (claims.PasswordFresh nowEpoch ∨ claims.PasswordTolerated nowEpoch) := by
  unfold validateStepUpToken
  rw [hclaims]
  simp only [bind_eq_ok_iff, context_eq_ok_iff, bailWhen_eq_ok_iff, not_not,
    StepUpClaims.issued_check_iff, StepUpClaims.not_password_check_iff,
    StepUpClaims.scopes_eq_iff]
  constructor
  · rintro ⟨claims', heq, user, huser, -, rfl, -, hissued, -, hpassword, hscopes⟩
    obtain rfl := Except.ok.inj heq
    refine ⟨⟨huser, hscopes, ?_⟩, hpassword⟩
    omega
  · rintro ⟨⟨huser, hscopes, hissued⟩, hpassword⟩
    exact ⟨claims, rfl, expectedAccountUserId, huser, (), rfl, (), by omega, (), hpassword, hscopes⟩

/-- Where the present is a signed 64-bit number of milliseconds, the checks are exact. -/
theorem validateStepUpToken_eq_exactVerdict (hclaims : stepUpClaims codec token = .ok claims)
    (hlow : Saturating.i64Min ≤ nowEpoch.toInt * 1000)
    (hhigh : nowEpoch.toInt * 1000 ≤ Saturating.i64Max) :
    validateStepUpToken codec token expectedAccountUserId nowEpoch =
      claims.exactVerdict expectedAccountUserId nowEpoch.toInt := by
  unfold validateStepUpToken StepUpClaims.exactVerdict
  rw [hclaims]
  simp only [StepUpClaims.issued_check_iff, StepUpClaims.password_check_iff,
    Saturating.clamp_of_mem hlow hhigh]
  rfl

end Verdict

/-- A token is accepted exactly if it says what it has to, up to the passwords that are tolerated;
one that says it is always accepted; and the saturating operations are exact where the present is a
signed 64-bit number of milliseconds. -/
theorem stepUpToken_window_iff (codec : Codec) (token expectedAccountUserId : String)
    (nowEpoch : Int64) (claims : StepUpClaims) (hclaims : stepUpClaims codec token = .ok claims) :
    ((validateStepUpToken codec token expectedAccountUserId nowEpoch = .ok () ↔
        claims.Matches expectedAccountUserId nowEpoch ∧ claims.PasswordFresh nowEpoch) ↔
      ¬(claims.Matches expectedAccountUserId nowEpoch ∧ claims.PasswordTolerated nowEpoch)) ∧
    (claims.Matches expectedAccountUserId nowEpoch ∧ claims.PasswordFresh nowEpoch →
      validateStepUpToken codec token expectedAccountUserId nowEpoch = .ok ()) ∧
    (Saturating.i64Min ≤ nowEpoch.toInt * 1000 → nowEpoch.toInt * 1000 ≤ Saturating.i64Max →
      validateStepUpToken codec token expectedAccountUserId nowEpoch =
        claims.exactVerdict expectedAccountUserId nowEpoch.toInt) := by
  rw [validateStepUpToken_eq_ok_iff hclaims]
  refine ⟨⟨fun h htolerated => ?_, fun h => ?_⟩, fun h => ⟨h.1, Or.inl h.2⟩, fun hlow hhigh =>
    validateStepUpToken_eq_exactVerdict hclaims hlow hhigh⟩
  · have hfresh := (h.mp ⟨htolerated.1, Or.inr htolerated.2⟩).2
    exact StepUpClaims.not_fresh_of_tolerated htolerated.2 hfresh
  · constructor
    · intro haccepted
      obtain ⟨hmatches, hfresh | htolerated⟩ := haccepted
      · exact ⟨hmatches, hfresh⟩
      · exact absurd ⟨hmatches, htolerated⟩ h
    · exact fun hvalid => ⟨hvalid.1, Or.inl hvalid.2⟩

/-- The claims of a token are in its second part. -/
theorem stepUpClaims_of_parts {codec : Codec} {header payload signature : String}
    {bytes : List UInt8} {document : Value} {claims : StepUpClaims} (hheader : '.' ∉ header.toList)
    (hpayload : '.' ∉ payload.toList) (hne : payload.toList ≠ [])
    (hdecode : codec.decode payload = some bytes) (hparse : codec.fromSlice bytes = some document)
    (hclaims : StepUpClaims.deserialize document = some claims) :
    stepUpClaims codec (header ++ "." ++ payload ++ "." ++ signature) = .ok claims := by
  have hparts : ((header ++ "." ++ payload ++ "." ++ signature).toList.splitOn '.')[1]? =
      some payload.toList := by
    have hdot : ".".toList = ['.'] := rfl
    simp only [String.toList_append, hdot, List.append_assoc, List.cons_append, List.nil_append]
    rw [List.splitOn_append_cons_self_of_not_mem hheader,
      List.splitOn_append_cons_self_of_not_mem hpayload]
    rfl
  unfold stepUpClaims
  rw [hparts, Option.filter_some, if_pos (by simpa using hne)]
  simp only [context, bind, Except.bind, String.ofList_toList, hdecode, hparse, Option.bind,
    hclaims]

/-- The document of claims with this time of the password. -/
def stepUpDocument (pwdAuthTime : Int64) : Value :=
  .object [("https://api.openai.com/auth",
      .object [("chatgpt_account_user_id", .string "account-user")]),
    ("iat", .ofI64 1000), ("pwd_auth_time", .ofI64 pwdAuthTime), ("scope", .string enrollScope)]

/-- The token with these claims. -/
def stepUpToken (pwdAuthTime : Int64) : String :=
  "e30" ++ "." ++ (plainCodec []).encode ((plainCodec []).toVec (stepUpDocument pwdAuthTime)) ++
    "." ++ "signature"

/-- The claims. -/
def tokenClaims (pwdAuthTime : Int64) : StepUpClaims :=
  ⟨1000, pwdAuthTime, some enrollScope, [], none, some "account-user"⟩

/-- They are read from the document. -/
theorem deserialize_stepUpDocument (pwdAuthTime : Int64) :
    StepUpClaims.deserialize (stepUpDocument pwdAuthTime) = some (tokenClaims pwdAuthTime) := by
  have hfields : openFields ["iat", "pwd_auth_time", "scope", "scp", "https://api.openai.com/auth"]
      (stepUpDocument pwdAuthTime) = some [some (.ofI64 1000), some (.ofI64 pwdAuthTime),
        some (.string enrollScope), none,
        some (.object [("chatgpt_account_user_id", .string "account-user")])] := by
    simp [openFields, stepUpDocument, Map.get_cons]
  have hauth : StepUpIdentity.deserialize
      (.object [("chatgpt_account_user_id", .string "account-user")]) =
        some ⟨none, some "account-user"⟩ := by
    decide +kernel
  rw [StepUpClaims.deserialize, hfields]
  simp only [bind, Option.bind, Value.asI64_ofI64, hauth, Int64.ofInt_toInt]
  rfl

/-- They are read from the token. -/
theorem stepUpClaims_stepUpToken (pwdAuthTime : Int64) :
    stepUpClaims (plainCodec [stepUpDocument pwdAuthTime]) (stepUpToken pwdAuthTime) =
      .ok (tokenClaims pwdAuthTime) := by
  have hdecode := (lawful_plainCodec []).decode_encode
    ((plainCodec []).toVec (stepUpDocument pwdAuthTime))
  have hparse : (plainCodec [stepUpDocument pwdAuthTime]).fromSlice
      ((plainCodec []).toVec (stepUpDocument pwdAuthTime)) =
        some (stepUpDocument pwdAuthTime) := by
    simp [plainCodec, compactCodec]
  have hheader : '.' ∉ "e30".toList := by decide
  rw [stepUpToken]
  apply stepUpClaims_of_parts hheader
  · exact Base64.notMem_toList_encode (by decide +kernel) _
  · exact Base64.toList_encode_ne_nil ((lawful_plainCodec []).toVec_ne_nil _)
  · exact hdecode
  · exact hparse
  · exact deserialize_stepUpDocument pwdAuthTime

/-- They match the account. -/
theorem matches_tokenClaims (pwdAuthTime : Int64) :
    (tokenClaims pwdAuthTime).Matches "account-user" 1100 := by
  have hwords : (tokenClaims pwdAuthTime).scopeWords = [enrollScope] :=
    show (Splitting.words Text.isWhitespace enrollScope.toList).map String.ofList =
      [enrollScope] by decide +kernel
  refine ⟨rfl, ?_, ?_⟩
  · rw [hwords]
    ext scope
    simp [tokenClaims]
  · change (1100 : Int64).toInt - 300 ≤ (1000 : Int64).toInt ∧
      (1000 : Int64).toInt ≤ (1100 : Int64).toInt + 60
    exact ⟨by decide, by decide⟩

/-- A password of 50 seconds ago is accepted. -/
theorem stepUpToken_fresh : validateStepUpToken (plainCodec [stepUpDocument 1050000])
    (stepUpToken 1050000) "account-user" 1100 = .ok () :=
  (stepUpToken_window_iff (plainCodec [stepUpDocument 1050000]) (stepUpToken 1050000)
    "account-user" 1100 _ (stepUpClaims_stepUpToken 1050000)).2.1
      ⟨matches_tokenClaims _, by decide, by decide⟩

/-- So is one of the year 33658. -/
theorem stepUpToken_future :
    ¬(validateStepUpToken (plainCodec [stepUpDocument 1000000000000000])
        (stepUpToken 1000000000000000) "account-user" 1100 = .ok () ↔
      (tokenClaims 1000000000000000).Matches "account-user" 1100 ∧
        (tokenClaims 1000000000000000).PasswordFresh 1100) := by
  intro h
  have htolerated : (tokenClaims 1000000000000000).PasswordTolerated 1100 := Or.inl (by decide)
  have haccepted := (validateStepUpToken_eq_ok_iff (stepUpClaims_stepUpToken _)).mpr
    ⟨matches_tokenClaims _, Or.inr htolerated⟩
  exact StepUpClaims.not_fresh_of_tolerated htolerated (h.mp haccepted).2

end Rcodex
