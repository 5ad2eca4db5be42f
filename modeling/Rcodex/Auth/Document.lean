import Rcodex.Foundation.Codec
import Rcodex.Foundation.Decode
import Rcodex.Foundation.Result
import Rcodex.Foundation.Text

/-!
# The authentication document

`auth.json` holds the access token and the refresh token of an account.  `loadCodexAuth` reads it
and takes the account and the user from the claims of the access token; `mergeRefreshResponse` puts
the answer of a token refresh into it.  The writer checks less than the reader: a refreshed access
token must be a token, but it need not name the account.

`loadCodexAuth_eq_ok_iff` and `deserialize_of_merge` say what the two functions accept and write.
-/

namespace Rcodex

open Json Result

/-- The errors of reading and merging the document. -/
inductive AuthError where
  | parse
  | notChatgpt
  | noTokens
  | malformedSecret (name : String)
  | notJwt
  | notBase64url
  | invalidPayload
  | noAccountId
  | accountMismatch
  | noAccountUserId
  | notObject
  | noTokenObject
deriving DecidableEq

/-- The text of an error, as the source reports it. -/
def AuthError.text : AuthError → String
  | .parse => "parse Codex auth file"
  | .notChatgpt => "rcodex requires Codex CLI ChatGPT subscription authentication"
  | .noTokens => "Codex auth file has no tokens"
  | .malformedSecret name => "Codex " ++ name ++ " is empty or malformed"
  | .notJwt => "Codex access token is not a JWT"
  | .notBase64url => "Codex access token payload is not base64url"
  | .invalidPayload => "Codex access token payload is invalid"
  | .noAccountId => "Codex access token has no ChatGPT account ID"
  | .accountMismatch => "Codex auth account ID does not match its access token"
  | .noAccountUserId => "Codex access token has no ChatGPT account user ID"
  | .notObject => "Codex auth document is not an object"
  | .noTokenObject => "Codex auth document has no token object"

/-- `AuthTokens` -/
structure AuthTokens where
  /-- The access token. -/
  accessToken : String
  /-- The account. -/
  accountId : Option String
  /-- The refresh token. -/
  refreshToken : String
deriving DecidableEq

/-- `AuthDocument` -/
structure AuthDocument where
  /-- How the user has signed in. -/
  authMode : Option String
  /-- The tokens. -/
  tokens : Option AuthTokens
deriving DecidableEq

/-- `AccessTokenIdentity` -/
structure AccessTokenIdentity where
  /-- The account. -/
  accountId : Option String
  /-- The user of the account. -/
  accountUserId : Option String
  /-- The account, under its newer name. -/
  chatgptAccountId : Option String
  /-- The user of the account, under its newer name. -/
  chatgptAccountUserId : Option String
  /-- The user. -/
  userId : Option String
deriving DecidableEq

/-- `AccessTokenClaims` -/
structure AccessTokenClaims where
  /-- When the token expires. -/
  exp : ℤ
  /-- Whose token it is. -/
  auth : AccessTokenIdentity
deriving DecidableEq

/-- `RefreshResponse` -/
structure RefreshResponse where
  /-- A new access token. -/
  accessToken : Option String
  /-- A new ID token. -/
  idToken : Option String
  /-- A new refresh token. -/
  refreshToken : Option String
deriving DecidableEq

/-- `CodexAuth` -/
structure CodexAuth where
  /-- The access token. -/
  accessToken : String
  /-- The account. -/
  accountId : String
  /-- The user of the account. -/
  accountUserId : String
  /-- The user. -/
  authUserId : Option String
  /-- When the access token expires. -/
  expiresAt : ℤ
  /-- The refresh token. -/
  refreshToken : String
deriving DecidableEq

/-- The tokens a document denotes. -/
def AuthTokens.deserialize (document : Value) : Option AuthTokens := do
  match ← openFields ["access_token", "account_id", "refresh_token"] document with
  | [accessToken, accountId, refreshToken] =>
    return { accessToken := ← (← accessToken).asStr,
             accountId := ← optionalField Value.asStr accountId,
             refreshToken := ← (← refreshToken).asStr }
  | _ => none

/-- The authentication a document denotes. -/
def AuthDocument.deserialize (document : Value) : Option AuthDocument := do
  match ← openFields ["auth_mode", "tokens"] document with
  | [authMode, tokens] =>
    return { authMode := ← optionalField Value.asStr authMode,
             tokens := ← optionalField AuthTokens.deserialize tokens }
  | _ => none

/-- The identity a document denotes. -/
def AccessTokenIdentity.deserialize (document : Value) : Option AccessTokenIdentity := do
  match ← openFields ["account_id", "account_user_id", "chatgpt_account_id",
    "chatgpt_account_user_id", "user_id"] document with
  | [accountId, accountUserId, chatgptAccountId, chatgptAccountUserId, userId] =>
    return { accountId := ← optionalField Value.asStr accountId,
             accountUserId := ← optionalField Value.asStr accountUserId,
             chatgptAccountId := ← optionalField Value.asStr chatgptAccountId,
             chatgptAccountUserId := ← optionalField Value.asStr chatgptAccountUserId,
             userId := ← optionalField Value.asStr userId }
  | _ => none

/-- The claims a document denotes. -/
def AccessTokenClaims.deserialize (document : Value) : Option AccessTokenClaims := do
  match ← openFields ["exp", "https://api.openai.com/auth"] document with
  | [exp, auth] =>
    return { exp := ← (← exp).asI64, auth := ← AccessTokenIdentity.deserialize (← auth) }
  | _ => none

/-- The account the claims name. -/
def AccessTokenClaims.claimAccountId (claims : AccessTokenClaims) : Option String :=
  claims.auth.chatgptAccountId.or claims.auth.accountId

/-- The user the claims name. -/
def AccessTokenClaims.claimAccountUserId (claims : AccessTokenClaims) : Option String :=
  claims.auth.chatgptAccountUserId.or claims.auth.accountUserId

/-- A text that is not empty and has no white space. -/
def IsSecret (value : String) : Prop :=
  ¬(value = "" ∨ Text.trim value ≠ value ∨ value.toList.any Text.isWhitespace = true)

instance (value : String) : Decidable (IsSecret value) := inferInstanceAs (Decidable ¬_)

/-- `validate_secret` -/
def validateSecret (name value : String) : Except AuthError Unit :=
  bailWhen (¬IsSecret value) (.malformedSecret name)

section Codec

/-! `codec` is the JSON parser and the base64 decoder with the URL-safe alphabet. -/

variable (codec : Codec)

/-- `decode_access_token` -/
def decodeAccessToken (token : String) : Except AuthError AccessTokenClaims := do
  let payload ← context .notJwt
    ((token.toList.splitOn '.')[1]?.filter fun part => part ≠ [])
  let bytes ← context .notBase64url (codec.decode (String.ofList payload))
  context .invalidPayload ((codec.fromSlice bytes).bind AccessTokenClaims.deserialize)

/-- `load_codex_auth`, given the contents of the file. -/
def loadCodexAuth (contents : Value) : Except AuthError CodexAuth := do
  let document ← context .parse (AuthDocument.deserialize contents)
  bailWhen (document.authMode ≠ some "chatgpt") .notChatgpt
  let tokens ← context .noTokens document.tokens
  validateSecret "access token" tokens.accessToken
  validateSecret "refresh token" tokens.refreshToken
  let claims ← decodeAccessToken codec tokens.accessToken
  let claimAccountId ← context .noAccountId claims.claimAccountId
  let accountId := tokens.accountId.getD claimAccountId
  bailWhen (accountId ≠ claimAccountId) .accountMismatch
  let accountUserId ← context .noAccountUserId claims.claimAccountUserId
  return { accessToken := tokens.accessToken, accountId, accountUserId,
           authUserId := claims.auth.userId, expiresAt := claims.exp,
           refreshToken := tokens.refreshToken }

/-- Put a new secret, if there is one, under a key of the tokens. -/
def storeSecret (name key : String) (value : Option String) (tokens : Map) :
    Except AuthError Map :=
  match value with
  | none => .ok tokens
  | some value => do
    validateSecret name value
    return Map.insert tokens key (.string value)

/-- Put a new access token, if there is one, into the tokens. -/
def storeAccessToken (value : Option String) (tokens : Map) : Except AuthError Map :=
  match value with
  | none => .ok tokens
  | some value => do
    validateSecret "refreshed access token" value
    let _ ← decodeAccessToken codec value
    return Map.insert tokens "access_token" (.string value)

/-- `merge_refresh_response` -/
def mergeRefreshResponse (document : Value) (response : RefreshResponse) (refreshedAt : String) :
    Except AuthError Value := do
  let object ← context .notObject document.asObject
  let tokens ← context .noTokenObject ((Map.get object "tokens").bind Value.asObject)
  let tokens ← storeAccessToken codec response.accessToken tokens
  let tokens ← storeSecret "refreshed ID token" "id_token" response.idToken tokens
  let tokens ← storeSecret "rotated refresh token" "refresh_token" response.refreshToken tokens
  return .object (Map.insert (Map.insert object "tokens" (.object tokens)) "last_refresh"
    (.string refreshedAt))

end Codec

/-! ### What is read -/

variable {codec : Codec}

/-- A secret passes its check. -/
theorem validateSecret_eq_ok_iff {name value : String} {u : Unit} :
    validateSecret name value = .ok u ↔ IsSecret value := by
  rw [validateSecret, bailWhen_eq_ok_iff, not_not]

/-- What a document and its access token have to say for an authentication to be read. -/
structure Reads (codec : Codec) (contents : Value) (auth : CodexAuth) (tokens : AuthTokens)
    (claims : AccessTokenClaims) : Prop where
  /-- The document has the tokens of a ChatGPT account. -/
  document : AuthDocument.deserialize contents = some ⟨some "chatgpt", some tokens⟩
  /-- The access token is a secret. -/
  accessSecret : IsSecret tokens.accessToken
  /-- The refresh token is a secret. -/
  refreshSecret : IsSecret tokens.refreshToken
  /-- The access token has claims. -/
  decoded : decodeAccessToken codec tokens.accessToken = .ok claims
  /-- They name the account. -/
  account : claims.claimAccountId = some auth.accountId
  /-- The document names no other account. -/
  stored : tokens.accountId.getD auth.accountId = auth.accountId
  /-- They name the user. -/
  user : claims.claimAccountUserId = some auth.accountUserId
  /-- The rest of the authentication. -/
  rest : auth.accessToken = tokens.accessToken ∧ auth.authUserId = claims.auth.userId ∧
    auth.expiresAt = claims.exp ∧ auth.refreshToken = tokens.refreshToken

/-- The authentication that is read from a document. -/
theorem loadCodexAuth_eq_ok_iff {contents : Value} {auth : CodexAuth} :
    loadCodexAuth codec contents = .ok auth ↔
      ∃ tokens claims, Reads codec contents auth tokens claims := by
  constructor
  · intro h
    obtain ⟨document, hdocument, h⟩ := bind_eq_ok_iff.mp h
    obtain ⟨_, hmode, h⟩ := bind_eq_ok_iff.mp h
    obtain ⟨tokens, htokens, h⟩ := bind_eq_ok_iff.mp h
    obtain ⟨_, haccess, h⟩ := bind_eq_ok_iff.mp h
    obtain ⟨_, hrefresh, h⟩ := bind_eq_ok_iff.mp h
    obtain ⟨claims, hclaims, h⟩ := bind_eq_ok_iff.mp h
    obtain ⟨accountId, haccount, h⟩ := bind_eq_ok_iff.mp h
    obtain ⟨_, hstored, h⟩ := bind_eq_ok_iff.mp h
    obtain ⟨userId, huser, h⟩ := bind_eq_ok_iff.mp h
    obtain rfl := pure_eq_ok_iff.mp h
    have hmatches := not_not.mp (bailWhen_eq_ok_iff.mp hstored)
    refine ⟨tokens, claims, ?_, validateSecret_eq_ok_iff.mp haccess,
      validateSecret_eq_ok_iff.mp hrefresh, hclaims, ?_, ?_, context_eq_ok_iff.mp huser,
      rfl, rfl, rfl, rfl⟩
    · obtain ⟨mode, tokens'⟩ := document
      obtain rfl : mode = some "chatgpt" := not_not.mp (bailWhen_eq_ok_iff.mp hmode)
      obtain rfl : tokens' = some tokens := context_eq_ok_iff.mp htokens
      exact context_eq_ok_iff.mp hdocument
    · simp only [hmatches]
      exact context_eq_ok_iff.mp haccount
    · simp only [hmatches]
  · intro h
    obtain ⟨tokens, claims, h⟩ := h
    obtain ⟨haccess, huser, hexpires, hrefresh⟩ := h.rest
    refine bind_eq_ok_iff.mpr ⟨_, context_eq_ok_iff.mpr h.document, ?_⟩
    refine bind_eq_ok_iff.mpr ⟨(), bailWhen_eq_ok_iff.mpr (by simp), ?_⟩
    refine bind_eq_ok_iff.mpr ⟨tokens, rfl, ?_⟩
    refine bind_eq_ok_iff.mpr ⟨(), validateSecret_eq_ok_iff.mpr h.accessSecret, ?_⟩
    refine bind_eq_ok_iff.mpr ⟨(), validateSecret_eq_ok_iff.mpr h.refreshSecret, ?_⟩
    refine bind_eq_ok_iff.mpr ⟨claims, h.decoded, ?_⟩
    refine bind_eq_ok_iff.mpr ⟨auth.accountId, context_eq_ok_iff.mpr h.account, ?_⟩
    refine bind_eq_ok_iff.mpr ⟨(), bailWhen_eq_ok_iff.mpr (not_not.mpr h.stored), ?_⟩
    refine bind_eq_ok_iff.mpr ⟨auth.accountUserId, context_eq_ok_iff.mpr h.user, ?_⟩
    rw [pure_eq_ok_iff, h.stored]
    obtain ⟨accessToken, accountId, accountUserId, authUserId, expiresAt, refreshToken⟩ := auth
    simp only at haccess huser hexpires hrefresh
    simp only [haccess, huser, hexpires, hrefresh]

/-! ### The fields of a map -/

/-- The tokens that are read from a map. -/
theorem AuthTokens.deserialize_eq_some_iff {m : Map} (h : m.Sorted) {tokens : AuthTokens} :
    AuthTokens.deserialize (.object m) = some tokens ↔
      Map.get m "access_token" = some (.string tokens.accessToken) ∧
      optionalField Value.asStr (Map.get m "account_id") = some tokens.accountId ∧
      Map.get m "refresh_token" = some (.string tokens.refreshToken) := by
  rw [AuthTokens.deserialize, openFields_of_sorted h]
  simp only [List.map_cons, List.map_nil, Option.bind_eq_bind, Option.bind_some,
    Option.bind_eq_some_iff, Option.pure_def, Option.some.injEq, Value.asStr_eq_some_iff]
  constructor
  · rintro ⟨_, haccess, accessToken, rfl, accountId, haccount, _, hrefresh, refreshToken, rfl, rfl⟩
    exact ⟨haccess, haccount, hrefresh⟩
  · intro hfields
    obtain ⟨haccess, haccount, hrefresh⟩ := hfields
    exact ⟨_, haccess, _, rfl, _, haccount, _, hrefresh, _, rfl, rfl⟩

/-- The authentication that is read from a map. -/
theorem AuthDocument.deserialize_eq_some_iff {m : Map} (h : m.Sorted) {document : AuthDocument} :
    AuthDocument.deserialize (.object m) = some document ↔
      optionalField Value.asStr (Map.get m "auth_mode") = some document.authMode ∧
      optionalField AuthTokens.deserialize (Map.get m "tokens") = some document.tokens := by
  rw [AuthDocument.deserialize, openFields_of_sorted h]
  simp only [List.map_cons, List.map_nil, Option.bind_eq_bind, Option.bind_some,
    Option.bind_eq_some_iff, Option.pure_def, Option.some.injEq]
  constructor
  · intro hfields
    obtain ⟨authMode, hmode, tokens, htokens, rfl⟩ := hfields
    exact ⟨hmode, htokens⟩
  · intro hfields
    obtain ⟨hmode, htokens⟩ := hfields
    exact ⟨_, hmode, _, htokens, rfl⟩

/-- The tokens of a document are those of its value. -/
theorem AuthTokens.deserialize_of_ofWritten {document : Value} {m : Map} {tokens : AuthTokens}
    (hvalue : document.ofWritten = .object m) (h : AuthTokens.deserialize document = some tokens) :
    AuthTokens.deserialize (.object m) = some tokens := by
  obtain ⟨members, rfl, -⟩ := Value.exists_of_ofWritten_eq_object hvalue
  simp only [AuthTokens.deserialize, Option.bind_eq_bind] at h ⊢
  obtain ⟨fields, hfields, h⟩ := Option.bind_eq_some_iff.mp h
  rw [openFields_ofWritten hvalue hfields, Option.bind_some]
  split at h
  next accessToken accountId refreshToken =>
    simp only [Option.bind_eq_some_iff, Option.pure_def, Value.asStr_eq_some_iff,
      List.map_cons, List.map_nil] at h ⊢
    obtain ⟨_, rfl, access, rfl, account, haccount, _, rfl, refresh, rfl, h⟩ := h
    refine ⟨_, rfl, access, rfl, account, ?_, _, rfl, refresh, rfl, h⟩
    rw [optionalField_ofWritten, haccount]
  next => contradiction

/-- The authentication of a document is that of its value, if its tokens are an object. -/
theorem AuthDocument.deserialize_of_ofWritten {document : Value} {m tm : Map}
    {mode : Option String} {tokens : AuthTokens} (hvalue : document.ofWritten = .object m)
    (htokens : Map.get m "tokens" = some (.object tm))
    (h : AuthDocument.deserialize document = some ⟨mode, some tokens⟩) :
    optionalField Value.asStr (Map.get m "auth_mode") = some mode ∧
      tm.Sorted ∧ AuthTokens.deserialize (.object tm) = some tokens := by
  obtain ⟨members, rfl, -⟩ := Value.exists_of_ofWritten_eq_object hvalue
  simp only [AuthDocument.deserialize, Option.bind_eq_bind] at h
  obtain ⟨fields, hfields, h⟩ := Option.bind_eq_some_iff.mp h
  have hmap := openFields_ofWritten hvalue hfields
  rw [openFields_of_sorted (Map.sorted_of_ofWritten hvalue)] at hmap
  split at h
  next authMode written =>
    simp only [List.map_cons, List.map_nil, Option.some.injEq, List.cons.injEq, and_true] at hmap
    obtain ⟨hmode, hwritten⟩ := hmap
    simp only [Option.bind_eq_some_iff, Option.pure_def, Option.some.injEq,
      AuthDocument.mk.injEq] at h
    obtain ⟨mode', hmode', tokens', htokens', rfl, rfl⟩ := h
    rw [htokens] at hwritten
    obtain ⟨w, rfl, hw⟩ := Option.map_eq_some_iff.mp hwritten.symm
    refine ⟨by rw [hmode, optionalField_ofWritten, hmode'], Map.sorted_of_ofWritten hw, ?_⟩
    obtain ⟨_, rfl, -⟩ := Value.exists_of_ofWritten_eq_object hw
    refine AuthTokens.deserialize_of_ofWritten hw ?_
    simpa [optionalField] using htokens'
  next => contradiction

/-! ### What is written -/

/-- The tokens after a merge: each secret that is new replaces the old one. -/
def AuthTokens.refreshed (tokens : AuthTokens) (response : RefreshResponse) : AuthTokens :=
  { tokens with
    accessToken := response.accessToken.getD tokens.accessToken
    refreshToken := response.refreshToken.getD tokens.refreshToken }

/-- Store a text, if there is one. -/
def storeText (key : String) (value : Option String) (tokens : Map) : Map :=
  match value with
  | none => tokens
  | some value => Map.insert tokens key (.string value)

/-- A stored text keeps the keys in order. -/
theorem sorted_storeText {tokens : Map} (h : tokens.Sorted) (key : String)
    (value : Option String) : (storeText key value tokens).Sorted := by
  cases value with
  | none => exact h
  | some value => exact h.insert key _

/-- The key holds the new text, or still the old one. -/
theorem get_storeText_self (key : String) (value : Option String) {tokens : Map} {old : String}
    (h : Map.get tokens key = some (.string old)) :
    Map.get (storeText key value tokens) key = some (.string (value.getD old)) := by
  cases value with
  | none => exact h
  | some value => exact Map.get_insert_self tokens key _

/-- Another key holds what it held. -/
theorem get_storeText_of_ne {key other : String} (hne : other ≠ key) (value : Option String)
    (tokens : Map) : Map.get (storeText key value tokens) other = Map.get tokens other := by
  cases value with
  | none => rfl
  | some value => exact Map.get_insert_of_ne tokens _ hne

/-- A new secret is checked and stored. -/
theorem storeSecret_eq_ok_iff {name key : String} {value : Option String} {tokens after : Map} :
    storeSecret name key value tokens = .ok after ↔
      (∀ secret ∈ value, IsSecret secret) ∧ storeText key value tokens = after := by
  cases value with
  | none => simp [storeSecret, storeText]
  | some value =>
    simp only [storeSecret, bind_eq_ok_iff, validateSecret_eq_ok_iff, pure_eq_ok_iff,
      exists_const, Option.mem_def, Option.some.injEq, forall_eq', storeText]

/-- A new access token is checked, decoded and stored. -/
theorem storeAccessToken_eq_ok_iff {value : Option String} {tokens after : Map} :
    storeAccessToken codec value tokens = .ok after ↔
      (∀ token ∈ value, IsSecret token ∧ ∃ claims, decodeAccessToken codec token = .ok claims) ∧
        storeText "access_token" value tokens = after := by
  cases value with
  | none => simp [storeAccessToken, storeText]
  | some value =>
    simp only [storeAccessToken, bind_eq_ok_iff, validateSecret_eq_ok_iff, pure_eq_ok_iff,
      exists_const, Option.mem_def, Option.some.injEq, forall_eq', storeText, exists_and_right,
      and_assoc]

/-- The document after a merge: the authentication of the old one with the new secrets, which have
passed their checks. -/
theorem deserialize_of_merge {contents merged : Value} {response : RefreshResponse}
    {refreshedAt : String} {mode : Option String} {tokens : AuthTokens}
    (hread : AuthDocument.deserialize contents = some ⟨mode, some tokens⟩)
    (hmerge : mergeRefreshResponse codec contents.ofWritten response refreshedAt = .ok merged) :
    AuthDocument.deserialize merged = some ⟨mode, some (tokens.refreshed response)⟩ ∧
      (∀ token ∈ response.accessToken,
        IsSecret token ∧ ∃ claims, decodeAccessToken codec token = .ok claims) ∧
      ∀ token ∈ response.refreshToken, IsSecret token := by
  obtain ⟨object, hobject, h⟩ := bind_eq_ok_iff.mp hmerge
  obtain ⟨old, hold, h⟩ := bind_eq_ok_iff.mp h
  obtain ⟨withAccess, haccess, h⟩ := bind_eq_ok_iff.mp h
  obtain ⟨withId, hid, h⟩ := bind_eq_ok_iff.mp h
  obtain ⟨withRefresh, hrefresh, h⟩ := bind_eq_ok_iff.mp h
  obtain rfl := pure_eq_ok_iff.mp h
  have hvalue := Value.asObject_eq_some_iff.mp (context_eq_ok_iff.mp hobject)
  obtain ⟨tokenValue, htokenValue, htokenObject⟩ :=
    Option.bind_eq_some_iff.mp (context_eq_ok_iff.mp hold)
  obtain rfl := Value.asObject_eq_some_iff.mp htokenObject
  obtain ⟨haccessChecked, rfl⟩ := storeAccessToken_eq_ok_iff.mp haccess
  obtain ⟨-, rfl⟩ := storeSecret_eq_ok_iff.mp hid
  obtain ⟨hrefreshChecked, rfl⟩ := storeSecret_eq_ok_iff.mp hrefresh
  obtain ⟨hmode, hsorted, htokens⟩ := AuthDocument.deserialize_of_ofWritten hvalue htokenValue hread
  obtain ⟨haccessOld, haccount, hrefreshOld⟩ :=
    (AuthTokens.deserialize_eq_some_iff hsorted).mp htokens
  refine ⟨?_, haccessChecked, hrefreshChecked⟩
  have hobjectSorted := Map.sorted_of_ofWritten hvalue
  rw [AuthDocument.deserialize_eq_some_iff ((hobjectSorted.insert _ _).insert _ _)]
  constructor
  · rw [Map.get_insert_of_ne _ _ (by decide), Map.get_insert_of_ne _ _ (by decide), hmode]
  · rw [Map.get_insert_of_ne _ _ (by decide), Map.get_insert_self]
    have hnew : AuthTokens.deserialize (.object (storeText "refresh_token" response.refreshToken
        (storeText "id_token" response.idToken
          (storeText "access_token" response.accessToken old)))) =
        some (tokens.refreshed response) := by
      rw [AuthTokens.deserialize_eq_some_iff
        (sorted_storeText (sorted_storeText (sorted_storeText hsorted _ _) _ _) _ _)]
      refine ⟨?_, ?_, ?_⟩
      · rw [get_storeText_of_ne (by decide), get_storeText_of_ne (by decide),
          get_storeText_self _ _ haccessOld]
        rfl
      · rw [get_storeText_of_ne (by decide), get_storeText_of_ne (by decide),
          get_storeText_of_ne (by decide), haccount]
        rfl
      · refine get_storeText_self _ _ ?_
        rw [get_storeText_of_ne (by decide), get_storeText_of_ne (by decide), hrefreshOld]
    rw [optionalField, hnew, Option.map_some]
    simp

end Rcodex
