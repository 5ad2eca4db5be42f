import Rcodex.Auth.Document
import Rcodex.Foundation.CompactJson

/-!
# A token refresh keeps the account

`refreshCodexAuth` is `refresh_codex_auth` when no other process changes the file: it reads the
document, asks for new tokens, puts them into the document, replaces the file and reads it again.

A merged document is read as the same account and user exactly when the claims of the new access
token name them (`keepsIdentity_iff`).  The merge does not look at these claims, and the file has
been replaced when they are found wrong.
-/

namespace Rcodex

open Json Result

/-- The errors of a refresh. -/
inductive RefreshError where
  | read
  | parse
  | inspect
  | auth (error : AuthError)
  | exchange
  | reread
  | save
deriving DecidableEq

/-- What the token server answers and whether the file operations succeed. -/
structure Exchange where
  /-- The answer of the server, if the exchange succeeds. -/
  response : Option RefreshResponse
  /-- Whether the file can be read again. -/
  reread : Bool
  /-- Whether the new document can be installed. -/
  saved : Bool
  /-- Whether the new file can be read. -/
  reloaded : Bool

/-- `refresh_codex_auth` on a file that no other process changes: its result and the contents of the
file afterwards. -/
def refreshCodexAuth (codec : Codec) (stored : Value) (exchange : Exchange)
    (refreshedAt : String) : Except RefreshError CodexAuth × Value :=
  match loadCodexAuth codec stored with
  | .error error => (.error (.auth error), stored)
  | .ok _ =>
    match exchange.response with
    | none => (.error .exchange, stored)
    | some response =>
      if exchange.reread = false then (.error .reread, stored)
      else
        match mergeRefreshResponse codec stored.ofWritten response refreshedAt with
        | .error error => (.error (.auth error), stored)
        | .ok updated =>
          if exchange.saved = false then (.error .save, stored)
          else if exchange.reloaded = false then (.error .inspect, updated)
          else ((loadCodexAuth codec updated).mapError .auth, updated)

/-- The merged document is read as the same account and user. -/
def KeepsIdentity (codec : Codec) (auth : CodexAuth) (merged : Value) : Prop :=
  ∃ after, loadCodexAuth codec merged = .ok after ∧ after.accountId = auth.accountId ∧
    after.accountUserId = auth.accountUserId

/-- A refresh with this answer that fails leaves the stored document as it was, if the new file can
be read. -/
def FailsUnchanged (codec : Codec) (stored : Value) (response : RefreshResponse)
    (refreshedAt : String) : Prop :=
  ∀ exchange error, exchange.response = some response → exchange.reloaded = true →
    (refreshCodexAuth codec stored exchange refreshedAt).1 = .error error →
    (refreshCodexAuth codec stored exchange refreshedAt).2 = stored

/-- The new access token, if there is one, names the account and the user. -/
def NamesIdentity (codec : Codec) (auth : CodexAuth) (response : RefreshResponse) : Prop :=
  ∀ token ∈ response.accessToken, ∀ claims, decodeAccessToken codec token = .ok claims →
    claims.claimAccountId = some auth.accountId ∧
      claims.claimAccountUserId = some auth.accountUserId

variable {codec : Codec} {contents merged : Value} {auth : CodexAuth}
  {response : RefreshResponse} {refreshedAt : String}

/-- A merged document keeps the identity exactly when the new access token names it. -/
theorem keepsIdentity_of_merge (hload : loadCodexAuth codec contents = .ok auth)
    (hmerge : mergeRefreshResponse codec contents.ofWritten response refreshedAt = .ok merged) :
    KeepsIdentity codec auth merged ↔ NamesIdentity codec auth response := by
  obtain ⟨tokens, claims, hreads⟩ := loadCodexAuth_eq_ok_iff.mp hload
  obtain ⟨hmerged, haccess, hrefresh⟩ := deserialize_of_merge hreads.document hmerge
  constructor
  · intro h token htoken newClaims hdecode
    obtain ⟨after, hafter, haccount, huser⟩ := h
    obtain ⟨newTokens, afterClaims, hnew⟩ := loadCodexAuth_eq_ok_iff.mp hafter
    obtain rfl : newTokens = tokens.refreshed response := by
      have hdocument := hnew.document
      rw [hmerged] at hdocument
      exact (Option.some.inj (AuthDocument.mk.inj (Option.some.inj hdocument)).2).symm
    have hdecoded := hnew.decoded
    simp only [AuthTokens.refreshed, Option.mem_def.mp htoken, Option.getD_some, hdecode]
      at hdecoded
    obtain rfl := Except.ok.inj hdecoded
    exact ⟨haccount ▸ hnew.account, huser ▸ hnew.user⟩
  · intro hnames
    -- the claims of the token that is stored now
    obtain ⟨newClaims, hsecret, hdecode, haccount, huser⟩ : ∃ newClaims,
        IsSecret (tokens.refreshed response).accessToken ∧
          decodeAccessToken codec (tokens.refreshed response).accessToken = .ok newClaims ∧
          newClaims.claimAccountId = some auth.accountId ∧
          newClaims.claimAccountUserId = some auth.accountUserId := by
      cases htoken : response.accessToken with
      | none =>
        simp only [AuthTokens.refreshed, htoken, Option.getD_none]
        exact ⟨claims, hreads.accessSecret, hreads.decoded, hreads.account, hreads.user⟩
      | some token =>
        obtain ⟨hsecret, newClaims, hdecode⟩ := haccess token htoken
        simp only [AuthTokens.refreshed, htoken, Option.getD_some]
        exact ⟨newClaims, hsecret, hdecode, hnames token htoken newClaims hdecode⟩
    have hrefreshSecret : IsSecret (tokens.refreshed response).refreshToken := by
      cases htoken : response.refreshToken with
      | none =>
        simp only [AuthTokens.refreshed, htoken, Option.getD_none]
        exact hreads.refreshSecret
      | some token =>
        simp only [AuthTokens.refreshed, htoken, Option.getD_some]
        exact hrefresh token htoken
    exact ⟨{ accessToken := (tokens.refreshed response).accessToken, accountId := auth.accountId,
             accountUserId := auth.accountUserId, authUserId := newClaims.auth.userId,
             expiresAt := newClaims.exp,
             refreshToken := (tokens.refreshed response).refreshToken },
      loadCodexAuth_eq_ok_iff.mpr ⟨_, newClaims, hmerged, hsecret, hrefreshSecret, hdecode,
        haccount, hreads.stored, huser, rfl, rfl, rfl, rfl⟩, rfl, rfl⟩

/-- A refresh that fails before the file is replaced leaves it as it was. -/
theorem failsUnchanged_of_load_merged
    (h : ∀ merged, mergeRefreshResponse codec contents.ofWritten response refreshedAt = .ok merged →
      ∃ after, loadCodexAuth codec merged = .ok after) :
    FailsUnchanged codec contents response refreshedAt := by
  intro exchange error hresponse hreloaded herror
  unfold refreshCodexAuth at herror ⊢
  cases hload : loadCodexAuth codec contents with
  | error => rfl
  | ok =>
    simp only [hload, hresponse] at herror ⊢
    by_cases hreread : exchange.reread = false
    · rw [if_pos hreread]
    rw [if_neg hreread] at herror ⊢
    cases hmerge : mergeRefreshResponse codec contents.ofWritten response refreshedAt with
    | error => rfl
    | ok updated =>
      simp only [hmerge] at herror ⊢
      by_cases hsaved : exchange.saved = false
      · rw [if_pos hsaved]
      · obtain ⟨after, hafter⟩ := h updated hmerge
        rw [if_neg hsaved, if_neg (by simp [hreloaded]), hafter] at herror
        contradiction

/-- For every document that can be read and every answer of the server: a merge that succeeds keeps
the account and the user, and a refresh that fails leaves the file alone, if the new file can be
read, exactly when the new access token names this account and user; without a merge the file is
left alone in any case. -/
theorem keepsIdentity_iff (codec : Codec) (contents : Value) (auth : CodexAuth)
    (response : RefreshResponse) (refreshedAt : String)
    (hload : loadCodexAuth codec contents = .ok auth) :
    (∀ merged, mergeRefreshResponse codec contents.ofWritten response refreshedAt = .ok merged →
      (KeepsIdentity codec auth merged ∧ FailsUnchanged codec contents response refreshedAt ↔
        NamesIdentity codec auth response)) ∧
    ∀ error, mergeRefreshResponse codec contents.ofWritten response refreshedAt = .error error →
      FailsUnchanged codec contents response refreshedAt := by
  refine ⟨fun merged hmerge => ?_, fun error hmerge => ?_⟩
  · have hkeeps := keepsIdentity_of_merge hload hmerge
    refine ⟨fun h => hkeeps.mp h.1, fun h => ⟨hkeeps.mpr h, failsUnchanged_of_load_merged ?_⟩⟩
    intro merged' hmerge'
    obtain rfl := Except.ok.inj (hmerge.symm.trans hmerge')
    obtain ⟨after, hafter, -⟩ := hkeeps.mpr h
    exact ⟨after, hafter⟩
  · refine failsUnchanged_of_load_merged fun merged hmerge' => ?_
    rw [hmerge] at hmerge'
    contradiction

/-- The document of claims with this identity. -/
def claimsDocument (identity : Map) : Value :=
  .object [("exp", .ofU64 9), ("https://api.openai.com/auth", .object identity)]

/-- The claims of a member of a workspace. -/
def memberClaims : Value :=
  claimsDocument [("account_id", .string "w"), ("account_user_id", .string "m")]

/-- Claims that name nobody. -/
def nobodyClaims : Value := claimsDocument []

/-- The base64 text of the claims of the member. -/
def memberPayload : String :=
  "eyJleHAiOjksImh0dHBzOi8vYXBpLm9wZW5haS5jb20vYXV0aCI6eyJhY2NvdW50X2lkIjoidyIsImFjY291bnRf" ++
    "dXNlcl9pZCI6Im0ifX0"

/-- The base64 text of the claims that name nobody. -/
def nobodyPayload : String := "eyJleHAiOjksImh0dHBzOi8vYXBpLm9wZW5haS5jb20vYXV0aCI6e319"

/-- A codec that knows the two claims. -/
def claimsCodec : Codec :=
  { plainCodec [memberClaims, nobodyClaims] with
    decode := fun text =>
      if text = memberPayload then some ((plainCodec []).toVec memberClaims)
      else if text = nobodyPayload then some ((plainCodec []).toVec nobodyClaims)
      else none }

/-- The authentication of the member. -/
def memberAuth : CodexAuth :=
  { accessToken := "e30." ++ memberPayload ++ ".s", accountId := "w", accountUserId := "m",
    authUserId := none, expiresAt := 9, refreshToken := "old" }

/-- The document of the member. -/
def memberDocument : Value :=
  .object [("auth_mode", .string "chatgpt"), ("tokens", .object
    [("access_token", .string memberAuth.accessToken), ("refresh_token", .string "old")])]

/-- The access token of the member has the claims of the member. -/
theorem decodeAccessToken_member : decodeAccessToken claimsCodec memberAuth.accessToken =
    .ok ⟨9, ⟨some "w", some "m", none, none, none⟩⟩ := by
  decide +kernel

/-- The document of the member is read. -/
theorem loadCodexAuth_member : loadCodexAuth claimsCodec memberDocument = .ok memberAuth := by
  refine loadCodexAuth_eq_ok_iff.mpr ⟨⟨memberAuth.accessToken, none, "old"⟩, _, ?_, ?_, ?_,
    decodeAccessToken_member, rfl, rfl, rfl, rfl, rfl, rfl, rfl⟩
  · rfl
  · decide +kernel
  · decide +kernel

/-- A new token of the member and a new refresh token keep the account. -/
theorem keepsIdentity_rotated :
    let response : RefreshResponse := ⟨some memberAuth.accessToken, none, some "new"⟩
    ∀ merged, mergeRefreshResponse claimsCodec memberDocument.ofWritten response "now" =
      .ok merged → KeepsIdentity claimsCodec memberAuth merged := by
  intro response merged hmerge
  refine (((keepsIdentity_iff claimsCodec memberDocument memberAuth response "now"
    loadCodexAuth_member).1 merged hmerge).mpr ?_).1
  intro token htoken claims hclaims
  obtain rfl := Option.some.inj htoken
  obtain rfl := Except.ok.inj (decodeAccessToken_member.symm.trans hclaims)
  exact ⟨rfl, rfl⟩

/-- The answer of a server with a token that names nobody. -/
def nobodyResponse : RefreshResponse := ⟨some ("e30." ++ nobodyPayload ++ ".s"), none, none⟩

/-- The document of the member with this token. -/
def nobodyDocument : Value :=
  .object [("auth_mode", .string "chatgpt"), ("last_refresh", .string "2026-08-31T13:00:00Z"),
    ("tokens", .object [("access_token", .string ("e30." ++ nobodyPayload ++ ".s")),
      ("refresh_token", .string "old")])]

/-- The merge accepts a token that names nobody: the refresh fails, and the document is gone. -/
theorem not_keepsIdentity_nobody :
    loadCodexAuth claimsCodec memberDocument = .ok memberAuth ∧
      mergeRefreshResponse claimsCodec memberDocument.ofWritten nobodyResponse
        "2026-08-31T13:00:00Z" = .ok nobodyDocument ∧
      loadCodexAuth claimsCodec nobodyDocument = .error .noAccountId ∧
      refreshCodexAuth claimsCodec memberDocument ⟨some nobodyResponse, true, true, true⟩
        "2026-08-31T13:00:00Z" = (.error (.auth .noAccountId), nobodyDocument) ∧
      ¬KeepsIdentity claimsCodec memberAuth nobodyDocument ∧
      ¬FailsUnchanged claimsCodec memberDocument nobodyResponse "2026-08-31T13:00:00Z" := by
  have hmerge : mergeRefreshResponse claimsCodec memberDocument.ofWritten nobodyResponse
      "2026-08-31T13:00:00Z" = .ok nobodyDocument := by decide +kernel
  have hload : loadCodexAuth claimsCodec nobodyDocument = .error .noAccountId := by decide +kernel
  have hrefresh : refreshCodexAuth claimsCodec memberDocument
      ⟨some nobodyResponse, true, true, true⟩ "2026-08-31T13:00:00Z" =
        (.error (.auth .noAccountId), nobodyDocument) := by
    simp only [refreshCodexAuth, loadCodexAuth_member, hmerge, hload, Bool.true_eq_false, if_false]
    rfl
  refine ⟨loadCodexAuth_member, hmerge, hload, hrefresh, ?_, fun h => ?_⟩
  · intro h
    obtain ⟨after, hafter, -⟩ := h
    rw [hload] at hafter
    cases hafter
  · have hunchanged := h ⟨some nobodyResponse, true, true, true⟩ (.auth .noAccountId) rfl rfl
      (by rw [hrefresh])
    rw [hrefresh] at hunchanged
    have hne : nobodyDocument ≠ memberDocument := by decide +kernel
    exact hne hunchanged

end Rcodex
