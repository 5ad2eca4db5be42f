import Rcodex.Controller.Api

/-!
# What a request to the relay does

A call of `send_with_status_policy` authenticates, sends its request, and repeats it after a `401`
and after a `429` or a failure of the server.  `RelayCall.Ended` says what was done when it ends:
every act is part of this call (`RelayCall.Part`), it has sent at most five requests and has waited
at most 90 seconds, it has repeated the request only after responses that ask for it, and its result
is that of the last act.  `sendWithStatusPolicy_ended` proves this for every relay, where
`RelayCall.Progress` is the invariant of the loop.
-/

namespace Rcodex

open Json Result Audit

/-! ### The acts of a call -/

/-- The response to a request. -/
def Act.responded : Act → Option (Option HttpResponse)
  | .exchange _ response => some response
  | _ => none

/-- How long the process waits. -/
def Act.paused : Act → ℕ
  | .sleep milliseconds => milliseconds
  | _ => 0

/-- The authentication that is read or refreshed. -/
def Act.authenticated : Act → Option CodexAuth
  | .loadAuth (.ok auth) | .refreshAuth (.ok auth) => some auth
  | _ => none

/-- The responses to the requests. -/
def responses (acts : List Act) : List (Option HttpResponse) := acts.filterMap Act.responded

/-- How long the process waits in all. -/
def pausedTime (acts : List Act) : ℕ := (acts.map Act.paused).sum

/-- The latest authentication. -/
def latestAuth (acts : List Act) : Option CodexAuth := (acts.filterMap Act.authenticated).getLast?

@[simp] theorem responses_append (acts later : List Act) :
    responses (acts ++ later) = responses acts ++ responses later := List.filterMap_append

@[simp] theorem pausedTime_append (acts later : List Act) :
    pausedTime (acts ++ later) = pausedTime acts + pausedTime later := by
  simp [pausedTime]

@[simp] theorem responses_exchange (request : HttpRequest) (response : Option HttpResponse) :
    responses [.exchange request response] = [response] := rfl

/-- The latest authentication after one more act. -/
theorem latestAuth_concat (acts : List Act) (act : Act) :
    latestAuth (acts ++ [act]) = act.authenticated.or (latestAuth acts) := by
  cases h : act.authenticated <;> simp [latestAuth, h]

/-- The response asks for another authentication. -/
def HttpResponse.IsUnauthorized (response : HttpResponse) : Prop := response.status = 401

instance (response : HttpResponse) : Decidable response.IsUnauthorized :=
  inferInstanceAs (Decidable (_ = _))

/-- A response that asks for another authentication does not ask to come back later. -/
theorem HttpResponse.IsUnauthorized.not_isRetryable {response : HttpResponse}
    (h : response.IsUnauthorized) : ¬response.IsRetryable := by
  unfold IsUnauthorized at h
  unfold IsRetryable
  omega

/-- How many of the requests were refused for their authentication. -/
def unauthorizedCount (received : List (Option HttpResponse)) : ℕ :=
  received.countP fun response => decide (∃ r ∈ response, r.IsUnauthorized)

/-- How many of the requests have to be repeated later. -/
def retryableCount (received : List (Option HttpResponse)) : ℕ :=
  received.countP fun response => decide (∃ r ∈ response, r.IsRetryable)

/-- The arguments of `send_with_status_policy`. -/
structure RelayCall where
  /-- The method. -/
  method : Method
  /-- The path. -/
  path : String
  /-- The body. -/
  body : Option Value
  /-- Whether the object may be missing. -/
  allowNotFound : Bool

namespace RelayCall

variable (call : RelayCall)

/-- The request with an authentication. -/
def request (auth : CodexAuth) : HttpRequest where
  method := call.method
  url := apiBase ++ call.path
  accessToken := auth.accessToken
  accountId := auth.accountId
  body := call.body

/-- The response is what the call returns. -/
def Accepts (response : HttpResponse) : Prop :=
  response.IsSuccess ∨ call.allowNotFound = true ∧ response.status = 404

/-- The authentication was refreshed, or does not expire soon. -/
def IsFresh (auth : CodexAuth) (acts : List Act) : Prop :=
  .refreshAuth (.ok auth) ∈ acts ∨ ∃ now, .clock now ∈ acts ∧ ¬auth.NeedsRefresh now

/-- An act of the call, after earlier ones: a pause follows a response that asks for it and is as
long as it asks for; a request has the latest authentication and does not follow a response at
once. -/
inductive Part (earlier : List Act) : Act → Prop
  | loadAuth (result : Except String CodexAuth) : Part earlier (.loadAuth result)
  | refreshAuth (result : Except String CodexAuth) : Part earlier (.refreshAuth result)
  | clock (now : Int64) : Part earlier (.clock now)
  | sleep {response : HttpResponse}
      (hlast : earlier.getLast?.bind Act.responded = some (some response))
      (hretryable : response.IsRetryable)
      (hretry : retryableCount (responses earlier).dropLast < 3) :
      Part earlier (.sleep (retryDelay response (retryableCount (responses earlier).dropLast)))
  | exchange {auth : CodexAuth} (hlatest : latestAuth earlier = some auth)
      (hfresh : IsFresh auth earlier) (hready : earlier.getLast?.bind Act.responded = none)
      (response : Option HttpResponse) : Part earlier (.exchange (call.request auth) response)

/-- How the call has ended, after its acts. -/
def Concludes (acts : List Act) : Except ControllerError HttpResponse → Prop
  | .ok response =>
    (∃ request, acts.getLast? = some (.exchange request (some response))) ∧ call.Accepts response
  | .error (.status code) => ∃ request response,
    acts.getLast? = some (.exchange request (some response)) ∧ response.status = code ∧
      ¬call.Accepts response ∧
      (response.IsUnauthorized → unauthorizedCount (responses acts).dropLast = 1) ∧
      (response.IsRetryable → retryableCount (responses acts).dropLast = 3)
  | .error .send => (responses acts).getLast? = some none ∨ ∃ auth, latestAuth acts = some auth ∧
    ¬(IsHeaderValue ("Bearer " ++ auth.accessToken) ∧ IsHeaderValue auth.accountId)
  | .error (.auth text) => acts.getLast? = some (.loadAuth (.error text)) ∨
    acts.getLast? = some (.refreshAuth (.error text))
  | .error _ => False

/-- What was done when the call has ended. -/
structure Ended (result : Except ControllerError HttpResponse) (acts : List Act) : Prop where
  /-- Each act is part of the call. -/
  audited : Audited call.Part acts
  /-- At most five requests were sent. -/
  requests_le : (responses acts).length ≤ 5
  /-- At most 90 seconds were spent waiting. -/
  paused_le : pausedTime acts ≤ 90000
  /-- A request was repeated only when its response asked for it. -/
  repeated : ∀ response ∈ (responses acts).dropLast, ∃ r, response = some r ∧
    (r.IsUnauthorized ∨ r.IsRetryable)
  /-- At most once for the authentication. -/
  unauthorized_le : unauthorizedCount (responses acts).dropLast ≤ 1
  /-- At most three times for another reason. -/
  retryable_le : retryableCount (responses acts).dropLast ≤ 3
  /-- The result is that of the last act. -/
  concludes : call.Concludes acts result

/-- What was done before a request of the loop is sent. -/
structure Progress (auth : CodexAuth) (refreshed : Bool) (retryCount : ℕ) (acts : List Act) :
    Prop where
  /-- Each act is part of the call. -/
  audited : Audited call.Part acts
  /-- The authentication is the latest one. -/
  latest : latestAuth acts = some auth
  /-- It does not expire soon. -/
  fresh : IsFresh auth acts
  /-- The last response was acted upon. -/
  ready : acts.getLast?.bind Act.responded = none
  /-- All responses asked for a repetition. -/
  repeated : ∀ response ∈ responses acts, ∃ r, response = some r ∧
    (r.IsUnauthorized ∨ r.IsRetryable)
  /-- One of them for the authentication, if it was refreshed. -/
  unauthorized_eq : unauthorizedCount (responses acts) = if refreshed then 1 else 0
  /-- The others for another reason. -/
  retryable_eq : retryableCount (responses acts) = retryCount
  /-- There are at most three of those. -/
  retry_le : retryCount ≤ 3
  /-- After each of them at most 30 seconds were spent waiting. -/
  paused_le : pausedTime acts ≤ 30000 * retryCount

/-! ### One more act -/

/-- One more response. -/
theorem unauthorizedCount_concat (received : List (Option HttpResponse)) (response : HttpResponse) :
    unauthorizedCount (received ++ [some response]) =
      unauthorizedCount received + if response.IsUnauthorized then 1 else 0 := by
  simp [unauthorizedCount, List.countP_singleton]

/-- One more response. -/
theorem retryableCount_concat (received : List (Option HttpResponse)) (response : HttpResponse) :
    retryableCount (received ++ [some response]) =
      retryableCount received + if response.IsRetryable then 1 else 0 := by
  simp [retryableCount, List.countP_singleton]

/-- Each response asks for another authentication or for a repetition, and not for both. -/
theorem length_eq_of_repeated {received : List (Option HttpResponse)}
    (h : ∀ response ∈ received, ∃ r, response = some r ∧ (r.IsUnauthorized ∨ r.IsRetryable)) :
    received.length = unauthorizedCount received + retryableCount received := by
  rw [List.length_eq_countP_add_countP fun response => decide (∃ r ∈ response, r.IsUnauthorized)]
  refine congrArg _ (List.countP_congr fun response hmem => ?_)
  obtain ⟨r, rfl, hr⟩ := h response hmem
  have hnot : r.IsUnauthorized → ¬r.IsRetryable := fun h => h.not_isRetryable
  simp only [Option.mem_some_iff, exists_eq_left', decide_eq_true_eq]
  exact ⟨hr.resolve_left, fun hretryable hunauthorized => hnot hunauthorized hretryable⟩

/-- All but the last of a list and at most one more element are elements of the list. -/
theorem dropLast_append_sublist {α : Type} (xs : List α) {ys : List α} (h : ys.length ≤ 1) :
    (xs ++ ys).dropLast.Sublist xs := by
  rcases ys with - | ⟨y, - | ⟨z, ys⟩⟩
  · rw [List.append_nil]
    exact List.dropLast_sublist xs
  · rw [List.dropLast_concat]
  · simp at h

/-- A request and an act that is none. -/
theorem responses_exchange_concat (acts : List Act) (request : HttpRequest)
    (response : Option HttpResponse) (act : Act) (h : act.responded = none) :
    responses (acts ++ [.exchange request response] ++ [act]) = responses acts ++ [response] := by
  rw [responses_append, responses_append, responses_exchange]
  simp [responses, h]

variable {call} {auth : CodexAuth} {refreshed : Bool} {retryCount : ℕ} {acts : List Act}

/-- The call ends after at most one more request. -/
theorem Progress.ended (h : call.Progress auth refreshed retryCount acts) (more : List Act)
    (result : Except ControllerError HttpResponse) (haudited : Audited call.Part (acts ++ more))
    (hresponses : (responses more).length ≤ 1) (hpaused : pausedTime more = 0)
    (hconcludes : call.Concludes (acts ++ more) result) : call.Ended result (acts ++ more) := by
  have hsublist := dropLast_append_sublist (responses acts) hresponses
  have hunauthorized := h.unauthorized_eq
  have hretryable := h.retryable_eq
  have hretry := h.retry_le
  have hle : unauthorizedCount (responses acts) ≤ 1 := by
    split_ifs at hunauthorized <;> omega
  constructor
  · exact haudited
  · rw [responses_append, List.length_append, length_eq_of_repeated h.repeated]
    omega
  · have hpause := h.paused_le
    rw [pausedTime_append, hpaused]
    omega
  · intro response hmem
    rw [responses_append] at hmem
    exact h.repeated response (hsublist.subset hmem)
  · rw [responses_append]
    exact hsublist.countP_le.trans hle
  · rw [responses_append]
    exact hsublist.countP_le.trans (hretryable.le.trans hretry)
  · exact hconcludes

/-- A request that is sent is part of the call. -/
theorem Progress.exchange_audited (h : call.Progress auth refreshed retryCount acts)
    (response : Option HttpResponse) :
    Audited call.Part (acts ++ [.exchange (call.request auth) response]) :=
  audited_concat_iff.mpr ⟨h.audited, .exchange h.latest h.fresh h.ready response⟩

/-- The authentication is refreshed after a response that asks for it. -/
theorem Progress.refresh (h : call.Progress auth false retryCount acts) {response : HttpResponse}
    (hresponse : response.IsUnauthorized) (renewed : CodexAuth) :
    call.Progress renewed true retryCount
      (acts ++ [.exchange (call.request auth) (some response)] ++
        [.refreshAuth (.ok renewed)]) := by
  have hresponses := responses_exchange_concat acts (call.request auth) (some response)
    (.refreshAuth (.ok renewed)) rfl
  constructor
  · exact audited_concat_iff.mpr ⟨h.exchange_audited _, .refreshAuth _⟩
  · rw [latestAuth_concat]
    rfl
  · exact Or.inl (List.mem_append_right _ (List.mem_singleton.mpr rfl))
  · rw [List.getLast?_concat]
    rfl
  · rw [hresponses, List.forall_mem_append]
    exact ⟨h.repeated, fun _ hmem => ⟨response, List.mem_singleton.mp hmem, Or.inl hresponse⟩⟩
  · rw [hresponses, unauthorizedCount_concat, h.unauthorized_eq, if_pos hresponse]
    rfl
  · rw [hresponses, retryableCount_concat, h.retryable_eq, if_neg hresponse.not_isRetryable,
      Nat.add_zero]
  · exact h.retry_le
  · rw [pausedTime_append, pausedTime_append]
    exact h.paused_le

/-- A pause lasts at most 30 seconds. -/
theorem retryDelay_le (response : HttpResponse) {retryCount : ℕ} (h : retryCount < 3) :
    retryDelay response retryCount ≤ 30000 := by
  unfold retryDelay
  split
  next seconds hseconds =>
    obtain ⟨value, -, hvalue⟩ := Option.bind_eq_some_iff.mp hseconds
    obtain ⟨_, -, rfl⟩ := Option.map_eq_some_iff.mp hvalue
    omega
  next =>
    have hpow : 2 ^ retryCount ≤ 2 ^ 2 := Nat.pow_le_pow_right (by omega) (by omega)
    omega

/-- The process waits after a response that asks for it. -/
theorem Progress.retry (h : call.Progress auth refreshed retryCount acts) {response : HttpResponse}
    (hresponse : response.IsRetryable) (hretry : retryCount < 3) :
    call.Progress auth refreshed (retryCount + 1)
      (acts ++ [.exchange (call.request auth) (some response)] ++
        [.sleep (retryDelay response retryCount)]) := by
  have hresponses := responses_exchange_concat acts (call.request auth) (some response)
    (.sleep (retryDelay response retryCount)) rfl
  have hle := retryDelay_le response hretry
  have hnot : ¬response.IsUnauthorized := fun h => h.not_isRetryable hresponse
  constructor
  · -- The count of the loop is that of the responses before the last one.
    have hcount : retryableCount (responses (acts ++
        [Act.exchange (call.request auth) (some response)])).dropLast = retryCount := by
      rw [responses_append, responses_exchange, List.dropLast_concat, h.retryable_eq]
    have hlast : (acts ++ [Act.exchange (call.request auth) (some response)]).getLast?.bind
        Act.responded = some (some response) := by
      rw [List.getLast?_concat]
      rfl
    have hsleep : call.Part _ _ := .sleep hlast hresponse (by rwa [hcount])
    rw [hcount] at hsleep
    exact audited_concat_iff.mpr ⟨h.exchange_audited _, hsleep⟩
  · rw [latestAuth_concat, latestAuth_concat]
    exact h.latest
  · refine h.fresh.imp (fun hmem => ?_) fun hmem => ?_
    · exact List.mem_append_left _ (List.mem_append_left _ hmem)
    · obtain ⟨now, hmem, hneeds⟩ := hmem
      exact ⟨now, List.mem_append_left _ (List.mem_append_left _ hmem), hneeds⟩
  · rw [List.getLast?_concat]
    rfl
  · rw [hresponses, List.forall_mem_append]
    exact ⟨h.repeated, fun _ hmem => ⟨response, List.mem_singleton.mp hmem, Or.inr hresponse⟩⟩
  · rw [hresponses, unauthorizedCount_concat, h.unauthorized_eq, if_neg hnot]
    rfl
  · rw [hresponses, retryableCount_concat, h.retryable_eq, if_pos hresponse]
  · omega
  · have hpause := h.paused_le
    rw [pausedTime_append, pausedTime_append]
    simp only [pausedTime, List.map_cons, List.map_nil, List.sum_cons, List.sum_nil,
      Act.paused] at hpause ⊢
    omega

/-! ### The loop -/

section Loop

variable {outside : ControllerOutside} {start : Controller} (call)

/-- A request is sent once. -/
theorem sendOnce_triple :
    Effect.Triple (start.Continues (call.Progress auth refreshed retryCount))
      (RelayApi.sendOnce outside call.method call.path call.body auth)
      (fun response => start.Continues fun acts => ∃ earlier,
        acts = earlier ++ [.exchange (call.request auth) (some response)] ∧
          call.Progress auth refreshed retryCount earlier)
      (fun error => start.Continues (call.Ended (.error error))) := by
  refine Effect.Triple.bind
    (Q := fun _ => start.Continues (call.Progress auth refreshed retryCount))
    (Effect.Triple.failWhen_of (fun _ h _ => h) fun _ h hheader => ?_)
    fun _ => Effect.Triple.bind (Q := fun response => start.Continues fun acts => ∃ earlier,
      acts = earlier ++ [.exchange (call.request auth) response] ∧
        call.Progress auth refreshed retryCount earlier) ?_ fun response => ?_
  · refine h.mono fun acts hprogress => ?_
    have hended := hprogress.ended [] (.error .send)
    rw [List.append_nil] at hended
    exact hended hprogress.audited (Nat.zero_le _) rfl (Or.inr ⟨auth, hprogress.latest, hheader⟩)
  · exact consult_triple fun response acts hprogress => ⟨acts, rfl, hprogress⟩
  · refine Effect.Triple.lift (fun r hr controller h => ?_) fun error herror controller h => ?_
    · rw [context_eq_ok_iff.mp hr] at h
      exact h
    · cases response with
      | some r => contradiction
      | none =>
        obtain rfl : ControllerError.send = error := Except.error.inj herror
        refine h.mono fun acts hacts => ?_
        obtain ⟨earlier, rfl, hprogress⟩ := hacts
        exact hprogress.ended _ _ (hprogress.exchange_audited none) (le_refl _) rfl
          (Or.inl (by rw [responses_append, responses_exchange, List.getLast?_concat]))

/-- An authentication is read or refreshed. -/
theorem authenticate_triple {answer : List Act → Except String CodexAuth}
    {act : Except String CodexAuth → Act} {S : List Act → Prop} {T : CodexAuth → List Act → Prop}
    {F : ControllerError → List Act → Prop}
    (hok : ∀ auth acts, S acts → T auth (acts ++ [act (.ok auth)]))
    (herror : ∀ text acts, S acts → F (.auth text) (acts ++ [act (.error text)])) :
    Effect.Triple (start.Continues S)
      (do
        let result ← consult answer act
        Effect.lift (result.mapError .auth))
      (fun auth => start.Continues (T auth)) (fun error => start.Continues (F error)) := by
  refine Effect.Triple.bind (Q := fun result => start.Continues fun acts => ∃ earlier,
    acts = earlier ++ [act result] ∧ S earlier) ?_ fun result => ?_
  · exact consult_triple fun result acts hS => ⟨acts, rfl, hS⟩
  · cases result with
    | ok auth =>
      refine Effect.Triple.lift (fun a ha controller h => h.mono fun acts hacts => ?_)
        fun _ herror => by simp [Except.mapError] at herror
      obtain rfl : auth = a := Except.ok.inj ha
      obtain ⟨earlier, rfl, hS⟩ := hacts
      exact hok auth earlier hS
    | error text =>
      refine Effect.Triple.lift (fun _ hok => by simp [Except.mapError] at hok)
        fun error he controller h => h.mono fun acts hacts => ?_
      obtain rfl : ControllerError.auth text = error := Except.error.inj he
      obtain ⟨earlier, rfl, hS⟩ := hacts
      exact herror text earlier hS

/-- The authentication is refreshed after a response that asks for it. -/
theorem refreshAuth_triple {response : HttpResponse} (hresponse : response.IsUnauthorized) :
    Effect.Triple (start.Continues fun acts => ∃ earlier,
        acts = earlier ++ [.exchange (call.request auth) (some response)] ∧
          call.Progress auth false retryCount earlier)
      (refreshAuth outside)
      (fun renewed => start.Continues (call.Progress renewed true retryCount))
      (fun error => start.Continues (call.Ended (.error error))) := by
  refine authenticate_triple (fun renewed acts hacts => ?_) fun text acts hacts => ?_
  · obtain ⟨earlier, rfl, hprogress⟩ := hacts
    exact hprogress.refresh hresponse renewed
  · obtain ⟨earlier, rfl, hprogress⟩ := hacts
    rw [List.append_assoc]
    refine hprogress.ended _ _ ?_ (le_refl _) rfl (Or.inr ?_)
    · rw [← List.append_assoc]
      exact audited_concat_iff.mpr ⟨hprogress.exchange_audited _, .refreshAuth _⟩
    · rw [← List.append_assoc, List.getLast?_concat]

/-- A response that is final ends the call. -/
theorem Progress.final (h : call.Progress auth refreshed retryCount acts) {response : HttpResponse}
    (hunauthorized : ¬(response.IsUnauthorized ∧ refreshed = false))
    (hretryable : ¬(response.IsRetryable ∧ retryCount < 3)) :
    (call.Accepts response → call.Ended (.ok response)
      (acts ++ [.exchange (call.request auth) (some response)])) ∧
    (¬call.Accepts response → call.Ended (.error (.status response.status))
      (acts ++ [.exchange (call.request auth) (some response)])) := by
  have hlast : (acts ++ [Act.exchange (call.request auth) (some response)]).getLast? =
      some (.exchange (call.request auth) (some response)) := List.getLast?_concat
  have hended := fun result => h.ended _ result (h.exchange_audited (some response))
    (le_refl _) rfl
  refine ⟨fun haccepts => hended _ ⟨⟨_, hlast⟩, haccepts⟩, fun haccepts => hended _
    ⟨_, response, hlast, rfl, haccepts, fun hresponse => ?_, fun hresponse => ?_⟩⟩
  · have hrefreshed : refreshed = true := by
      by_contra hfalse
      exact hunauthorized ⟨hresponse, Bool.not_eq_true _ ▸ hfalse⟩
    rw [responses_append, responses_exchange, List.dropLast_concat, h.unauthorized_eq, hrefreshed]
    rfl
  · have hretry : retryCount = 3 := by
      have hle := h.retry_le
      by_contra hne
      exact hretryable ⟨hresponse, by omega⟩
    rw [responses_append, responses_exchange, List.dropLast_concat, h.retryable_eq, hretry]

/-- The loop ends as the call does. -/
theorem sendLoop_triple (auth : CodexAuth) (refreshed : Bool) (retryCount : ℕ) :
    Effect.Triple (start.Continues (call.Progress auth refreshed retryCount))
      (RelayApi.sendLoop outside call.method call.path call.body call.allowNotFound auth refreshed
        retryCount)
      (fun response => start.Continues (call.Ended (.ok response)))
      (fun error => start.Continues (call.Ended (.error error))) := by
  induction auth, refreshed, retryCount using RelayApi.sendLoop.induct with
  | case1 auth refreshed retryCount ihRefresh ihRetry =>
    rw [RelayApi.sendLoop]
    refine Effect.Triple.bind (sendOnce_triple call) fun response => ?_
    split_ifs with hunauthorized hretry
    · obtain ⟨hstatus, rfl⟩ := hunauthorized
      exact Effect.Triple.bind (refreshAuth_triple call hstatus) fun renewed =>
        ihRefresh response ⟨hstatus, rfl⟩ renewed
    · refine Effect.Triple.bind (Q := fun _ => start.Continues
        (call.Progress auth refreshed (retryCount + 1))) ?_ fun _ => ihRetry response hretry
      refine Effect.Triple.change fun controller h => ?_
      refine h.did fun acts hacts => ?_
      obtain ⟨earlier, rfl, hprogress⟩ := hacts
      exact hprogress.retry hretry.1 hretry.2
    · refine Effect.Triple.bind (Q := fun _ => start.Continues (call.Ended (.ok response)))
        (Effect.Triple.failWhen_of (fun controller h haccepts => ?_)
          fun controller h haccepts => ?_)
        fun _ => Effect.Triple.ret fun _ h => h
      · refine h.mono fun acts hacts => ?_
        obtain ⟨earlier, rfl, hprogress⟩ := hacts
        exact (hprogress.final call hunauthorized hretry).1 (not_not.mp haccepts)
      · refine h.mono fun acts hacts => ?_
        obtain ⟨earlier, rfl, hprogress⟩ := hacts
        exact (hprogress.final call hunauthorized hretry).2 haccepts

/-- The acts of a call before its first request. -/
structure Begun (acts : List Act) : Prop where
  /-- Each act is part of the call. -/
  audited : Audited call.Part acts
  /-- There was no request. -/
  responses_eq : responses acts = []
  /-- There was no pause. -/
  paused_eq : pausedTime acts = 0

/-- One more act that is no request and no pause. -/
theorem Begun.concat (h : call.Begun acts) {act : Act} (hpart : call.Part acts act)
    (hresponded : act.responded = none) (hpaused : act.paused = 0) :
    call.Begun (acts ++ [act]) where
  audited := audited_concat_iff.mpr ⟨h.audited, hpart⟩
  responses_eq := by
    rw [responses_append, h.responses_eq]
    simp [responses, hresponded]
  paused_eq := by
    rw [pausedTime_append, h.paused_eq]
    simp [pausedTime, hpaused]

/-- The loop starts with an authentication that does not expire soon. -/
theorem Begun.progress (h : call.Begun acts) (hlatest : latestAuth acts = some auth)
    (hfresh : IsFresh auth acts) : call.Progress auth false 0 acts where
  audited := h.audited
  latest := hlatest
  fresh := hfresh
  ready := by
    cases hlast : acts.getLast? with
    | none => rfl
    | some act => exact List.filterMap_eq_nil_iff.mp h.responses_eq act (List.mem_of_getLast? hlast)
  repeated := by
    rw [h.responses_eq]
    simp
  unauthorized_eq := by
    rw [h.responses_eq]
    rfl
  retryable_eq := by
    rw [h.responses_eq]
    rfl
  retry_le := Nat.zero_le _
  paused_le := h.paused_eq.le

/-- There is no authentication. -/
theorem Begun.ended (h : call.Begun acts) {text : String}
    (hconcludes : call.Concludes acts (.error (.auth text))) :
    call.Ended (.error (.auth text)) acts where
  audited := h.audited
  requests_le := by
    rw [h.responses_eq]
    exact Nat.zero_le _
  paused_le := by
    rw [h.paused_eq]
    exact Nat.zero_le _
  repeated := by
    rw [h.responses_eq]
    simp
  unauthorized_le := by
    rw [h.responses_eq]
    exact Nat.zero_le _
  retryable_le := by
    rw [h.responses_eq]
    exact Nat.zero_le _
  concludes := hconcludes

/-- The call authenticates. -/
theorem auth_triple :
    Effect.Triple (· = start) (RelayApi.auth outside)
      (fun auth => start.Continues (call.Progress auth false 0))
      (fun error => start.Continues (call.Ended (.error error))) := by
  have hempty : call.Begun [] := ⟨audited_nil, rfl, rfl⟩
  refine Effect.Triple.bind (Q := fun auth => start.Continues fun acts =>
    call.Begun acts ∧ latestAuth acts = some auth) ?_ fun auth => ?_
  · refine (authenticate_triple (S := (· = [])) (fun auth acts hacts => ?_)
      fun text acts hacts => ?_).conseq (fun controller h => ?_) (fun _ _ h => h) fun _ _ h => h
    · subst hacts
      exact ⟨hempty.concat call (.loadAuth _) rfl rfl, rfl⟩
    · subst hacts
      exact (hempty.concat call (.loadAuth _) rfl rfl).ended call (Or.inl rfl)
    · subst h
      exact Controller.Continues.refl rfl
  refine Effect.Triple.bind (Q := fun now => start.Continues fun acts =>
    call.Begun acts ∧ latestAuth acts = some auth ∧ .clock now ∈ acts) ?_ fun now => ?_
  · refine consult_triple fun now acts hacts => ⟨hacts.1.concat call (.clock now) rfl rfl, ?_,
      List.mem_append_right _ (List.mem_singleton.mpr rfl)⟩
    rw [latestAuth_concat]
    exact hacts.2
  split_ifs with hneeds
  · refine authenticate_triple (fun renewed acts hacts => ?_) fun text acts hacts => ?_
    · refine (hacts.1.concat call (.refreshAuth _) rfl rfl).progress call ?_ (Or.inl ?_)
      · rw [latestAuth_concat]
        rfl
      · exact List.mem_append_right _ (List.mem_singleton.mpr rfl)
    · refine (hacts.1.concat call (.refreshAuth _) rfl rfl).ended call (Or.inr ?_)
      rw [List.getLast?_concat]
  · refine Effect.Triple.ret fun controller h => h.mono fun acts hacts => ?_
    exact hacts.1.progress call hacts.2.1 (Or.inr ⟨now, hacts.2.2, hneeds⟩)

/-- A call of `send_with_status_policy` from its start to its end. -/
theorem send_triple :
    Effect.Triple (· = start)
      (RelayApi.sendWithStatusPolicy outside call.method call.path call.body call.allowNotFound)
      (fun response => start.Continues (call.Ended (.ok response)))
      (fun error => start.Continues (call.Ended (.error error))) :=
  Effect.Triple.bind (auth_triple call) fun auth => sendLoop_triple call auth false 0

end Loop

end RelayCall

/-- However the relay behaves, each call of `send_with_status_policy` ends: it leaves the device as
it was, all it has done is part of the call, and its result is that of its last response or failure,
which it does not give up on too early. -/
theorem sendWithStatusPolicy_ended (outside : ControllerOutside) (call : RelayCall)
    (controller : Controller) :
    controller.Continues
      (call.Ended (RelayApi.sendWithStatusPolicy outside call.method call.path call.body
        call.allowNotFound controller).1)
      (RelayApi.sendWithStatusPolicy outside call.method call.path call.body call.allowNotFound
        controller).2 := by
  obtain ⟨response, after, hrun, hended⟩ | ⟨error, after, hrun, hended⟩ :=
    (@RelayCall.send_triple call outside controller).ends rfl
  · rw [hrun]
    exact hended
  · rw [hrun]
    exact hended

end Rcodex
