import Rcodex.Foundation.Result
import Rcodex.Foundation.Splitting
import Rcodex.Foundation.Text
import Mathlib.Tactic.SplitIfs

/-!
# The authorization callback

At the end of the sign-in the browser requests `/auth/callback` from a local listener.
`receiveCallback` takes one connection after the other, reads it once, and answers a request for
another path with 404.  It ends with the code of the callback or with the first error.

One read need not hold the request: `callback_segmentation_iff` says for which pieces the result is
that of the whole request, namely where the first read holds the target up to its end.

The URL parser is a parameter.
-/

namespace Rcodex

open Result

/-- Why the listener gives up. -/
inductive CallbackError where
  | accept
  | read
  | notUtf8
  | malformed
  | url (error : String)
  | write
  | otherState
  | denied (error : String)
  | noCode
deriving DecidableEq

/-- The text of an error, as the source reports it. -/
def CallbackError.text : CallbackError → String
  | .accept => "accept OAuth callback"
  | .read => "read OAuth callback"
  | .notUtf8 => "OAuth callback is not UTF-8"
  | .malformed => "OAuth callback request is malformed"
  | .url error => error
  | .write => "write OAuth callback response"
  | .otherState => "remote-control OAuth callback state did not match"
  | .denied error => "remote-control authorization failed: " ++ error
  | .noCode => "remote-control OAuth callback has no code"

/-- What the listener uses of a URL. -/
structure CallbackUrl where
  /-- The path. -/
  path : String
  /-- The names and values of the query, decoded. -/
  queryPairs : List (String × String)
deriving DecidableEq

/-- A parameter of the query: of repeated names the last one counts. -/
def CallbackUrl.parameter (url : CallbackUrl) (name : String) : Option String :=
  url.queryPairs.reverse.lookup name

/-- A connection to the listener. -/
structure Connection where
  /-- The pieces in which its bytes arrive, if it can be read; none if it is closed at once. -/
  pieces : Option (List (List UInt8))
  /-- Whether a response can be written. -/
  takesResponse : Bool

/-- `CALLBACK_PATH` -/
def callbackPath : String := "/auth/callback"

/-- The length of the buffer. -/
def callbackBufferBytes : ℕ := 8192

/-- What one read gives: the first piece, as far as the buffer can hold it. -/
def Connection.read (connection : Connection) : Option (List UInt8) :=
  connection.pieces.map fun pieces => (pieces.headD []).take callbackBufferBytes

/-- `request.lines().next()` -/
def firstLine (request : List Char) : Option (List Char) :=
  let line := request.takeWhile (· ≠ '\n')
  if request = [] then none
  else if line.length < request.length ∧ line.getLast? = some '\r' then some line.dropLast
  else some line

/-- The second word of the first line of a request. -/
def requestTarget (bytes : List UInt8) : Except CallbackError String := do
  let request ← context .notUtf8 (Text.fromUtf8 bytes)
  context .malformed ((firstLine request.toList).bind fun line =>
    (Splitting.words Text.isWhitespace line)[1]?.map .ofList)

/-- `respond`: the bytes of the response as a text. -/
def respond (takesResponse : Bool) (status : ℕ) (body : String) : Except CallbackError String :=
  let reason := if status = 200 then "OK" else "Bad Request"
  let response := "HTTP/1.1 " ++ toString status ++ " " ++ reason ++
    "\r\nContent-Type: text/plain; charset=utf-8\r\nContent-Length: " ++
    toString (Text.utf8 body).length ++ "\r\nConnection: close\r\n\r\n" ++ body
  if takesResponse then .ok response else .error .write

section Listener

variable (parse : String → Except String CallbackUrl) (expectedState : String)

/-- The URL of a request. -/
def requestUrl (bytes : List UInt8) : Except CallbackError CallbackUrl := do
  let target ← requestTarget bytes
  (parse ("http://localhost" ++ target)).mapError .url

/-- One pass of the loop after the read: the code, or nothing if the loop goes on. -/
def answerRequest (takesResponse : Bool) (bytes : List UInt8) :
    Except CallbackError (Option String) := do
  let url ← requestUrl parse bytes
  if url.path ≠ callbackPath then
    let _ ← respond takesResponse 404 "Not found"
    return none
  if url.parameter "state" ≠ some expectedState then
    let _ ← respond takesResponse 400 "Authorization state did not match"
    throw .otherState
  match url.parameter "error" with
  | some error =>
    let _ ← respond takesResponse 400 "Authorization was not completed"
    throw (.denied error)
  | none =>
    let code ← context .noCode ((url.parameter "code").filter fun code => code ≠ "")
    let _ ← respond takesResponse 200
      "Remote-control authorization complete. You can close this tab."
    return some code

/-- What becomes of the loop after a pass: it ends, or it goes on. -/
def resume (goesOn : Option (Except CallbackError String)) :
    Except CallbackError (Option String) → Option (Except CallbackError String)
  | .error error => some (.error error)
  | .ok (some code) => some (.ok code)
  | .ok none => goesOn

/-- `receive_callback`, given the connections that are accepted, or the failures to accept one; the
answer is `none` while it waits for the next one. -/
def receiveCallback : List (Option Connection) → Option (Except CallbackError String)
  | [] => none
  | none :: _ => some (.error .accept)
  | some connection :: later =>
    resume (receiveCallback later) (context .read connection.read >>=
      answerRequest parse expectedState connection.takesResponse)

end Listener

/-! ### What a request asks for -/

/-- What the target of a request asks for. -/
inductive Ask where
  | elsewhere
  | otherState
  | denied (error : String)
  | noCode
  | grants (code : String)
deriving DecidableEq

/-- The target of this URL asks for it. -/
inductive CallbackUrl.Asks (expectedState : String) (url : CallbackUrl) : Ask → Prop
  /-- Another path. -/
  | elsewhere (path : url.path ≠ callbackPath) : Asks expectedState url .elsewhere
  /-- The callback of another sign-in. -/
  | otherState (path : url.path = callbackPath)
      (state : url.parameter "state" ≠ some expectedState) : Asks expectedState url .otherState
  /-- The sign-in has failed. -/
  | denied {error : String} (path : url.path = callbackPath)
      (state : url.parameter "state" = some expectedState)
      (hasError : url.parameter "error" = some error) : Asks expectedState url (.denied error)
  /-- There is no code. -/
  | noCode (path : url.path = callbackPath) (state : url.parameter "state" = some expectedState)
      (hasError : url.parameter "error" = none)
      (hasCode : ∀ code, url.parameter "code" = some code → code = "") :
      Asks expectedState url .noCode
  /-- The callback with its code. -/
  | grants {code : String} (path : url.path = callbackPath)
      (state : url.parameter "state" = some expectedState)
      (hasError : url.parameter "error" = none) (hasCode : url.parameter "code" = some code)
      (nonempty : code ≠ "") : Asks expectedState url (.grants code)

/-- What becomes of the request. -/
def Ask.result (takesResponse : Bool) : Ask → Except CallbackError (Option String)
  | .elsewhere => if takesResponse then .ok none else .error .write
  | .otherState => if takesResponse then .error .otherState else .error .write
  | .denied error => if takesResponse then .error (.denied error) else .error .write
  | .noCode => .error .noCode
  | .grants code => if takesResponse then .ok (some code) else .error .write

/-- A code is returned if the request asks for it and takes the response. -/
theorem Ask.result_eq_some_iff {takesResponse : Bool} {ask : Ask} {code : String} :
    ask.result takesResponse = .ok (some code) ↔ takesResponse = true ∧ ask = .grants code := by
  cases takesResponse <;> cases ask <;> simp [Ask.result]

/-- The loop goes on if the request asks for another path and takes the response. -/
theorem Ask.result_eq_none_iff {takesResponse : Bool} {ask : Ask} :
    ask.result takesResponse = .ok none ↔ takesResponse = true ∧ ask = .elsewhere := by
  cases takesResponse <;> cases ask <;> simp [Ask.result]

/-- The errors of a request without a URL. -/
def CallbackError.OfRequest (error : CallbackError) : Prop :=
  error = .notUtf8 ∨ error = .malformed ∨ ∃ text, error = .url text

/-- They are not the result of one that asks for something. -/
theorem Ask.result_ne {takesResponse : Bool} {ask : Ask} {error : CallbackError}
    (h : error.OfRequest) : ask.result takesResponse ≠ .error error := by
  rcases h with rfl | rfl | ⟨text, rfl⟩ <;> cases takesResponse <;> cases ask <;> simp [Ask.result]

section Answers

variable {parse : String → Except String CallbackUrl} {expectedState : String}
  {takesResponse : Bool} {bytes : List UInt8} {url : CallbackUrl} {ask : Ask}

/-- Every URL asks for something. -/
theorem CallbackUrl.exists_asks (expectedState : String) (url : CallbackUrl) :
    ∃ ask, url.Asks expectedState ask := by
  by_cases hpath : url.path = callbackPath
  · by_cases hstate : url.parameter "state" = some expectedState
    · cases herror : url.parameter "error" with
      | some error => exact ⟨_, .denied hpath hstate herror⟩
      | none =>
        cases hcode : url.parameter "code" with
        | none => exact ⟨_, .noCode hpath hstate herror (by simp [hcode])⟩
        | some code =>
          by_cases hempty : code = ""
          · exact ⟨_, .noCode hpath hstate herror (by simp [hcode, hempty])⟩
          · exact ⟨_, .grants hpath hstate herror hcode hempty⟩
    · exact ⟨_, .otherState hpath hstate⟩
  · exact ⟨_, .elsewhere hpath⟩

/-- The error of a request without a URL. -/
theorem ofRequest_of_requestUrl {error : CallbackError}
    (h : requestUrl parse bytes = .error error) : error.OfRequest := by
  have hutf8 : CallbackError.notUtf8.OfRequest := Or.inl rfl
  have hmalformed : CallbackError.malformed.OfRequest := Or.inr (Or.inl rfl)
  have hfails : FailsOnly CallbackError.OfRequest (requestUrl parse bytes) := by
    refine FailsOnly.bind (FailsOnly.bind ?_ fun request => ?_) fun target => ?_
    · exact FailsOnly.context hutf8 _
    · exact FailsOnly.context hmalformed _
    · intro e he
      cases hparse : parse ("http://localhost" ++ target) with
      | ok url => simp [hparse, Except.mapError] at he
      | error text =>
        rw [hparse] at he
        exact Or.inr (Or.inr ⟨text, (Except.error.inj he).symm⟩)
  exact hfails error h

/-- The answer to a request without a URL. -/
theorem answerRequest_of_error {error : CallbackError}
    (h : requestUrl parse bytes = .error error) :
    answerRequest parse expectedState takesResponse bytes = .error error := by
  rw [answerRequest, h]
  rfl

/-- The answer to a request that asks for something. -/
theorem answerRequest_of_asks (hurl : requestUrl parse bytes = .ok url)
    (h : url.Asks expectedState ask) :
    answerRequest parse expectedState takesResponse bytes = ask.result takesResponse := by
  rw [answerRequest, hurl]
  simp only [bind, Except.bind]
  cases h with
  | elsewhere path =>
    rw [if_pos path]
    cases takesResponse <;> rfl
  | otherState path state =>
    rw [if_neg (not_not.mpr path), if_pos state]
    cases takesResponse <;> rfl
  | denied path state hasError =>
    rw [if_neg (not_not.mpr path), if_neg (not_not.mpr state), hasError]
    cases takesResponse <;> rfl
  | noCode path state hasError hasCode =>
    have hnone : ((url.parameter "code").filter fun code => code ≠ "") = none := by
      simpa [Option.filter_eq_none_iff] using hasCode
    rw [if_neg (not_not.mpr path), if_neg (not_not.mpr state), hasError]
    simp only [hnone]
    rfl
  | grants path state hasError hasCode nonempty =>
    have hsome : ((url.parameter "code").filter fun code => code ≠ "") =
        url.parameter "code" := by
      simp [hasCode, nonempty]
    rw [if_neg (not_not.mpr path), if_neg (not_not.mpr state), hasError]
    simp only [hsome]
    simp only [hasCode]
    cases takesResponse <;> rfl

/-- A listener that returns a code or goes on was asked to. -/
theorem answerRequest_eq_ok_iff {code : Option String} :
    answerRequest parse expectedState takesResponse bytes = .ok code ↔
      ∃ url ask, requestUrl parse bytes = .ok url ∧ url.Asks expectedState ask ∧
        ask.result takesResponse = .ok code := by
  constructor
  · intro h
    cases hurl : requestUrl parse bytes with
    | error error =>
      rw [answerRequest_of_error hurl] at h
      contradiction
    | ok url =>
      obtain ⟨ask, hask⟩ := url.exists_asks expectedState
      rw [answerRequest_of_asks hurl hask] at h
      exact ⟨url, ask, rfl, hask, h⟩
  · rintro ⟨url, ask, hurl, hask, hresult⟩
    rw [answerRequest_of_asks hurl hask, hresult]

end Answers

/-! ### The target of a request -/

/-- The target of a request is the second word, and it stands in the first line. -/
structure TargetAt (before target after : List Char) : Prop
    extends Splitting.WordAt Text.isWhitespace before target after where
  /-- There is one word before it. -/
  second : (Splitting.words Text.isWhitespace before).length = 1
  /-- There is no end of a line before it. -/
  sameLine : '\n' ∉ before

/-- The first line has the words of what is before the first line feed. -/
theorem words_firstLine (request : List Char) :
    (firstLine request).bind (fun line => (Splitting.words Text.isWhitespace line)[1]?) =
      (Splitting.words Text.isWhitespace (request.takeWhile (· ≠ '\n')))[1]? := by
  rw [firstLine]
  split_ifs with hnil hreturn
  · rw [hnil]
    rfl
  · -- The carriage return is white space after the last word.
    obtain ⟨line, hline⟩ := List.getLast?_eq_some_iff.mp hreturn.2
    rw [Option.bind_some, hline, List.dropLast_concat,
      Splitting.words_append_cons (by decide : Text.isWhitespace '\r' = true)]
    change _ = (Splitting.words Text.isWhitespace line ++ [])[1]?
    rw [List.append_nil]
  · rw [Option.bind_some]

/-- Where the second word of the first line stands. -/
theorem second_word_iff {request target : List Char} :
    (Splitting.words Text.isWhitespace (request.takeWhile (· ≠ '\n')))[1]? = some target ↔
      ∃ before after, request = before ++ target ++ after ∧ TargetAt before target after := by
  rw [Splitting.getElem?_words_eq_some_iff]
  have hfeed : Text.isWhitespace '\n' = true := by decide
  constructor
  · rintro ⟨before, after, hline, hsecond, hat⟩
    have hrequest : request.takeWhile (· ≠ '\n') ++ request.dropWhile (· ≠ '\n') = request :=
      List.takeWhile_append_dropWhile
    refine ⟨before, after ++ request.dropWhile (· ≠ '\n'), ?_,
      ⟨hat.before_ends, hat.ne_nil, hat.noSeparator, fun c hc => ?_⟩, hsecond, fun hmem => ?_⟩
    · rw [← List.append_assoc, ← hline, hrequest]
    · cases after with
      | nil =>
        have hnot := List.head?_dropWhile_not (· ≠ '\n') request
        rw [List.nil_append] at hc
        rw [Option.mem_def.mp hc] at hnot
        obtain rfl : c = '\n' := by simpa using hnot
        exact hfeed
      | cons d after => exact hat.after_starts c (by simpa using hc)
    · have htake : '\n' ∈ request.takeWhile (· ≠ '\n') := by
        rw [hline, List.append_assoc]
        exact List.mem_append_left _ hmem
      simpa using List.mem_takeWhile_imp htake
  · rintro ⟨before, after, rfl, hat⟩
    refine ⟨before, after.takeWhile (· ≠ '\n'), ?_, hat.second, hat.before_ends, hat.ne_nil,
      hat.noSeparator, fun c hc => hat.after_starts c ?_⟩
    · rw [List.takeWhile_append_of_pos]
      intro c hc
      rcases List.mem_append.mp hc with hc | hc
      · simpa using ne_of_mem_of_not_mem hc hat.sameLine
      · have hword := hat.noSeparator c hc
        simp only [ne_eq, decide_not, Bool.not_eq_eq_eq_not, Bool.not_true, decide_eq_false_iff_not]
        rintro rfl
        exact absurd (hword.symm.trans hfeed) (by decide)
    · rw [List.head?_takeWhile] at hc
      exact (Option.mem_filter_iff.mp hc).1

/-- The target of a text. -/
theorem requestTarget_utf8 (text : String) :
    requestTarget (Text.utf8 text) = context .malformed
      ((Splitting.words Text.isWhitespace (text.toList.takeWhile (· ≠ '\n')))[1]?.map .ofList) := by
  rw [← words_firstLine, requestTarget, Text.fromUtf8_utf8, Option.map_bind]
  rfl

/-- A request has this target. -/
theorem requestTarget_eq_ok_iff {text : String} {target : List Char} :
    requestTarget (Text.utf8 text) = .ok (.ofList target) ↔
      ∃ before after, text.toList = before ++ target ++ after ∧ TargetAt before target after := by
  rw [requestTarget_utf8, context_eq_ok_iff, ← second_word_iff,
    Option.map_eq_some_iff]
  constructor
  · rintro ⟨word, hword, heq⟩
    rw [hword, String.ofList_injective heq]
  · intro h
    exact ⟨target, h, rfl⟩

/-- A request has no target. -/
theorem requestTarget_eq_malformed_iff {text : String} :
    requestTarget (Text.utf8 text) = .error .malformed ↔
      ∀ before target after, text.toList = before ++ target ++ after →
        ¬TargetAt before target after := by
  constructor
  · intro h before target after htext hat
    have hok := requestTarget_eq_ok_iff.mpr ⟨before, after, htext, hat⟩
    rw [h] at hok
    contradiction
  · intro h
    rw [requestTarget_utf8]
    cases hword : (Splitting.words Text.isWhitespace (text.toList.takeWhile (· ≠ '\n')))[1]? with
    | none => rfl
    | some target =>
      obtain ⟨before, after, htext, hat⟩ := second_word_iff.mp hword
      exact absurd hat (h before target after htext)

/-- A request is not UTF-8. -/
theorem requestTarget_eq_notUtf8_iff {bytes : List UInt8} :
    requestTarget bytes = .error .notUtf8 ↔ ∀ text, bytes ≠ Text.utf8 text := by
  constructor
  · rintro h text rfl
    rw [requestTarget_utf8] at h
    generalize Option.map String.ofList _ = target at h
    cases target <;> simp [context] at h
  · intro h
    cases htext : Text.fromUtf8 bytes with
    | none =>
      rw [requestTarget, htext]
      rfl
    | some text => exact absurd (Text.utf8_of_fromUtf8 htext).symm (h text)


/-- The first read holds the target of a request up to its end, as far as there is one. -/
inductive HoldsTarget (first request : List UInt8) : Prop
  /-- The request has a target: the read ends with a character, after the target at the earliest. -/
  | target (before target after : List Char)
      (request_eq : request = Text.utf8 (.ofList (before ++ target ++ after)))
      (targetAt : TargetAt before target after) (isUtf8 : ∃ text, first = Text.utf8 text)
      (holds : Text.utf8 (.ofList (before ++ target)) <+: first)
  /-- The first line has no second word: the read ends with a character. -/
  | noTarget (text : String) (request_eq : request = Text.utf8 text)
      (noTarget : ∀ before target after, text.toList = before ++ target ++ after →
        ¬TargetAt before target after) (isUtf8 : ∃ text, first = Text.utf8 text)
  /-- The request is not UTF-8: neither is what is read of it. -/
  | notUtf8 (request_ne : ∀ text, request ≠ Text.utf8 text)
      (first_ne : ∀ text, first ≠ Text.utf8 text)

/-- A target that is read at least in part is found. -/
theorem TargetAt.exists_of_append {before target after : List Char}
    (h : TargetAt before target after) (more : List Char) :
    ∃ target' after', target ++ after ++ more = target' ++ after' ∧
      TargetAt before target' after' := by
  obtain ⟨target', after', heq, hat⟩ := h.toWordAt.append more
  exact ⟨target', after', heq, hat, h.second, h.sameLine⟩

/-- What is before a target has none. -/
theorem TargetAt.not_targetAt_of_prefix {before target after start target' after' : List Char}
    (h : TargetAt before target after) (hstart : start ++ target' ++ after' <+: before) :
    ¬TargetAt start target' after' := by
  intro hat
  obtain ⟨more, hmore⟩ := hstart
  obtain ⟨word, rest, heq, hword⟩ := hat.toWordAt.append more
  have hwords := Splitting.getElem?_words_eq_some_iff.mpr ⟨start, rest, rfl, hat.second, hword⟩
  rw [List.append_assoc, ← heq, ← List.append_assoc, ← List.append_assoc, hmore,
    List.getElem?_eq_none h.second.le] at hwords
  contradiction

/-- A target is read up to its end if a read of the request has the same target. -/
theorem TargetAt.prefix_of_same {before target after start after' : List Char}
    (h : TargetAt before target after) (hat : TargetAt start target after')
    (hstart : start ++ target ++ after' <+: before ++ target ++ after) :
    before ++ target <+: start ++ target ++ after' := by
  rcases List.prefix_or_prefix_of_prefix (List.prefix_append (before ++ target) after) hstart
    with hle | ⟨more, hmore⟩
  · exact hle
  · rcases List.append_eq_append_iff.mp hmore with ⟨rest, hbefore, -⟩ | ⟨part, hread, htarget⟩
    · exact absurd hat (h.not_targetAt_of_prefix ⟨rest, hbefore.symm⟩)
    · by_cases hpart : part = []
      · rw [hpart, List.append_nil] at hread
        exact absurd hat (h.not_targetAt_of_prefix (hread ▸ List.prefix_rfl))
      · -- The read ends in the target, and what it holds of it is its target.
        have hword : Splitting.WordAt Text.isWhitespace before part [] :=
          ⟨h.before_ends, hpart,
            fun c hc => h.noSeparator c (htarget ▸ List.mem_append_left _ hc), by simp⟩
        have hsecond := Splitting.getElem?_words_eq_some_iff.mpr
          ⟨_, _, rfl, hat.second, hat.toWordAt⟩
        have hsecond' := Splitting.getElem?_words_eq_some_iff.mpr ⟨_, _, rfl, h.second, hword⟩
        rw [hread, ← List.append_nil (before ++ part), hsecond'] at hsecond
        have hwhole : start ++ target ++ after' = before ++ target := by
          rw [hread, Option.some.inj hsecond]
        exact ⟨[], by rw [List.append_nil, hwhole]⟩

/-- A read of a request has the target of the request exactly if it holds it. -/
theorem requestTarget_eq_iff {first request : List UInt8} (h : first <+: request) :
    requestTarget first = requestTarget request ↔ HoldsTarget first request := by
  constructor
  · intro heq
    by_cases hutf8 : ∃ text, request = Text.utf8 text
    · obtain ⟨text, rfl⟩ := hutf8
      have hfirst : ∃ text, first = Text.utf8 text := by
        by_contra hnot
        push Not at hnot
        rw [requestTarget_eq_notUtf8_iff.mpr hnot] at heq
        exact requestTarget_eq_notUtf8_iff.mp heq.symm text rfl
      obtain ⟨read, rfl⟩ := hfirst
      by_cases htarget : ∃ before target after, text.toList = before ++ target ++ after ∧
          TargetAt before target after
      · obtain ⟨before, target, after, htext, hat⟩ := htarget
        rw [requestTarget_eq_ok_iff.mpr ⟨before, after, htext, hat⟩] at heq
        obtain ⟨start, after', hread, hat'⟩ := requestTarget_eq_ok_iff.mp heq
        have hholds : before ++ target <+: read.toList := by
          rw [hread]
          refine hat.prefix_of_same hat' ?_
          rw [← hread, ← htext]
          exact Text.utf8_prefix_iff.mp h
        refine .target before target after ?_ hat ⟨read, rfl⟩ ?_
        · rw [← htext, String.ofList_toList]
        · rwa [Text.utf8_prefix_iff, String.toList_ofList]
      · push Not at htarget
        exact .noTarget text rfl htarget ⟨read, rfl⟩
    · push Not at hutf8
      rw [requestTarget_eq_notUtf8_iff.mpr hutf8] at heq
      exact .notUtf8 hutf8 (requestTarget_eq_notUtf8_iff.mp heq)
  · intro hholds
    cases hholds with
    | target before target after request_eq targetAt isUtf8 holds =>
      obtain ⟨read, rfl⟩ := isUtf8
      rw [request_eq, Text.utf8_prefix_iff, String.toList_ofList] at h
      rw [Text.utf8_prefix_iff, String.toList_ofList] at holds
      obtain ⟨after', hread⟩ := holds
      obtain ⟨more, hmore⟩ := h
      rw [← hread, List.append_assoc, List.append_cancel_left_eq] at hmore
      have hat : TargetAt before target after' := by
        refine ⟨⟨targetAt.before_ends, targetAt.ne_nil, targetAt.noSeparator, fun c hc => ?_⟩,
          targetAt.second, targetAt.sameLine⟩
        refine targetAt.after_starts c ?_
        rw [← hmore]
        exact List.mem_head?_append_of_mem_head? hc
      rw [requestTarget_eq_ok_iff.mpr ⟨before, after', hread.symm, hat⟩, request_eq,
        requestTarget_eq_ok_iff.mpr ⟨before, after, String.toList_ofList, targetAt⟩]
    | noTarget text request_eq noTarget isUtf8 =>
      obtain ⟨read, rfl⟩ := isUtf8
      rw [request_eq, Text.utf8_prefix_iff] at h
      obtain ⟨more, hmore⟩ := h
      rw [request_eq, requestTarget_eq_malformed_iff.mpr noTarget,
        requestTarget_eq_malformed_iff]
      intro before target after hread hat
      obtain ⟨target', after', heq, hat'⟩ := hat.exists_of_append more
      refine noTarget before target' after' ?_ hat'
      rw [← hmore, hread, List.append_assoc, List.append_assoc, ← List.append_assoc target, heq,
        List.append_assoc]
    | notUtf8 request_ne first_ne =>
      rw [requestTarget_eq_notUtf8_iff.mpr request_ne, requestTarget_eq_notUtf8_iff.mpr first_ne]

/-- The error of a request without a target. -/
theorem error_of_requestTarget {bytes : List UInt8} {error : CallbackError}
    (h : requestTarget bytes = .error error) : error = .notUtf8 ∨ error = .malformed := by
  have hfails : FailsOnly (fun e => e = .notUtf8 ∨ e = .malformed) (requestTarget bytes) := by
    refine FailsOnly.bind ?_ fun request => ?_
    · apply FailsOnly.context
      exact Or.inl rfl
    · apply FailsOnly.context
      exact Or.inr rfl
  exact hfails error h

/-- A read that ends in a character or before the target has no target. -/
theorem TargetAt.requestTarget_ne {before target after : List Char} {first : List UInt8}
    (h : TargetAt before target after)
    (hread : (∀ text, first ≠ Text.utf8 text) ∨ first <+: Text.utf8 (.ofList before))
    (target' : String) : requestTarget first ≠ .ok target' := by
  intro hok
  have hutf8 : ∃ text, first = Text.utf8 text := by
    by_contra hnot
    push Not at hnot
    rw [requestTarget_eq_notUtf8_iff.mpr hnot] at hok
    contradiction
  obtain ⟨text, rfl⟩ := hutf8
  rcases hread with hne | hstart
  · exact hne text rfl
  · rw [Text.utf8_prefix_iff, String.toList_ofList] at hstart
    rw [← String.ofList_toList (s := target')] at hok
    obtain ⟨start, after', htext, hat⟩ := requestTarget_eq_ok_iff.mp hok
    exact h.not_targetAt_of_prefix (htext ▸ hstart) hat

/-! ### The answer to a read -/

section Reads

variable {expectedState : String} {takesResponse : Bool} {first request : List UInt8}

/-- A read with the target of the request is answered as the request; a URL parser that reports its
text as an error tells other reads from it. -/
theorem answerRequest_eq_forall_iff :
    (∀ parse, answerRequest parse expectedState takesResponse first =
      answerRequest parse expectedState takesResponse request) ↔
      requestTarget first = requestTarget request := by
  constructor
  · intro h
    have hrefuses : ∀ bytes, answerRequest Except.error expectedState takesResponse bytes =
        requestTarget bytes >>= fun target => .error (.url ("http://localhost" ++ target)) := by
      intro bytes
      rw [answerRequest, requestUrl]
      cases requestTarget bytes <;> rfl
    have herror := h Except.error
    rw [hrefuses, hrefuses] at herror
    cases hfirst : requestTarget first with
    | error error =>
      rw [hfirst] at herror
      cases hrequest : requestTarget request with
      | error error' =>
        rw [hrequest] at herror
        rw [Except.error.inj herror]
      | ok target =>
        rw [hrequest] at herror
        obtain rfl : error = _ := Except.error.inj herror
        simpa using error_of_requestTarget hfirst
    | ok target =>
      rw [hfirst] at herror
      cases hrequest : requestTarget request with
      | error error =>
        rw [hrequest] at herror
        obtain rfl : _ = error := Except.error.inj herror
        simpa using error_of_requestTarget hrequest
      | ok target' =>
        rw [hrequest] at herror
        have htext := CallbackError.url.inj (Except.error.inj herror)
        rw [(String.append_right_inj _).mp htext]
  · intro h parse
    rw [answerRequest, answerRequest, requestUrl, requestUrl, h]

/-- A request with a target is not answered as a read without one. -/
theorem answerRequest_ne_of_target {parse : String → Except String CallbackUrl} {target : String}
    (hrequest : requestTarget request = .ok target)
    (hfirst : ∀ target, requestTarget first ≠ .ok target) :
    answerRequest parse expectedState takesResponse first ≠
      answerRequest parse expectedState takesResponse request := by
  cases htarget : requestTarget first with
  | ok target => exact absurd htarget (hfirst target)
  | error error =>
    have hurl : requestUrl parse first = .error error := by
      rw [requestUrl, htarget]
      rfl
    have hurl' : requestUrl parse request =
        (parse ("http://localhost" ++ target)).mapError .url := by
      rw [requestUrl, hrequest]
      rfl
    rw [answerRequest_of_error hurl]
    intro h
    cases hparse : parse ("http://localhost" ++ target) with
    | ok url =>
      obtain ⟨ask, hask⟩ := url.exists_asks expectedState
      rw [hparse] at hurl'
      rw [answerRequest_of_asks hurl' hask] at h
      exact Ask.result_ne (ofRequest_of_requestUrl hurl) h.symm
    | error text =>
      rw [hparse] at hurl'
      rw [answerRequest_of_error hurl'] at h
      obtain rfl := Except.error.inj h
      simpa using error_of_requestTarget htarget

end Reads

section Runs

variable {parse : String → Except String CallbackUrl} {expectedState : String}

/-- What becomes of the loop shows the result of the pass. -/
theorem resume_inj {x y : Except CallbackError (Option String)} :
    (∀ later, resume (receiveCallback parse expectedState later) x =
      resume (receiveCallback parse expectedState later) y) ↔ x = y := by
  constructor
  · intro h
    have hlast := h []
    rw [receiveCallback] at hlast
    rcases x with error | _ | code <;> rcases y with error' | _ | code' <;>
      simp_all [resume]
  · intro h later
    rw [h]

/-- The listener waits if the loop goes on and waits. -/
theorem resume_eq_none_iff {goesOn : Option (Except CallbackError String)}
    {x : Except CallbackError (Option String)} :
    resume goesOn x = none ↔ x = .ok none ∧ goesOn = none := by
  rcases x with error | _ | code <;> simp [resume]

/-- A connection whose bytes arrive in pieces. -/
theorem receiveCallback_pieces (pieces : List (List UInt8)) (takesResponse : Bool)
    (later : List (Option Connection)) :
    receiveCallback parse expectedState (some ⟨some pieces, takesResponse⟩ :: later) =
      resume (receiveCallback parse expectedState later)
        (answerRequest parse expectedState takesResponse
          ((pieces.headD []).take callbackBufferBytes)) :=
  rfl

end Runs

/-- A request that fits the buffer and arrives in one piece is read as a whole. -/
theorem receiveCallback_whole {parse : String → Except String CallbackUrl} {expectedState : String}
    {request : List UInt8} (h : request.length ≤ callbackBufferBytes) (takesResponse : Bool)
    (later : List (Option Connection)) :
    receiveCallback parse expectedState (some ⟨some [request], takesResponse⟩ :: later) =
      resume (receiveCallback parse expectedState later)
        (answerRequest parse expectedState takesResponse request) := by
  rw [receiveCallback_pieces, List.headD_cons, List.take_of_length_le h]

/-- The listener does with a request that arrives in pieces what it would do after a read of the
whole request. -/
def ReadsWhole (parse : String → Except String CallbackUrl) (expectedState : String)
    (takesResponse : Bool) (pieces : List (List UInt8)) : Prop :=
  ∀ later, receiveCallback parse expectedState (some ⟨some pieces, takesResponse⟩ :: later) =
    resume (receiveCallback parse expectedState later)
      (answerRequest parse expectedState takesResponse pieces.flatten)

/-- It answers the first read as it would answer the request. -/
theorem readsWhole_iff {parse : String → Except String CallbackUrl} {expectedState : String}
    {takesResponse : Bool} {pieces : List (List UInt8)} :
    ReadsWhole parse expectedState takesResponse pieces ↔
      answerRequest parse expectedState takesResponse
          ((pieces.headD []).take callbackBufferBytes) =
        answerRequest parse expectedState takesResponse pieces.flatten := by
  rw [ReadsWhole]
  simp only [receiveCallback_pieces]
  exact resume_inj

/-- The first read is the front of the request. -/
theorem take_headD_isPrefix (pieces : List (List UInt8)) :
    (pieces.headD []).take callbackBufferBytes <+: pieces.flatten := by
  cases pieces with
  | nil => exact List.nil_prefix
  | cons piece pieces =>
    rw [List.headD_cons, List.flatten_cons]
    exact (List.take_prefix _ _).trans (List.prefix_append _ _)

/-- For all pieces in which a request arrives: whatever the URL parser makes of a target, the
listener does what it would do after a read of the whole request exactly if the first read holds the
target.  With any URL parser it does something else if the read ends in a character or before the
target. -/
theorem callback_segmentation_iff (expectedState : String) (takesResponse : Bool)
    (pieces : List (List UInt8)) :
    ((∀ parse, ReadsWhole parse expectedState takesResponse pieces) ↔
      HoldsTarget ((pieces.headD []).take callbackBufferBytes) pieces.flatten) ∧
    ∀ before target after, pieces.flatten = Text.utf8 (.ofList (before ++ target ++ after)) →
      TargetAt before target after →
      (∀ text, (pieces.headD []).take callbackBufferBytes ≠ Text.utf8 text) ∨
        (pieces.headD []).take callbackBufferBytes <+: Text.utf8 (.ofList before) →
      ∀ parse, ¬ReadsWhole parse expectedState takesResponse pieces := by
  simp only [readsWhole_iff]
  refine ⟨?_, fun before target after hrequest hat hread parse => ?_⟩
  · rw [← requestTarget_eq_iff (take_headD_isPrefix pieces)]
    exact answerRequest_eq_forall_iff
  · rw [hrequest]
    exact answerRequest_ne_of_target
      (requestTarget_eq_ok_iff.mpr ⟨before, after, String.toList_ofList, hat⟩)
      (hat.requestTarget_ne hread)

/-- A URL parser for targets of plain characters. -/
def plainUrl (text : String) : Except String CallbackUrl :=
  let target := text.toList.drop "http://localhost".length
  let pairs := (((target.dropWhile (· ≠ '?')).drop 1).splitOn '&').filter (· ≠ [])
  .ok { path := .ofList (target.takeWhile (· ≠ '?')),
        queryPairs := pairs.map fun pair => (.ofList (pair.takeWhile (· ≠ '=')),
          .ofList ((pair.dropWhile (· ≠ '=')).drop 1)) }

/-- A request whose first line arrives in one piece. -/
theorem callback_segmentation_line :
    let first := Text.utf8 "GET /auth/callback?state=s&code=abcd HTTP/1.1\r\n"
    let rest := Text.utf8 "Host: localhost\r\n\r\n"
    ReadsWhole plainUrl "s" true [first, rest] := by
  intro first rest
  refine (callback_segmentation_iff "s" true [first, rest]).1.mpr
    (.target "GET ".toList "/auth/callback?state=s&code=abcd".toList
      " HTTP/1.1\r\nHost: localhost\r\n\r\n".toList (by decide +kernel) ?_
      ⟨"GET /auth/callback?state=s&code=abcd HTTP/1.1\r\n", by decide +kernel⟩
      (by decide +kernel)) plainUrl
  exact ⟨.of_all (by decide +kernel) (by decide +kernel) (by decide +kernel) (by decide +kernel),
    by decide +kernel, by decide +kernel⟩

/-- A request that is cut in the code. -/
theorem callback_segmentation_code :
    let first := Text.utf8 "GET /auth/callback?state=s&code=ab"
    let rest := Text.utf8 "cd HTTP/1.1\r\n\r\n"
    receiveCallback plainUrl "s" [some ⟨some [first, rest], true⟩] = some (.ok "ab") ∧
      receiveCallback plainUrl "s" [some ⟨some [first ++ rest], true⟩] = some (.ok "abcd") := by
  decide +kernel

end Rcodex
