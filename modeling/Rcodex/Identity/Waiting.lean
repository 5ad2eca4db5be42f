import Rcodex.Identity.Callback

/-!
# Waiting for the callback

Before the callback the listener may get other connections.  It goes on after a request for another
path and gives up after anything else, a connection without a request included.
`callback_waits_iff` says through which connections it waits, and that it returns a code only for a
callback.
-/

namespace Rcodex

open Result

/-- The connection sends, in the first read, a request for another path and takes the response. -/
def Connection.Elsewhere (parse : String → Except String CallbackUrl) (connection : Connection) :
    Prop :=
  connection.takesResponse = true ∧ ∃ bytes url, connection.read = some bytes ∧
    requestUrl parse bytes = .ok url ∧ url.path ≠ callbackPath

/-- The request is the callback of this sign-in, with this code and without an error. -/
structure IsCallback (parse : String → Except String CallbackUrl) (expectedState : String)
    (bytes : List UInt8) (code : String) (url : CallbackUrl) : Prop where
  /-- The URL of the request. -/
  url_eq : requestUrl parse bytes = .ok url
  /-- Its path. -/
  path : url.path = callbackPath
  /-- Its state. -/
  state : url.parameter "state" = some expectedState
  /-- It reports no error. -/
  hasError : url.parameter "error" = none
  /-- Its code. -/
  hasCode : url.parameter "code" = some code
  /-- The code is not empty. -/
  nonempty : code ≠ ""

section Runs

variable {parse : String → Except String CallbackUrl} {expectedState : String}

/-- The pass over a connection. -/
theorem pass_eq_ok_iff {connection : Connection} {code : Option String} :
    (context .read connection.read >>= answerRequest parse expectedState
        connection.takesResponse) = .ok code ↔
      ∃ bytes url ask, connection.read = some bytes ∧ requestUrl parse bytes = .ok url ∧
        url.Asks expectedState ask ∧ ask.result connection.takesResponse = .ok code := by
  simp only [bind_eq_ok_iff, context_eq_ok_iff, answerRequest_eq_ok_iff]
  constructor
  · rintro ⟨bytes, hread, url, ask, hurl, hask, hresult⟩
    exact ⟨bytes, url, ask, hread, hurl, hask, hresult⟩
  · rintro ⟨bytes, url, ask, hread, hurl, hask, hresult⟩
    exact ⟨bytes, hread, url, ask, hurl, hask, hresult⟩

/-- The loop goes on after a request for another path that takes the response. -/
theorem pass_eq_none_iff {connection : Connection} :
    (context .read connection.read >>= answerRequest parse expectedState
        connection.takesResponse) = .ok none ↔ connection.Elsewhere parse := by
  rw [pass_eq_ok_iff]
  simp only [Ask.result_eq_none_iff]
  constructor
  · rintro ⟨bytes, url, ask, hread, hurl, hask, htakes, rfl⟩
    cases hask with
    | elsewhere path => exact ⟨htakes, bytes, url, hread, hurl, path⟩
  · rintro ⟨htakes, bytes, url, hread, hurl, hpath⟩
    exact ⟨bytes, url, .elsewhere, hread, hurl, .elsewhere hpath, htakes, rfl⟩

/-- The loop ends with a code after the callback that takes the response. -/
theorem pass_eq_some_iff {connection : Connection} {code : String} :
    (context .read connection.read >>= answerRequest parse expectedState
        connection.takesResponse) = .ok (some code) ↔
      connection.takesResponse = true ∧ ∃ bytes url, connection.read = some bytes ∧
        IsCallback parse expectedState bytes code url := by
  rw [pass_eq_ok_iff]
  simp only [Ask.result_eq_some_iff]
  constructor
  · rintro ⟨bytes, url, ask, hread, hurl, hask, htakes, rfl⟩
    cases hask with
    | grants path state hasError hasCode nonempty =>
      exact ⟨htakes, bytes, url, hread, hurl, path, state, hasError, hasCode, nonempty⟩
  · rintro ⟨htakes, bytes, url, hread, h⟩
    exact ⟨bytes, url, .grants code, hread, h.url_eq,
      .grants h.path h.state h.hasError h.hasCode h.nonempty, htakes, rfl⟩

/-- The listener waits for the next connection after connections for other paths only. -/
theorem receiveCallback_eq_none_iff {connections : List Connection} :
    receiveCallback parse expectedState (connections.map some) = none ↔
      ∀ connection ∈ connections, connection.Elsewhere parse := by
  induction connections with
  | nil => simp [receiveCallback]
  | cons connection connections ih =>
    rw [List.map_cons, receiveCallback, resume_eq_none_iff, pass_eq_none_iff, ih,
      List.forall_mem_cons]

/-- What comes after them is not affected by them. -/
theorem receiveCallback_append {connections : List Connection}
    (h : ∀ connection ∈ connections, connection.Elsewhere parse)
    (later : List (Option Connection)) :
    receiveCallback parse expectedState (connections.map some ++ later) =
      receiveCallback parse expectedState later := by
  induction connections with
  | nil => rfl
  | cons connection connections ih =>
    obtain ⟨hhead, htail⟩ := List.forall_mem_cons.mp h
    rw [List.map_cons, List.cons_append, receiveCallback, pass_eq_none_iff.mpr hhead, resume,
      ih htail]

/-- A code that is returned was in a callback. -/
theorem exists_isCallback_of_receiveCallback {arrivals : List (Option Connection)} {code : String}
    (h : receiveCallback parse expectedState arrivals = some (.ok code)) :
    ∃ connection bytes url, some connection ∈ arrivals ∧ connection.read = some bytes ∧
      IsCallback parse expectedState bytes code url := by
  induction arrivals with
  | nil => simp [receiveCallback] at h
  | cons arrival arrivals ih =>
    cases arrival with
    | none => simp [receiveCallback] at h
    | some connection =>
      rw [receiveCallback] at h
      cases hpass : (context .read connection.read >>= answerRequest parse expectedState
          connection.takesResponse) with
      | error error =>
        rw [hpass, resume] at h
        simp at h
      | ok result =>
        rw [hpass] at h
        cases result with
        | none =>
          obtain ⟨connection', bytes, url, hmem, hcallback⟩ := ih h
          exact ⟨connection', bytes, url, List.mem_cons_of_mem _ hmem, hcallback⟩
        | some code' =>
          obtain rfl : code' = code := Except.ok.inj (Option.some.inj h)
          obtain ⟨-, bytes, url, hread, hcallback⟩ := pass_eq_some_iff.mp hpass
          exact ⟨connection, bytes, url, List.mem_cons_self, hread, hcallback⟩

end Runs

/-- For all connections before a callback: the listener waits through them and returns the code
exactly if each of them sends a request for another path in its first read, and they and the
callback take their responses.  A code is returned only for a callback. -/
theorem callback_waits_iff (parse : String → Except String CallbackUrl) (expectedState : String) :
    (∀ (strays : List Connection) (genuine : Connection) (later : List (Option Connection))
        (bytes : List UInt8) (code : String) (url : CallbackUrl), genuine.read = some bytes →
      IsCallback parse expectedState bytes code url →
      (receiveCallback parse expectedState (strays.map some) = none ∧
          receiveCallback parse expectedState (strays.map some ++ some genuine :: later) =
            some (.ok code) ↔
        (∀ stray ∈ strays, stray.Elsewhere parse) ∧ genuine.takesResponse = true)) ∧
    ∀ (arrivals : List (Option Connection)) (code : String),
      receiveCallback parse expectedState arrivals = some (.ok code) →
      ∃ connection bytes url, some connection ∈ arrivals ∧ connection.read = some bytes ∧
        IsCallback parse expectedState bytes code url := by
  refine ⟨fun strays genuine later bytes code url hread hcallback => ?_, fun arrivals code h =>
    exists_isCallback_of_receiveCallback h⟩
  rw [receiveCallback_eq_none_iff]
  refine and_congr_right fun hstrays => ?_
  rw [receiveCallback_append hstrays, receiveCallback]
  constructor
  · intro h
    by_contra hnot
    have htakes : genuine.takesResponse = false := by simpa using hnot
    have hask : url.Asks expectedState (.grants code) := .grants hcallback.path hcallback.state
      hcallback.hasError hcallback.hasCode hcallback.nonempty
    have hpass : (context .read genuine.read >>= answerRequest parse expectedState
        genuine.takesResponse) = .error .write := by
      rw [hread, htakes]
      exact answerRequest_of_asks hcallback.url_eq hask
    rw [hpass] at h
    simp [resume] at h
  · intro htakes
    rw [pass_eq_some_iff.mpr ⟨htakes, bytes, url, hread, hcallback⟩]
    rfl

/-- A connection that sends this text in one piece. -/
def sending (request : String) : Connection := ⟨some [Text.utf8 request], true⟩

/-- The icon of the page is asked for before the callback. -/
theorem callback_waits_favicon :
    receiveCallback plainUrl "s" ([sending "GET /favicon.ico HTTP/1.1\r\n\r\n"].map some ++
      [some (sending "GET /auth/callback?state=s&code=abcd HTTP/1.1\r\n\r\n")]) =
        some (.ok "abcd") := by
  have hcallback : IsCallback plainUrl "s"
      (Text.utf8 "GET /auth/callback?state=s&code=abcd HTTP/1.1\r\n\r\n") "abcd"
      ⟨"/auth/callback", [("state", "s"), ("code", "abcd")]⟩ :=
    ⟨by decide +kernel, rfl, by decide, by decide, by decide, by decide⟩
  have hstray : (sending "GET /favicon.ico HTTP/1.1\r\n\r\n").Elsewhere plainUrl :=
    ⟨rfl, Text.utf8 "GET /favicon.ico HTTP/1.1\r\n\r\n", ⟨"/favicon.ico", []⟩,
      by decide +kernel, by decide +kernel, by decide⟩
  exact (((callback_waits_iff plainUrl "s").1 [sending "GET /favicon.ico HTTP/1.1\r\n\r\n"]
    (sending "GET /auth/callback?state=s&code=abcd HTTP/1.1\r\n\r\n") [] _ _ _
    (by decide +kernel) hcallback).mpr ⟨by simpa using hstray, rfl⟩).2

/-- A connection that is closed at once ends the wait for the callback. -/
theorem callback_waits_closed :
    receiveCallback plainUrl "s" [some ⟨some [], true⟩,
        some (sending "GET /auth/callback?state=s&code=abcd HTTP/1.1\r\n\r\n")] =
      some (.error .malformed) ∧
    receiveCallback plainUrl "s"
        [some (sending "GET /auth/callback?state=s&code=abcd HTTP/1.1\r\n\r\n")] =
      some (.ok "abcd") := by
  decide +kernel

end Rcodex
