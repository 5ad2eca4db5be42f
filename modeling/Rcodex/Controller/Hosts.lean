import Rcodex.Controller.Signing

/-!
# The hosts to which a process connects

`Lists` says that the relay has listed some environments, page by page, since a point of the log.
`Reached` says of a connection that its host was listed so and online, and that the process has
proved itself over the websocket.  Each of the three commands that connect returns only such
connections; the broker and the terminal ask the local Codex for its version meanwhile
(`LocalCodex`), and connect only to a host that runs this version.
-/

namespace Rcodex

open Json Result Audit

/-! ### What was done since a point of the log -/

/-- The act was done since. -/
def DoneSince (start : List Act) (act : Act) (log : List Act) : Prop :=
  ∃ acts, log = start ++ acts ∧ act ∈ acts

/-- It stays done. -/
theorem stable_doneSince (start : List Act) (act : Act) : Stable (DoneSince start act) := by
  intro log later h
  obtain ⟨acts, rfl, hmem⟩ := h
  exact ⟨acts ++ later, List.append_assoc _ _ _, List.mem_append_left _ hmem⟩

/-- A log that goes on from a point goes on from it. -/
theorem stable_from (start : List Act) : Stable (start <+: ·) :=
  fun _ _ h => h.trans (List.prefix_append _ _)

/-- An act that was just done. -/
theorem doneSince_concat {start before : List Act} (act : Act) (h : start <+: before) :
    DoneSince start act (before ++ [act]) := by
  obtain ⟨acts, rfl⟩ := h
  exact ⟨acts ++ [act], List.append_assoc _ _ _, List.mem_append_right _ List.mem_cons_self⟩

section Listed

variable (library : ControllerLibrary) (start : List Act) (clientId : Option String)
  (log : List Act)

/-- The relay has sent this page since. -/
def SentPage (cursor : Option String) (page : EnvironmentList) : Prop :=
  ∃ request response, DoneSince start (.exchange request (some response)) log ∧
    request.url = apiBase ++ library.urls.environmentsPath clientId cursor ∧
    RelayApi.readBody library EnvironmentList.deserialize response = some page

/-- The relay has listed the environments since, from the page of a cursor on. -/
inductive Lists : Option String → Listing → List RemoteEnvironment → Prop
  /-- The last page. -/
  | last {cursor : Option String} {listing after : Listing} {page : EnvironmentList}
      (hsent : SentPage library start clientId log cursor page)
      (hpage : acceptEnvironmentPage listing page = .ok (none, after)) :
      Lists cursor listing after.environments
  /-- A page with a cursor. -/
  | next {cursor : Option String} {listing after : Listing} {page : EnvironmentList}
      {next : String} {environments : List RemoteEnvironment}
      (hsent : SentPage library start clientId log cursor page)
      (hpage : acceptEnvironmentPage listing page = .ok (some next, after))
      (hrest : Lists (some next) after environments) : Lists cursor listing environments

end Listed

section Lists

variable {library : ControllerLibrary} {start : List Act} {clientId cursor : Option String}
  {listing : Listing} {environments : List RemoteEnvironment}

/-- A page stays sent. -/
theorem stable_sentPage (page : EnvironmentList) :
    Stable (SentPage library start clientId · cursor page) :=
  Stable.exists fun _ => Stable.exists fun _ => (stable_doneSince _ _).and (stable_const _)

/-- The environments stay listed. -/
theorem stable_lists : Stable (Lists library start clientId · cursor listing environments) := by
  intro log later h
  induction h with
  | last hsent hpage => exact .last (stable_sentPage _ _ _ hsent) hpage
  | next hsent hpage _ ih => exact .next (stable_sentPage _ _ _ hsent) hpage ih

/-- The pages that were sent make up the list. -/
theorem Lists.exists_pages {log : List Act}
    (h : Lists library start clientId log cursor listing environments) :
    ∃ pages, listEnvironments listing pages = .ok (some environments) := by
  induction h with
  | @last _ _ _ page _ hpage => exact ⟨[page], by simp only [listEnvironments, hpage]⟩
  | @next _ _ _ page _ _ _ hpage _ ih =>
    obtain ⟨pages, hpages⟩ := ih
    exact ⟨page :: pages, by simpa only [listEnvironments, hpage] using hpages⟩

/-- The environments that were listed are within the limit. -/
theorem Lists.listed {log : List Act}
    (h : Lists library start clientId log none ⟨[], ∅⟩ environments) : Listed environments :=
  h.exists_pages

variable {outside : ControllerOutside} {J : List Act → Prop}

/-- The loop of `list_environments` returns what the relay has listed. -/
theorem listLoop_justifies (hJ : Stable J) (hstart : ∀ log, J log → start <+: log)
    (clientId cursor : Option String)
    (listing : {listing : Listing // listing.seenCursors.card ≤ maxEnvironmentPages}) :
    Justifies library J (RelayApi.listLoop library outside clientId cursor listing)
      fun environments log => J log ∧
        Lists library start clientId log cursor listing.val environments := by
  induction cursor, listing using RelayApi.listLoop.induct with
  | case1 cursor listing ih =>
    rw [RelayApi.listLoop]
    refine Keeps.bind (R := fun page log => J log ∧
      SentPage library start clientId log cursor page) ?_ fun page => ?_
    · refine (requestJson_justifies hJ fun auth log _ =>
        spends_of_method (by decide) auth log).conseq (fun _ h => h) fun page log h => ?_
      obtain ⟨before, request, response, rfl, hurl, hbody, hbefore⟩ := h
      exact ⟨hJ _ _ hbefore, request, response, doneSince_concat _ (hstart _ hbefore), hurl, hbody⟩
    split
    next => exact Keeps.fail
    next after h => exact Keeps.ret fun log hlog => ⟨hlog.1, .last hlog.2 h⟩
    next next after h =>
      refine ((ih page next after h).frame (stable_sentPage page)).conseq (fun _ hlog => hlog)
        fun environments log hlog => ⟨hlog.1.1, .next hlog.2 h hlog.1.2⟩

/-- `list_environments` returns what the relay has listed. -/
theorem listEnvironments_justifies (hJ : Stable J) (hstart : ∀ log, J log → start <+: log)
    (clientId : Option String) :
    Justifies library J (RelayApi.listEnvironments library outside clientId)
      fun environments log => J log ∧
        Lists library start clientId log none ⟨[], ∅⟩ environments :=
  listLoop_justifies hJ hstart _ _ _

end Lists

/-! ### The hosts that are reached -/

/-- A program that was run since has succeeded and written this text. -/
def Wrote (start : List Act) (act : Option ProgramOutput → Act) (text : String) (log : List Act) :
    Prop :=
  ∃ output, DoneSince start (act (some output)) log ∧ output.success = true ∧
    Text.fromUtf8 output.stdout = some text

/-- The local Codex has reported since that it has this version and the options that are needed. -/
def LocalCodex (start : List Act) (version : String) (log : List Act) : Prop :=
  ∃ versionText helpText, (Wrote start .codexVersion versionText log ∧
    parseStockCodexVersion versionText = .ok version) ∧
    Wrote start .codexHelp helpText log ∧
    ∀ option ∈ requiredRemoteOptions, helpHasOption helpText option = true

/-- Since `start` the relay has listed the host of the connection for the client of the enrollment,
as online, and the process has proved itself with the device key. -/
structure Reached (library : ControllerLibrary) (start : List Act) (transport : RelayTransport)
    (environments : List RemoteEnvironment) (environment : RemoteEnvironment) (log : List Act) :
    Prop where
  /-- The enrollment. -/
  enrolled : ∃ enrollment streamId signature payload, Holds enrollment log ∧
    transport = .connect enrollment.clientId environment.envId streamId ∧
    Lists library start (some enrollment.clientId) log none ⟨[], ∅⟩ environments ∧
    DoneSince start (.send (proofMessage enrollment signature payload) true) log
  /-- The host was listed. -/
  mem : environment ∈ environments
  /-- It was online. -/
  online : environment.online = true

/-- A host with an identifier, if it is online. -/
theorem onlineEnvironment_eq_ok {environments : List RemoteEnvironment} {environmentId : String}
    {environment : RemoteEnvironment}
    (h : onlineEnvironment environments environmentId = .ok environment) :
    environment ∈ environments ∧ environment.envId = environmentId ∧ environment.online = true := by
  obtain ⟨found, hfound, h⟩ := bind_eq_ok_iff.mp h
  obtain ⟨_, honline, h⟩ := bind_eq_ok_iff.mp h
  obtain rfl := Except.ok.inj h
  have hfound := context_eq_ok_iff.mp hfound
  have hid := List.find?_some hfound
  rw [bailWhen_eq_ok_iff, Bool.not_eq_false] at honline
  exact ⟨List.mem_of_find?_eq_some hfound, by simpa using hid, honline⟩

/-- The host that was asked for, or the only one online. -/
def ChosenHost (environments : List RemoteEnvironment) (environment : RemoteEnvironment) :
    Option String → Prop
  | some requested => environment.envId = requested
  | none => ∀ other ∈ environments, other.online = true → other = environment

/-- The host that is selected. -/
theorem selectEnvironment_eq_ok {environments : List RemoteEnvironment}
    {requested : Option String} {environment : RemoteEnvironment}
    (h : selectEnvironment environments requested = .ok environment) :
    environment ∈ environments ∧ environment.online = true ∧
      ChosenHost environments environment requested := by
  cases requested with
  | some requested =>
    obtain ⟨hmem, hid, honline⟩ := onlineEnvironment_eq_ok h
    exact ⟨hmem, honline, hid⟩
  | none =>
    obtain ⟨found, hfound, h⟩ := bind_eq_ok_iff.mp h
    obtain ⟨_, hone, h⟩ := bind_eq_ok_iff.mp h
    obtain rfl := Except.ok.inj h
    have hfound := context_eq_ok_iff.mp hfound
    rw [bailWhen_eq_ok_iff, not_not] at hone
    have hfilter : environments.filter (·.online) = [found] := by
      rw [← List.cons_head?_tail hfound, hone]
    have hmem : ∀ other, other ∈ environments ∧ other.online = true ↔ other = found := by
      intro other
      rw [← List.mem_filter, hfilter, List.mem_singleton]
    obtain ⟨hlisted, honline⟩ := (hmem found).mpr rfl
    refine ⟨hlisted, honline, fun other hother hotherOnline => ?_⟩
    exact (hmem other).mp ⟨hother, hotherOnline⟩

section Reached

variable {library : ControllerLibrary} {outside : ControllerOutside} {start : List Act}

/-- It stays written. -/
theorem stable_wrote (act : Option ProgramOutput → Act) (text : String) :
    Stable (Wrote start act text) :=
  Stable.exists fun _ => (stable_doneSince _ _).and (stable_const _)

/-- The version stays reported. -/
theorem stable_localCodex (version : String) : Stable (LocalCodex start version) :=
  Stable.exists fun _ => Stable.exists fun _ => ((stable_wrote _ _).and (stable_const _)).and
    ((stable_wrote _ _).and (stable_const _))

/-- A program that has succeeded with a text. -/
theorem programText_eq_ok {output : Option ProgramOutput} {unavailable failed notUtf8 : CodexError}
    {text : String}
    (h : Controller.programText output unavailable failed notUtf8 = .ok text) :
    ∃ found, output = some found ∧ found.success = true ∧
      Text.fromUtf8 found.stdout = some text := by
  obtain ⟨found, hfound, h⟩ := bind_eq_ok_iff.mp h
  obtain ⟨_, hsuccess, h⟩ := bind_eq_ok_iff.mp h
  rw [bailWhen_eq_ok_iff, Bool.not_eq_false] at hsuccess
  exact ⟨found, context_eq_ok_iff.mp hfound, hsuccess, context_eq_ok_iff.mp h⟩

/-- A program that was just run. -/
theorem programText_justifies {J : List Act → Prop} (hJ : Stable J)
    (hstart : ∀ log, J log → start <+: log) {act : Option ProgramOutput → Act}
    {output : Option ProgramOutput} {unavailable failed notUtf8 : CodexError} :
    Justifies library (fun log => ∃ before, log = before ++ [act output] ∧ J before)
      (Effect.lift ((Controller.programText output unavailable failed notUtf8).mapError .codex))
      fun text log => J log ∧ Wrote start act text log := by
  refine Keeps.lift fun text htext log h => ?_
  obtain ⟨before, rfl, hbefore⟩ := h
  obtain ⟨found, rfl, hfound⟩ := programText_eq_ok (mapError_eq_ok_iff.mp htext)
  exact ⟨hJ _ _ hbefore, found, doneSince_concat _ (hstart _ hbefore), hfound⟩

/-- The local Codex is asked for its version and its options. -/
theorem inspectStockCodex_justifies :
    Justifies library (start <+: ·) (Controller.inspectStockCodex outside)
      fun version log => start <+: log ∧ LocalCodex start version log := by
  refine Keeps.bind (consult_justifies fun _ _ _ => trivial) fun output => ?_
  refine Keeps.bind (programText_justifies (stable_from _) fun _ h => h) fun text => ?_
  refine Keeps.bind (R := fun version log => start <+: log ∧
    Wrote start .codexVersion text log ∧ parseStockCodexVersion text = .ok version)
    (Keeps.lift fun version hversion log h => ⟨h.1, h.2, mapError_eq_ok_iff.mp hversion⟩)
    fun version => ?_
  refine Keeps.bind (consult_justifies fun _ _ _ => trivial) fun help => ?_
  refine Keeps.bind (programText_justifies ((stable_from _).and ((stable_wrote _ _).and
    (stable_const _))) fun _ h => h.1) fun helpText => ?_
  refine Keeps.bind (R := fun _ log => start <+: log ∧ LocalCodex start version log)
    (Keeps.lift fun _ hoptions log h => ?_) fun _ => Keeps.ret fun _ h => h
  obtain ⟨⟨hstart, hversion⟩, hhelp⟩ := h
  refine ⟨hstart, text, helpText, hversion, hhelp, fun option hoption => ?_⟩
  have hmissing := bailWhen_eq_ok_iff.mp (mapError_eq_ok_iff.mp hoptions)
  rw [not_not, List.filter_eq_nil_iff] at hmissing
  simpa using hmissing option hoption

/-- What must hold before a connection. -/
def Ready (library : ControllerLibrary) (opened : ControllerState × RemoteControlSession ×
    CodexAuth × List RemoteEnvironment) (log : List Act) : Prop :=
  (.loadAuth (.ok opened.2.2.1) ∈ log ∨ .refreshAuth (.ok opened.2.2.1) ∈ log) ∧
    Holds opened.1.enrollment log ∧ Issued library opened.1.enrollment opened.2.1 log

/-- The hosts of the client were listed. -/
def HostsListed (library : ControllerLibrary) (start : List Act) (opened : ControllerState ×
    RemoteControlSession × CodexAuth × List RemoteEnvironment) (log : List Act) : Prop :=
  Lists library start (some opened.1.enrollment.clientId) log none ⟨[], ∅⟩ opened.2.2.2

/-- What is known before a connection stays so. -/
theorem stable_ready (opened : ControllerState × RemoteControlSession × CodexAuth ×
    List RemoteEnvironment) : Stable fun log => Ready library opened log ∧ start <+: log ∧
      HostsListed library start opened log :=
  (((stable_mem _).or (stable_mem _)).and ((stable_holds _).and (stable_issued _ _))).and
    ((stable_from _).and stable_lists)

/-- Before a connection there are a session of the enrollment and an authentication, and the hosts
were listed. -/
theorem openSession_justifies :
    Justifies library (start <+: ·) (Controller.openSession library outside)
      fun opened log => Ready library opened log ∧ start <+: log ∧
        HostsListed library start opened log := by
  refine Keeps.bind ((ensureSession_justifies.frame (stable_from start)).conseq
    (fun log h => ⟨h, h⟩) fun _ _ h => h) fun ensured => ?_
  obtain ⟨state, session⟩ := ensured
  have hensured : Stable fun log => (Holds state.enrollment log ∧
      Issued library state.enrollment session log) ∧ start <+: log :=
    ((stable_holds _).and (stable_issued _ _)).and (stable_from _)
  refine Keeps.bind ((auth_justifies (J := fun _ => True).frame hensured).conseq
    (fun log h => ⟨trivial, h⟩) fun _ _ h => h) fun auth => ?_
  have hopened : Stable fun log => (.loadAuth (.ok auth) ∈ log ∨ .refreshAuth (.ok auth) ∈ log) ∧
      (Holds state.enrollment log ∧ Issued library state.enrollment session log) ∧ start <+: log :=
    ((stable_mem _).or (stable_mem _)).and hensured
  refine Keeps.bind (listEnvironments_justifies hopened (fun _ h => h.2.2) _) fun environments =>
    Keeps.ret fun _ h => ⟨⟨h.1.1, h.1.2.1⟩, h.1.2.2, h.2⟩

/-- A host that was listed is connected to. -/
theorem connect_reaches {opened : ControllerState × RemoteControlSession × CodexAuth ×
    List RemoteEnvironment} {environment : RemoteEnvironment} {T : List Act → Prop} (hT : Stable T)
    (hmem : environment ∈ opened.2.2.2) (honline : environment.online = true) :
    Justifies library (fun log => (Ready library opened log ∧ start <+: log ∧
        HostsListed library start opened log) ∧ T log)
      (Controller.connect library outside opened.2.2.1 opened.1.enrollment opened.2.1
        environment.envId)
      fun transport log =>
        Reached library start transport opened.2.2.2 environment log ∧ T log := by
  refine (connect_justifies ((stable_ready opened).and hT)).conseq (fun log h => ⟨h.1.1, h⟩)
    fun transport log h => ?_
  obtain ⟨⟨streamId, htransport⟩, before, signature, payload, rfl, hbefore⟩ := h
  obtain ⟨⟨hready, hstart, hlisted⟩, hT'⟩ := hbefore
  refine ⟨⟨⟨opened.1.enrollment, streamId, signature, payload, ?_, htransport,
    stable_lists _ _ hlisted, doneSince_concat _ hstart⟩, hmem, honline⟩, hT _ _ hT'⟩
  exact stable_holds _ _ _ hready.2.1

/-- The broker connects to the host it was asked for, if it runs the version of the local Codex. -/
theorem openRemoteAppServer_justifies {environmentId : String} :
    Justifies library (start <+: ·)
      (Controller.openRemoteAppServer library outside environmentId)
      fun transport log => ∃ environments environment version,
        Reached library start transport environments environment log ∧
          LocalCodex start version log ∧ environment.envId = environmentId ∧
          verifyRemoteCodexVersion version environment = .ok () := by
  refine Keeps.bind inspectStockCodex_justifies fun version => ?_
  have hversion := @stable_localCodex start version
  refine Keeps.bind (openSession_justifies.frame hversion) fun opened => ?_
  refine Keeps.lift_bind fun environment henvironment => ?_
  obtain ⟨hmem, rfl, honline⟩ := onlineEnvironment_eq_ok henvironment
  refine Keeps.lift_bind fun _ hverified => ?_
  exact (connect_reaches hversion hmem honline).conseq (fun _ h => h) fun transport log h =>
    ⟨opened.2.2.2, environment, version, h.1, h.2, rfl, mapError_eq_ok_iff.mp hverified⟩

/-- A host is probed if it is online. -/
theorem probe_justifies {device : String} :
    Justifies library (start <+: ·) (Controller.probe library outside device)
      fun transport log => ∃ environments environment,
        Reached library start transport environments environment log ∧
          environment.envId = device := by
  refine Keeps.bind openSession_justifies fun opened => ?_
  refine Keeps.lift_bind fun environment henvironment => ?_
  obtain ⟨hmem, rfl, honline⟩ := onlineEnvironment_eq_ok henvironment
  exact (connect_reaches (stable_const True) hmem honline).conseq (fun _ h => ⟨h, trivial⟩)
    fun transport log h => ⟨opened.2.2.2, environment, h.1, rfl⟩

/-- The terminal connects to the host it was asked for, or to the only one online, if it runs the
version of the local Codex; it holds the lock of the installation then. -/
theorem runRemoteTui_justifies {requested : Option String} :
    Justifies library (start <+: ·) (Controller.runRemoteTui library outside requested)
      fun connected log => ∀ transport, connected = some transport →
        ∃ environments environment version,
          Reached library start transport environments environment log ∧
            (LocalCodex start version log ∧ DoneSince start (.lock true) log) ∧
            ChosenHost environments environment requested ∧
            verifyRemoteCodexVersion version environment = .ok () := by
  refine Keeps.bind openSession_justifies fun opened => ?_
  refine Keeps.lift_bind fun environment henvironment => ?_
  obtain ⟨hmem, honline, hchosen⟩ := selectEnvironment_eq_ok henvironment
  have hopened := @stable_ready library start opened
  refine Keeps.bind (R := fun version log => LocalCodex start version log ∧
    Ready library opened log ∧ start <+: log ∧ HostsListed library start opened log)
    ((inspectStockCodex_justifies.frame hopened).conseq (fun log h => ⟨h.2.1, h⟩)
      fun _ _ h => ⟨h.1.2, h.2⟩) fun version => ?_
  have hasked : Stable fun log => LocalCodex start version log ∧ Ready library opened log ∧
      start <+: log ∧ HostsListed library start opened log :=
    (stable_localCodex version).and hopened
  refine Keeps.bind (consult_keeps hasked fun _ _ _ => trivial) fun restarts => ?_
  split_ifs
  · exact Keeps.ret fun _ _ _ hnone => absurd hnone (Option.some_ne_none _).symm
  refine Keeps.bind (consult_justifies fun _ _ _ => trivial) fun locked =>
    Keeps.failWhen_bind fun hlocked => Keeps.lift_bind fun _ hverified => ?_
  rw [Bool.not_eq_false] at hlocked
  subst hlocked
  have hlocked : Stable fun log =>
      LocalCodex start version log ∧ DoneSince start (.lock true) log :=
    (stable_localCodex version).and (stable_doneSince _ _)
  refine Keeps.bind (R := fun transport log =>
    Reached library start transport opened.2.2.2 environment log ∧
      LocalCodex start version log ∧ DoneSince start (.lock true) log)
    ((connect_reaches hlocked hmem honline).conseq (fun log h => ?_) fun _ _ h => h)
    fun transport => Keeps.ret fun log h connected hconnected => ?_
  · obtain ⟨before, rfl, hbefore⟩ := h
    exact ⟨hopened _ _ hbefore.2, stable_localCodex _ _ _ hbefore.1,
      doneSince_concat _ hbefore.2.2.1⟩
  · obtain rfl := Option.some.inj hconnected
    exact ⟨opened.2.2.2, environment, version, h.1, h.2, hchosen, mapError_eq_ok_iff.mp hverified⟩

end Reached

end Rcodex
