import Rcodex.Broker.Hosts
import Rcodex.Foundation.Effect

/-!
# The requests for environments

`Listing.acceptEnvironmentPage` is `accept_environment_page` with its effects one after another: a
cursor is remembered by the check that refuses it, and the environments are added last.
`accept_eq` says that it changes nothing when it fails.

`requestPages` is the loop of `list_environments` against a relay that may answer each request as
it likes.  `Follows` is its invariant: the requests are those for the cursors of the pages so far,
no cursor occurs twice, and all of them are remembered.  As at most 32 are remembered, there are at
most 33 requests.  If the pages are accepted one after another, the loop returns what they make up
(`requestPages_of_listEnvironments`).
-/

namespace Rcodex

open Json Result

/-- `usize::checked_add` -/
def checkedAdd (a b : ℕ) : Option ℕ := if a + b < 2 ^ 64 then some (a + b) else none

/-- The condition on a cursor; its last part is `!seen_cursors.insert(..)`, which is reached only if
the other parts are false. -/
def refusesCursor (cursor : String) : Effect Listing PageError Bool :=
  Effect.ask fun listing =>
    if cursor = "" ∨ maxCursorBytes < (Text.utf8 cursor).length ∨
        cursor.toList.any Text.isControl = true ∨
        listing.seenCursors.card = maxEnvironmentPages then
      (true, listing)
    else
      (decide (cursor ∈ listing.seenCursors),
        { listing with seenCursors := insert cursor listing.seenCursors })

/-- `accept_environment_page`, on the list and the cursors it is given. -/
def Listing.acceptEnvironmentPage (page : EnvironmentList) :
    Effect Listing PageError (Option String) := do
  let length ← Effect.read fun listing => listing.environments.length
  let nextLength ← Effect.lift (context .countOverflowed (checkedAdd length page.items.length))
  Effect.failWhen (maxRemoteEnvironments < nextLength ∨
    (nextLength = maxRemoteEnvironments ∧ page.cursor.isSome = true)) .tooManyEnvironments
  match page.cursor with
  | none => pure ()
  | some cursor =>
    let refused ← refusesCursor cursor
    Effect.failWhen (refused = true) .invalidCursor
  Effect.change fun listing => { listing with environments := listing.environments ++ page.items }
  return page.cursor

/-- Why a listing fails. -/
inductive ListingError where
  | request
  | page (error : PageError)
deriving DecidableEq

section Loop

variable (server : List (Option String) → Except ListingError EnvironmentList)

/-- The loop of `list_environments`, up to a number of requests: what it returns and the cursors of
the requests it made.  The server knows all requests so far. -/
def requestPages : ℕ → List (Option String) → Option String → Listing →
    Option (Except ListingError (List RemoteEnvironment) × List (Option String))
  | 0, _, _, _ => none
  | limit + 1, requested, cursor, listing =>
    let requested := requested ++ [cursor]
    match server requested with
    | .error error => some (.error error, requested)
    | .ok page =>
      match Listing.acceptEnvironmentPage page listing with
      | (.error error, _) => some (.error (.page error), requested)
      | (.ok none, listing) => some (.ok listing.environments, requested)
      | (.ok (some cursor), listing) => requestPages limit requested (some cursor) listing

end Loop

/-- The function with its effects does what the function on values does, and it changes nothing when
it fails. -/
theorem accept_eq (page : EnvironmentList) (listing : Listing) :
    Listing.acceptEnvironmentPage page listing =
      match acceptEnvironmentPage listing page with
      | .ok (cursor, after) => (.ok cursor, after)
      | .error error => (.error error, listing) := by
  unfold Listing.acceptEnvironmentPage acceptEnvironmentPage
  rw [Effect.read_bind, bailWhen_bind]
  by_cases hcount : 2 ^ 64 ≤ listing.environments.length + page.items.length
  · rw [checkedAdd, if_neg (not_lt.mpr hcount), if_pos hcount]
    rfl
  rw [checkedAdd, if_pos (not_le.mp hcount), if_neg hcount, context, Effect.lift_ok_bind,
    Effect.failWhen_bind, bailWhen_bind]
  by_cases hlimit : maxRemoteEnvironments < listing.environments.length + page.items.length ∨
      (listing.environments.length + page.items.length = maxRemoteEnvironments ∧
        page.cursor.isSome = true)
  · rw [if_pos hlimit, if_pos hlimit]
  rw [if_neg hlimit, if_neg hlimit]
  cases page.cursor with
  | none => rfl
  | some cursor =>
    by_cases hrefused : cursor = "" ∨ maxCursorBytes < (Text.utf8 cursor).length ∨
        cursor.toList.any Text.isControl = true ∨ listing.seenCursors.card = maxEnvironmentPages
    · have hinvalid : IsInvalidCursor listing.seenCursors cursor := by
        unfold IsInvalidCursor
        tauto
      simp only [refusesCursor, Effect.ask_bind, if_pos hrefused, Effect.failWhen_bind, if_true,
        bailWhen_bind, if_pos hinvalid]
    · have hiff : IsInvalidCursor listing.seenCursors cursor ↔ cursor ∈ listing.seenCursors := by
        unfold IsInvalidCursor
        tauto
      by_cases hseen : cursor ∈ listing.seenCursors
      · have hsame : ({ listing with seenCursors := insert cursor listing.seenCursors } : Listing) =
            listing := by
          rw [Finset.insert_eq_of_mem hseen]
        simp only [refusesCursor, Effect.ask_bind, if_neg hrefused, Effect.failWhen_bind,
          bailWhen_bind, if_pos (hiff.mpr hseen), decide_eq_true hseen, if_true, hsame]
      · simp only [refusesCursor, Effect.ask_bind, if_neg hrefused, Effect.failWhen_bind,
          bailWhen_bind, if_neg (mt hiff.mp hseen), decide_eq_false hseen, Bool.false_eq_true,
          if_false]
        rfl

/-! ### The requests -/

section Requests

variable (server : List (Option String) → Except ListingError EnvironmentList)

/-- The answers to the requests, one page for each. -/
structure Answered (requested : List (Option String)) (pages : List EnvironmentList) : Prop where
  /-- As many pages as requests. -/
  length_eq : requested.length = pages.length
  /-- Each page is the answer to its request. -/
  answer : ∀ i page, pages[i]? = some page → server (requested.take (i + 1)) = .ok page

/-- Before a request: all pages so far had a cursor and were accepted. -/
structure Follows (requested : List (Option String)) (cursor : Option String) (listing : Listing)
    (pages : List EnvironmentList) : Prop where
  /-- The pages are the answers. -/
  answered : Answered server requested pages
  /-- After the first request, each asks for the cursor of the page before it. -/
  cursors : requested ++ [cursor] = none :: pages.map EnvironmentList.cursor
  /-- All pages have a cursor. -/
  hasCursor : ∀ page ∈ pages, page.cursor.isSome = true
  /-- The environments are those of the pages. -/
  environments : listing.environments = pages.flatMap EnvironmentList.items
  /-- The cursors of the pages are remembered. -/
  seen : ∀ c, c ∈ listing.seenCursors ↔ some c ∈ pages.map EnvironmentList.cursor
  /-- One for each page. -/
  card_eq : listing.seenCursors.card = pages.length
  /-- No cursor comes twice. -/
  nodup : (pages.map EnvironmentList.cursor).Nodup
  /-- There is room for that many. -/
  le : pages.length ≤ maxEnvironmentPages

/-- The requests for all pages, up to the first one without a cursor. -/
structure AllPages (requested : List (Option String)) (pages : List EnvironmentList) : Prop where
  /-- The pages are the answers. -/
  answered : Answered server requested pages
  /-- After the first request, each asks for the cursor of the page before it. -/
  cursors : requested = none :: pages.dropLast.map EnvironmentList.cursor
  /-- The pages before the last have a cursor. -/
  hasCursor : ∀ page ∈ pages.dropLast, page.cursor.isSome = true
  /-- The last one has none. -/
  last : ∃ page, pages.getLast? = some page ∧ page.cursor = none

/-- What a listing ends with. -/
structure Ends (result : Except ListingError (List RemoteEnvironment))
    (requested : List (Option String)) : Prop where
  /-- At most 33 requests were made. -/
  length_le : requested.length ≤ maxEnvironmentPages + 1
  /-- No two for one cursor. -/
  nodup : requested.Nodup
  /-- The list that is returned is that of all pages. -/
  complete : ∀ environments, result = .ok environments → ∃ pages,
    AllPages server requested pages ∧ environments = pages.flatMap EnvironmentList.items ∧
      environments.length ≤ maxRemoteEnvironments

variable {server} {requested : List (Option String)} {cursor : Option String} {listing : Listing}
  {pages : List EnvironmentList}

/-- One more answer. -/
theorem Answered.append (h : Answered server requested pages) {page : EnvironmentList}
    (hpage : server (requested ++ [cursor]) = .ok page) :
    Answered server (requested ++ [cursor]) (pages ++ [page]) := by
  refine ⟨by simp [h.length_eq], fun i page' hpage' => ?_⟩
  rcases lt_trichotomy i pages.length with hi | rfl | hi
  · rw [List.getElem?_append_left hi] at hpage'
    rw [List.take_append_of_le_length (by rw [h.length_eq]; exact hi)]
    exact h.answer i page' hpage'
  · rw [List.getElem?_append_right (le_refl _), Nat.sub_self, List.getElem?_cons_zero] at hpage'
    obtain rfl := Option.some.inj hpage'
    rw [List.take_of_length_le (by simp [h.length_eq])]
    exact hpage
  · rw [List.getElem?_eq_none (by simp; omega)] at hpage'
    contradiction

namespace Follows

/-- Nothing is requested yet. -/
theorem start : Follows server [] none ⟨[], ∅⟩ [] where
  answered := ⟨rfl, by simp⟩
  cursors := rfl
  hasCursor := by simp
  environments := rfl
  seen := by simp
  card_eq := rfl
  nodup := List.nodup_nil
  le := Nat.zero_le _

/-- The next request is a new one. -/
theorem nodup_requested (h : Follows server requested cursor listing pages) :
    (requested ++ [cursor]).Nodup := by
  rw [h.cursors, List.nodup_cons]
  refine ⟨fun hnone => ?_, h.nodup⟩
  obtain ⟨page, hpage, hcursor⟩ := List.mem_map.mp hnone
  have hsome := h.hasCursor page hpage
  rw [hcursor] at hsome
  contradiction

/-- There are at most 33 requests, the next one included. -/
theorem length_requested (h : Follows server requested cursor listing pages) :
    (requested ++ [cursor]).length ≤ maxEnvironmentPages + 1 := by
  rw [h.cursors, List.length_cons, List.length_map]
  exact Nat.succ_le_succ h.le

/-- A listing that fails after this request. -/
theorem ends_error (h : Follows server requested cursor listing pages) (error : ListingError) :
    Ends server (.error error) (requested ++ [cursor]) where
  length_le := h.length_requested
  nodup := h.nodup_requested
  complete := by
    intro environments herror
    contradiction

/-- A listing that ends with a page without a cursor. -/
theorem ends_ok (h : Follows server requested cursor listing pages) {page : EnvironmentList}
    {after : Listing} (hpage : server (requested ++ [cursor]) = .ok page)
    (haccept : acceptEnvironmentPage listing page = .ok (none, after)) :
    Ends server (.ok after.environments) (requested ++ [cursor]) where
  length_le := h.length_requested
  nodup := h.nodup_requested
  complete := by
    intro environments hok
    obtain rfl := Except.ok.inj hok
    obtain ⟨hcursor, henvironments, hlimit, -, -⟩ := acceptEnvironmentPage_cases haccept
    refine ⟨pages ++ [page], ⟨h.answered.append hpage, ?_, ?_, page, by simp, hcursor⟩, ?_, hlimit⟩
    · rw [List.dropLast_concat]
      exact h.cursors
    · rw [List.dropLast_concat]
      exact h.hasCursor
    · rw [henvironments, h.environments]
      simp

/-- A page with a cursor that can be followed. -/
theorem next (h : Follows server requested cursor listing pages) {page : EnvironmentList}
    {after : Listing} {c : String} (hpage : server (requested ++ [cursor]) = .ok page)
    (haccept : acceptEnvironmentPage listing page = .ok (some c, after)) :
    Follows server (requested ++ [cursor]) (some c) after (pages ++ [page]) := by
  obtain ⟨hcursor, henvironments, -, -, hseen⟩ := acceptEnvironmentPage_cases haccept
  obtain ⟨hvalid, hinsert⟩ := hseen c rfl
  have hnew : c ∉ listing.seenCursors := fun hmem =>
    hvalid (Or.inr (Or.inr (Or.inr (Or.inr hmem))))
  have hroom : listing.seenCursors.card ≠ maxEnvironmentPages := fun hfull =>
    hvalid (Or.inr (Or.inr (Or.inr (Or.inl hfull))))
  have hle := h.le
  rw [h.card_eq] at hroom
  refine ⟨h.answered.append hpage, ?_, ?_, ?_, fun c' => ?_, ?_, ?_, ?_⟩
  · rw [h.cursors, List.map_append, List.map_singleton, hcursor, List.cons_append]
  · intro page' hpage'
    rcases List.mem_append.mp hpage' with hpage' | hpage'
    · exact h.hasCursor page' hpage'
    · obtain rfl := List.mem_singleton.mp hpage'
      rw [hcursor]
      rfl
  · rw [henvironments, h.environments]
    simp
  · rw [hinsert, Finset.mem_insert, h.seen, List.map_append, List.mem_append, List.map_singleton,
      List.mem_singleton, hcursor, Option.some.injEq, or_comm]
  · rw [hinsert, Finset.card_insert_of_notMem hnew, h.card_eq, List.length_append]
    rfl
  · rw [List.map_append, List.map_singleton, hcursor, List.nodup_append]
    refine ⟨h.nodup, List.nodup_singleton _, fun a ha b hb => ?_⟩
    rintro rfl
    rw [List.mem_singleton.mp hb] at ha
    exact hnew ((h.seen c).mpr ha)
  · rw [List.length_append, List.length_singleton]
    omega

end Follows

/-- From any point on, the listing ends, however the relay answers. -/
theorem exists_ends {left : ℕ} (h : Follows server requested cursor listing pages)
    (hleft : maxEnvironmentPages + 1 ≤ left + pages.length) :
    ∃ result requested', Ends server result requested' ∧
      ∀ limit, left ≤ limit →
        requestPages server limit requested cursor listing = some (result, requested') := by
  induction left generalizing requested cursor listing pages with
  | zero =>
    have hle := h.le
    omega
  | succ left ih =>
    have hsucc : ∀ limit, left + 1 ≤ limit → ∃ limit', limit = limit' + 1 ∧ left ≤ limit' :=
      fun limit hlimit => ⟨limit - 1, by omega, by omega⟩
    cases hpage : server (requested ++ [cursor]) with
    | error error =>
      refine ⟨_, _, h.ends_error error, fun limit hlimit => ?_⟩
      obtain ⟨limit, rfl, -⟩ := hsucc limit hlimit
      simp only [requestPages, hpage]
    | ok page =>
      have heffect := accept_eq page listing
      cases haccept : acceptEnvironmentPage listing page with
      | error error =>
        rw [haccept] at heffect
        refine ⟨_, _, h.ends_error (.page error), fun limit hlimit => ?_⟩
        obtain ⟨limit, rfl, -⟩ := hsucc limit hlimit
        simp only [requestPages, hpage, heffect]
      | ok accepted =>
        obtain ⟨next, after⟩ := accepted
        rw [haccept] at heffect
        cases next with
        | none =>
          refine ⟨_, _, h.ends_ok hpage haccept, fun limit hlimit => ?_⟩
          obtain ⟨limit, rfl, -⟩ := hsucc limit hlimit
          simp only [requestPages, hpage, heffect]
        | some c =>
          have hnext := h.next hpage haccept
          obtain ⟨result, requested', hends, hrun⟩ := ih hnext (by
            rw [List.length_append, List.length_singleton]
            omega)
          refine ⟨result, requested', hends, fun limit hlimit => ?_⟩
          obtain ⟨limit, rfl, hle⟩ := hsucc limit hlimit
          simp only [requestPages, hpage, heffect]
          exact hrun limit hle

/-- A list that the loop returns is one that the broker gets. -/
theorem listed_of_requestPages {limit : ℕ} {environments : List RemoteEnvironment}
    {requested' : List (Option String)}
    (h : requestPages server limit [] none ⟨[], ∅⟩ = some (.ok environments, requested')) :
    Listed environments := by
  unfold Listed
  generalize (⟨[], ∅⟩ : Listing) = listing at h ⊢
  generalize ([] : List (Option String)) = requested, (none : Option String) = cursor at h
  induction limit generalizing requested cursor listing with
  | zero => simp [requestPages] at h
  | succ limit ih =>
    rw [requestPages] at h
    split at h
    next => simp at h
    next page hpage =>
      rw [accept_eq] at h
      cases haccept : acceptEnvironmentPage listing page with
      | error error => simp [haccept] at h
      | ok accepted =>
        obtain ⟨next, after⟩ := accepted
        rw [haccept] at h
        cases next with
        | none =>
          obtain ⟨hok, -⟩ := Prod.mk.inj (Option.some.inj h)
          obtain rfl := Except.ok.inj hok
          exact ⟨[page], by rw [listEnvironments, haccept]⟩
        | some c =>
          obtain ⟨pages, hpages⟩ := ih after _ _ h
          exact ⟨page :: pages, by rw [listEnvironments, haccept]; exact hpages⟩

/-- If the relay sends these pages one after another, the loop returns what they make up. -/
theorem requestPages_of_listEnvironments {environments : List RemoteEnvironment}
    (hserver : ∀ i page, pages[i]? = some page →
      ∀ requested', requested'.length = requested.length + i + 1 → server requested' = .ok page)
    (h : listEnvironments listing pages = .ok (some environments)) :
    ∃ requested',
      requestPages server pages.length requested cursor listing =
        some (.ok environments, requested') := by
  induction pages generalizing requested cursor listing with
  | nil => simp [listEnvironments] at h
  | cons page pages ih =>
    have hpage : server (requested ++ [cursor]) = .ok page :=
      hserver 0 page rfl _ (by rw [List.length_append]; rfl)
    have heffect := accept_eq page listing
    rw [listEnvironments] at h
    rw [List.length_cons, requestPages]
    simp only [hpage]
    cases haccept : acceptEnvironmentPage listing page with
    | error error => simp [haccept] at h
    | ok accepted =>
      obtain ⟨next, after⟩ := accepted
      rw [haccept] at h heffect
      simp only [heffect]
      cases next with
      | none =>
        obtain rfl := Option.some.inj (Except.ok.inj h)
        exact ⟨_, rfl⟩
      | some c =>
        refine ih (fun i page' hpage' requested' hlength => ?_) h
        refine hserver (i + 1) page' hpage' requested' ?_
        rw [hlength, List.length_append, List.length_singleton]
        omega

end Requests

/-- The relay that sends these pages, whatever the cursors of the requests are. -/
def pagedServer (pages : List EnvironmentList) (requested : List (Option String)) :
    Except ListingError EnvironmentList :=
  (pages[requested.length - 1]?).elim (.error .request) .ok

/-- For every relay, whatever it answers to each request: the listing ends after at most 33
requests, no two of which are for one cursor, and a list that it returns holds the environments of
all pages up to the first without a cursor, in their order and at most 100.  A page that is refused
changes neither the environments nor the cursors that are remembered. -/
theorem listing_ends (server : List (Option String) → Except ListingError EnvironmentList) :
    (∃ result requested, Ends server result requested ∧ ∀ limit, 33 ≤ limit →
      requestPages server limit [] none ⟨[], ∅⟩ = some (result, requested)) ∧
    ∀ (page : EnvironmentList) (listing after : Listing) (error : PageError),
      Listing.acceptEnvironmentPage page listing = (.error error, after) → after = listing := by
  refine ⟨exists_ends Follows.start (le_refl _), fun page listing after error h => ?_⟩
  rw [accept_eq] at h
  split at h
  · simp at h
  · exact (Prod.mk.inj h).2.symm

/-- Two pages. -/
def twoPages : List EnvironmentList :=
  [⟨some "next", [bareEnvironment "mac"]⟩, ⟨none, [namedEnvironment]⟩]

/-- A listing of two pages, and a page on a list that is not empty that is refused because it leads
back to a cursor. -/
theorem listing_ends_twoPages :
    (∃ requested, Ends (pagedServer twoPages) (.ok [bareEnvironment "mac", namedEnvironment])
      requested ∧
      requestPages (pagedServer twoPages) 33 [] none ⟨[], ∅⟩ =
        some (.ok [bareEnvironment "mac", namedEnvironment], requested)) ∧
    Listing.acceptEnvironmentPage ⟨some "next", [namedEnvironment]⟩
        ⟨[bareEnvironment "mac"], {"next"}⟩ =
      (.error .invalidCursor, ⟨[bareEnvironment "mac"], {"next"}⟩) := by
  constructor
  · obtain ⟨result, requested, hends, hrun⟩ := (listing_ends (pagedServer twoPages)).1
    have hresult : requestPages (pagedServer twoPages) 33 [] none ⟨[], ∅⟩ =
        some (.ok [bareEnvironment "mac", namedEnvironment], [none, some "next"]) := rfl
    obtain ⟨rfl, rfl⟩ := Prod.mk.inj (Option.some.inj ((hrun 33 le_rfl).symm.trans hresult))
    exact ⟨_, hends, hresult⟩
  · have hrefused : (Listing.acceptEnvironmentPage ⟨some "next", [namedEnvironment]⟩
        ⟨[bareEnvironment "mac"], {"next"}⟩).1 = .error .invalidCursor := rfl
    have hsame := (listing_ends (pagedServer twoPages)).2 ⟨some "next", [namedEnvironment]⟩
      ⟨[bareEnvironment "mac"], {"next"}⟩ _ .invalidCursor (Prod.ext hrefused rfl)
    exact Prod.ext hrefused hsame

end Rcodex
