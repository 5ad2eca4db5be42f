import Mathlib.Data.List.TakeWhile
import Rcodex.Foundation.Percent
import Rcodex.Identity.Unenroll

/-!
# The client in the path of a request

A client is revoked at a path that `push` makes of its ID, and its environments are listed at a
path with its ID as `byte_serialize` writes it.  `push` skips the segments `.` and `..` and drops
tabs and line ends, `byte_serialize` writes a space as a plus sign, and the parser of a request
resolves dot segments.  `client_path_iff` says for which IDs both paths have the client, and which
IDs share the path of their revocation; `isAddressed` says for which the relay is asked for the
client when an enrollment is revoked.
-/

namespace Rcodex

/-- What the program uses of the library for URLs. -/
structure UrlLibrary where
  /-- The bytes that `push` encodes. -/
  pathSegmentSet : UInt8 → Bool
  /-- The path after `pop_if_empty` and `push`, for a URL with this path. -/
  pushed : String → String → String
  /-- `byte_serialize`, collected. -/
  byteSerialize : List UInt8 → String
  /-- The path of the URL that a text is parsed to. -/
  parsedPath : String → Option String

/-- The path of the clients. -/
def clientsPath : String := "/wham/remote/control/clients/"

namespace UrlLibrary

variable (library : UrlLibrary)

/-- `client_revocation_path` -/
def revocationPath (clientId : String) : Except UnenrollError String :=
  clientRevocationPath (library.pushed clientsPath) clientId

/-- The `root` of `list_environments`. -/
def environmentsRoot : Option String → String
  | some clientId => "/codex/remote/control/clients/" ++
      library.byteSerialize (Text.utf8 clientId) ++ "/environments"
  | none => "/codex/remote/control/environments"

/-- The query of `list_environments`. -/
def environmentsQuery (cursor : Option String) : String :=
  "limit=100" ++ match cursor with
    | some cursor => "&cursor=" ++ library.byteSerialize (Text.utf8 cursor)
    | none => ""

/-- The path that `list_environments` requests. -/
def environmentsPath (clientId cursor : Option String) : String :=
  library.environmentsRoot clientId ++ "?" ++ library.environmentsQuery cursor

/-- The path of the URL that is requested. -/
def requestedPath (path : String) : Option String := library.parsedPath (apiBase ++ path)

end UrlLibrary

/-! ### What is known of the library -/

/-- A path by its segments. -/
def pathOf (segments : List (List Char)) : List Char := segments.flatMap ('/' :: ·)

/-- A text without tabs and line ends. -/
def dropControls (s : String) : String :=
  .ofList (s.toList.filter fun c => c != '\t' && c != '\n' && c != '\r')

/-- A segment that stands for the directory it is in, encoded or not. -/
def IsSingleDot (segment : List Char) : Prop := Percent.decode segment = [46]

/-- A segment that stands for the directory above. -/
def IsDoubleDot (segment : List Char) : Prop := Percent.decode segment = [46, 46]

instance (segment : List Char) : Decidable (IsSingleDot segment) :=
  inferInstanceAs (Decidable (_ = _))

instance (segment : List Char) : Decidable (IsDoubleDot segment) :=
  inferInstanceAs (Decidable (_ = _))

/-- The segments of a path after the given ones, without dot segments. -/
def resolve : List (List Char) → List (List Char) → List (List Char)
  | before, [] => before
  | before, [last] =>
    if IsDoubleDot last then before.dropLast ++ [[]]
    else if IsSingleDot last then before ++ [[]]
    else before ++ [last]
  | before, segment :: next :: rest =>
    if IsDoubleDot segment then resolve before.dropLast (next :: rest)
    else if IsSingleDot segment then resolve before (next :: rest)
    else resolve (before ++ [segment]) (next :: rest)

/-- The bytes that `byte_serialize` writes as they are. -/
def isFormByte (b : UInt8) : Bool :=
  (48 ≤ b && b ≤ 57) || (65 ≤ b && b ≤ 90) || (97 ≤ b && b ≤ 122) || b == 42 || b == 45 ||
    b == 46 || b == 95

/-- A byte as `byte_serialize` writes it. -/
def formByte (b : UInt8) : List Char :=
  if b = 32 then ['+'] else if isFormByte b then [Char.ofNat b.toNat] else Percent.encodeByte b

/-- A character that the parser leaves as it is in a segment. -/
def UrlLibrary.IsPlain (library : UrlLibrary) (c : Char) : Prop :=
  c = '%' ∨ ∃ b, library.pathSegmentSet b = false ∧ c = Char.ofNat b.toNat

/-- A segment that the parser keeps as it is. -/
def UrlLibrary.IsProper (library : UrlLibrary) (segment : List Char) : Prop :=
  (∀ c ∈ segment, library.IsPlain c) ∧ ¬IsDoubleDot segment ∧ ¬IsSingleDot segment

/-- The segments of a path that something can be pushed to. -/
structure UrlLibrary.IsDirectory (library : UrlLibrary) (segments : List (List Char)) : Prop where
  ne_nil : segments ≠ []
  proper : ∀ segment ∈ segments, segment ≠ [] ∧ library.IsProper segment

/-- What the library is documented to do. -/
structure UrlLibrary.Documented (library : UrlLibrary) : Prop where
  /-- `push` encodes controls, the space, what is beyond ASCII, and these characters. -/
  set_contains : ∀ b, b.toNat ≤ 32 ∨ 127 ≤ b.toNat ∨ b ∈ Text.utf8 "\"#%/<>?\\`\x7b\x7d" →
    library.pathSegmentSet b = true
  /-- It does not encode letters, digits and these characters. -/
  set_excludes : ∀ b, isFormByte b = true ∨ b = 43 → library.pathSegmentSet b = false
  /-- It skips dot segments. -/
  pushed_dots : ∀ segments segment, library.IsDirectory segments → segment = "." ∨ segment = ".." →
    library.pushed (.ofList (pathOf segments ++ ['/'])) segment = .ofList (pathOf segments)
  /-- It drops tabs and line ends of another segment and encodes what is left. -/
  pushed_segment : ∀ segments segment, library.IsDirectory segments →
    ¬(segment = "." ∨ segment = "..") →
    library.pushed (.ofList (pathOf segments ++ ['/'])) segment = .ofList (pathOf
      (resolve segments [Percent.encode library.pathSegmentSet
        (Text.utf8 (dropControls segment))]))
  /-- `byte_serialize` writes byte by byte. -/
  byteSerialize_eq : ∀ bytes, library.byteSerialize bytes = .ofList (bytes.flatMap formByte)
  /-- The parser resolves the dot segments of the path, up to the query. -/
  parsedPath_eq : ∀ segments rest, segments ≠ [] →
    (∀ segment ∈ segments, ∀ c ∈ segment, library.IsPlain c) →
    (rest = "" ∨ ∃ query, rest = "?" ++ query) →
    library.parsedPath ("https://chatgpt.com" ++ .ofList (pathOf segments) ++ rest) =
      some (.ofList (pathOf (resolve [] segments)))

/-! ### Paths and segments -/

/-- The segments of a path. -/
def segmentsOf (path : List Char) : List (List Char) := (path.splitOn '/').tail

/-- The segments are read back. -/
theorem segmentsOf_pathOf {segments : List (List Char)} (h : ∀ segment ∈ segments, '/' ∉ segment) :
    segmentsOf (pathOf segments) = segments := by
  have hslash : ∀ cs : List Char, ('/' :: cs).splitOn '/' = [] :: cs.splitOn '/' :=
    fun cs => List.splitOn_append_cons_self [] cs
  induction segments with
  | nil => rfl
  | cons segment rest ih =>
    obtain ⟨hsegment, hrest⟩ := List.forall_mem_cons.mp h
    have hpath : pathOf (segment :: rest) = '/' :: (segment ++ pathOf rest) := rfl
    rw [segmentsOf, hpath, hslash, List.tail_cons]
    cases rest with
    | nil => rw [pathOf, List.flatMap_nil, List.append_nil, List.splitOn_eq_singleton hsegment]
    | cons next rest =>
      have hnext := ih hrest
      have hpath' : pathOf (next :: rest) = '/' :: (next ++ pathOf rest) := rfl
      rw [segmentsOf, hpath', hslash, List.tail_cons] at hnext
      rw [hpath', List.splitOn_append_cons_self_of_not_mem hsegment, hnext]

/-- Different segments make different paths. -/
theorem pathOf_inj {segments segments' : List (List Char)}
    (h : ∀ segment ∈ segments, '/' ∉ segment) (h' : ∀ segment ∈ segments', '/' ∉ segment) :
    pathOf segments = pathOf segments' ↔ segments = segments' := by
  refine ⟨fun heq => ?_, congrArg pathOf⟩
  rw [← segmentsOf_pathOf h, heq, segmentsOf_pathOf h']

/-- The path has a segment for the client between these parts, and the segment says its ID. -/
def Addresses (before after clientId path : String) : Prop :=
  ∃ segment : List Char, '/' ∉ segment ∧ path = before ++ "/" ++ .ofList segment ++ after ∧
    Percent.decode segment = Text.utf8 clientId

/-- A path by what is before and after one of its segments. -/
theorem ofList_pathOf_append (before after : List (List Char)) (segment : List Char) :
    .ofList (pathOf before) ++ "/" ++ .ofList segment ++ .ofList (pathOf after) =
      String.ofList (pathOf (before ++ segment :: after)) := by
  rw [← String.toList_inj]
  simp [pathOf]

/-- Which segment says the ID. -/
theorem addresses_pathOf_iff {before after segments : List (List Char)} {clientId : String}
    (hbefore : ∀ segment ∈ before, '/' ∉ segment) (hafter : ∀ segment ∈ after, '/' ∉ segment)
    (hsegments : ∀ segment ∈ segments, '/' ∉ segment) :
    Addresses (.ofList (pathOf before)) (.ofList (pathOf after)) clientId
        (.ofList (pathOf segments)) ↔
      ∃ segment, segments = before ++ segment :: after ∧
        Percent.decode segment = Text.utf8 clientId := by
  constructor
  · rintro ⟨segment, hsegment, heq, hdecode⟩
    rw [ofList_pathOf_append, String.ofList_inj, pathOf_inj hsegments] at heq
    · exact ⟨segment, heq, hdecode⟩
    · intro other hother
      rcases List.mem_append.mp hother with hother | hother
      · exact hbefore other hother
      · rcases List.mem_cons.mp hother with rfl | hother
        · exact hsegment
        · exact hafter other hother
  · rintro ⟨segment, rfl, hdecode⟩
    exact ⟨segment, hsegments segment (by simp), (ofList_pathOf_append _ _ _).symm, hdecode⟩

/-- Segments that stand for no other directory are kept. -/
theorem resolve_eq {before segments : List (List Char)}
    (h : ∀ segment ∈ segments, ¬IsDoubleDot segment ∧ ¬IsSingleDot segment) :
    resolve before segments = before ++ segments := by
  induction segments generalizing before with
  | nil => rw [resolve, List.append_nil]
  | cons segment rest ih =>
    obtain ⟨⟨hdouble, hsingle⟩, hrest⟩ := List.forall_mem_cons.mp h
    cases rest with
    | nil => rw [resolve, if_neg hdouble, if_neg hsingle]
    | cons next rest =>
      rw [resolve, if_neg hdouble, if_neg hsingle, ih hrest, List.append_assoc,
        List.singleton_append]

/-- Such segments before others. -/
theorem resolve_append {before segments rest : List (List Char)}
    (h : ∀ segment ∈ segments, ¬IsDoubleDot segment ∧ ¬IsSingleDot segment) (hrest : rest ≠ []) :
    resolve before (segments ++ rest) = resolve (before ++ segments) rest := by
  induction segments generalizing before with
  | nil => rw [List.nil_append, List.append_nil]
  | cons segment segments ih =>
    obtain ⟨⟨hdouble, hsingle⟩, hsegments⟩ := List.forall_mem_cons.mp h
    obtain ⟨next, more, hnext⟩ := List.exists_cons_of_ne_nil
      (show segments ++ rest ≠ [] by simp [hrest])
    rw [List.cons_append, hnext, resolve, if_neg hdouble, if_neg hsingle, ← hnext, ih hsegments,
      List.append_assoc, List.singleton_append]

/-- The bytes of a text that says a dot or two. -/
theorem utf8_eq_dot_iff {s : String} :
    (Text.utf8 s = [46] ↔ s = ".") ∧ (Text.utf8 s = [46, 46] ↔ s = "..") :=
  ⟨Text.utf8_inj (t := "."), Text.utf8_inj (t := "..")⟩

/-! ### The two encoders -/

/-- A byte that is read back from what `byte_serialize` writes. -/
def plusByte (b : UInt8) : UInt8 := if b = 32 then 43 else b

/-- What is written as it is, is in ASCII and no percent sign. -/
theorem lt_of_isFormByte {b : UInt8} (h : isFormByte b = true) : b.toNat < 128 ∧ b ≠ 37 := by
  simp only [isFormByte, Bool.or_eq_true, Bool.and_eq_true, decide_eq_true_eq, beq_iff_eq,
    UInt8.le_iff_toNat_le, ← UInt8.toNat_inj, ne_eq, UInt8.reduceToNat] at h ⊢
  omega

/-- What `byte_serialize` writes is read back, up to the spaces. -/
theorem decode_flatMap_formByte (bytes : List UInt8) :
    Percent.decode (bytes.flatMap formByte) = bytes.map plusByte := by
  refine Percent.decode_flatMap (fun b rest => ?_) bytes
  unfold formByte plusByte
  split_ifs with hspace hkeep
  · exact Percent.decode_cons (by decide) (by decide) rest
  · obtain ⟨hlt, hne⟩ := lt_of_isFormByte hkeep
    exact Percent.decode_ofNat hne hlt rest
  · exact Percent.decode_encodeByte b rest

/-- A character that `byte_serialize` writes as it is. -/
def IsFormChar (c : Char) : Prop := c.toNat < 128 ∧ isFormByte (UInt8.ofNat c.toNat) = true

instance (c : Char) : Decidable (IsFormChar c) := inferInstanceAs (Decidable (_ ∧ _))

/-- A segment of such characters that stands for no other directory. -/
def IsWord (segment : List Char) : Prop :=
  (∀ c ∈ segment, IsFormChar c) ∧ ¬IsDoubleDot segment ∧ ¬IsSingleDot segment

instance (segment : List Char) : Decidable (IsWord segment) :=
  have : Decidable (∀ c ∈ segment, IsFormChar c) := List.decidableBAll _ _
  inferInstanceAs (Decidable (_ ∧ _))

/-- A character that is encoded is not left as it is. -/
theorem UrlLibrary.not_isPlain_of_set {library : UrlLibrary} {b : UInt8} (hlt : b.toNat < 128)
    (hne : b ≠ 37) (hset : library.pathSegmentSet b = true)
    (hbeyond : ∀ b, 127 ≤ b.toNat → library.pathSegmentSet b = true) :
    ¬library.IsPlain (Char.ofNat b.toNat) := by
  have hnat := Percent.toNat_ofNat hlt
  rintro (heq | ⟨b', hset', heq⟩)
  · rw [heq] at hnat
    exact hne (UInt8.toNat_inj.mp hnat.symm)
  · by_cases hlt' : b'.toNat < 128
    · rw [heq, Percent.toNat_ofNat hlt', UInt8.toNat_inj] at hnat
      rw [hnat, hset] at hset'
      exact absurd hset' (by decide)
    · rw [hbeyond b' (by omega)] at hset'
      exact absurd hset' (by decide)

namespace UrlLibrary.Documented

variable {library : UrlLibrary} (h : library.Documented)

include h

/-- Such a character is left as it is by the parser. -/
theorem isPlain_of_form {c : Char} (hc : IsFormChar c) : library.IsPlain c := by
  refine Or.inr ⟨UInt8.ofNat c.toNat, h.set_excludes _ (Or.inl hc.2), ?_⟩
  rw [UInt8.toNat_ofNat', Nat.mod_eq_of_lt (by have hlt := hc.1; omega), Char.ofNat_toNat]

/-- So are the characters of an encoded byte. -/
theorem isPlain_of_mem_encodeByte {b : UInt8} {c : Char} (hc : c ∈ Percent.encodeByte b) :
    library.IsPlain c := by
  refine Percent.forall_mem_encodeByte (P := library.IsPlain) (Or.inl rfl) (fun n hn => ?_) c hc
  have hall : ∀ n < 16, IsFormChar (Percent.hexDigit n) := by decide
  exact h.isPlain_of_form (hall n hn)

/-- The slash separates segments. -/
theorem not_isPlain_slash : ¬library.IsPlain '/' :=
  not_isPlain_of_set (b := 47) (by decide) (by decide)
    (h.set_contains _ (Or.inr (Or.inr (by decide))))
    (fun b hb => h.set_contains b (Or.inr (Or.inl hb)))

/-- What `push` writes of a segment. -/
theorem encode_spec (s : String) :
    (∀ c ∈ Percent.encode library.pathSegmentSet (Text.utf8 s), library.IsPlain c) ∧
      Percent.decode (Percent.encode library.pathSegmentSet (Text.utf8 s)) = Text.utf8 s := by
  refine ⟨fun c hc => Percent.forall_mem_flatMap (fun b c hc => ?_) hc, Percent.decode_encode
    (h.set_contains _ (Or.inr (Or.inr (by decide))))
    (fun b hb => h.set_contains b (Or.inr (Or.inl (by omega)))) _⟩
  split_ifs at hc with hset
  · exact h.isPlain_of_mem_encodeByte hc
  · obtain rfl := List.mem_singleton.mp hc
    exact Or.inr ⟨b, by simpa using hset, rfl⟩

/-- What `byte_serialize` writes of a segment. -/
theorem form_spec (s : String) :
    (∀ c ∈ (Text.utf8 s).flatMap formByte, library.IsPlain c) ∧
      Percent.decode ((Text.utf8 s).flatMap formByte) = (Text.utf8 s).map plusByte := by
  refine ⟨fun c hc => Percent.forall_mem_flatMap (fun b c hc => ?_) hc,
    decode_flatMap_formByte _⟩
  unfold formByte at hc
  split_ifs at hc with hspace hkeep
  · obtain rfl := List.mem_singleton.mp hc
    exact Or.inr ⟨43, h.set_excludes _ (Or.inr rfl), rfl⟩
  · obtain rfl := List.mem_singleton.mp hc
    exact Or.inr ⟨b, h.set_excludes _ (Or.inl hkeep), rfl⟩
  · exact h.isPlain_of_mem_encodeByte hc

/-- The path that is requested, the path of all requests in front. -/
theorem requestedPath_eq {segments : List (List Char)} (hne : segments ≠ [])
    (hplain : ∀ segment ∈ segments, ∀ c ∈ segment, library.IsPlain c) {rest : String}
    (hrest : rest = "" ∨ ∃ query, rest = "?" ++ query) :
    library.requestedPath (.ofList (pathOf segments) ++ rest) =
      some (.ofList (pathOf (resolve ["backend-api".toList] segments))) := by
  have hbase : apiBase ++ (String.ofList (pathOf segments) ++ rest) = "https://chatgpt.com" ++
      String.ofList (pathOf ("backend-api".toList :: segments)) ++ rest := by
    rw [← String.toList_inj]
    simp [apiBase, pathOf]
  have hapi : IsWord "backend-api".toList := by decide
  rw [requestedPath, hbase, h.parsedPath_eq _ rest (List.cons_ne_nil _ _)
    (List.forall_mem_cons.mpr ⟨fun c hc => h.isPlain_of_form (hapi.1 c hc), hplain⟩) hrest,
    ← List.singleton_append, resolve_append (by decide) hne, List.nil_append]

/-- No segment with a slash is kept. -/
theorem not_mem_slash {segment : List Char} (hproper : library.IsProper segment) :
    '/' ∉ segment := fun hmem => h.not_isPlain_slash (hproper.1 _ hmem)

/-- Words are kept. -/
theorem isProper_of_isWord {segment : List Char} (hword : IsWord segment) :
    library.IsProper segment :=
  ⟨fun c hc => h.isPlain_of_form (hword.1 c hc), hword.2⟩

end UrlLibrary.Documented

/-! ### The path of a revocation -/

/-- The segments of the path of the clients. -/
def clientsSegments : List (List Char) :=
  ["wham".toList, "remote".toList, "control".toList, "clients".toList]

/-- The text that `push` makes a segment of. -/
def delivered (clientId : String) : Option String :=
  if clientId = "." ∨ clientId = ".." then none else some (dropControls clientId)

/-- The segments of the path at which a client is revoked. -/
def UrlLibrary.revocationSegments (library : UrlLibrary) (clientId : String) : List (List Char) :=
  match delivered clientId with
  | none => clientsSegments
  | some text => resolve clientsSegments [Percent.encode library.pathSegmentSet (Text.utf8 text)]

/-- Something is left of an ID that is not blank. -/
theorem dropControls_ne_empty {s : String} (h : Text.trim s ≠ "") : dropControls s ≠ "" := by
  intro heq
  refine h ?_
  have hblank : ∀ c ∈ s.toList, Text.isWhitespace c = true := by
    intro c hc
    rw [dropControls, String.ofList_eq_empty_iff, List.filter_eq_nil_iff] at heq
    have hcontrol := heq c hc
    simp only [Bool.and_eq_true, bne_iff_ne, ne_eq, not_and_or, not_not] at hcontrol
    rcases hcontrol with (rfl | rfl) | rfl
    all_goals decide
  rw [Text.trim, List.dropWhile_eq_nil_iff.mpr hblank]
  rfl

namespace UrlLibrary.Documented

variable {library : UrlLibrary} (h : library.Documented)

include h

/-- The segments of the path of the clients are kept. -/
theorem isProper_clientsSegments {segment : List Char} (hmem : segment ∈ clientsSegments) :
    segment ≠ [] ∧ library.IsProper segment := by
  have hall : ∀ segment ∈ clientsSegments, segment ≠ [] ∧ IsWord segment := by decide
  obtain ⟨hne, hword⟩ := hall segment hmem
  exact ⟨hne, h.isProper_of_isWord hword⟩

/-- The path that `client_revocation_path` makes. -/
theorem revocationPath_eq {clientId : String} (hid : Text.trim clientId ≠ "") :
    library.revocationPath clientId =
      .ok (.ofList (pathOf (library.revocationSegments clientId))) := by
  have hclients : clientsPath = .ofList (pathOf clientsSegments ++ ['/']) := by decide
  have hdirectory : library.IsDirectory clientsSegments :=
    ⟨List.cons_ne_nil _ _, fun segment hmem => h.isProper_clientsSegments hmem⟩
  rw [UrlLibrary.revocationPath, clientRevocationPath, Result.bailWhen, if_neg hid, hclients,
    UrlLibrary.revocationSegments, delivered]
  split_ifs with hdots
  · exact congrArg Except.ok (h.pushed_dots _ _ hdirectory hdots)
  · exact congrArg Except.ok (h.pushed_segment _ _ hdirectory hdots)

/-- What the segments of the path are. -/
theorem revocationSegments_cases (clientId : String) :
    (delivered clientId = none ∧ library.revocationSegments clientId = clientsSegments) ∨
    (delivered clientId = some ".." ∧
      library.revocationSegments clientId = clientsSegments.dropLast ++ [[]]) ∨
    (delivered clientId = some "." ∧
      library.revocationSegments clientId = clientsSegments ++ [[]]) ∨
    ∃ text, delivered clientId = some text ∧
      library.IsProper (Percent.encode library.pathSegmentSet (Text.utf8 text)) ∧
      library.revocationSegments clientId =
        clientsSegments ++ [Percent.encode library.pathSegmentSet (Text.utf8 text)] := by
  rw [UrlLibrary.revocationSegments]
  cases hdelivered : delivered clientId with
  | none => exact Or.inl ⟨rfl, rfl⟩
  | some text =>
    obtain ⟨hplain, hdecode⟩ := h.encode_spec text
    refine Or.inr ?_
    simp only [resolve]
    split_ifs with hdouble hsingle
    · rw [IsDoubleDot, hdecode, utf8_eq_dot_iff.2] at hdouble
      exact Or.inl ⟨congrArg some hdouble, rfl⟩
    · rw [IsSingleDot, hdecode, utf8_eq_dot_iff.1] at hsingle
      exact Or.inr (Or.inl ⟨congrArg some hsingle, rfl⟩)
    · exact Or.inr (Or.inr ⟨text, rfl, ⟨hplain, hdouble, hsingle⟩, rfl⟩)

/-- The segments of the path are kept when it is requested. -/
theorem isProper_revocationSegments {clientId : String} {segment : List Char}
    (hmem : segment ∈ library.revocationSegments clientId) : library.IsProper segment := by
  have hempty : library.IsProper [] := h.isProper_of_isWord (by decide)
  rcases h.revocationSegments_cases clientId with
    ⟨-, heq⟩ | ⟨-, heq⟩ | ⟨-, heq⟩ | ⟨text, -, hproper, heq⟩
  · rw [heq] at hmem
    exact (h.isProper_clientsSegments hmem).2
  all_goals
    rw [heq] at hmem
    rcases List.mem_append.mp hmem with hmem | hmem
  · exact (h.isProper_clientsSegments (List.dropLast_subset _ hmem)).2
  · rwa [List.mem_singleton.mp hmem]
  · exact (h.isProper_clientsSegments hmem).2
  · rwa [List.mem_singleton.mp hmem]
  · exact (h.isProper_clientsSegments hmem).2
  · rwa [List.mem_singleton.mp hmem]

/-- The path is not empty. -/
theorem revocationSegments_ne_nil (clientId : String) :
    library.revocationSegments clientId ≠ [] := by
  rcases h.revocationSegments_cases clientId with
    ⟨-, heq⟩ | ⟨-, heq⟩ | ⟨-, heq⟩ | ⟨text, -, -, heq⟩ <;>
    simp [heq, clientsSegments]

/-- The path that is requested to revoke a client. -/
theorem requestedPath_revocation (clientId : String) :
    library.requestedPath (.ofList (pathOf (library.revocationSegments clientId))) =
      some (.ofList (pathOf (["backend-api".toList] ++ library.revocationSegments clientId))) := by
  have hproper : ∀ segment ∈ library.revocationSegments clientId, library.IsProper segment :=
    fun segment hmem => h.isProper_revocationSegments hmem
  have heq := h.requestedPath_eq (h.revocationSegments_ne_nil clientId)
    (fun segment hmem => (hproper segment hmem).1) (Or.inl rfl)
  rwa [String.append_empty, resolve_eq fun segment hmem => (hproper segment hmem).2] at heq

/-- An ID that is pushed as it is has a segment. -/
theorem revocationSegments_of_delivered {clientId : String}
    (hdelivered : delivered clientId = some clientId) :
    library.revocationSegments clientId =
      clientsSegments ++ [Percent.encode library.pathSegmentSet (Text.utf8 clientId)] := by
  rcases h.revocationSegments_cases clientId with
    ⟨hcase, -⟩ | ⟨hcase, -⟩ | ⟨hcase, -⟩ | ⟨text, hcase, -, heq⟩
  · exact absurd (hcase.symm.trans hdelivered) (by simp)
  · obtain rfl := Option.some.inj (hcase.symm.trans hdelivered)
    exact absurd hcase (by decide)
  · obtain rfl := Option.some.inj (hcase.symm.trans hdelivered)
    exact absurd hcase (by decide)
  · obtain rfl := Option.some.inj (hcase.symm.trans hdelivered)
    exact heq

/-- A revocation addresses the client if its ID is pushed as it is. -/
theorem addresses_revocation_iff {clientId : String} (hid : Text.trim clientId ≠ "")
    {root : List (List Char)} (hroot : ∀ segment ∈ root, library.IsProper segment) :
    Addresses (.ofList (pathOf (root ++ clientsSegments))) "" clientId
        (.ofList (pathOf (root ++ library.revocationSegments clientId))) ↔
      delivered clientId = some clientId := by
  have hslash : ∀ {segments : List (List Char)}, (∀ segment ∈ segments, library.IsProper segment) →
      ∀ segment ∈ root ++ segments, '/' ∉ segment := by
    intro segments hsegments segment hmem
    rcases List.mem_append.mp hmem with hmem | hmem
    · exact h.not_mem_slash (hroot segment hmem)
    · exact h.not_mem_slash (hsegments segment hmem)
  rw [show "" = String.ofList (pathOf []) from rfl, addresses_pathOf_iff
    (hslash fun segment hmem => (h.isProper_clientsSegments hmem).2) (by simp)
    (hslash fun segment hmem => h.isProper_revocationSegments hmem)]
  constructor
  · rintro ⟨segment, heq, hdecode⟩
    rw [List.append_assoc, List.append_cancel_left_eq] at heq
    rcases h.revocationSegments_cases clientId with
      ⟨-, hcase⟩ | ⟨-, hcase⟩ | ⟨-, hcase⟩ | ⟨text, hdelivered, -, hcase⟩
    · simp [hcase, clientsSegments] at heq
    · simp [hcase, clientsSegments] at heq
    · rw [hcase, List.append_cancel_left_eq] at heq
      obtain rfl := List.singleton_inj.mp heq
      have hempty : clientId = "" := (Text.utf8_inj (t := "")).mp hdecode.symm
      exact absurd (by rw [hempty]; rfl) hid
    · rw [hcase, List.append_cancel_left_eq] at heq
      obtain rfl := List.singleton_inj.mp heq
      rw [(h.encode_spec text).2, Text.utf8_inj] at hdecode
      rw [hdelivered, hdecode]
  · intro hdelivered
    refine ⟨Percent.encode library.pathSegmentSet (Text.utf8 clientId), ?_,
      (h.encode_spec clientId).2⟩
    rw [h.revocationSegments_of_delivered hdelivered, List.append_assoc]

end UrlLibrary.Documented

/-! ### The path of a listing -/

/-- The directory of the environments of the clients, as it is requested. -/
def listingDirectory : List (List Char) :=
  ["backend-api".toList, "codex".toList, "remote".toList, "control".toList, "clients".toList]

/-- The segments of the path at which the environments of a client are listed. -/
def listingSegments (clientId : String) : List (List Char) :=
  listingDirectory.tail ++ (Text.utf8 clientId).flatMap formByte :: ["environments".toList]

/-- The byte of the space is that of a space only. -/
theorem mem_utf8_space_iff (s : String) : (32 : UInt8) ∈ Text.utf8 s ↔ ' ' ∈ s.toList := by
  rw [Text.utf8, List.mem_flatMap]
  constructor
  · rintro ⟨c, hc, hmem⟩
    by_cases hlt : c.toNat < 128
    · rw [Text.utf8EncodeChar_of_lt hlt, List.mem_singleton, ← UInt8.toNat_inj, UInt8.toNat_ofNat',
        Nat.mod_eq_of_lt (by omega)] at hmem
      rwa [show c = ' ' from Char.toNat_inj.mp hmem.symm] at hc
    · have hle := Text.le_of_mem_utf8EncodeChar (Nat.le_of_not_lt hlt) hmem
      exact absurd hle (by decide)
  · exact fun hc => ⟨' ', hc, by decide⟩

/-- A space is not read back. -/
theorem map_plusByte_eq_iff (s : String) :
    (Text.utf8 s).map plusByte = Text.utf8 s ↔ ' ' ∉ s.toList := by
  rw [← mem_utf8_space_iff]
  induction Text.utf8 s with
  | nil => simp
  | cons b bytes ih =>
    have hb : plusByte b = b ↔ 32 ≠ b := by
      unfold plusByte
      split_ifs with hspace
      · simp [hspace]
      · simpa [eq_comm] using hspace
    rw [List.map_cons, List.cons.injEq, ih, hb, List.mem_cons, not_or]

/-- A dot is read back as such. -/
theorem map_plusByte_eq_dot_iff (s : String) :
    ((Text.utf8 s).map plusByte = [46] ↔ s = ".") ∧
      ((Text.utf8 s).map plusByte = [46, 46] ↔ s = "..") := by
  have hb : ∀ b, plusByte b = 46 ↔ b = 46 := by
    intro b
    unfold plusByte
    split_ifs with hspace
    · simp [hspace]
    · rfl
  rw [← utf8_eq_dot_iff.1, ← utf8_eq_dot_iff.2]
  constructor
  · rw [List.map_eq_singleton_iff]
    simp [hb]
  · simp [List.map_eq_cons_iff, hb]

/-- What `byte_serialize` writes of an ID stands for no other directory, up to the two dots. -/
theorem isDot_form_iff (s : String) :
    (IsSingleDot ((Text.utf8 s).flatMap formByte) ↔ s = ".") ∧
      (IsDoubleDot ((Text.utf8 s).flatMap formByte) ↔ s = "..") := by
  rw [IsSingleDot, IsDoubleDot, decode_flatMap_formByte]
  exact map_plusByte_eq_dot_iff s

/-- The other segments of these paths. -/
def listingWords : List (List Char) := listingDirectory ++ ["environments".toList]

/-- They are words. -/
theorem isWord_of_mem_listingWords : ∀ segment ∈ listingWords, IsWord segment := by
  decide

/-- What the segments of the path are that is requested. -/
theorem resolve_listingSegments (clientId : String) :
    resolve ["backend-api".toList] (listingSegments clientId) =
      if clientId = ".." then listingDirectory.dropLast ++ ["environments".toList]
      else if clientId = "." then listingDirectory ++ ["environments".toList]
      else listingDirectory ++
        (Text.utf8 clientId).flatMap formByte :: ["environments".toList] := by
  obtain ⟨hsingle, hdouble⟩ := isDot_form_iff clientId
  have hwords : ∀ segment ∈ ["codex".toList, "remote".toList, "control".toList,
      "clients".toList], ¬IsDoubleDot segment ∧ ¬IsSingleDot segment := by decide
  have hdirectory : resolve ["backend-api".toList] (listingSegments clientId) =
      resolve listingDirectory [(Text.utf8 clientId).flatMap formByte, "environments".toList] :=
    resolve_append hwords (List.cons_ne_nil _ _)
  have hlast : ∀ before, resolve before ["environments".toList] =
      before ++ ["environments".toList] := fun before => resolve_eq (by decide)
  rw [hdirectory, resolve, hlast, hlast, hlast, List.append_assoc, List.singleton_append]
  simp only [hsingle, hdouble]

namespace UrlLibrary.Documented

variable {library : UrlLibrary} (h : library.Documented)

include h

/-- The path that `list_environments` makes. -/
theorem environmentsPath_eq (clientId : String) (cursor : Option String) :
    library.environmentsPath (some clientId) cursor =
      .ofList (pathOf (listingSegments clientId)) ++ ("?" ++ library.environmentsQuery cursor) := by
  have hroot : library.environmentsRoot (some clientId) =
      .ofList (pathOf (listingSegments clientId)) := by
    have hbefore : "/codex/remote/control/clients/" =
        .ofList (pathOf listingDirectory.tail) ++ "/" := by decide
    have hafter : "/environments" = String.ofList (pathOf ["environments".toList]) := by decide
    change "/codex/remote/control/clients/" ++ library.byteSerialize (Text.utf8 clientId) ++
      "/environments" = _
    rw [h.byteSerialize_eq, hbefore, hafter, ofList_pathOf_append, listingSegments]
  rw [UrlLibrary.environmentsPath, hroot, String.append_assoc]

/-- The characters of these segments are left as they are. -/
theorem isPlain_listingSegments {clientId : String} {segment : List Char}
    (hmem : segment ∈ listingSegments clientId) : ∀ c ∈ segment, library.IsPlain c := by
  have hword : segment ∈ listingWords ∨ segment = (Text.utf8 clientId).flatMap formByte := by
    rcases List.mem_append.mp hmem with hmem | hmem
    · exact Or.inl (List.mem_append_left _ (List.mem_of_mem_tail hmem))
    · rcases List.mem_cons.mp hmem with rfl | hmem
      · exact Or.inr rfl
      · exact Or.inl (List.mem_append_right _ hmem)
  rcases hword with hword | rfl
  · exact (h.isProper_of_isWord (isWord_of_mem_listingWords _ hword)).1
  · exact (h.form_spec clientId).1

/-- The path that is requested for the environments of a client. -/
theorem requestedPath_listing (clientId : String) (cursor : Option String) :
    library.requestedPath (library.environmentsPath (some clientId) cursor) =
      some (.ofList (pathOf (resolve ["backend-api".toList] (listingSegments clientId)))) := by
  have hrest : "?" ++ library.environmentsQuery cursor = "" ∨
      ∃ query, "?" ++ library.environmentsQuery cursor = "?" ++ query := Or.inr ⟨_, rfl⟩
  rw [h.environmentsPath_eq]
  exact h.requestedPath_eq (List.cons_ne_nil _ _)
    (fun segment hmem => h.isPlain_listingSegments hmem) hrest

/-- A listing addresses the client if its ID has no space and is no dot segment. -/
theorem addresses_listing_iff (clientId : String) :
    Addresses (.ofList (pathOf listingDirectory)) (.ofList (pathOf ["environments".toList]))
        clientId (.ofList (pathOf (resolve ["backend-api".toList] (listingSegments clientId)))) ↔
      clientId ≠ "." ∧ clientId ≠ ".." ∧ ' ' ∉ clientId.toList := by
  have hword : ∀ segment ∈ listingWords, '/' ∉ segment := fun segment hmem =>
    h.not_mem_slash (h.isProper_of_isWord (isWord_of_mem_listingWords _ hmem))
  have hform : '/' ∉ (Text.utf8 clientId).flatMap formByte :=
    fun hmem => h.not_isPlain_slash ((h.form_spec clientId).1 _ hmem)
  rw [resolve_listingSegments, ← map_plusByte_eq_iff, ← decode_flatMap_formByte,
    addresses_pathOf_iff]
  · split_ifs with hdouble hsingle
    · simp [hdouble, listingDirectory]
    · simp [hsingle, listingDirectory]
    · simp [hdouble, hsingle]
  · exact fun segment hmem => hword segment (List.mem_append_left _ hmem)
  · exact fun segment hmem => hword segment (List.mem_append_right _ hmem)
  · intro segment hmem
    split_ifs at hmem with hdouble hsingle
    · rcases List.mem_append.mp hmem with hmem | hmem
      · exact hword segment (List.mem_append_left _ (List.dropLast_subset _ hmem))
      · exact hword segment (List.mem_append_right _ hmem)
    · exact hword segment hmem
    · rcases List.mem_append.mp hmem with hmem | hmem
      · exact hword segment (List.mem_append_left _ hmem)
      · rcases List.mem_cons.mp hmem with rfl | hmem
        · exact hform
        · exact hword segment (List.mem_append_right _ hmem)

end UrlLibrary.Documented

/-! ### One client, one resource -/

/-- The client is addressed where it is revoked, as the path is made and as it is requested, and
where its environments are listed. -/
structure UrlLibrary.AddressesClient (library : UrlLibrary) (clientId : String) : Prop where
  revoked : ∃ path requested, library.revocationPath clientId = .ok path ∧
    Addresses "/wham/remote/control/clients" "" clientId path ∧
    library.requestedPath path = some requested ∧
    Addresses "/backend-api/wham/remote/control/clients" "" clientId requested
  listed : ∀ cursor, ∃ requested,
    library.requestedPath (library.environmentsPath (some clientId) cursor) = some requested ∧
    Addresses "/backend-api/codex/remote/control/clients" "/environments" clientId requested

/-- An ID that is no dot segment and has no spaces, tabs and line ends. -/
def IsPlainId (clientId : String) : Prop :=
  clientId ≠ "." ∧ clientId ≠ ".." ∧ ∀ c ∈ clientId.toList, c ∉ [' ', '\t', '\n', '\r']

instance (clientId : String) : Decidable (IsPlainId clientId) :=
  have : Decidable (∀ c ∈ clientId.toList, c ∉ [' ', '\t', '\n', '\r']) := List.decidableBAll _ _
  inferInstanceAs (Decidable (_ ∧ _))

/-- An ID that is pushed as it is. -/
theorem delivered_eq_self_iff {clientId : String} :
    delivered clientId = some clientId ↔ clientId ≠ "." ∧ clientId ≠ ".." ∧
      ∀ c ∈ clientId.toList, c ≠ '\t' ∧ c ≠ '\n' ∧ c ≠ '\r' := by
  rw [delivered]
  split_ifs with hdots
  · simp only [false_iff, not_and_or, not_not]
    exact hdots.imp_right Or.inl
  · rw [Option.some.injEq, dropControls, ← String.toList_inj, String.toList_ofList,
      List.filter_eq_self]
    simp only [Bool.and_eq_true, bne_iff_ne, and_assoc]
    obtain ⟨hdot, hdots⟩ := not_or.mp hdots
    exact ⟨fun hall => ⟨hdot, hdots, hall⟩, fun hall => hall.2.2⟩

/-- The bytes of the text that was pushed, from the segments of the path. -/
def deliveredIn (segments : List (List Char)) : Option (List UInt8) :=
  if segments = clientsSegments then none
  else if segments = clientsSegments.dropLast ++ [[]] then some [46, 46]
  else if segments = clientsSegments ++ [[]] then some [46]
  else some (Percent.decode (segments.getLastD []))

/-- The condition of both paths. -/
theorem isPlainId_iff {clientId : String} :
    IsPlainId clientId ↔ delivered clientId = some clientId ∧
      clientId ≠ "." ∧ clientId ≠ ".." ∧ ' ' ∉ clientId.toList := by
  have hspace : ' ' ∉ clientId.toList ↔ ∀ c ∈ clientId.toList, c ≠ ' ' := by
    simp only [ne_eq]
    exact ⟨fun hmem c hc heq => hmem (heq ▸ hc), fun hall hmem => hall ' ' hmem rfl⟩
  rw [delivered_eq_self_iff, IsPlainId, hspace]
  simp only [List.mem_cons, List.not_mem_nil, or_false, not_or]
  constructor
  · rintro ⟨hdot, hdots, hall⟩
    exact ⟨⟨hdot, hdots, fun c hc => (hall c hc).2⟩, hdot, hdots, fun c hc => (hall c hc).1⟩
  · rintro ⟨⟨hdot, hdots, hcontrol⟩, -, -, hspaces⟩
    exact ⟨hdot, hdots, fun c hc => ⟨hspaces c hc, hcontrol c hc⟩⟩

namespace UrlLibrary.Documented

variable {library : UrlLibrary} (h : library.Documented)

include h

/-- Which clients are addressed where they are revoked. -/
theorem revoked_iff {clientId : String} (hid : Text.trim clientId ≠ "") :
    (∃ path requested, library.revocationPath clientId = .ok path ∧
      Addresses "/wham/remote/control/clients" "" clientId path ∧
      library.requestedPath path = some requested ∧
      Addresses "/backend-api/wham/remote/control/clients" "" clientId requested) ↔
      delivered clientId = some clientId := by
  have hclients : "/wham/remote/control/clients" =
      String.ofList (pathOf ([] ++ clientsSegments)) := by decide
  have happi : "/backend-api/wham/remote/control/clients" =
      String.ofList (pathOf (["backend-api".toList] ++ clientsSegments)) := by decide
  have hroot : ∀ segment ∈ ["backend-api".toList], library.IsProper segment := by
    have hall : ∀ segment ∈ ["backend-api".toList], IsWord segment := by decide
    exact fun segment hmem => h.isProper_of_isWord (hall segment hmem)
  have hempty : ∀ segment ∈ ([] : List (List Char)), library.IsProper segment := by simp
  have hbuilt := h.addresses_revocation_iff hid hempty
  have hresolved := h.addresses_revocation_iff hid hroot
  rw [← hclients, List.nil_append] at hbuilt
  rw [← happi] at hresolved
  constructor
  · rintro ⟨path, requested, hpath, haddresses, -⟩
    rw [h.revocationPath_eq hid] at hpath
    obtain rfl := Except.ok.inj hpath
    exact hbuilt.mp haddresses
  · intro hdelivered
    exact ⟨_, _, h.revocationPath_eq hid, hbuilt.mpr hdelivered,
      h.requestedPath_revocation clientId, hresolved.mpr hdelivered⟩

/-- A relay that takes a path for the client which its segment says is asked for the client of an
enrollment, if the ID is pushed as it is. -/
theorem isAddressed {addressed : String → String → Bool} {enrollment : EnrollmentRecord}
    (hrelay : ∀ path requested clientId, library.requestedPath path = some requested →
      Addresses "/backend-api/wham/remote/control/clients" "" clientId requested →
        addressed path clientId = true)
    (hid : Text.trim enrollment.clientId ≠ "")
    (hdelivered : delivered enrollment.clientId = some enrollment.clientId) :
    enrollment.IsAddressed (library.pushed clientsPath) addressed := by
  obtain ⟨path, requested, hpath, -, hrequested, haddresses⟩ := (h.revoked_iff hid).mpr hdelivered
  rw [UrlLibrary.revocationPath, clientRevocationPath, Result.bailWhen, if_neg hid] at hpath
  have hpushed : library.pushed clientsPath enrollment.clientId = path := Except.ok.inj hpath
  rw [EnrollmentRecord.IsAddressed, hpushed]
  exact hrelay path requested enrollment.clientId hrequested haddresses

/-- Which clients are addressed where their environments are listed. -/
theorem listed_iff (clientId : String) :
    (∀ cursor, ∃ requested,
      library.requestedPath (library.environmentsPath (some clientId) cursor) = some requested ∧
      Addresses "/backend-api/codex/remote/control/clients" "/environments" clientId requested) ↔
      clientId ≠ "." ∧ clientId ≠ ".." ∧ ' ' ∉ clientId.toList := by
  have hdirectory : "/backend-api/codex/remote/control/clients" =
      String.ofList (pathOf listingDirectory) := by decide
  have henvironments : "/environments" = String.ofList (pathOf ["environments".toList]) := by
    decide
  rw [← h.addresses_listing_iff, hdirectory, henvironments]
  constructor
  · intro hlisted
    obtain ⟨requested, hrequested, haddresses⟩ := hlisted none
    rw [h.requestedPath_listing] at hrequested
    obtain rfl := Option.some.inj hrequested
    exact haddresses
  · exact fun haddresses cursor => ⟨_, h.requestedPath_listing clientId cursor, haddresses⟩

/-- The text that was pushed is read back from the path. -/
theorem deliveredIn_revocationSegments {clientId : String} (hid : Text.trim clientId ≠ "") :
    deliveredIn (library.revocationSegments clientId) = (delivered clientId).map Text.utf8 := by
  rcases h.revocationSegments_cases clientId with
    ⟨hdelivered, heq⟩ | ⟨hdelivered, heq⟩ | ⟨hdelivered, heq⟩ | ⟨text, hdelivered, -, heq⟩
  · rw [heq, hdelivered]
    decide
  · rw [heq, hdelivered]
    decide
  · rw [heq, hdelivered]
    decide
  · have htext : text ≠ "" := by
      rw [delivered] at hdelivered
      split_ifs at hdelivered
      exact Option.some.inj hdelivered ▸ dropControls_ne_empty hid
    have hencoded : Percent.encode library.pathSegmentSet (Text.utf8 text) ≠ [] := by
      intro hnil
      have hdecode := (h.encode_spec text).2
      rw [hnil] at hdecode
      exact htext ((Text.utf8_inj (t := "")).mp hdecode.symm)
    rw [heq, hdelivered, deliveredIn, if_neg, if_neg, if_neg, List.getLastD_concat,
      (h.encode_spec text).2, Option.map_some]
    · simpa using hencoded
    · simp [clientsSegments]
    · simp [clientsSegments]

/-- Two clients share a path if the same text is pushed of their IDs, or none. -/
theorem revocationPath_eq_iff {clientId other : String} (hid : Text.trim clientId ≠ "")
    (hother : Text.trim other ≠ "") :
    library.revocationPath clientId = library.revocationPath other ↔
      delivered clientId = delivered other := by
  rw [h.revocationPath_eq hid, h.revocationPath_eq hother, Except.ok.injEq, String.ofList_inj,
    pathOf_inj (fun segment hmem => h.not_mem_slash (h.isProper_revocationSegments hmem))
      (fun segment hmem => h.not_mem_slash (h.isProper_revocationSegments hmem))]
  refine ⟨fun heq => ?_, fun heq => ?_⟩
  · have hread := congrArg deliveredIn heq
    rw [h.deliveredIn_revocationSegments hid, h.deliveredIn_revocationSegments hother] at hread
    exact Option.map_injective (fun s t => Text.utf8_inj.mp) hread
  · rw [UrlLibrary.revocationSegments, heq, UrlLibrary.revocationSegments]

end UrlLibrary.Documented

/-- Both paths have the client exactly if its ID is plain, and two clients share the path at which
they are revoked exactly if their IDs are the dot segments or agree up to tabs and line ends. -/
theorem client_path_iff {library : UrlLibrary} (h : library.Documented) {clientId : String}
    (hid : Text.trim clientId ≠ "") :
    (library.AddressesClient clientId ↔ IsPlainId clientId) ∧
      ∀ other, Text.trim other ≠ "" →
        ((clientId ≠ other → library.revocationPath clientId ≠ library.revocationPath other) ↔
          (clientId ≠ other → delivered clientId ≠ delivered other)) := by
  refine ⟨?_, fun other hother => ?_⟩
  · rw [isPlainId_iff, ← h.revoked_iff hid, ← h.listed_iff clientId]
    exact ⟨fun haddresses => ⟨haddresses.revoked, haddresses.listed⟩,
      fun haddresses => ⟨haddresses.1, haddresses.2⟩⟩
  · rw [ne_eq (library.revocationPath clientId), h.revocationPath_eq_iff hid hother]

/-! ### A library -/

/-- The bytes that this library encodes. -/
def chatgptSet (b : UInt8) : Bool :=
  b ≤ 32 || 127 ≤ b || b ∈ Text.utf8 "\"#%/<>?\\`\x7b\x7d"

/-- The library, for paths of `chatgpt.com` that need no encoding. -/
def chatgptLibrary : UrlLibrary where
  pathSegmentSet := chatgptSet
  pushed := fun path segment =>
    let kept := if path.toList.getLast? = some '/' then path.toList.dropLast else path.toList
    if segment = "." ∨ segment = ".." then .ofList kept
    else .ofList (pathOf (resolve (segmentsOf kept)
      [Percent.encode chatgptSet (Text.utf8 (dropControls segment))]))
  byteSerialize := fun bytes => .ofList (bytes.flatMap formByte)
  parsedPath := fun text =>
    (Text.stripPrefix "https://chatgpt.com" text).map fun rest =>
      .ofList (pathOf (resolve [] (segmentsOf (rest.toList.takeWhile (· ≠ '?')))))

/-- It encodes what is documented. -/
theorem chatgptSet_contains {b : UInt8}
    (h : b.toNat ≤ 32 ∨ 127 ≤ b.toNat ∨ b ∈ Text.utf8 "\"#%/<>?\\`\x7b\x7d") :
    chatgptSet b = true := by
  simp only [chatgptSet, Bool.or_eq_true, decide_eq_true_eq, UInt8.le_iff_toNat_le, or_assoc]
  exact h

/-- It does not encode what is documented to be kept. -/
theorem chatgptSet_excludes {b : UInt8} (h : isFormByte b = true ∨ b = 43) :
    chatgptSet b = false := by
  have hbytes : Text.utf8 "\"#%/<>?\\`\x7b\x7d" =
      [34, 35, 37, 47, 60, 62, 63, 92, 96, 123, 125] := by decide
  simp only [chatgptSet, hbytes, isFormByte, Bool.or_eq_true, Bool.and_eq_true, decide_eq_true_eq,
    beq_iff_eq, Bool.or_eq_false_iff, decide_eq_false_iff_not, List.mem_cons, List.not_mem_nil,
    or_false, UInt8.le_iff_toNat_le, ← UInt8.toNat_inj, UInt8.reduceToNat] at h ⊢
  omega

/-- The slash and the question mark are not left as they are. -/
theorem not_isPlain_chatgptLibrary {c : Char} (h : c = '/' ∨ c = '?') :
    ¬chatgptLibrary.IsPlain c := by
  have hall : ∀ b : UInt8, b = 47 ∨ b = 63 → ¬chatgptLibrary.IsPlain (Char.ofNat b.toNat) := by
    intro b hb
    refine UrlLibrary.not_isPlain_of_set ?_ ?_ ?_
      fun b hb => chatgptSet_contains (Or.inr (Or.inl hb))
    all_goals
      rcases hb with rfl | rfl
      all_goals decide
  rcases h with rfl | rfl
  · exact hall 47 (Or.inl rfl)
  · exact hall 63 (Or.inr rfl)

/-- What is kept of a path that something is pushed to. -/
theorem pushed_chatgptLibrary (segments : List (List Char)) (segment : String) :
    chatgptLibrary.pushed (.ofList (pathOf segments ++ ['/'])) segment =
      if segment = "." ∨ segment = ".." then .ofList (pathOf segments)
      else .ofList (pathOf (resolve (segmentsOf (pathOf segments))
        [Percent.encode chatgptSet (Text.utf8 (dropControls segment))])) := by
  simp only [chatgptLibrary, String.toList_ofList, List.getLast?_append, List.getLast?_singleton,
    Option.some_or, if_true, List.dropLast_concat]

/-- It does what is documented. -/
theorem documented_chatgptLibrary : chatgptLibrary.Documented where
  set_contains := fun b hb => chatgptSet_contains hb
  set_excludes := fun b hb => chatgptSet_excludes hb
  pushed_dots := fun segments segment _ hdots => by
    rw [pushed_chatgptLibrary, if_pos hdots]
  pushed_segment := fun segments segment hdirectory hdots => by
    rw [pushed_chatgptLibrary, if_neg hdots, segmentsOf_pathOf]
    · rfl
    · exact fun segment hmem hslash =>
        not_isPlain_chatgptLibrary (Or.inl rfl) ((hdirectory.proper segment hmem).2.1 _ hslash)
  byteSerialize_eq := fun _ => rfl
  parsedPath_eq := fun segments rest _ hplain hrest => by
    have hkeep : ∀ c ∈ pathOf segments, decide (c ≠ '?') = true := by
      intro c hc
      obtain ⟨segment, hmem, hc⟩ := List.mem_flatMap.mp hc
      rcases List.mem_cons.mp hc with rfl | hc
      · decide
      · rw [decide_eq_true_eq]
        rintro rfl
        exact not_isPlain_chatgptLibrary (Or.inr rfl) (hplain segment hmem _ hc)
    have hpath : (String.ofList (pathOf segments) ++ rest).toList.takeWhile (· ≠ '?') =
        pathOf segments := by
      rw [String.toList_append, String.toList_ofList, List.takeWhile_append_of_pos hkeep]
      rcases hrest with rfl | ⟨query, rfl⟩
      · simp
      · simp [String.toList_append]
    change (Text.stripPrefix "https://chatgpt.com" _).map _ = _
    rw [String.append_assoc, Text.stripPrefix_append, Option.map_some, hpath, segmentsOf_pathOf]
    exact fun segment hmem hslash =>
      not_isPlain_chatgptLibrary (Or.inl rfl) (hplain segment hmem _ hslash)

example : chatgptLibrary.revocationPath "cli/id with spaces" =
    .ok "/wham/remote/control/clients/cli%2Fid%20with%20spaces" := by decide

/-- A client with spaces in its ID is not addressed, and the two dot segments share a path. -/
theorem not_addressesClient_spaces : (¬∀ (library : UrlLibrary) (clientId : String),
    library.Documented → Text.trim clientId ≠ "" → library.AddressesClient clientId ∧
      ∀ other, Text.trim other ≠ "" → clientId ≠ other →
        library.revocationPath clientId ≠ library.revocationPath other) ∧
    chatgptLibrary.revocationPath "." = chatgptLibrary.revocationPath ".." := by
  refine ⟨fun hall => ?_, ?_⟩
  · have hid : Text.trim "cli/id with spaces" ≠ "" := by decide
    have haddresses := (hall _ _ documented_chatgptLibrary hid).1.listed
    rw [documented_chatgptLibrary.listed_iff] at haddresses
    exact absurd haddresses (by decide)
  · rw [documented_chatgptLibrary.revocationPath_eq_iff (by decide) (by decide)]
    decide

/-- An ID as it is registered is plain, and is addressed. -/
theorem client_path_iff_plain : IsPlainId "client-1" ∧ chatgptLibrary.AddressesClient "client-1" :=
  have hid : Text.trim "client-1" ≠ "" := by decide
  ⟨by decide, (client_path_iff documented_chatgptLibrary hid).1.mpr (by decide)⟩

end Rcodex
