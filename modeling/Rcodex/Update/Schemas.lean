import Mathlib.Data.Int.Log
import Mathlib.Data.Rat.Floor
import Rcodex.Foundation.JsonTree
import Rcodex.Foundation.Result

/-!
# The comparison of schemas

A script compares the schemas of two releases after it has taken the documentation out of them.
`Script.normalized` and `Script.schemaChanges` are its functions, on the values that Python reads
the files as.  `clean` takes documentation out where a schema is expected and says what the
comparison is for: `SameSchemas`.  `schemaChanges_iff` says exactly for which files the script finds
changes where there are some and nowhere else.  It fails where some scalars are `Confused`, some
arrays are taken for arrays of schemas (`ArraysDiffer`) or some numbers are `Divided`.
-/

namespace Rcodex

open JsonTree Result

/-! ### Numbers -/

/-- The text of a number, by what it says. -/
inductive NumberLiteral where
  /-- A number without fraction and exponent. -/
  | integer (n : ℤ)
  /-- A number with a fraction or an exponent: a multiple of a power of ten. -/
  | decimal (mantissa exponent : ℤ)
deriving DecidableEq

/-- The number that it denotes. -/
def NumberLiteral.value : NumberLiteral → ℚ
  | .integer n => n
  | .decimal mantissa exponent => mantissa * 10 ^ exponent

/-- What a number is read as that is no integer. -/
inductive PyFloat where
  | finite (q : ℚ)
  | infinite (negative : Bool)
deriving DecidableEq

/-- The nearest integer, the even one of two. -/
def roundHalfEven (q : ℚ) : ℤ :=
  if q - ⌊q⌋ < 1 / 2 then ⌊q⌋
  else if 1 / 2 < q - ⌊q⌋ then ⌊q⌋ + 1
  else if ⌊q⌋ % 2 = 0 then ⌊q⌋ else ⌊q⌋ + 1

/-- `float`: the nearest double, an infinity if it is too large. -/
def floatOf (q : ℚ) : PyFloat :=
  if q = 0 then .finite 0
  else
    let step : ℚ := 2 ^ max (Int.log 2 |q| - 52) (-1074)
    let rounded := roundHalfEven (q / step) * step
    if 2 ^ 1024 ≤ |rounded| then .infinite (q < 0) else .finite rounded

/-! ### Scalars -/

/-- A scalar of a document. -/
inductive JsonScalar where
  | null
  | bool (b : Bool)
  | number (literal : NumberLiteral)
  | string (s : String)
deriving DecidableEq

/-- Two scalars are the same JSON value. -/
def JsonScalar.same : JsonScalar → JsonScalar → Bool
  | .null, .null => true
  | .bool a, .bool b => a == b
  | .number l, .number l' => l.value = l'.value
  | .string s, .string t => s == t
  | _, _ => false

/-- A scalar of Python. -/
inductive PyScalar where
  | none
  | bool (b : Bool)
  | int (n : ℤ)
  | float (f : PyFloat)
  | str (s : String)
deriving DecidableEq

/-- What `json.loads` reads a scalar as. -/
def JsonScalar.loads : JsonScalar → PyScalar
  | .null => .none
  | .bool b => .bool b
  | .number (.integer n) => .int n
  | .number (.decimal mantissa exponent) =>
    .float (floatOf (NumberLiteral.decimal mantissa exponent).value)
  | .string s => .str s

/-- The number that a scalar is for `==`; a boolean is an integer. -/
def PyScalar.number : PyScalar → Option PyFloat
  | .bool b => some (.finite (if b then 1 else 0))
  | .int n => some (.finite n)
  | .float f => some f
  | _ => Option.none

/-- The `==` of scalars: numbers by their values, others of one kind. -/
def PyScalar.eq (x y : PyScalar) : Bool :=
  match x.number, y.number with
  | some a, some b => a = b
  | Option.none, Option.none => x = y
  | _, _ => false

/-! ### The script -/

namespace Script

variable {σ : Type}

/-- The keys that are left out. -/
def documentation : List String := ["description", "title", "$comment"]

/-- `mappings` -/
def mappings : List String :=
  ["properties", "patternProperties", "$defs", "definitions", "dependentSchemas"]

/-- `subschemas` -/
def subschemas : List String :=
  ["items", "prefixItems", "allOf", "anyOf", "oneOf", "not", "if", "then", "else", "contains",
    "additionalProperties", "unevaluatedProperties", "unevaluatedItems", "propertyNames"]

mutual

/-- `normalized` -/
def normalized : JsonTree String σ → JsonTree String σ
  | .object members => .object (normalizedMembers members)
  | .array items => .array (normalizedItems items)
  | .scalar value => .scalar value

/-- The loop over the members of a dictionary. -/
def normalizedMembers : List (String × JsonTree String σ) → List (String × JsonTree String σ)
  | [] => []
  | (key, item) :: members =>
    if key ∈ documentation then normalizedMembers members
    else (key, normalizedItem key item) :: normalizedMembers members

/-- What is stored under a key. -/
def normalizedItem (key : String) : JsonTree String σ → JsonTree String σ
  | .object members =>
    if key ∈ mappings then .object (normalizedSchemas members)
    else if key ∈ subschemas then .object (normalizedMembers members)
    -- enum, default and const values and unknown keywords may contain literal wire data
    else .object members
  | .array items => if key ∈ subschemas then .array (normalizedItems items) else .array items
  | .scalar value => .scalar value

/-- The items of a list. -/
def normalizedItems : List (JsonTree String σ) → List (JsonTree String σ)
  | [] => []
  | item :: items => normalized item :: normalizedItems items

/-- The schemas of a mapping. -/
def normalizedSchemas : List (String × JsonTree String σ) → List (String × JsonTree String σ)
  | [] => []
  | (name, schema) :: members => (name, normalized schema) :: normalizedSchemas members

end

/-- The three branches of the loop. -/
theorem normalizedItem_eq (key : String) (item : JsonTree String σ) :
    normalizedItem key item =
      match decide (key ∈ mappings), item with
      | true, .object members => .object (normalizedSchemas members)
      | _, item => if key ∈ subschemas then normalized item else item := by
  have hdisjoint : ∀ key ∈ mappings, key ∉ subschemas := by decide
  by_cases hkey : key ∈ mappings
  · rw [decide_eq_true hkey]
    cases item with
    | scalar value => simp [normalizedItem, hdisjoint key hkey]
    | array items => simp [normalizedItem, hdisjoint key hkey]
    | object members => simp [normalizedItem, hkey]
  · rw [decide_eq_false hkey]
    cases item with
    | scalar value => simp [normalizedItem, normalized]
    | array items => simp [normalizedItem, normalized]
    | object members => simp [normalizedItem, normalized, hkey]

example : normalized (.object [("description", .scalar "prose"), ("properties", .object
      [("title", .object [("type", .scalar "string"), ("description", .scalar "more prose")]),
        ("description", .object [("type", .scalar "integer")])]),
      ("default", .object [("description", .scalar "wire value")])]) =
    .object [("properties", .object [("title", .object [("type", .scalar "string")]),
        ("description", .object [("type", .scalar "integer")])]),
      ("default", .object [("description", .scalar "wire value")])] := rfl

end Script

/-- The files of a directory with the schemas, by their names. -/
structure SchemaBundle where
  /-- The names and the documents. -/
  files : List (String × JsonTree String JsonScalar)
  /-- Each name is that of one file. -/
  nodup : (files.map Prod.fst).Nodup
  /-- No object has two members with one key. -/
  wellFormed : ∀ file ∈ files, file.2.WellFormed

namespace Script

/-- Why the comparison stops. -/
inductive SchemaError where
  | emptyBundle
deriving DecidableEq

/-- The text of the error. -/
def SchemaError.text : SchemaError → String
  | .emptyBundle => "empty App Server schema bundle"

/-- The `schemas` of `schema_changes`. -/
def schemas (directory : SchemaBundle) :
    Except SchemaError (List (String × JsonTree String PyScalar)) := do
  let result := directory.files.map fun file => (file.1, normalized (file.2.map JsonScalar.loads))
  bailWhen (result.isEmpty = true) .emptyBundle
  return result

/-- `schema_changes` -/
def schemaChanges (baseline candidate : SchemaBundle) : Except SchemaError (List String) := do
  let before ← schemas baseline
  let after ← schemas candidate
  let removed := (before.filter fun file => (after.lookup file.1).isNone).map
    fun file => "removed: " ++ file.1
  let added := (after.filter fun file => (before.lookup file.1).isNone).map
    fun file => "added: " ++ file.1
  let changed := (before.filter fun file => match after.lookup file.1 with
    | some document => !eqWith PyScalar.eq file.2 document
    | none => false).map fun file => "changed: " ++ file.1
  return (removed ++ added ++ changed).mergeSort fun a b => a ≤ b

end Script

/-! ### Documents without documentation -/

/-- What is expected at a place of a document. -/
inductive Position where
  /-- A schema. -/
  | schema
  /-- The value of a keyword: a schema or a list of schemas. -/
  | keyword
  /-- Schemas with names. -/
  | mapping
  /-- Anything else. -/
  | literal
deriving DecidableEq

/-- What is expected under a key of a schema. -/
def positionOf (key : String) : Position :=
  if key ∈ Script.mappings then .mapping else if key ∈ Script.subschemas then .keyword else .literal

/-- A key that is no documentation. -/
def isKept (key : String) : Bool := key ∉ Script.documentation

section Clean

variable {σ : Type} (inArrays : Bool)

mutual

/-- A document without the documentation of its schemas.  `inArrays` is whether an array where one
schema is expected is taken for an array of schemas. -/
def clean (position : Position) : JsonTree String σ → JsonTree String σ
  | .scalar value => .scalar value
  | .array items =>
    if position = .keyword ∨ position = .schema ∧ inArrays = true then .array (cleanItems items)
    else .array items
  | .object members =>
    if position = .mapping then .object (cleanSchemas members)
    else if position = .literal then .object members
    else .object (cleanMembers members)

/-- An array of schemas without documentation. -/
def cleanItems : List (JsonTree String σ) → List (JsonTree String σ)
  | [] => []
  | item :: items => clean .schema item :: cleanItems items

/-- The members of a schema without documentation. -/
def cleanMembers : List (String × JsonTree String σ) → List (String × JsonTree String σ)
  | [] => []
  | (key, item) :: members =>
    if isKept key = true then (key, clean (positionOf key) item) :: cleanMembers members
    else cleanMembers members

/-- Schemas with names without documentation. -/
def cleanSchemas : List (String × JsonTree String σ) → List (String × JsonTree String σ)
  | [] => []
  | (name, schema) :: members => (name, clean .schema schema) :: cleanSchemas members

end

/-- Schema by schema. -/
theorem cleanItems_eq_map (items : List (JsonTree String σ)) :
    cleanItems inArrays items = items.map (clean inArrays .schema) := by
  induction items with
  | nil => rfl
  | cons item items ih => rw [cleanItems, ih, List.map_cons]

/-- Member by member. -/
theorem cleanMembers_eq_reshape (members : List (String × JsonTree String σ)) :
    cleanMembers inArrays members =
      reshape isKept (fun key => clean inArrays (positionOf key)) members := by
  induction members with
  | nil => rfl
  | cons kv members ih =>
    rw [cleanMembers, ih, reshape, reshape, List.filter_cons]
    split_ifs
    · rw [List.map_cons]
    · rfl

/-- Schema by schema. -/
theorem cleanSchemas_eq_reshape (members : List (String × JsonTree String σ)) :
    cleanSchemas inArrays members =
      reshape (fun _ => true) (fun _ => clean inArrays .schema) members := by
  induction members with
  | nil => rfl
  | cons kv members ih =>
    rw [cleanSchemas, ih, reshape, reshape, List.filter_cons_of_pos rfl, List.map_cons]

/-- The value of a keyword may be an array of schemas. -/
theorem clean_keyword_array (items : List (JsonTree String σ)) :
    clean inArrays .keyword (.array items) = .array (items.map (clean inArrays .schema)) := by
  rw [clean, if_pos (Or.inl rfl), cleanItems_eq_map]

/-- A mapping of schemas. -/
theorem clean_mapping_object (members : List (String × JsonTree String σ)) :
    clean inArrays .mapping (.object members) =
      .object (reshape (fun _ => true) (fun _ => clean inArrays .schema) members) := by
  rw [clean, if_pos rfl, cleanSchemas_eq_reshape]

/-- A single schema. -/
theorem clean_schema_object {position : Position} (h : position = .schema ∨ position = .keyword)
    (members : List (String × JsonTree String σ)) :
    clean inArrays position (.object members) =
      .object (reshape isKept (fun key => clean inArrays (positionOf key)) members) := by
  rcases h with rfl | rfl <;>
    rw [clean, if_neg (by simp), if_neg (by simp), cleanMembers_eq_reshape]

end Clean

section Normalized

variable {σ : Type}

mutual

/-- The script takes arrays for arrays of schemas. -/
theorem normalized_eq_clean :
    ∀ t : JsonTree String σ, Script.normalized t = clean true .schema t
  | .scalar _ => rfl
  | .array items => by
    rw [Script.normalized, clean, normalizedItems_eq_clean items, if_pos (Or.inr ⟨rfl, rfl⟩)]
  | .object members => by
    rw [Script.normalized, clean, normalizedMembers_eq_clean members, if_neg (by simp),
      if_neg (by simp)]

/-- So does the loop over the members. -/
theorem normalizedMembers_eq_clean : ∀ members : List (String × JsonTree String σ),
    Script.normalizedMembers members = cleanMembers true members
  | [] => rfl
  | (key, item) :: members => by
    rw [Script.normalizedMembers, cleanMembers, normalizedItem_eq_clean key item,
      normalizedMembers_eq_clean members]
    by_cases hkey : key ∈ Script.documentation
    · rw [if_pos hkey, if_neg (by simp [isKept, hkey])]
    · rw [if_neg hkey, if_pos (by simp [isKept, hkey])]

/-- What is stored under a key. -/
theorem normalizedItem_eq_clean (key : String) :
    ∀ t : JsonTree String σ, Script.normalizedItem key t = clean true (positionOf key) t
  | .scalar _ => rfl
  | .array items => by
    have hdisjoint : ∀ key ∈ Script.mappings, key ∉ Script.subschemas := by decide
    rw [Script.normalizedItem, clean, normalizedItems_eq_clean items, positionOf]
    by_cases hmapping : key ∈ Script.mappings
    · simp [hmapping, hdisjoint key hmapping]
    · by_cases hsubschema : key ∈ Script.subschemas <;> simp [hmapping, hsubschema]
  | .object members => by
    rw [Script.normalizedItem, clean, normalizedSchemas_eq_clean members,
      normalizedMembers_eq_clean members, positionOf]
    by_cases hmapping : key ∈ Script.mappings
    · simp [hmapping]
    · by_cases hsubschema : key ∈ Script.subschemas <;> simp [hmapping, hsubschema]

/-- The items of a list. -/
theorem normalizedItems_eq_clean : ∀ items : List (JsonTree String σ),
    Script.normalizedItems items = cleanItems true items
  | [] => rfl
  | item :: items => by
    rw [Script.normalizedItems, cleanItems, normalized_eq_clean item,
      normalizedItems_eq_clean items]

/-- The schemas of a mapping. -/
theorem normalizedSchemas_eq_clean : ∀ members : List (String × JsonTree String σ),
    Script.normalizedSchemas members = cleanSchemas true members
  | [] => rfl
  | (name, schema) :: members => by
    rw [Script.normalizedSchemas, cleanSchemas, normalized_eq_clean schema,
      normalizedSchemas_eq_clean members]

end

end Normalized

/-! ### Documentation and equality -/

section Equality

variable {σ τ : Type} {inArrays : Bool}

/-- Documentation may be taken out before or after the scalars are read. -/
theorem map_clean (f : σ → τ) (position : Position) (t : JsonTree String σ) :
    (clean inArrays position t).map f = clean inArrays position (t.map f) := by
  induction t using nested_induction generalizing position with
  | scalar value => rfl
  | array items ih =>
    have hitems : mapItems f (cleanItems inArrays items) =
        cleanItems inArrays (mapItems f items) := by
      rw [cleanItems_eq_map, cleanItems_eq_map, mapItems_eq_map, mapItems_eq_map, List.map_map,
        List.map_map]
      exact List.map_congr_left fun item hitem => ih item hitem .schema
    rw [clean, map, clean, ← hitems]
    split_ifs
    · rw [map]
    · rw [map]
  | object members ih =>
    have hmembers : mapMembers f (cleanMembers inArrays members) =
        cleanMembers inArrays (mapMembers f members) := by
      rw [cleanMembers_eq_reshape, cleanMembers_eq_reshape]
      exact mapMembers_reshape fun kv hkv => ih kv hkv (positionOf kv.1)
    have hschemas : mapMembers f (cleanSchemas inArrays members) =
        cleanSchemas inArrays (mapMembers f members) := by
      rw [cleanSchemas_eq_reshape, cleanSchemas_eq_reshape]
      exact mapMembers_reshape fun kv hkv => ih kv hkv .schema
    rw [clean, map, clean, ← hmembers, ← hschemas]
    split_ifs
    · rw [map]
    · rw [map]
    · rw [map]

variable {r : σ → σ → Bool}

/-- A document keeps its kind. -/
theorem kind_clean (inArrays : Bool) (position : Position) (t : JsonTree String σ) :
    (clean inArrays position t).kind = t.kind := by
  cases t <;> rw [clean] <;> split_ifs <;> rfl

/-- Equal documents stay equal without their documentation. -/
theorem eqWith_clean {position : Position} {t u : JsonTree String σ} (ht : t.WellFormed)
    (h : eqWith r t u = true) :
    eqWith r (clean inArrays position t) (clean inArrays position u) = true := by
  induction t using nested_induction generalizing position u with
  | scalar value =>
    cases u with
    | scalar value' => exact h
    | _ => contradiction
  | array items ih =>
    cases u with
    | array items' =>
      rw [WellFormed, wellFormedItems_iff] at ht
      rw [clean, clean]
      split_ifs
      · rw [cleanItems_eq_map, cleanItems_eq_map]
        rw [← List.map_id items, ← List.map_id items'] at h
        exact eqWith_array_of h fun item u hmem heq =>
          ih item (List.of_mem_zip hmem).1 (ht item (List.of_mem_zip hmem).1) heq
      · exact h
    | _ => contradiction
  | object members ih =>
    cases u with
    | object members' =>
      rw [WellFormed, wellFormedMembers_iff] at ht
      rw [clean, clean]
      split_ifs
      · rw [cleanSchemas_eq_reshape, cleanSchemas_eq_reshape]
        exact eqWith_reshape ht.1 h fun kv hkv u heq => ih kv hkv (ht.2 kv hkv) heq
      · exact h
      · rw [cleanMembers_eq_reshape, cleanMembers_eq_reshape]
        exact eqWith_reshape ht.1 h fun kv hkv u heq => ih kv hkv (ht.2 kv hkv) heq
    | _ => contradiction

/-- Documents that are equal without documentation are of one kind. -/
theorem kind_eq_of_eqWith_clean {position : Position} {t u : JsonTree String σ}
    (h : eqWith r (clean inArrays position t) (clean inArrays position u) = true) :
    t.kind = u.kind := by
  rw [← kind_clean inArrays position t, kind_eq_of_eqWith h, kind_clean]

/-- Documents that are equal without the documentation outside of arrays are equal without any. -/
theorem eqWith_clean_true {position : Position} {t u : JsonTree String σ} (ht : t.WellFormed)
    (h : eqWith r (clean false position t) (clean false position u) = true) :
    eqWith r (clean true position t) (clean true position u) = true := by
  have hkind := kind_eq_of_eqWith_clean h
  induction t using nested_induction generalizing position u with
  | scalar value =>
    cases u with
    | scalar value' => exact h
    | _ => exact absurd hkind (by simp [JsonTree.kind])
  | array items ih =>
    cases u with
    | array items' =>
      cases position with
      | keyword =>
        rw [clean_keyword_array, clean_keyword_array] at h ⊢
        rw [WellFormed, wellFormedItems_iff] at ht
        exact eqWith_array_of h fun item u hmem heq => ih item (List.of_mem_zip hmem).1
          (ht item (List.of_mem_zip hmem).1) heq (kind_eq_of_eqWith_clean heq)
      | schema =>
        rw [clean, clean, if_neg (by simp), if_neg (by simp)] at h
        exact eqWith_clean ht h
      | mapping => exact h
      | literal => exact h
    | _ => exact absurd hkind (by simp [JsonTree.kind])
  | object members ih =>
    cases u with
    | object members' =>
      rw [WellFormed, wellFormedMembers_iff] at ht
      have hmembers : position = .schema ∨ position = .keyword →
          eqWith r (clean true position (.object members))
            (clean true position (.object members')) = true := by
        intro hposition
        rw [clean_schema_object _ hposition, clean_schema_object _ hposition] at h ⊢
        exact eqWith_reshape_of h fun kv hkv u _ _ heq =>
          ih kv hkv (ht.2 kv hkv) heq (kind_eq_of_eqWith_clean heq)
      cases position with
      | schema => exact hmembers (Or.inl rfl)
      | keyword => exact hmembers (Or.inr rfl)
      | mapping =>
        rw [clean_mapping_object, clean_mapping_object] at h ⊢
        exact eqWith_reshape_of h fun kv hkv u _ _ heq =>
          ih kv hkv (ht.2 kv hkv) heq (kind_eq_of_eqWith_clean heq)
      | literal => exact h
    | _ => exact absurd hkind (by simp [JsonTree.kind])

/-- At a place where one schema is expected the documents have different arrays. -/
inductive ArraysDiffer (r : σ → σ → Bool) : Position → JsonTree String σ → JsonTree String σ → Prop
  | here {items items' : List (JsonTree String σ)} :
    eqWith r (.array items) (.array items') = false →
    ArraysDiffer r .schema (.array items) (.array items')
  | item {items items' : List (JsonTree String σ)} {t u : JsonTree String σ} :
    (t, u) ∈ items.zip items' → ArraysDiffer r .schema t u →
    ArraysDiffer r .keyword (.array items) (.array items')
  | named {members members' : List (String × JsonTree String σ)} {name : String}
    {t u : JsonTree String σ} :
    (name, t) ∈ members → members'.lookup name = some u → ArraysDiffer r .schema t u →
    ArraysDiffer r .mapping (.object members) (.object members')
  | member {position : Position} {members members' : List (String × JsonTree String σ)}
    {key : String} {t u : JsonTree String σ} :
    position = .schema ∨ position = .keyword → isKept key = true → (key, t) ∈ members →
    members'.lookup key = some u → ArraysDiffer r (positionOf key) t u →
    ArraysDiffer r position (.object members) (.object members')

/-- Such documents are not equal without the documentation outside of arrays. -/
theorem ArraysDiffer.eqWith_clean_false {position : Position} {t u : JsonTree String σ}
    (h : ArraysDiffer r position t u) :
    eqWith r (clean false position t) (clean false position u) = false := by
  rw [← Bool.not_eq_true]
  induction h with
  | here hdiffer =>
    rw [clean, clean, if_neg (by simp), if_neg (by simp), hdiffer]
    simp
  | item hmem _ ih =>
    intro heq
    rw [clean_keyword_array, clean_keyword_array, eqWith_array_iff, List.forall₂_map_left_iff,
      List.forall₂_map_right_iff, List.forall₂_iff_zip] at heq
    exact ih (heq.2 hmem)
  | named hmem hlookup _ ih =>
    intro heq
    rw [clean_mapping_object, clean_mapping_object] at heq
    exact ih (eqWith_of_eqWith_reshape heq rfl hmem hlookup)
  | member hposition hkept hmem hlookup _ ih =>
    intro heq
    rw [clean_schema_object _ hposition, clean_schema_object _ hposition] at heq
    exact ih (eqWith_of_eqWith_reshape heq hkept hmem hlookup)

/-- Documents that are equal without any documentation are equal without that outside of arrays
where they have the same arrays. -/
theorem eqWith_clean_false_of {position : Position} {t u : JsonTree String σ}
    (h : eqWith r (clean true position t) (clean true position u) = true)
    (hsame : ¬ArraysDiffer r position t u) :
    eqWith r (clean false position t) (clean false position u) = true := by
  have hkind := kind_eq_of_eqWith_clean h
  induction t using nested_induction generalizing position u with
  | scalar value =>
    cases u with
    | scalar value' => exact h
    | _ => exact absurd hkind (by simp [JsonTree.kind])
  | array items ih =>
    cases u with
    | array items' =>
      cases position with
      | keyword =>
        rw [clean_keyword_array, clean_keyword_array] at h ⊢
        exact eqWith_array_of h fun t u hmem heq => ih t (List.of_mem_zip hmem).1 heq
          (fun hdiffer => hsame (.item hmem hdiffer)) (kind_eq_of_eqWith_clean heq)
      | schema =>
        rw [clean, clean, if_neg (by simp), if_neg (by simp)]
        by_contra hdiffer
        exact hsame (.here (Bool.not_eq_true _ ▸ hdiffer))
      | mapping => exact h
      | literal => exact h
    | _ => exact absurd hkind (by simp [JsonTree.kind])
  | object members ih =>
    cases u with
    | object members' =>
      have hmembers : position = .schema ∨ position = .keyword →
          eqWith r (clean false position (.object members))
            (clean false position (.object members')) = true := by
        intro hposition
        rw [clean_schema_object _ hposition, clean_schema_object _ hposition] at h ⊢
        exact eqWith_reshape_of h fun kv hkv u hkept hlookup heq => ih kv hkv heq
          (fun hdiffer => hsame (.member hposition hkept hkv hlookup hdiffer))
          (kind_eq_of_eqWith_clean heq)
      cases position with
      | schema => exact hmembers (Or.inl rfl)
      | keyword => exact hmembers (Or.inr rfl)
      | mapping =>
        rw [clean_mapping_object, clean_mapping_object] at h ⊢
        exact eqWith_reshape_of h fun kv hkv u _ hlookup heq => ih kv hkv heq
          (fun hdiffer => hsame (.named hkv hlookup hdiffer)) (kind_eq_of_eqWith_clean heq)
      | literal => exact h
    | _ => exact absurd hkind (by simp [JsonTree.kind])

end Equality

/-! ### Scalars that Python reads alike -/

/-- Python reads the two scalars as equal. -/
def JsonScalar.readAlike (x y : JsonScalar) : Bool := PyScalar.eq x.loads y.loads

/-- The two scalars are the same, or Python reads them as equal. -/
def JsonScalar.close (x y : JsonScalar) : Bool := x.same y || x.readAlike y

/-- The number that Python reads. -/
def NumberLiteral.read : NumberLiteral → PyFloat
  | .integer n => .finite n
  | .decimal mantissa exponent => floatOf (NumberLiteral.decimal mantissa exponent).value

/-- Different scalars that Python takes for equal: a boolean and the number one or zero, or two
numbers that are rounded to the same. -/
inductive Confused : JsonScalar → JsonScalar → Prop
  | boolNumber {b : Bool} {l : NumberLiteral} :
    l.read = .finite (if b then 1 else 0) → Confused (.bool b) (.number l)
  | numberBool {b : Bool} {l : NumberLiteral} :
    l.read = .finite (if b then 1 else 0) → Confused (.number l) (.bool b)
  | numbers {l l' : NumberLiteral} :
    l.value ≠ l'.value → l.read = l'.read → Confused (.number l) (.number l')

/-- One number that is written as an integer and as another number, and rounded in one of them. -/
inductive Divided : JsonScalar → JsonScalar → Prop
  | numbers {l l' : NumberLiteral} :
    l.value = l'.value → l.read ≠ l'.read → Divided (.number l) (.number l')

/-- The number that a scalar of a document is for `==`. -/
def JsonScalar.numeric : JsonScalar → Option PyFloat
  | .bool b => some (.finite (if b then 1 else 0))
  | .number l => some l.read
  | _ => none

/-- It is the number of the scalar that is read. -/
theorem number_loads (x : JsonScalar) : x.loads.number = x.numeric := by
  cases x with
  | number l => cases l <;> rfl
  | _ => rfl

/-- Scalars are compared as numbers if both are. -/
theorem readAlike_eq (x y : JsonScalar) :
    x.readAlike y = match x.numeric, y.numeric with
      | some a, some b => decide (a = b)
      | none, none => decide (x.loads = y.loads)
      | _, _ => false := by
  rw [JsonScalar.readAlike, PyScalar.eq, number_loads, number_loads]

/-- Which scalars are read alike without being the same. -/
theorem confused_iff {x y : JsonScalar} :
    Confused x y ↔ x.readAlike y = true ∧ x.same y = false := by
  rw [readAlike_eq]
  constructor
  · rintro (h | h | ⟨hne, h⟩)
    · exact ⟨decide_eq_true h.symm, rfl⟩
    · exact ⟨decide_eq_true h, rfl⟩
    · exact ⟨decide_eq_true h, decide_eq_false hne⟩
  · rintro ⟨hread, hsame⟩
    cases x with
    | number l =>
      cases y with
      | number l' => exact .numbers (of_decide_eq_false hsame) (of_decide_eq_true hread)
      | bool b => exact .numberBool (of_decide_eq_true hread)
      | _ => contradiction
    | bool b =>
      cases y with
      | number l => exact .boolNumber (of_decide_eq_true hread).symm
      | bool b' =>
        cases b <;> cases b' <;> simp [JsonScalar.numeric, JsonScalar.same] at hread hsame
      | _ => contradiction
    | null =>
      cases y with
      | string s => simp [JsonScalar.numeric, JsonScalar.loads] at hread
      | _ => contradiction
    | string s =>
      cases y with
      | string t => simp_all [JsonScalar.numeric, JsonScalar.loads, JsonScalar.same]
      | null => simp [JsonScalar.numeric, JsonScalar.loads] at hread
      | _ => contradiction

/-- Which scalars are the same without being read alike. -/
theorem divided_iff {x y : JsonScalar} :
    Divided x y ↔ x.same y = true ∧ x.readAlike y = false := by
  rw [readAlike_eq]
  constructor
  · rintro ⟨heq, hne⟩
    exact ⟨decide_eq_true heq, decide_eq_false hne⟩
  · rintro ⟨hsame, hread⟩
    cases x with
    | number l =>
      cases y with
      | number l' => exact .numbers (of_decide_eq_true hsame) (of_decide_eq_false hread)
      | _ => contradiction
    | bool b =>
      cases y with
      | bool b' =>
        cases b <;> cases b' <;> simp [JsonScalar.numeric, JsonScalar.same] at hread hsame
      | _ => contradiction
    | null =>
      cases y with
      | null => simp [JsonScalar.numeric] at hread
      | _ => contradiction
    | string s =>
      cases y with
      | string t => simp_all [JsonScalar.numeric, JsonScalar.loads, JsonScalar.same]
      | _ => contradiction

/-- Which close scalars are not the same. -/
theorem confused_iff_close {x y : JsonScalar} :
    Confused x y ↔ x.close y = true ∧ x.same y = false := by
  rw [confused_iff, JsonScalar.close, and_congr_left_iff]
  intro hsame
  rw [hsame, Bool.false_or]

/-- Which close scalars are not read alike. -/
theorem divided_iff_close {x y : JsonScalar} :
    Divided x y ↔ x.close y = true ∧ x.readAlike y = false := by
  rw [divided_iff, JsonScalar.close, and_congr_left_iff]
  intro hread
  rw [hread, Bool.or_false]

/-! ### Bundles -/

/-- The bundles have files with the same names, and files of one name have this relation. -/
structure SchemaBundle.Agree (P : JsonTree String JsonScalar → JsonTree String JsonScalar → Prop)
    (baseline candidate : SchemaBundle) : Prop where
  /-- The names are the same. -/
  names : ∀ name, name ∈ baseline.files.map Prod.fst ↔ name ∈ candidate.files.map Prod.fst
  /-- The documents have the relation. -/
  documents : ∀ name document document', (name, document) ∈ baseline.files →
    (name, document') ∈ candidate.files → P document document'

/-- Two files of one name have this relation. -/
def SchemaBundle.SomeAgree (P : JsonTree String JsonScalar → JsonTree String JsonScalar → Prop)
    (baseline candidate : SchemaBundle) : Prop :=
  ∃ name document document', (name, document) ∈ baseline.files ∧
    (name, document') ∈ candidate.files ∧ P document document'

/-- The documents are the same JSON value without the documentation of their schemas. -/
def SameDocument (document document' : JsonTree String JsonScalar) : Prop :=
  eqWith JsonScalar.same (clean false .schema document) (clean false .schema document') = true

/-- The documents differ at most in documentation and in scalars that Python takes for equal. -/
def AlikeDocument (document document' : JsonTree String JsonScalar) : Prop :=
  eqWith JsonScalar.readAlike (clean true .schema document) (clean true .schema document') = true

/-- The documents differ at most in documentation and in scalars that are the same or that Python
takes for equal. -/
def CloseDocument (document document' : JsonTree String JsonScalar) : Prop :=
  eqWith JsonScalar.close (clean true .schema document) (clean true .schema document') = true

/-- The documents have different scalars at one place that Python takes for equal, or different
arrays where one schema is expected. -/
def HidesChange (document document' : JsonTree String JsonScalar) : Prop :=
  Meet Confused (clean true .schema document) (clean true .schema document') ∨
    ArraysDiffer JsonScalar.same .schema document document'

/-- The documents have the same number at one place, which Python reads in two ways. -/
def ShowsChange (document document' : JsonTree String JsonScalar) : Prop :=
  Meet Divided (clean true .schema document) (clean true .schema document')

/-- The bundles are the same up to documentation. -/
def SameSchemas : SchemaBundle → SchemaBundle → Prop := SchemaBundle.Agree SameDocument

/-- Bundles agree in a weaker way as well. -/
theorem SchemaBundle.Agree.mono
    {P Q : JsonTree String JsonScalar → JsonTree String JsonScalar → Prop}
    {baseline candidate : SchemaBundle} (h : SchemaBundle.Agree P baseline candidate)
    (hPQ : ∀ document document', document.WellFormed → P document document' →
      Q document document') : SchemaBundle.Agree Q baseline candidate where
  names := h.names
  documents name document document' hmem hmem' :=
    hPQ document document' (baseline.wellFormed _ hmem)
      (h.documents name document document' hmem hmem')

/-- When the documents of bundles that agree do not agree in another way. -/
theorem someAgree_iff {P Q R : JsonTree String JsonScalar → JsonTree String JsonScalar → Prop}
    {baseline candidate : SchemaBundle} (h : SchemaBundle.Agree P baseline candidate)
    (hQ : ∀ document document', document.WellFormed → P document document' →
      (R document document' ↔ ¬Q document document')) :
    SchemaBundle.SomeAgree R baseline candidate ↔ ¬SchemaBundle.Agree Q baseline candidate := by
  constructor
  · rintro ⟨name, document, document', hmem, hmem', hR⟩ hagree
    have hP := h.documents name document document' hmem hmem'
    exact (hQ document document' (baseline.wellFormed _ hmem) hP).mp hR
      (hagree.documents name document document' hmem hmem')
  · intro hagree
    by_contra hnone
    refine hagree ⟨h.names, fun name document document' hmem hmem' => ?_⟩
    by_contra hdocument
    have hP := h.documents name document document' hmem hmem'
    exact hnone ⟨name, document, document', hmem, hmem',
      (hQ document document' (baseline.wellFormed _ hmem) hP).mpr hdocument⟩

/-- Documents that are the same are close. -/
theorem SameDocument.close {document document' : JsonTree String JsonScalar}
    (h : SameDocument document document') (hdocument : document.WellFormed) :
    CloseDocument document document' :=
  eqWith_mono (eqWith_clean_true hdocument h) fun _ _ hequal =>
    Bool.or_eq_true_iff.mpr (Or.inl hequal)

/-- Documents that are taken for equal are close. -/
theorem AlikeDocument.close {document document' : JsonTree String JsonScalar}
    (h : AlikeDocument document document') : CloseDocument document document' :=
  eqWith_mono h fun _ _ hread => Bool.or_eq_true_iff.mpr (Or.inr hread)

/-- Of close documents, those are not the same that hide a change. -/
theorem hidesChange_iff {document document' : JsonTree String JsonScalar}
    (hdocument : document.WellFormed) (h : CloseDocument document document') :
    HidesChange document document' ↔ ¬SameDocument document document' := by
  have hsame := eqWith_iff_of_eqWith (s := JsonScalar.same) h
  simp only [← confused_iff_close] at hsame
  rw [HidesChange]
  constructor
  · rintro (hmeet | hdiffer) hequal
    · exact hsame.mp (eqWith_clean_true hdocument hequal) hmeet
    · exact Bool.eq_false_iff.mp hdiffer.eqWith_clean_false hequal
  · intro hdocuments
    by_contra hnone
    rw [not_or] at hnone
    exact hdocuments (eqWith_clean_false_of (hsame.mpr hnone.1) hnone.2)

/-- Of close documents, those are not taken for equal that show a change. -/
theorem showsChange_iff {document document' : JsonTree String JsonScalar}
    (h : CloseDocument document document') :
    ShowsChange document document' ↔ ¬AlikeDocument document document' := by
  have halike := eqWith_iff_of_eqWith (s := JsonScalar.readAlike) h
  simp only [← divided_iff_close] at halike
  rw [ShowsChange, AlikeDocument, halike, not_not]

/-- What the script compares of a document. -/
def readDocument (document : JsonTree String JsonScalar) : JsonTree String PyScalar :=
  (clean true .schema document).map JsonScalar.loads

/-- The comparison of the script. -/
theorem eqWith_readDocument_iff {document document' : JsonTree String JsonScalar} :
    eqWith PyScalar.eq (readDocument document) (readDocument document') = true ↔
      AlikeDocument document document' := by
  rw [readDocument, readDocument, eqWith_map]
  rfl

/-- What the script reads of a bundle that is not empty. -/
theorem schemas_eq {directory : SchemaBundle} (h : directory.files ≠ []) :
    Script.schemas directory =
      .ok (directory.files.map fun file => (file.1, readDocument file.2)) := by
  have hfiles : (directory.files.map fun file =>
      (file.1, Script.normalized (file.2.map JsonScalar.loads))) =
      directory.files.map fun file => (file.1, readDocument file.2) := by
    refine List.map_congr_left fun file _ => ?_
    rw [normalized_eq_clean, readDocument, map_clean]
  rw [Script.schemas, hfiles, bailWhen_bind, if_neg (by simpa using h)]
  rfl

/-- What a bundle holds under a name. -/
theorem lookup_readDocument (directory : SchemaBundle) (name : String) :
    (directory.files.map fun file => (file.1, readDocument file.2)).lookup name =
      (directory.files.lookup name).map readDocument :=
  lookup_map_snd readDocument name directory.files

/-- No file of a bundle is missing in another one. -/
theorem forall_isNone_iff (baseline candidate : SchemaBundle) :
    (∀ file ∈ baseline.files, ¬((candidate.files.lookup file.1).map readDocument).isNone = true) ↔
      baseline.files.map Prod.fst ⊆ candidate.files.map Prod.fst := by
  rw [List.subset_def]
  simp only [List.forall_mem_map]
  refine forall₂_congr fun file _ => ?_
  rw [Option.isNone_map, Option.isNone_iff_eq_none, ← ne_eq, Option.ne_none_iff_exists',
    List.mem_map]
  constructor
  · rintro ⟨document, hdocument⟩
    exact ⟨_, (lookup_eq_some_iff_mem candidate.nodup).mp hdocument, rfl⟩
  · rintro ⟨⟨name, document⟩, hmem, rfl⟩
    exact ⟨document, (lookup_eq_some_iff_mem candidate.nodup).mpr hmem⟩

/-- When the script finds no changes. -/
theorem schemaChanges_eq_nil_iff {baseline candidate : SchemaBundle}
    (hbaseline : baseline.files ≠ []) (hcandidate : candidate.files ≠ []) :
    Script.schemaChanges baseline candidate = .ok [] ↔
      SchemaBundle.Agree AlikeDocument baseline candidate := by
  have hsort : ∀ l : List String, l.mergeSort (fun a b => a ≤ b) = [] ↔ l = [] := by
    intro l
    rw [← List.length_eq_zero_iff, List.length_mergeSort, List.length_eq_zero_iff]
  rw [Script.schemaChanges, schemas_eq hbaseline, schemas_eq hcandidate]
  simp only [bind_eq_ok_iff, Except.ok.injEq, exists_eq_left', pure_eq_ok_iff, hsort,
    List.append_eq_nil_iff, List.map_eq_nil_iff, List.filter_eq_nil_iff, List.forall_mem_map,
    lookup_readDocument, forall_isNone_iff]
  constructor
  · rintro ⟨⟨hremoved, hadded⟩, hchanged⟩
    refine ⟨fun name => ⟨fun h => hremoved h, fun h => hadded h⟩,
      fun name document document' hmem hmem' => ?_⟩
    have hequal := hchanged (name, document) hmem
    rw [(lookup_eq_some_iff_mem candidate.nodup).mpr hmem', Option.map_some] at hequal
    rw [← eqWith_readDocument_iff]
    simpa using hequal
  · intro hagree
    refine ⟨⟨fun name => (hagree.names name).mp, fun name => (hagree.names name).mpr⟩,
      fun file hfile => ?_⟩
    cases hlookup : candidate.files.lookup file.1 with
    | none => simp
    | some document' =>
      have hmem := (lookup_eq_some_iff_mem candidate.nodup).mp hlookup
      have halike := hagree.documents _ _ _ hfile hmem
      rw [← eqWith_readDocument_iff] at halike
      simp [halike]

/-- The script finds no changes exactly where there are none if, in bundles of close documents,
changes are hidden exactly if changes are shown. -/
theorem schemaChanges_iff {baseline candidate : SchemaBundle} (hbaseline : baseline.files ≠ [])
    (hcandidate : candidate.files ≠ []) :
    (Script.schemaChanges baseline candidate = .ok [] ↔ SameSchemas baseline candidate) ↔
      (SchemaBundle.Agree CloseDocument baseline candidate →
        (SchemaBundle.SomeAgree HidesChange baseline candidate ↔
          SchemaBundle.SomeAgree ShowsChange baseline candidate)) := by
  rw [schemaChanges_eq_nil_iff hbaseline hcandidate]
  by_cases hclose : SchemaBundle.Agree CloseDocument baseline candidate
  · have hhides : SchemaBundle.SomeAgree HidesChange baseline candidate ↔
        ¬SameSchemas baseline candidate :=
      someAgree_iff hclose fun _ _ hdocument h => hidesChange_iff hdocument h
    have hshows : SchemaBundle.SomeAgree ShowsChange baseline candidate ↔
        ¬SchemaBundle.Agree AlikeDocument baseline candidate :=
      someAgree_iff hclose fun _ _ _ h => showsChange_iff h
    rw [hhides, hshows, not_iff_not, forall_prop_of_true hclose]
    exact Iff.comm
  · have hsame : ¬SameSchemas baseline candidate := fun h =>
      hclose (h.mono fun _ _ hdocument hequal => hequal.close hdocument)
    have halike : ¬SchemaBundle.Agree AlikeDocument baseline candidate := fun h =>
      hclose (h.mono fun _ _ _ hequal => hequal.close)
    exact iff_of_true (iff_of_false halike hsame) fun h => absurd h hclose

/-! ### A constant -/

/-- A bundle with one schema, of one value. -/
def constantBundle (value : JsonScalar) : SchemaBundle where
  files := [("Initialize.json", .object [("const", .scalar value)])]
  nodup := by simp
  wellFormed := by simp [WellFormed, WellFormedMembers]

/-- The script takes the schemas of `true` and of one for equal. -/
theorem schemaChanges_constant :
    Script.schemaChanges (constantBundle (.bool true)) (constantBundle (.number (.integer 1))) =
      .ok [] := by
  rw [schemaChanges_eq_nil_iff (List.cons_ne_nil _ _) (List.cons_ne_nil _ _)]
  refine ⟨fun name => Iff.rfl, fun name document document' hmem hmem' => ?_⟩
  obtain ⟨-, rfl⟩ := Prod.mk.inj (List.mem_singleton.mp hmem)
  obtain ⟨-, rfl⟩ := Prod.mk.inj (List.mem_singleton.mp hmem')
  unfold AlikeDocument
  decide

/-- They are not the same. -/
theorem not_sameSchemas_constant :
    ¬SameSchemas (constantBundle (.bool true)) (constantBundle (.number (.integer 1))) := by
  intro h
  have hsame := h.documents _ _ _ (List.mem_singleton_self _) (List.mem_singleton_self _)
  unfold SameDocument at hsame
  exact absurd hsame (by decide)

/-- The comparison ignores more than documentation. -/
theorem not_schemaChanges_iff_sameSchemas : ¬∀ baseline candidate : SchemaBundle,
    baseline.files ≠ [] → candidate.files ≠ [] →
      (Script.schemaChanges baseline candidate = .ok [] ↔ SameSchemas baseline candidate) := by
  intro hexact
  have hiff := hexact (constantBundle (.bool true)) (constantBundle (.number (.integer 1)))
    (List.cons_ne_nil _ _) (List.cons_ne_nil _ _)
  exact not_sameSchemas_constant (hiff.mp schemaChanges_constant)

/-- A bundle with one schema, of one value with a title. -/
def titledBundle (title : String) : SchemaBundle where
  files := [("Initialize.json",
    .object [("const", .scalar (.bool true)), ("title", .scalar (.string title))])]
  nodup := by simp
  wellFormed := by simp [WellFormed, WellFormedMembers]

/-- The script takes the schemas for equal whatever their titles are. -/
theorem schemaChanges_titled (title title' : String) :
    Script.schemaChanges (titledBundle title) (titledBundle title') = .ok [] := by
  rw [schemaChanges_eq_nil_iff (List.cons_ne_nil _ _) (List.cons_ne_nil _ _)]
  refine ⟨fun name => Iff.rfl, fun name document document' hmem hmem' => ?_⟩
  obtain ⟨-, rfl⟩ := Prod.mk.inj (List.mem_singleton.mp hmem)
  obtain ⟨-, rfl⟩ := Prod.mk.inj (List.mem_singleton.mp hmem')
  rfl

/-- They are the same without documentation. -/
theorem sameSchemas_titled (title title' : String) :
    SameSchemas (titledBundle title) (titledBundle title') := by
  refine ⟨fun name => Iff.rfl, fun name document document' hmem hmem' => ?_⟩
  obtain ⟨-, rfl⟩ := Prod.mk.inj (List.mem_singleton.mp hmem)
  obtain ⟨-, rfl⟩ := Prod.mk.inj (List.mem_singleton.mp hmem')
  rfl

/-- A constant that was `true` is a change that is hidden, and another title is no change. -/
theorem schemaChanges_iff_constant :
    (SchemaBundle.Agree CloseDocument (constantBundle (.bool true))
        (constantBundle (.number (.integer 1))) ∧
      ¬(SchemaBundle.SomeAgree HidesChange (constantBundle (.bool true))
          (constantBundle (.number (.integer 1))) ↔
        SchemaBundle.SomeAgree ShowsChange (constantBundle (.bool true))
          (constantBundle (.number (.integer 1))))) ∧
    SchemaBundle.Agree CloseDocument (titledBundle "Before") (titledBundle "After") ∧
      (SchemaBundle.SomeAgree HidesChange (titledBundle "Before") (titledBundle "After") ↔
        SchemaBundle.SomeAgree ShowsChange (titledBundle "Before") (titledBundle "After")) := by
  have hclose : SchemaBundle.Agree CloseDocument (titledBundle "Before") (titledBundle "After") :=
    (sameSchemas_titled "Before" "After").mono fun _ _ hdocument hequal => hequal.close hdocument
  refine ⟨?_, hclose, ?_⟩
  · have hiff := @schemaChanges_iff (constantBundle (.bool true))
      (constantBundle (.number (.integer 1))) (List.cons_ne_nil _ _) (List.cons_ne_nil _ _)
    rw [← Classical.not_imp, ← hiff]
    exact fun hexact => not_sameSchemas_constant (hexact.mp schemaChanges_constant)
  · have hiff := @schemaChanges_iff (titledBundle "Before") (titledBundle "After")
      (List.cons_ne_nil _ _) (List.cons_ne_nil _ _)
    exact hiff.mp (iff_of_true (schemaChanges_titled _ _) (sameSchemas_titled _ _)) hclose

end Rcodex
