import Rcodex.Foundation.Json
import Mathlib.Data.String.Basic
import Mathlib.Data.List.Nodup

/-!
# Typed values from JSON documents

How `serde` reads structs and tagged enums.  A document is a JSON value with the members of its
objects as they were written, repeated keys included.  A struct is read from an object, whose
members may come in any order, or from an array with one element for each field.

`Value.ofWritten` is the value of a document, where objects are maps: of repeated keys the last one
counts, and the keys are in increasing order (`Map.Sorted`).  A struct that is read from a document
has the same fields in its value (`openFields_ofWritten`).
-/

namespace Json

/-- The values of the fields of a struct with `deny_unknown_fields` and no optional field. -/
def structFields (names : List String) : Value → Option (List Value)
  | .object members =>
    if (∀ kv ∈ members, kv.1 ∈ names) ∧ (members.map Prod.fst).Nodup then
      names.mapM fun name => Map.get members name
    else none
  | .array elements => if elements.length = names.length then some elements else none
  | _ => none

/-- The values of the fields of a struct that ignores other members, `none` where one is missing.
A field must not be repeated. -/
def openFields (names : List String) : Value → Option (List (Option Value))
  | .object members =>
    if ((members.map Prod.fst).filter fun key => key ∈ names).Nodup then
      some (names.map fun name => Map.get members name)
    else none
  | .array elements => if elements.length = names.length then some (elements.map some) else none
  | _ => none

/-- Read an optional field: missing, `null` or a value of its type. -/
def optionalField {α : Type} (read : Value → Option α) : Option Value → Option (Option α)
  | none | some .null => some none
  | some v => (read v).map some

/-- The tag of an internally tagged enum and the document without it. -/
def splitTag (tag : String) : Value → Option (String × Value)
  | .object members =>
    match members.filter fun kv => kv.1 = tag with
    | [(_, .string name)] => some (name, .object (members.filter fun kv => kv.1 ≠ tag))
    | _ => none
  | .array (.string name :: elements) => some (name, .array elements)
  | _ => none

/-- The value of an unsigned 32-bit integer. -/
def Value.asU32 (v : Value) : Option UInt32 :=
  v.asU64.bind fun n => if n.toNat < 2 ^ 32 then some n.toUInt32 else none

/-- The truth value of a boolean. -/
def Value.asBool : Value → Option Bool
  | .bool b => some b
  | _ => none

/-- Read a list. -/
def Value.asListOf {α : Type} (read : Value → Option α) : Value → Option (List α)
  | .array elements => elements.mapM read
  | _ => none

/-- The value of a signed 64-bit integer. -/
def Value.asI64 : Value → Option ℤ
  | .number (.posInt n) => if n.toNat < 2 ^ 63 then some n.toNat else none
  | .number (.negInt m) => some (-(m.val + 1))
  | _ => none

/-- A signed 64-bit integer as a JSON number. -/
def Value.ofI64 (n : Int64) : Value :=
  if h : n.toInt < 0 then .number (.negInt ⟨(-n.toInt - 1).toNat, by
    have hle := n.le_toInt
    omega⟩)
  else .number (.posInt (.ofNat n.toInt.toNat))

/-- Reading inverts writing. -/
theorem Value.asI64_ofI64 (n : Int64) : (Value.ofI64 n).asI64 = some n.toInt := by
  have hlt := n.toInt_lt
  unfold Value.ofI64
  split_ifs with h
  · rw [Value.asI64]
    simp only [Option.some.injEq]
    omega
  · have hnat : (UInt64.ofNat n.toInt.toNat).toNat = n.toInt.toNat := by
      rw [UInt64.toNat_ofNat']
      omega
    rw [Value.asI64, hnat, if_pos (by omega)]
    simp only [Option.some.injEq]
    omega

/-- Different integers are different numbers. -/
theorem Value.ofI64_inj {m n : Int64} (h : Value.ofI64 m = Value.ofI64 n) : m = n := by
  have hread := Value.asI64_ofI64 m
  rw [h, Value.asI64_ofI64] at hread
  exact (Int64.toInt_inj.mp (Option.some.inj hread)).symm

/-! ### The value of a document -/

mutual

/-- The value of a document. -/
def Value.ofWritten : Value → Value
  | .array xs => .array (Value.ofWrittenList xs)
  | .object members => .ofMembers (Value.ofWrittenMembers members)
  | v => v

/-- The values of the elements of an array. -/
def Value.ofWrittenList : List Value → List Value
  | [] => []
  | x :: xs => x.ofWritten :: Value.ofWrittenList xs

/-- The values of the members of an object. -/
def Value.ofWrittenMembers : List (String × Value) → List (String × Value)
  | [] => []
  | (k, v) :: members => (k, v.ofWritten) :: Value.ofWrittenMembers members

end

/-- The values of the members, one by one. -/
theorem Value.ofWrittenMembers_eq_map (members : List (String × Value)) :
    Value.ofWrittenMembers members = members.map fun kv => (kv.1, kv.2.ofWritten) := by
  induction members with
  | nil => rfl
  | cons kv members ih => rw [Value.ofWrittenMembers, ih, List.map_cons]

/-- Only an object is the value of an object. -/
theorem Value.exists_of_ofWritten_eq_object {v : Value} {m : Map} (h : v.ofWritten = .object m) :
    ∃ members, v = .object members ∧
      m = (Value.ofWrittenMembers members).foldl (fun m kv => Map.insert m kv.1 kv.2) [] := by
  cases v with
  | object members =>
    rw [Value.ofWritten, Value.ofMembers] at h
    exact ⟨members, rfl, (Value.object.inj h).symm⟩
  | _ => simp [Value.ofWritten] at h

/-- An optional text can be read from the document or from its value. -/
theorem optionalField_ofWritten (o : Option Value) :
    optionalField Value.asStr (o.map Value.ofWritten) = optionalField Value.asStr o := by
  cases o with
  | none => rfl
  | some v =>
    cases v with
    | null => rfl
    | object members => rfl
    | _ => simp [Value.ofWritten, optionalField, Value.asStr]

/-! ### Maps in increasing key order -/

/-- The keys are in increasing order. -/
def Map.Sorted (m : Map) : Prop := (m.map Prod.fst).Pairwise (· < ·)

/-- The keys after an insertion. -/
theorem Map.mem_keys_insert {m : Map} {key k : String} {value : Value}
    (h : k ∈ (Map.insert m key value).map Prod.fst) : k = key ∨ k ∈ m.map Prod.fst := by
  induction m with
  | nil => exact Or.inl (List.mem_singleton.mp h)
  | cons kv m ih =>
    obtain ⟨k', v⟩ := kv
    rw [Map.insert] at h
    split_ifs at h with heq hlt
    · rcases List.mem_cons.mp h with rfl | h
      · exact Or.inl rfl
      · exact Or.inr (List.mem_cons_of_mem _ h)
    · exact (List.mem_cons.mp h)
    · rcases List.mem_cons.mp h with rfl | h
      · exact Or.inr List.mem_cons_self
      · exact (ih h).imp_right (List.mem_cons_of_mem _)

/-- An insertion keeps the keys in order. -/
theorem Map.Sorted.insert {m : Map} (h : m.Sorted) (key : String) (value : Value) :
    (Map.insert m key value).Sorted := by
  induction m with
  | nil => exact List.pairwise_singleton _ _
  | cons kv m ih =>
    obtain ⟨k, v⟩ := kv
    obtain ⟨hhead, htail⟩ := List.pairwise_cons.mp h
    rw [Map.insert]
    split_ifs with heq hlt
    · subst heq
      exact List.pairwise_cons.mpr ⟨hhead, htail⟩
    · refine List.pairwise_cons.mpr ⟨fun k' hk' => ?_, h⟩
      rcases List.mem_cons.mp hk' with rfl | hk'
      · exact hlt
      · exact hlt.trans (hhead k' hk')
    · refine List.pairwise_cons.mpr ⟨fun k' hk' => ?_, ih htail⟩
      rcases Map.mem_keys_insert hk' with rfl | hk'
      · exact lt_of_le_of_ne (not_lt.mp hlt) (Ne.symm heq)
      · exact hhead k' hk'

/-- Insertions keep the keys in order. -/
theorem Map.Sorted.foldl_insert {m : Map} (h : m.Sorted) (members : List (String × Value)) :
    (members.foldl (fun m kv => Map.insert m kv.1 kv.2) m).Sorted := by
  induction members generalizing m with
  | nil => exact h
  | cons kv members ih => exact ih (h.insert kv.1 kv.2)

/-- The objects of a value are in order. -/
theorem Map.sorted_of_ofWritten {v : Value} {m : Map} (h : v.ofWritten = .object m) :
    m.Sorted := by
  obtain ⟨members, -, rfl⟩ := Value.exists_of_ofWritten_eq_object h
  exact Map.Sorted.foldl_insert (show Map.Sorted [] from List.Pairwise.nil) _

/-- All fields of a map can be read. -/
theorem openFields_of_sorted {m : Map} (h : m.Sorted) (names : List String) :
    openFields names (.object m) = some (names.map fun name => Map.get m name) := by
  have hnodup : (m.map Prod.fst).Nodup := List.Pairwise.imp (fun hlt => hlt.ne) h
  rw [openFields, if_pos (hnodup.filter _)]

/-- What a key that is written at most once holds after the insertions. -/
theorem Map.get_foldl_insert {members : List (String × Value)} {key : String}
    (h : (members.map Prod.fst).count key ≤ 1) (m : Map) :
    Map.get (members.foldl (fun m kv => Map.insert m kv.1 kv.2) m) key =
      (Map.get members key).or (Map.get m key) := by
  induction members generalizing m with
  | nil => rfl
  | cons kv members ih =>
    obtain ⟨k, v⟩ := kv
    rw [List.map_cons, List.count_cons] at h
    rw [List.foldl_cons, ih (by omega), Map.get_cons]
    by_cases hk : key = k
    · subst hk
      have hnone : Map.get members key = none := by
        rw [if_pos (by simp)] at h
        have habsent : key ∉ members.map Prod.fst := List.count_eq_zero.mp (by omega)
        rw [Map.get, List.lookup_eq_none_iff]
        intro kv hkv
        exact bne_iff_ne.mpr fun heq =>
          habsent (List.mem_map.mpr ⟨kv, hkv, heq.symm⟩)
      rw [hnone, if_pos rfl, Map.get_insert_self]
      rfl
    · rw [if_neg hk, Map.get_insert_of_ne m v hk]

/-- Reading after all values were changed. -/
theorem Map.get_map (f : Value → Value) (members : List (String × Value)) (key : String) :
    Map.get (members.map fun kv => (kv.1, f kv.2)) key = (Map.get members key).map f := by
  induction members with
  | nil => rfl
  | cons kv members ih =>
    obtain ⟨k, v⟩ := kv
    rw [List.map_cons, Map.get_cons, Map.get_cons]
    split_ifs
    · rfl
    · exact ih

/-- The value of a document has the fields that are read from the document. -/
theorem openFields_ofWritten {names : List String} {members : List (String × Value)} {m : Map}
    {fields : List (Option Value)} (hvalue : (Value.object members).ofWritten = .object m)
    (hfields : openFields names (.object members) = some fields) :
    openFields names (.object m) = some (fields.map (Option.map Value.ofWritten)) := by
  rw [openFields_of_sorted (Map.sorted_of_ofWritten hvalue)]
  rw [openFields] at hfields
  split_ifs at hfields with hnodup
  obtain rfl := Option.some.inj hfields
  rw [List.map_map]
  refine congrArg some (List.map_congr_left fun name hname => ?_)
  obtain ⟨members', hmembers, rfl⟩ := Value.exists_of_ofWritten_eq_object hvalue
  obtain rfl := Value.object.inj hmembers
  have hcount : ((Value.ofWrittenMembers members).map Prod.fst).count name ≤ 1 := by
    rw [Value.ofWrittenMembers_eq_map, List.map_map]
    have hle := List.nodup_iff_count_le_one.mp hnodup name
    rw [List.count_filter (by simpa using hname)] at hle
    exact hle
  rw [Map.get_foldl_insert hcount, Map.get_nil, Option.or_none, Value.ofWrittenMembers_eq_map,
    Map.get_map]
  rfl

end Json
