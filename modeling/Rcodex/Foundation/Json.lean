import Mathlib.Data.List.Basic

/-!
# JSON values

The value tree of `serde_json`: numbers are unsigned 64-bit integers, negative 64-bit integers or
finite doubles, and an object is a map kept in increasing key order.  `Map.get`, `Map.insert` and
`Map.remove` are the map operations; `Value.get`, `Value.asStr` and `Value.asU64` are the
accessors that answer `none` on a value of another kind.  `Value.ofMembers` builds an object from
a list of members, one insertion after the other.
-/

namespace Json

/-- A finite IEEE 754 double, given by its bit pattern: the exponent field is not all ones. -/
structure F64 where
  /-- The bit pattern. -/
  bits : UInt64
  /-- Neither an infinity nor a NaN. -/
  finite : (bits >>> 52) &&& 0x7ff ≠ 0x7ff
deriving DecidableEq

/-- Equality of doubles: the two zeros are equal, everything else is compared by its bits. -/
def F64.eq (a b : F64) : Bool :=
  a.bits == b.bits || (a.bits <<< 1 == 0 && b.bits <<< 1 == 0)

/-- A JSON number. A negative integer `-(m + 1)` is stored as `m`. -/
inductive Number where
  | posInt (n : UInt64)
  | negInt (m : Fin 9223372036854775808)
  | float (f : F64)
deriving DecidableEq

/-- Numbers are equal when they are of one kind and have one value. -/
def Number.eq : Number → Number → Bool
  | .posInt a, .posInt b => a == b
  | .negInt a, .negInt b => a == b
  | .float a, .float b => a.eq b
  | _, _ => false

/-- A JSON value. -/
inductive Value where
  | null
  | bool (b : Bool)
  | number (n : Number)
  | string (s : String)
  | array (xs : List Value)
  | object (members : List (String × Value))

/-- An object: its members in increasing key order. -/
abbrev Map := List (String × Value)

section Equality

variable (numberEq : Number → Number → Bool)

mutual

/-- Equality of JSON values up to a given equality of numbers. -/
def Value.eqWith : Value → Value → Bool
  | .null, .null => true
  | .bool a, .bool b => a == b
  | .number a, .number b => numberEq a b
  | .string a, .string b => a == b
  | .array xs, .array ys => Value.eqList xs ys
  | .object m, .object n => Value.eqMembers m n
  | _, _ => false

/-- Equality of arrays, element by element. -/
def Value.eqList : List Value → List Value → Bool
  | [], [] => true
  | x :: xs, y :: ys => Value.eqWith x y && Value.eqList xs ys
  | _, _ => false

/-- Equality of objects, member by member. -/
def Value.eqMembers : List (String × Value) → List (String × Value) → Bool
  | [], [] => true
  | (k, x) :: xs, (l, y) :: ys => k == l && Value.eqWith x y && Value.eqMembers xs ys
  | _, _ => false

end

end Equality

/-- The `==` of JSON values, with numbers compared by `Number.eq`. -/
def Value.eq (v w : Value) : Bool := Value.eqWith Number.eq v w

mutual

/-- With numbers compared as they are, equality is equality. -/
theorem Value.eqWith_beq_iff :
    ∀ v w : Value, Value.eqWith (fun a b => decide (a = b)) v w = true ↔ v = w
  | .null, w => by cases w <;> simp [Value.eqWith]
  | .bool a, w => by cases w <;> simp [Value.eqWith]
  | .number a, w => by cases w <;> simp [Value.eqWith]
  | .string a, w => by cases w <;> simp [Value.eqWith]
  | .array xs, w => by
    cases w with
    | array ys => simp [Value.eqWith, Value.eqList_beq_iff xs ys]
    | _ => simp [Value.eqWith]
  | .object m, w => by
    cases w with
    | object n => simp [Value.eqWith, Value.eqMembers_beq_iff m n]
    | _ => simp [Value.eqWith]

/-- With numbers compared as they are, equality of arrays is equality. -/
theorem Value.eqList_beq_iff :
    ∀ xs ys : List Value, Value.eqList (fun a b => decide (a = b)) xs ys = true ↔ xs = ys
  | [], ys => by cases ys <;> simp [Value.eqList]
  | x :: xs, ys => by
    cases ys with
    | nil => simp [Value.eqList]
    | cons y ys => simp [Value.eqList, Value.eqWith_beq_iff x y, Value.eqList_beq_iff xs ys]

/-- With numbers compared as they are, equality of objects is equality. -/
theorem Value.eqMembers_beq_iff :
    ∀ xs ys : List (String × Value),
      Value.eqMembers (fun a b => decide (a = b)) xs ys = true ↔ xs = ys
  | [], ys => by cases ys <;> simp [Value.eqMembers]
  | (k, x) :: xs, ys => by
    cases ys with
    | nil => simp [Value.eqMembers]
    | cons y ys =>
      obtain ⟨l, y⟩ := y
      simp [Value.eqMembers, Value.eqWith_beq_iff x y, Value.eqMembers_beq_iff xs ys]

end

/-- Induction on a value, with the elements of an array and the members of an object below it. -/
@[elab_as_elim]
theorem Value.nested_induction {motive : Value → Prop} (null : motive .null)
    (bool : ∀ b, motive (.bool b)) (number : ∀ n, motive (.number n))
    (string : ∀ s, motive (.string s))
    (array : ∀ xs, (∀ x ∈ xs, motive x) → motive (.array xs))
    (object : ∀ members, (∀ kv ∈ members, motive kv.2) → motive (.object members)) (v : Value) :
    motive v :=
  @Value.rec motive (fun xs => ∀ x ∈ xs, motive x) (fun members => ∀ kv ∈ members, motive kv.2)
    (fun kv => motive kv.2) null bool number string array object (List.forall_mem_nil _)
    (fun _ _ hx hxs => List.forall_mem_cons.mpr ⟨hx, hxs⟩) (List.forall_mem_nil _)
    (fun _ _ hkv hmembers => List.forall_mem_cons.mpr ⟨hkv, hmembers⟩) (fun _ _ hv => hv) v

instance : DecidableEq Value := fun v w => decidable_of_iff _ (Value.eqWith_beq_iff v w)

/-! ### Maps -/

/-- The value stored under a key. -/
def Map.get (m : Map) (key : String) : Option Value := m.lookup key

/-- Store a value under a key, replacing what the key held. -/
def Map.insert : Map → String → Value → Map
  | [], key, value => [(key, value)]
  | (k, v) :: m, key, value =>
    if key = k then (key, value) :: m
    else if key < k then (key, value) :: (k, v) :: m
    else (k, v) :: Map.insert m key value

/-- Drop a key. -/
def Map.remove (m : Map) (key : String) : Map := m.filter fun kv => kv.1 ≠ key

@[simp] theorem Map.get_nil (key : String) : Map.get [] key = none := rfl

/-- Reading the first member of a map, or reading on. -/
theorem Map.get_cons (k : String) (v : Value) (m : Map) (key : String) :
    Map.get ((k, v) :: m) key = if key = k then some v else Map.get m key := by
  by_cases h : key = k
  · simp [Map.get, h]
  · have hne : (key == k) = false := beq_eq_false_iff_ne.mpr h
    simp [Map.get, List.lookup_cons, hne, h]

/-- A key just stored holds the stored value. -/
@[simp] theorem Map.get_insert_self (m : Map) (key : String) (value : Value) :
    Map.get (Map.insert m key value) key = some value := by
  induction m with
  | nil => simp [Map.insert, Map.get_cons]
  | cons kv m ih =>
    obtain ⟨k, v⟩ := kv
    unfold Map.insert
    split_ifs with h h'
    · simp [Map.get_cons]
    · simp [Map.get_cons]
    · simp [Map.get_cons, h, ih]

/-- Storing under one key leaves the others alone. -/
theorem Map.get_insert_of_ne (m : Map) {key other : String} (value : Value) (hne : other ≠ key) :
    Map.get (Map.insert m key value) other = Map.get m other := by
  induction m with
  | nil => simp [Map.insert, Map.get_cons, hne]
  | cons kv m ih =>
    obtain ⟨k, v⟩ := kv
    unfold Map.insert
    split_ifs with h h'
    · subst h
      simp [Map.get_cons, hne]
    · simp [Map.get_cons, hne]
    · simp [Map.get_cons, ih]

/-! ### Accessors -/

namespace Value

/-- The object with the given members, stored one after the other. -/
def ofMembers (members : List (String × Value)) : Value :=
  .object (members.foldl (fun m kv => Map.insert m kv.1 kv.2) [])

/-- An unsigned 64-bit integer as a JSON number. -/
def ofU64 (n : UInt64) : Value := .number (.posInt n)

/-- The value of a member, if this is an object that has it. -/
def get : Value → String → Option Value
  | .object m, key => Map.get m key
  | _, _ => none

/-- The text of a string. -/
def asStr : Value → Option String
  | .string s => some s
  | _ => none

/-- The value of an unsigned integer. -/
def asU64 : Value → Option UInt64
  | .number (.posInt n) => some n
  | _ => none

/-- The members of an object. -/
def asObject : Value → Option Map
  | .object m => some m
  | _ => none

/-- Whether this is a string. -/
def isString : Value → Bool
  | .string _ => true
  | _ => false

/-- Whether this is a number. -/
def isNumber : Value → Bool
  | .number _ => true
  | _ => false

/-- Whether this is an object. -/
def isObject : Value → Bool
  | .object _ => true
  | _ => false

@[simp] theorem get_object (m : Map) (key : String) : (object m).get key = Map.get m key := rfl

@[simp] theorem asStr_string (s : String) : (string s).asStr = some s := rfl

@[simp] theorem asU64_ofU64 (n : UInt64) : (ofU64 n).asU64 = some n := rfl

@[simp] theorem asObject_object (m : Map) : (object m).asObject = some m := rfl

/-- Only a string has a text. -/
theorem asStr_eq_some_iff {v : Value} {s : String} : v.asStr = some s ↔ v = .string s := by
  cases v <;> simp [asStr]

/-- Only an unsigned integer has an unsigned value. -/
theorem asU64_eq_some_iff {v : Value} {n : UInt64} : v.asU64 = some n ↔ v = .ofU64 n := by
  cases v with
  | number x => cases x <;> simp [asU64, ofU64]
  | _ => simp [asU64, ofU64]

/-- Only an object has members. -/
theorem asObject_eq_some_iff {v : Value} {m : Map} : v.asObject = some m ↔ v = .object m := by
  cases v <;> simp [asObject]

/-- A value with a member is an object. -/
theorem exists_object_of_get {v w : Value} {key : String} (h : v.get key = some w) :
    ∃ m, v = .object m ∧ Map.get m key = some w := by
  cases v with
  | object m => exact ⟨m, rfl, h⟩
  | _ => simp [get] at h

end Value

end Json
