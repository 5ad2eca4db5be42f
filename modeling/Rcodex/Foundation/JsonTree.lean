import Mathlib.Data.List.Forall2
import Mathlib.Data.List.Nodup
import Mathlib.Data.List.Perm.Subperm

/-!
# Trees of scalars

A JSON document over any kind of scalars and keys.  `eqWith` compares two trees, the members of
objects in any order and the scalars with a given comparison.  Two comparisons of scalars agree on
trees that are equal for one of them, unless these `Meet` somewhere in scalars on which they differ
(`eqWith_iff_of_eqWith`).
-/

/-- A tree with scalars at its leaves. -/
inductive JsonTree (κ σ : Type) where
  | scalar (value : σ)
  | array (items : List (JsonTree κ σ))
  | object (members : List (κ × JsonTree κ σ))

namespace JsonTree

variable {κ σ τ : Type}

/-- Induction on a tree, with the items of an array and the members of an object below it. -/
@[elab_as_elim]
theorem nested_induction {motive : JsonTree κ σ → Prop} (scalar : ∀ value, motive (.scalar value))
    (array : ∀ items, (∀ t ∈ items, motive t) → motive (.array items))
    (object : ∀ members, (∀ kv ∈ members, motive kv.2) → motive (.object members))
    (t : JsonTree κ σ) : motive t :=
  @JsonTree.rec κ σ motive (fun items => ∀ t ∈ items, motive t)
    (fun members => ∀ kv ∈ members, motive kv.2) (fun kv => motive kv.2) scalar array object
    (List.forall_mem_nil _) (fun _ _ ht hitems => List.forall_mem_cons.mpr ⟨ht, hitems⟩)
    (List.forall_mem_nil _) (fun _ _ hkv hmembers => List.forall_mem_cons.mpr ⟨hkv, hmembers⟩)
    (fun _ _ ht => ht) t

mutual

/-- The tree with other scalars. -/
def map (f : σ → τ) : JsonTree κ σ → JsonTree κ τ
  | .scalar value => .scalar (f value)
  | .array items => .array (mapItems f items)
  | .object members => .object (mapMembers f members)

/-- The items with other scalars. -/
def mapItems (f : σ → τ) : List (JsonTree κ σ) → List (JsonTree κ τ)
  | [] => []
  | t :: items => t.map f :: mapItems f items

/-- The members with other scalars. -/
def mapMembers (f : σ → τ) : List (κ × JsonTree κ σ) → List (κ × JsonTree κ τ)
  | [] => []
  | (key, t) :: members => (key, t.map f) :: mapMembers f members

end

/-- Item by item. -/
theorem mapItems_eq_map (f : σ → τ) (items : List (JsonTree κ σ)) :
    mapItems f items = items.map (map f) := by
  induction items with
  | nil => rfl
  | cons t items ih => rw [mapItems, ih, List.map_cons]

/-- Member by member. -/
theorem mapMembers_eq_map (f : σ → τ) (members : List (κ × JsonTree κ σ)) :
    mapMembers f members = members.map fun kv => (kv.1, kv.2.map f) := by
  induction members with
  | nil => rfl
  | cons kv members ih => rw [mapMembers, ih, List.map_cons]

mutual

/-- No object of the tree has two members with one key. -/
def WellFormed : JsonTree κ σ → Prop
  | .scalar _ => True
  | .array items => WellFormedItems items
  | .object members => (members.map Prod.fst).Nodup ∧ WellFormedMembers members

/-- The same of each item. -/
def WellFormedItems : List (JsonTree κ σ) → Prop
  | [] => True
  | t :: items => t.WellFormed ∧ WellFormedItems items

/-- The same of each member. -/
def WellFormedMembers : List (κ × JsonTree κ σ) → Prop
  | [] => True
  | (_, t) :: members => t.WellFormed ∧ WellFormedMembers members

end

/-- Item by item. -/
theorem wellFormedItems_iff {items : List (JsonTree κ σ)} :
    WellFormedItems items ↔ ∀ t ∈ items, t.WellFormed := by
  induction items with
  | nil => simp [WellFormedItems]
  | cons t items ih => rw [WellFormedItems, ih, List.forall_mem_cons]

/-- Member by member. -/
theorem wellFormedMembers_iff {members : List (κ × JsonTree κ σ)} :
    WellFormedMembers members ↔ ∀ kv ∈ members, kv.2.WellFormed := by
  induction members with
  | nil => simp [WellFormedMembers]
  | cons kv members ih => rw [WellFormedMembers, ih, List.forall_mem_cons]

section Equality

variable [DecidableEq κ] (r : σ → σ → Bool)

mutual

/-- Equality of trees up to a given equality of scalars; the members of objects may be in any
order. -/
def eqWith : JsonTree κ σ → JsonTree κ σ → Bool
  | .scalar x, .scalar y => r x y
  | .array xs, .array ys => eqItems xs ys
  | .object m, .object n => m.length == n.length && eqMembers m n
  | _, _ => false

/-- Equality of arrays, item by item. -/
def eqItems : List (JsonTree κ σ) → List (JsonTree κ σ) → Bool
  | [], [] => true
  | t :: xs, u :: ys => eqWith t u && eqItems xs ys
  | _, _ => false

/-- Each member has an equal one with the same key. -/
def eqMembers : List (κ × JsonTree κ σ) → List (κ × JsonTree κ σ) → Bool
  | [], _ => true
  | (key, t) :: m, n => (match n.lookup key with
    | some u => eqWith t u
    | none => false) && eqMembers m n

end

/-- Equality of arrays, item by item. -/
theorem eqWith_array_iff {xs ys : List (JsonTree κ σ)} :
    eqWith r (.array xs) (.array ys) = true ↔
      List.Forall₂ (fun t u => eqWith r t u = true) xs ys := by
  have hitems : ∀ xs ys : List (JsonTree κ σ), eqItems r xs ys = true ↔
      List.Forall₂ (fun t u => eqWith r t u = true) xs ys := by
    intro xs
    induction xs with
    | nil => intro ys; cases ys <;> simp [eqItems]
    | cons t xs ih => intro ys; cases ys <;> simp [eqItems, ih]
  rw [eqWith, hitems]

/-- Equality of objects, member by member. -/
theorem eqWith_object_iff {m n : List (κ × JsonTree κ σ)} :
    eqWith r (.object m) (.object n) = true ↔ m.length = n.length ∧
      ∀ kv ∈ m, ∃ u, n.lookup kv.1 = some u ∧ eqWith r kv.2 u = true := by
  have hmembers : ∀ m : List (κ × JsonTree κ σ), eqMembers r m n = true ↔
      ∀ kv ∈ m, ∃ u, n.lookup kv.1 = some u ∧ eqWith r kv.2 u = true := by
    intro m
    induction m with
    | nil => simp [eqMembers]
    | cons kv m ih =>
      rw [eqMembers, Bool.and_eq_true, ih, List.forall_mem_cons]
      cases n.lookup kv.1 <;> simp
  rw [eqWith, Bool.and_eq_true, beq_iff_eq, hmembers]

/-- Arrays that are equal after one change of their items are equal after another one if their items
are. -/
theorem eqWith_array_of {r : σ → σ → Bool} {xs ys : List (JsonTree κ σ)}
    {f g : JsonTree κ σ → JsonTree κ σ}
    (h : eqWith r (.array (xs.map f)) (.array (ys.map f)) = true)
    (hg : ∀ t u, (t, u) ∈ xs.zip ys → eqWith r (f t) (f u) = true →
      eqWith r (g t) (g u) = true) :
    eqWith r (.array (xs.map g)) (.array (ys.map g)) = true := by
  rw [eqWith_array_iff, List.forall₂_map_left_iff, List.forall₂_map_right_iff,
    List.forall₂_iff_zip] at h ⊢
  exact ⟨h.1, fun hmem => hg _ _ hmem (h.2 hmem)⟩

/-- Whether a tree is a scalar, an array or an object. -/
def kind : JsonTree κ σ → ℕ
  | .scalar _ => 0
  | .array _ => 1
  | .object _ => 2

/-- Equal trees are of one kind. -/
theorem kind_eq_of_eqWith {r : σ → σ → Bool} {t u : JsonTree κ σ} (h : eqWith r t u = true) :
    t.kind = u.kind := by
  cases t <;> cases u <;> first | rfl | contradiction

/-- What a key holds after all values were changed. -/
theorem lookup_map_snd {α β : Type} (f : α → β) (key : κ) (entries : List (κ × α)) :
    (entries.map fun entry => (entry.1, f entry.2)).lookup key = (entries.lookup key).map f := by
  induction entries with
  | nil => rfl
  | cons entry entries ih =>
    rw [List.map_cons, List.lookup_cons, List.lookup_cons]
    cases key == entry.1
    · exact ih
    · rfl

/-- What a key holds that is the key of one entry. -/
theorem lookup_eq_some_iff_mem {α : Type} {entries : List (κ × α)}
    (h : (entries.map Prod.fst).Nodup) {key : κ} {a : α} :
    entries.lookup key = some a ↔ (key, a) ∈ entries := by
  induction entries with
  | nil => simp
  | cons entry entries ih =>
    obtain ⟨hnew, hnodup⟩ := List.nodup_cons.mp h
    rw [List.lookup_cons, List.mem_cons, ← ih hnodup]
    by_cases hkey : key = entry.1
    · subst hkey
      have hnone : entries.lookup entry.1 = none := by
        rw [List.lookup_eq_none_iff]
        intro other hother
        exact bne_iff_ne.mpr fun heq => hnew (heq ▸ List.mem_map_of_mem hother)
      simp [hnone, Prod.ext_iff, eq_comm]
    · have hne : (key == entry.1) = false := beq_eq_false_iff_ne.mpr hkey
      simp [hne, Prod.ext_iff, hkey]

variable (f : τ → σ)

mutual

/-- Trees with other scalars are compared by the images of their scalars. -/
theorem eqWith_map :
    ∀ t u : JsonTree κ τ, eqWith r (t.map f) (u.map f) = eqWith (fun x y => r (f x) (f y)) t u
  | .scalar _, u => by cases u <;> rfl
  | .array xs, u => by
    cases u with
    | array ys => exact eqItems_map xs ys
    | _ => rfl
  | .object m, u => by
    cases u with
    | object n =>
      rw [map, map, eqWith, eqWith, eqMembers_map m n, mapMembers_eq_map, mapMembers_eq_map,
        List.length_map, List.length_map]
    | _ => rfl

/-- The same for arrays. -/
theorem eqItems_map : ∀ xs ys : List (JsonTree κ τ),
    eqItems r (mapItems f xs) (mapItems f ys) = eqItems (fun x y => r (f x) (f y)) xs ys
  | [], ys => by cases ys <;> rfl
  | t :: xs, ys => by
    cases ys with
    | nil => rfl
    | cons u ys => rw [mapItems, mapItems, eqItems, eqItems, eqWith_map t u, eqItems_map xs ys]

/-- The same for objects. -/
theorem eqMembers_map : ∀ m n : List (κ × JsonTree κ τ),
    eqMembers r (mapMembers f m) (mapMembers f n) = eqMembers (fun x y => r (f x) (f y)) m n
  | [], _ => rfl
  | (key, t) :: m, n => by
    rw [mapMembers, eqMembers, eqMembers, eqMembers_map m n, mapMembers_eq_map,
      lookup_map_snd]
    cases n.lookup key with
    | none => rfl
    | some u =>
      change (eqWith r (t.map f) (u.map f) && _) = _
      rw [eqWith_map t u]

end

end Equality

/-! ### Changing the members of objects -/

section Reshape

variable [DecidableEq κ]

/-- The members whose keys are kept, with other values. -/
def reshape (keep : κ → Bool) (f : κ → JsonTree κ σ → JsonTree κ σ)
    (members : List (κ × JsonTree κ σ)) : List (κ × JsonTree κ σ) :=
  (members.filter fun kv => keep kv.1).map fun kv => (kv.1, f kv.1 kv.2)

variable {keep : κ → Bool} {f : κ → JsonTree κ σ → JsonTree κ σ}

/-- What a key that is kept holds afterwards. -/
theorem lookup_reshape {key : κ} (h : keep key = true) (members : List (κ × JsonTree κ σ)) :
    (reshape keep f members).lookup key = (members.lookup key).map (f key) := by
  induction members with
  | nil => rfl
  | cons kv members ih =>
    obtain ⟨k, t⟩ := kv
    rw [List.lookup_cons]
    by_cases hk : key = k
    · subst hk
      rw [reshape, List.filter_cons, if_pos h, List.map_cons, List.lookup_cons, beq_self_eq_true]
      rfl
    · have hne : (key == k) = false := beq_eq_false_iff_ne.mpr hk
      rw [hne, ← ih, reshape, List.filter_cons]
      split_ifs
      · rw [List.map_cons, List.lookup_cons, hne]
        rfl
      · rfl

omit [DecidableEq κ] in
/-- Members may be changed before or after their scalars. -/
theorem mapMembers_reshape {h : σ → τ} {g : κ → JsonTree κ τ → JsonTree κ τ}
    {members : List (κ × JsonTree κ σ)}
    (hg : ∀ kv ∈ members, (f kv.1 kv.2).map h = g kv.1 (kv.2.map h)) :
    mapMembers h (reshape keep f members) = reshape keep g (mapMembers h members) := by
  rw [mapMembers_eq_map, mapMembers_eq_map, reshape, reshape, List.map_map, List.filter_map,
    List.map_map]
  exact List.map_congr_left fun kv hkv => Prod.ext rfl (hg kv (List.mem_filter.mp hkv).1)

/-- Equal objects have the same keys. -/
theorem perm_keys_of_eqWith {r : σ → σ → Bool} {m n : List (κ × JsonTree κ σ)}
    (hm : (m.map Prod.fst).Nodup) (h : eqWith r (.object m) (.object n) = true) :
    (m.map Prod.fst).Perm (n.map Prod.fst) := by
  obtain ⟨hlength, hall⟩ := (eqWith_object_iff r).mp h
  have hsubset : m.map Prod.fst ⊆ n.map Prod.fst := by
    intro key hkey
    obtain ⟨kv, hkv, rfl⟩ := List.mem_map.mp hkey
    obtain ⟨u, hu, -⟩ := hall kv hkv
    obtain ⟨before, after, rfl, -⟩ := List.lookup_eq_some_iff.mp hu
    simp
  have hkeys : (n.map Prod.fst).length = (m.map Prod.fst).length := by
    rw [List.length_map, List.length_map, hlength]
  exact (hm.subperm hsubset).perm_of_length_le (Nat.le_of_eq hkeys)

omit [DecidableEq κ] in
/-- Two ways to change the members keep the same keys. -/
theorem length_reshape (g : κ → JsonTree κ σ → JsonTree κ σ) (members : List (κ × JsonTree κ σ)) :
    (reshape keep f members).length = (reshape keep g members).length := by
  rw [reshape, reshape, List.length_map, List.length_map]

/-- Objects that are equal after one change are equal after another one if their values are. -/
theorem eqWith_reshape_of {r : σ → σ → Bool} {m n : List (κ × JsonTree κ σ)}
    {g : κ → JsonTree κ σ → JsonTree κ σ}
    (h : eqWith r (.object (reshape keep f m)) (.object (reshape keep f n)) = true)
    (hg : ∀ kv ∈ m, ∀ u, keep kv.1 = true → n.lookup kv.1 = some u →
      eqWith r (f kv.1 kv.2) (f kv.1 u) = true → eqWith r (g kv.1 kv.2) (g kv.1 u) = true) :
    eqWith r (.object (reshape keep g m)) (.object (reshape keep g n)) = true := by
  obtain ⟨hlength, hall⟩ := (eqWith_object_iff r).mp h
  rw [eqWith_object_iff, length_reshape f m, length_reshape f n]
  refine ⟨hlength, fun kv hkv => ?_⟩
  obtain ⟨kv, hmem, rfl⟩ := List.mem_map.mp hkv
  have hkeep := (List.mem_filter.mp hmem).2
  obtain ⟨u', hu', heq⟩ := hall (kv.1, f kv.1 kv.2) (List.mem_map.mpr ⟨kv, hmem, rfl⟩)
  rw [lookup_reshape hkeep] at hu'
  obtain ⟨u, hu, rfl⟩ := Option.map_eq_some_iff.mp hu'
  exact ⟨g kv.1 u, by rw [lookup_reshape hkeep, hu, Option.map_some],
    hg kv (List.mem_filter.mp hmem).1 u hkeep hu heq⟩

/-- Objects that are equal after a change have equal values where a key is kept. -/
theorem eqWith_of_eqWith_reshape {r : σ → σ → Bool} {m n : List (κ × JsonTree κ σ)}
    (h : eqWith r (.object (reshape keep f m)) (.object (reshape keep f n)) = true) {key : κ}
    {t u : JsonTree κ σ} (hkeep : keep key = true) (hmem : (key, t) ∈ m)
    (hlookup : n.lookup key = some u) : eqWith r (f key t) (f key u) = true := by
  obtain ⟨-, hall⟩ := (eqWith_object_iff r).mp h
  have hmember : (key, f key t) ∈ reshape keep f m :=
    List.mem_map.mpr ⟨(key, t), List.mem_filter.mpr ⟨hmem, hkeep⟩, rfl⟩
  obtain ⟨u', hu', heq⟩ := hall _ hmember
  rw [lookup_reshape hkeep, hlookup, Option.map_some] at hu'
  rwa [← Option.some.inj hu'] at heq

/-- Equal objects stay equal if equal values do. -/
theorem eqWith_reshape {r : σ → σ → Bool} {m n : List (κ × JsonTree κ σ)}
    (hm : (m.map Prod.fst).Nodup) (h : eqWith r (.object m) (.object n) = true)
    (hf : ∀ kv ∈ m, ∀ u, eqWith r kv.2 u = true →
      eqWith r (f kv.1 kv.2) (f kv.1 u) = true) :
    eqWith r (.object (reshape keep f m)) (.object (reshape keep f n)) = true := by
  have hkeys : ∀ l : List (κ × JsonTree κ σ),
      (reshape keep f l).length = (l.map Prod.fst).countP keep := by
    intro l
    rw [reshape, List.length_map, ← List.countP_eq_length_filter, List.countP_map]
    rfl
  obtain ⟨-, hall⟩ := (eqWith_object_iff r).mp h
  rw [eqWith_object_iff, hkeys, hkeys, (perm_keys_of_eqWith hm h).countP_eq]
  refine ⟨rfl, fun kv hkv => ?_⟩
  obtain ⟨kv, hmem, rfl⟩ := List.mem_map.mp hkv
  obtain ⟨hmem, hkeep⟩ := List.mem_filter.mp hmem
  obtain ⟨u, hu, heq⟩ := hall kv hmem
  exact ⟨f kv.1 u, by rw [lookup_reshape hkeep, hu, Option.map_some], hf kv hmem u heq⟩

end Reshape

/-! ### Scalars at the same place -/

/-- At the same place of the two trees there are scalars with this relation. -/
inductive Meet [DecidableEq κ] (q : σ → σ → Prop) : JsonTree κ σ → JsonTree κ σ → Prop
  | scalar {x y : σ} : q x y → Meet q (.scalar x) (.scalar y)
  | array {xs ys : List (JsonTree κ σ)} {t u : JsonTree κ σ} :
    (t, u) ∈ xs.zip ys → Meet q t u → Meet q (.array xs) (.array ys)
  | object {m n : List (κ × JsonTree κ σ)} {key : κ} {t u : JsonTree κ σ} :
    (key, t) ∈ m → n.lookup key = some u → Meet q t u → Meet q (.object m) (.object n)

/-- There are such scalars then. -/
theorem Meet.exists_scalars [DecidableEq κ] {q : σ → σ → Prop} {t u : JsonTree κ σ}
    (h : Meet q t u) : ∃ x y, q x y := by
  induction h with
  | scalar hxy => exact ⟨_, _, hxy⟩
  | array _ _ ih => exact ih
  | object _ _ _ ih => exact ih

/-- Of two comparisons of scalars one may be replaced by the other unless they differ somewhere. -/
theorem eqWith_iff_of_eqWith [DecidableEq κ] {r s : σ → σ → Bool} {t u : JsonTree κ σ}
    (h : eqWith r t u = true) :
    eqWith s t u = true ↔ ¬Meet (fun x y => r x y = true ∧ s x y = false) t u := by
  induction t using nested_induction generalizing u with
  | scalar x =>
    cases u with
    | scalar y =>
      rw [eqWith, ← Bool.not_eq_false, not_iff_not]
      refine ⟨fun hs => .scalar ⟨h, hs⟩, fun hmeet => ?_⟩
      cases hmeet with
      | scalar hxy => exact hxy.2
    | _ => contradiction
  | array xs ih =>
    cases u with
    | array ys =>
      rw [eqWith_array_iff, List.forall₂_iff_zip] at h ⊢
      constructor
      · rintro ⟨-, hall⟩ hmeet
        cases hmeet with
        | array hmem hmeet =>
          exact (ih _ (List.of_mem_zip hmem).1 (h.2 hmem)).mp (hall hmem) hmeet
      · intro hmeet
        refine ⟨h.1, fun hmem => ?_⟩
        exact (ih _ (List.of_mem_zip hmem).1 (h.2 hmem)).mpr fun hitem => hmeet (.array hmem hitem)
    | _ => contradiction
  | object m ih =>
    cases u with
    | object n =>
      rw [eqWith_object_iff] at h ⊢
      constructor
      · rintro ⟨-, hall⟩ hmeet
        cases hmeet with
        | object hmem hlookup hmeet =>
          obtain ⟨u, hu, hr⟩ := h.2 _ hmem
          obtain ⟨u', hu', hs⟩ := hall _ hmem
          obtain rfl := Option.some.inj (hu.symm.trans hlookup)
          obtain rfl := Option.some.inj (hu.symm.trans hu')
          exact (ih _ hmem hr).mp hs hmeet
      · intro hmeet
        refine ⟨h.1, fun kv hmem => ?_⟩
        obtain ⟨u, hu, hr⟩ := h.2 kv hmem
        exact ⟨u, hu, (ih kv hmem hr).mpr fun hmember => hmeet (.object hmem hu hmember)⟩
    | _ => contradiction

/-- Equal trees are equal for a comparison that takes more scalars for equal. -/
theorem eqWith_mono [DecidableEq κ] {r s : σ → σ → Bool} {t u : JsonTree κ σ}
    (h : eqWith r t u = true) (hrs : ∀ x y, r x y = true → s x y = true) :
    eqWith s t u = true := by
  refine (eqWith_iff_of_eqWith h).mpr fun hmeet => ?_
  obtain ⟨x, y, hr, hs⟩ := hmeet.exists_scalars
  exact Bool.eq_false_iff.mp hs (hrs x y hr)

end JsonTree
