import Mathlib.Data.List.Forall2
import Mathlib.Data.List.Nodup

/-!
# Grouping by a key

`groupBy key l` lists the elements of `l` by their keys, the groups in the order in which their keys
first occur.  Blocks of elements with one key each, no two of them with the same key, are
recovered from their concatenation (`groupBy_flatten`).  `mapM_eq_some_iff` says when a reader that
may fail reads every element of a list.
-/

namespace Grouping

variable {α κ : Type*}

/-- A nonempty list whose elements have one key. -/
def IsBlock (key : α → κ) (k : κ) (block : List α) : Prop :=
  block ≠ [] ∧ ∀ a ∈ block, key a = k

/-- The keys of blocks are the keys of their elements. -/
theorem key_mem_of_mem_flatten {key : α → κ} {ks : List κ} {blocks : List (List α)}
    (h : List.Forall₂ (IsBlock key) ks blocks) {a : α} (ha : a ∈ blocks.flatten) :
    key a ∈ ks := by
  induction h with
  | nil => simp at ha
  | cons hblock _ ih =>
    rw [List.flatten_cons, List.mem_append] at ha
    rcases ha with ha | ha
    · rw [hblock.2 a ha]
      exact List.mem_cons_self
    · exact List.mem_cons_of_mem _ (ih ha)

variable [DecidableEq κ]

/-- The elements of a list by their keys. -/
def groupBy (key : α → κ) (l : List α) : List (List α) :=
  (l.map key).eraseDups.map fun k => l.filter fun a => key a = k

section OneBlock

variable {key : α → κ} {k : κ} {block : List α}

/-- The keys of a block and of what follows it. -/
theorem IsBlock.eraseDups_append (h : IsBlock key k block) {ks : List κ} (hk : k ∉ ks) :
    (block.map key ++ ks).eraseDups = k :: ks.eraseDups := by
  obtain ⟨hne, hkey⟩ := h
  obtain ⟨a, block, rfl⟩ := List.exists_cons_of_ne_nil hne
  have hblock : (block.map key).filter (fun k' => !k' == k) = [] := by
    refine List.filter_eq_nil_iff.mpr fun k' hk' => ?_
    obtain ⟨b, hb, rfl⟩ := List.mem_map.mp hk'
    simp [hkey b (List.mem_cons_of_mem _ hb)]
  have hrest : ks.filter (fun k' => !k' == k) = ks := by
    refine List.filter_eq_self.mpr fun k' hk' => ?_
    have hne' : k' ≠ k := fun heq => hk (heq ▸ hk')
    simp [hne']
  rw [List.map_cons, hkey a List.mem_cons_self, List.cons_append, List.eraseDups_cons,
    List.filter_append, hblock, hrest, List.nil_append]

/-- The elements with the key of a block are the block. -/
theorem IsBlock.filter_eq_self (h : IsBlock key k block) :
    (block.filter fun a => key a = k) = block :=
  List.filter_eq_self.mpr fun a ha => decide_eq_true (h.2 a ha)

/-- There are no elements with another key in a block. -/
theorem IsBlock.filter_eq_nil (h : IsBlock key k block) {k' : κ} (hne : k ≠ k') :
    (block.filter fun a => key a = k') = [] := by
  refine List.filter_eq_nil_iff.mpr fun a ha => ?_
  rw [h.2 a ha]
  simpa using hne

end OneBlock

/-- Blocks with different keys are the groups of their concatenation. -/
theorem groupBy_flatten {key : α → κ} {ks : List κ} {blocks : List (List α)}
    (h : List.Forall₂ (IsBlock key) ks blocks) (hnodup : ks.Nodup) :
    groupBy key blocks.flatten = blocks := by
  induction h with
  | nil => rfl
  | @cons k block ks blocks hblock hblocks ih =>
    obtain ⟨hk, hnodup⟩ := List.nodup_cons.mp hnodup
    have hrest : ∀ a ∈ blocks.flatten, key a ≠ k := by
      intro a ha heq
      exact hk (heq ▸ key_mem_of_mem_flatten hblocks ha)
    have hkeys : k ∉ blocks.flatten.map key := by
      intro hmem
      obtain ⟨a, ha, heq⟩ := List.mem_map.mp hmem
      exact hrest a ha heq
    have hfirst : (blocks.flatten.filter fun a => key a = k) = [] := by
      refine List.filter_eq_nil_iff.mpr fun a ha => ?_
      simpa using hrest a ha
    rw [groupBy, List.flatten_cons, List.map_append, hblock.eraseDups_append hkeys, List.map_cons,
      List.filter_append, hblock.filter_eq_self, hfirst, List.append_nil]
    congr 1
    -- the groups of the other keys have no element in the first block
    refine Eq.trans (List.map_congr_left fun k' hk' => ?_) (ih hnodup)
    have hne : k ≠ k' := by
      rintro rfl
      exact hkeys (List.mem_eraseDups.mp hk')
    rw [List.filter_append, hblock.filter_eq_nil hne, List.nil_append]

/-! ### Reading every element -/

section Reading

variable {β : Type*} {f : α → Option β}

/-- A list is read when each of its elements is. -/
theorem mapM_eq_some_iff {l : List α} {l' : List β} :
    l.mapM f = some l' ↔ l.map f = l'.map some := by
  induction l generalizing l' with
  | nil => cases l' <;> simp
  | cons a l ih =>
    rw [List.mapM_cons, List.map_cons]
    constructor
    · intro h
      obtain ⟨b, hb, h⟩ := Option.bind_eq_some_iff.mp h
      obtain ⟨bs, hbs, h⟩ := Option.bind_eq_some_iff.mp h
      obtain rfl : b :: bs = l' := Option.some.inj h
      rw [hb, ih.mp hbs, List.map_cons]
    · intro h
      obtain ⟨b, bs, rfl⟩ : ∃ b bs, l' = b :: bs := by
        apply List.exists_cons_of_ne_nil
        rintro rfl
        simp at h
      rw [List.map_cons, List.cons.injEq] at h
      rw [h.1, ih.mpr h.2]
      rfl

/-- The elements of a list at consecutive positions are the list. -/
theorem mapM_range_eq_some {f : ℕ → Option β} {l : List β}
    (h : ∀ i (hi : i < l.length), f i = some l[i]) : (List.range l.length).mapM f = some l := by
  refine mapM_eq_some_iff.mpr (List.ext_getElem (by simp) fun i hi hi' => ?_)
  have hlt : i < l.length := by simpa using hi
  simpa using h i hlt

end Reading

end Grouping
