import Mathlib.Data.List.AList
import Mathlib.Algebra.BigOperators.Group.List.Basic
import Mathlib.Algebra.GroupWithZero.Nat

/-!
# Tables of weighted entries

Lemmas on association lists without duplicate keys, as a model of a hash map whose order nobody
reads: what a lookup answers after an insertion or a removal, the number of entries, and the total
weight of the entries under a weight function.
-/

namespace Table

variable {α β : Type*}

/-- A table from keys to entries. -/
abbrev Of (α β : Type*) := AList fun _ : α => β

/-- The number of entries. -/
def size (t : Of α β) : ℕ := t.keys.length

/-- The total weight of the entries. -/
def total (w : β → ℕ) (t : Of α β) : ℕ := (t.entries.map fun e => w e.2).sum

@[simp] theorem size_empty : size (∅ : Of α β) = 0 := rfl

@[simp] theorem total_empty (w : β → ℕ) : total w (∅ : Of α β) = 0 := rfl

variable [DecidableEq α]

/-- What is found after an insertion. -/
theorem lookup_insert_eq_some_iff {t : Of α β} {a k : α} {b e : β} :
    (t.insert a b).lookup k = some e ↔ k = a ∧ e = b ∨ k ≠ a ∧ t.lookup k = some e := by
  by_cases h : k = a
  · subst h
    simp [eq_comm]
  · simp [AList.lookup_insert_ne h, h]

/-- What is found after a removal. -/
theorem lookup_erase_eq_some_iff {t : Of α β} {a k : α} {e : β} :
    (t.erase a).lookup k = some e ↔ k ≠ a ∧ t.lookup k = some e := by
  by_cases h : k = a
  · subst h
    simp
  · simp [AList.lookup_erase_ne h, h]

/-- Removing a key that is not there changes nothing. -/
theorem erase_of_lookup_eq_none {t : Of α β} {a : α} (h : t.lookup a = none) : t.erase a = t := by
  apply AList.ext
  exact List.kerase_of_notMem_keys (AList.lookup_eq_none.mp h)

/-- Removing a key just inserted is removing it. -/
theorem erase_insert (t : Of α β) (a : α) (b : β) : (t.insert a b).erase a = t.erase a := by
  apply AList.ext
  change (List.kinsert a b t.entries).kerase a = t.entries.kerase a
  rw [List.kinsert_def]
  exact List.kerase_cons_eq rfl

/-- A new key adds one entry. -/
theorem size_insert_of_lookup_eq_none {t : Of α β} {a : α} (h : t.lookup a = none) (b : β) :
    size (t.insert a b) = size t + 1 := by
  have hmem : a ∉ t.keys := fun hk => AList.lookup_eq_none.mp h (AList.mem_keys.mpr hk)
  rw [size, AList.keys_insert, List.erase_of_not_mem hmem, List.length_cons, size]

/-- Replacing an entry keeps the number of entries. -/
theorem size_insert_of_lookup_eq_some {t : Of α β} {a : α} {e : β} (h : t.lookup a = some e)
    (b : β) : size (t.insert a b) = size t := by
  have hmem : a ∈ t.keys := by
    rw [← AList.mem_keys, ← AList.lookup_isSome, h]
    rfl
  have hpos : 0 < t.keys.length := List.length_pos_of_mem hmem
  rw [size, AList.keys_insert, List.length_cons, List.length_erase_of_mem hmem, size]
  omega

/-- A removal adds no entry. -/
theorem size_erase_le (t : Of α β) (a : α) : size (t.erase a) ≤ size t := by
  rw [size, AList.keys_erase]
  exact List.length_erase_le

/-- A table whose entries are all found in a list of keys has at most as many entries. -/
theorem size_le_of_keys_subset {t : Of α β} {l : List α} (h : ∀ k e, t.lookup k = some e → k ∈ l) :
    size t ≤ l.length := by
  refine (List.subperm_of_subset t.keys_nodup fun k hk => ?_).length_le
  obtain ⟨e, he⟩ := Option.isSome_iff_exists.mp (AList.lookup_isSome.mpr (AList.mem_keys.mpr hk))
  exact h k e he

/-- A table without an entry is empty. -/
theorem eq_empty_of_lookup_eq_none {t : Of α β} (h : ∀ k, t.lookup k = none) : t = ∅ := by
  have hkeys : t.keys = [] := by
    rw [List.eq_nil_iff_forall_not_mem]
    exact fun k hk => AList.lookup_eq_none.mp (h k) (AList.mem_keys.mpr hk)
  apply AList.ext
  simpa [AList.keys, List.keys] using hkeys

/-- The weights of a list of entries: one entry and the others. -/
private theorem sum_eq_add_kerase (w : β → ℕ) {l : List (Sigma fun _ : α => β)} {a : α} {b : β}
    (h : l.dlookup a = some b) :
    (l.map fun e => w e.2).sum = w b + ((l.kerase a).map fun e => w e.2).sum := by
  induction l with
  | nil => simp at h
  | cons e l ih =>
    obtain ⟨k, e⟩ := e
    by_cases hk : a = k
    · subst hk
      have he : e = b := by simpa using h
      simp [List.kerase_cons_eq, he]
    · rw [List.dlookup_cons_ne l ⟨k, e⟩ hk] at h
      rw [List.kerase_cons_ne hk]
      simp only [List.map_cons, List.sum_cons, ih h]
      omega

/-- The total is the weight of one entry and the total of the others. -/
theorem total_eq_add_erase {t : Of α β} {a : α} {b : β} (w : β → ℕ) (h : t.lookup a = some b) :
    total w t = w b + total w (t.erase a) :=
  sum_eq_add_kerase w h

/-- One entry weighs at most the total. -/
theorem weight_le_total {t : Of α β} {a : α} {b : β} (w : β → ℕ) (h : t.lookup a = some b) :
    w b ≤ total w t := by
  rw [total_eq_add_erase w h]
  exact Nat.le_add_right _ _

/-- The total after an insertion. -/
theorem total_insert (w : β → ℕ) (t : Of α β) (a : α) (b : β) :
    total w (t.insert a b) = w b + total w (t.erase a) := by
  rw [total, AList.entries_insert, List.map_cons, List.sum_cons]
  rfl

/-- If every entry weighs at most as much as some element of a list that has its key, the table
weighs at most as much as the list. -/
theorem total_le_sum {γ : Type*} (w : β → ℕ) (key : γ → α) (bound : γ → ℕ) {l : List γ}
    {t : Of α β} (h : ∀ k e, t.lookup k = some e → ∃ c ∈ l, key c = k ∧ w e ≤ bound c) :
    total w t ≤ (l.map bound).sum := by
  induction l generalizing t with
  | nil =>
    have hempty : t = ∅ := by
      refine eq_empty_of_lookup_eq_none fun k => Option.eq_none_iff_forall_not_mem.mpr ?_
      intro e he
      obtain ⟨c, hc, -⟩ := h k e he
      simp at hc
    simp [hempty]
  | cons c l ih =>
    rw [List.map_cons, List.sum_cons]
    -- the entry under the key of the first element may belong to a later one with the same key
    have hothers : ∀ k e, k ≠ key c → t.lookup k = some e →
        ∃ d ∈ l, key d = k ∧ w e ≤ bound d := by
      intro k e hne he
      obtain ⟨d, hd, hk, hle⟩ := h k e he
      rcases List.mem_cons.mp hd with rfl | hd
      · exact absurd hk.symm hne
      · exact ⟨d, hd, hk, hle⟩
    cases hlookup : t.lookup (key c) with
    | none =>
      refine (ih fun k e he => hothers k e ?_ he).trans (Nat.le_add_left _ _)
      rintro rfl
      rw [hlookup] at he
      simp at he
    | some e =>
      obtain ⟨d, hd, hk, hle⟩ := h _ _ hlookup
      rcases List.mem_cons.mp hd with rfl | hd
      · rw [total_eq_add_erase w hlookup]
        refine Nat.add_le_add hle (ih fun k e he => ?_)
        obtain ⟨hne, he⟩ := lookup_erase_eq_some_iff.mp he
        exact hothers k e hne he
      · refine (ih fun k e' he => ?_).trans (Nat.le_add_left _ _)
        by_cases hne : k = key c
        · subst hne
          rw [hlookup] at he
          cases he
          exact ⟨d, hd, hk, hle⟩
        · exact hothers k e' hne he

end Table
