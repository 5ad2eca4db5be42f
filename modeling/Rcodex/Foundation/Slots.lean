import Mathlib.Algebra.Order.Floor.Div
import Mathlib.Algebra.BigOperators.Group.List.Basic

/-!
# Pieces of a list and arrays of slots

`chunksOf n l` cuts a list into pieces of `n` elements, the last one possibly shorter; gluing the
pieces gives the list back (`flatten_chunksOf`).  `pieces n k` is the number of pieces that come out
when `n` elements are cut into `k` pieces of equal size, rounded up: it can be less than `k`.  A
slot array holds the pieces received so far, one optional piece a position: `weight` is the number
of elements it holds and `contents` the concatenation of its pieces in the order of the positions.
-/

namespace Slots

variable {α : Type*}

/-! ### Cutting -/

/-- The consecutive pieces of `n` elements of a list; the last one may be shorter. -/
def chunksOf (n : ℕ) (l : List α) : List (List α) :=
  (List.range (l.length ⌈/⌉ n)).map fun i => (l.drop (i * n)).take n

/-- The number of pieces is the length over the piece size, rounded up. -/
@[simp] theorem length_chunksOf (n : ℕ) (l : List α) :
    (chunksOf n l).length = l.length ⌈/⌉ n := by
  simp [chunksOf]

/-- The first `k` pieces are the first `k * n` elements. -/
theorem flatten_map_take_drop (n k : ℕ) (l : List α) :
    ((List.range k).map fun i => (l.drop (i * n)).take n).flatten = l.take (k * n) := by
  induction k with
  | zero => simp
  | succ k ih =>
    rw [List.range_succ, List.map_append, List.flatten_append, ih, Nat.succ_mul, List.take_add]
    simp

/-- Gluing the pieces of a list gives the list back. -/
theorem flatten_chunksOf {n : ℕ} (hn : 0 < n) (l : List α) : (chunksOf n l).flatten = l := by
  have hlen : l.length ≤ l.length ⌈/⌉ n * n := by
    rw [Nat.mul_comm]
    exact (ceilDiv_le_iff_le_mul hn).mp le_rfl
  rw [chunksOf, flatten_map_take_drop, List.take_of_length_le hlen]

/-- No piece is empty. -/
theorem ne_nil_of_mem_chunksOf {n : ℕ} (hn : 0 < n) {l c : List α} (hc : c ∈ chunksOf n l) :
    c ≠ [] := by
  obtain ⟨i, hi, rfl⟩ := List.mem_map.mp hc
  have hlt : i * n < l.length := by
    by_contra hle
    have hceil : l.length ⌈/⌉ n ≤ i :=
      (ceilDiv_le_iff_le_mul hn).mpr (by rw [Nat.mul_comm]; omega)
    exact absurd (List.mem_range.mp hi) (by omega)
  intro hnil
  have hzero := congrArg List.length hnil
  rw [List.length_take, List.length_drop, List.length_nil] at hzero
  omega

/-- No piece has more elements than asked for. -/
theorem length_le_of_mem_chunksOf {n : ℕ} {l c : List α} (hc : c ∈ chunksOf n l) :
    c.length ≤ n := by
  obtain ⟨i, -, rfl⟩ := List.mem_map.mp hc
  exact List.length_take_le n _

/-- No piece is longer than the whole. -/
theorem length_le_of_mem_flatten {cs : List (List α)} {c : List α} (hc : c ∈ cs) :
    c.length ≤ cs.flatten.length :=
  (List.sublist_flatten_of_mem hc).length_le

/-- There are at most as many nonempty pieces as elements. -/
theorem length_le_length_flatten {cs : List (List α)} (hne : ∀ c ∈ cs, c ≠ []) :
    cs.length ≤ cs.flatten.length := by
  rw [List.length_flatten, ← List.length_map (f := List.length)]
  refine List.length_le_sum_of_one_le _ fun n hn => ?_
  obtain ⟨c, hc, rfl⟩ := List.mem_map.mp hn
  exact List.length_pos_iff.mpr (hne c hc)

/-! ### Cutting into a given number of pieces -/

/-- The size of a piece when `n` elements are cut into `k` pieces. -/
def pieceSize (n k : ℕ) : ℕ := max 1 (n ⌈/⌉ k)

/-- The number of pieces that come out when `n` elements are cut into `k` pieces. -/
def pieces (n k : ℕ) : ℕ := n ⌈/⌉ pieceSize n k

/-- A piece has at least one element. -/
theorem pieceSize_pos (n k : ℕ) : 0 < pieceSize n k := Nat.lt_of_lt_of_le one_pos (le_max_left _ _)

/-- The pieces of that size are as many as are asked for at most when their size suffices. -/
theorem pieces_le_iff {n k m : ℕ} : pieces n k ≤ m ↔ n ≤ pieceSize n k * m :=
  ceilDiv_le_iff_le_mul (pieceSize_pos n k)

/-- A size of pieces suffices for `k` pieces when `k` of them cover everything. -/
theorem pieceSize_le_iff {n k s : ℕ} (hk : 0 < k) (hs : 0 < s) :
    pieceSize n k ≤ s ↔ n ≤ k * s := by
  rw [pieceSize, max_le_iff, ceilDiv_le_iff_le_mul hk]
  exact and_iff_right hs

/-- There are never more pieces than asked for. -/
theorem pieces_le {n k : ℕ} (hk : 0 < k) : pieces n k ≤ k := by
  rw [pieces_le_iff, Nat.mul_comm]
  exact (pieceSize_le_iff hk (pieceSize_pos n k)).mp le_rfl

/-- There are never more pieces than elements. -/
theorem pieces_le_length (n k : ℕ) : pieces n k ≤ n :=
  pieces_le_iff.mpr (Nat.le_mul_of_pos_left n (pieceSize_pos n k))

/-- The pieces are those of the least size for their number. -/
theorem pieceSize_eq_of_pieces_eq {n k : ℕ} (hk : 0 < k) (h : pieces n (k + 1) = k) :
    pieceSize n (k + 1) = pieceSize n k := by
  have hcover : n ≤ pieceSize n (k + 1) * k := pieces_le_iff.mp h.le
  have hcover' : n ≤ k * pieceSize n k := (pieceSize_le_iff hk (pieceSize_pos n k)).mp le_rfl
  apply le_antisymm
  · rw [pieceSize_le_iff (Nat.succ_pos k) (pieceSize_pos n k)]
    exact hcover'.trans (Nat.mul_le_mul_right _ (Nat.le_succ k))
  · rw [pieceSize_le_iff hk (pieceSize_pos n (k + 1)), Nat.mul_comm]
    exact hcover

/-- Asking for one piece more gives one more or as many as before. -/
theorem pieces_succ {n k : ℕ} (hk : 0 < k) (h : pieces n k = k) :
    pieces n (k + 1) = k ∨ pieces n (k + 1) = k + 1 := by
  have hle : pieces n (k + 1) ≤ k + 1 := pieces_le (Nat.succ_pos k)
  have hge : k ≤ pieces n (k + 1) := by
    by_contra hlt
    have hcover : n ≤ pieceSize n (k + 1) * (k - 1) := pieces_le_iff.mp (by omega)
    have hsize : pieceSize n (k + 1) ≤ pieceSize n k := by
      rw [pieceSize_le_iff (Nat.succ_pos k) (pieceSize_pos n k)]
      have hcover' := (pieceSize_le_iff (n := n) hk (pieceSize_pos n k)).mp le_rfl
      exact hcover'.trans (Nat.mul_le_mul_right _ (Nat.le_succ k))
    have hfewer : pieces n k ≤ k - 1 :=
      pieces_le_iff.mpr (hcover.trans (Nat.mul_le_mul_right _ hsize))
    omega
  omega

/-- The number of pieces of a given size at most is a number of pieces that comes out. -/
theorem pieces_ceilDiv {n s : ℕ} (hn : 0 < n) (hs : 0 < s) : pieces n (n ⌈/⌉ s) = n ⌈/⌉ s := by
  have hpos : 0 < n ⌈/⌉ s := by
    by_contra hzero
    have hcover := (ceilDiv_le_iff_le_mul hs).mp (Nat.le_of_not_lt hzero)
    omega
  have hsize : pieceSize n (n ⌈/⌉ s) ≤ s := by
    rw [pieceSize_le_iff hpos hs, Nat.mul_comm]
    exact (ceilDiv_le_iff_le_mul hs).mp le_rfl
  refine le_antisymm (pieces_le hpos) ((ceilDiv_le_iff_le_mul hs).mpr ?_)
  exact (pieces_le_iff.mp le_rfl).trans (Nat.mul_le_mul_right _ hsize)

/-- Pieces of one element are as many as there are elements. -/
theorem pieces_of_pieceSize_eq_one {n k : ℕ} (h : pieceSize n k = 1) : pieces n k = n := by
  refine le_antisymm (pieces_le_length n k) ?_
  have hcover := pieces_le_iff.mp (le_refl (pieces n k))
  rwa [h, Nat.one_mul] at hcover

/-- From four elements on, one piece less than there are elements never comes out. -/
theorem pieces_pred_ne {n : ℕ} (hn : 4 ≤ n) : pieces n (n - 1) ≠ n - 1 := by
  have hsize : 2 ≤ pieceSize n (n - 1) := by
    by_contra hlt
    have hcover := (pieceSize_le_iff (by omega) one_pos).mp
      (Nat.le_of_lt_succ (Nat.lt_of_not_le hlt))
    omega
  have hfewer : pieces n (n - 1) ≤ n - 2 := by
    rw [pieces_le_iff]
    have htwice : n ≤ 2 * (n - 2) := by omega
    exact htwice.trans (Nat.mul_le_mul_right _ hsize)
  omega

/-! ### Slot arrays -/

/-- The number of elements in the filled slots. -/
def weight (slots : List (Option (List α))) : ℕ :=
  (slots.map fun slot => slot.elim 0 List.length).sum

/-- The concatenation of the filled slots. -/
def contents (slots : List (Option (List α))) : List α :=
  (slots.filterMap id).flatten

@[simp] theorem weight_nil : weight ([] : List (Option (List α))) = 0 := rfl

@[simp] theorem weight_cons (slot : Option (List α)) (slots : List (Option (List α))) :
    weight (slot :: slots) = slot.elim 0 List.length + weight slots := by
  simp [weight]

/-- Empty slots weigh nothing. -/
@[simp] theorem weight_replicate_none (n : ℕ) :
    weight (List.replicate n (none : Option (List α))) = 0 := by
  simp [weight]

/-- Filling an empty slot adds the length of the piece. -/
theorem weight_set {slots : List (Option (List α))} {i : ℕ} (hi : slots[i]? = some none)
    (c : List α) : weight (slots.set i (some c)) = weight slots + c.length := by
  induction slots generalizing i with
  | nil => simp at hi
  | cons slot slots ih =>
    cases i with
    | zero =>
      have hslot : slot = none := by simpa using hi
      simp [hslot, Nat.add_comm]
    | succ i =>
      have hi' : slots[i]? = some none := by simpa using hi
      simp [ih hi', Nat.add_assoc]

/-- The contents of an array with every slot filled. -/
@[simp] theorem contents_map_some (cs : List (List α)) : contents (cs.map some) = cs.flatten := by
  simp [contents, List.filterMap_map]

/-- An array without an empty slot lists the pieces of its contents. -/
theorem exists_eq_map_some {slots : List (Option (List α))} (h : none ∉ slots) :
    ∃ cs : List (List α), slots = cs.map some := by
  induction slots with
  | nil => exact ⟨[], rfl⟩
  | cons slot slots ih =>
    obtain ⟨cs, rfl⟩ := ih fun hmem => h (List.mem_cons_of_mem _ hmem)
    cases slot with
    | none => exact absurd List.mem_cons_self h
    | some c => exact ⟨c :: cs, rfl⟩

/-! ### Slot arrays of known pieces -/

/-- The filled slots hold the pieces of a list at their positions. -/
structure Holds (slots : List (Option (List α))) (cs : List (List α)) : Prop where
  /-- There is a slot for each piece. -/
  length_eq : slots.length = cs.length
  /-- A filled slot holds the piece at its position. -/
  piece_eq : ∀ (j : ℕ) (c : List α), slots[j]? = some (some c) → cs[j]? = some c

/-- The filled slots weigh at most as much as all pieces. -/
theorem Holds.weight_le {slots : List (Option (List α))} {cs : List (List α)}
    (h : Holds slots cs) : weight slots ≤ cs.flatten.length := by
  induction slots generalizing cs with
  | nil => exact Nat.zero_le _
  | cons slot slots ih =>
    obtain ⟨hlength, hpiece⟩ := h
    cases cs with
    | nil => simp at hlength
    | cons c cs =>
      have htail : weight slots ≤ cs.flatten.length := by
        refine ih ⟨by simpa using hlength, fun j d hd => ?_⟩
        simpa using hpiece (j + 1) d (by simpa using hd)
      have hhead : slot.elim 0 List.length ≤ c.length := by
        cases slot with
        | none => exact Nat.zero_le _
        | some d =>
          have hd : c = d := by simpa using hpiece 0 d rfl
          rw [hd]
          exact le_rfl
      rw [weight_cons, List.flatten_cons, List.length_append]
      exact Nat.add_le_add hhead htail

/-- When no slot is empty, all pieces are there. -/
theorem Holds.eq_map_some {slots : List (Option (List α))} {cs : List (List α)}
    (h : Holds slots cs) (hnone : none ∉ slots) : slots = cs.map some := by
  obtain ⟨ds, rfl⟩ := exists_eq_map_some hnone
  have hlength : ds.length = cs.length := by simpa using h.length_eq
  congr 1
  refine List.ext_getElem hlength fun j hj hj' => ?_
  have hpiece := h.piece_eq j ds[j] (by simp [List.getElem?_eq_getElem hj])
  rw [List.getElem?_eq_getElem hj'] at hpiece
  exact (Option.some.inj hpiece).symm

end Slots
