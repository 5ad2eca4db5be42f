import Mathlib.Data.List.Basic

/-!
# Prefix codes

An encoding separates its arguments when the codeword at the front of a text determines what it
encodes.  Then so does a sequence of codewords up to a mark that starts none of them
(`Separates.flatMap`), a run of symbols of one kind up to a symbol of another (`eq_of_append`), and
a sequence of items with a separator between them up to a closing mark
(`intercalate_append_inj`).
-/

namespace PrefixCode

variable {α β : Type*}

/-- The codeword at the front of a text determines what it encodes. -/
def Separates (f : α → List β) : Prop :=
  ∀ ⦃a b : α⦄ ⦃r r' : List β⦄, f a ++ r = f b ++ r' → a = b

/-- The codeword at the front determines the rest of the text as well. -/
theorem Separates.rest {f : α → List β} (hf : Separates f) {a b : α} {r r' : List β}
    (h : f a ++ r = f b ++ r') : a = b ∧ r = r' := by
  obtain rfl := hf h
  exact ⟨rfl, List.append_cancel_left h⟩

/-- A function that reads the first codeword back separates. -/
theorem separates_of_read {f : α → List β} (read : List β → Option α)
    (h : ∀ a r, read (f a ++ r) = some a) : Separates f := by
  intro a b r r' heq
  have ha := h a r
  rw [heq, h b r'] at ha
  exact (Option.some.inj ha).symm

/-- A sequence of codewords is determined up to a mark that starts no codeword. -/
theorem Separates.flatMap {f : α → List β} (hf : Separates f) {mark : β}
    (hmark : ∀ a r r', f a ++ r ≠ mark :: r') {as bs : List α} {r r' : List β}
    (h : as.flatMap f ++ mark :: r = bs.flatMap f ++ mark :: r') : as = bs ∧ r = r' := by
  induction as generalizing bs with
  | nil =>
    cases bs with
    | nil => exact ⟨rfl, by simpa using h⟩
    | cons b bs =>
      rw [List.flatMap_nil, List.nil_append, List.flatMap_cons, List.append_assoc] at h
      exact absurd h.symm (hmark b _ _)
  | cons a as ih =>
    rw [List.flatMap_cons, List.append_assoc] at h
    cases bs with
    | nil => exact absurd h (hmark a _ _)
    | cons b bs =>
      rw [List.flatMap_cons, List.append_assoc] at h
      obtain ⟨rfl, hrest⟩ := hf.rest h
      obtain ⟨rfl, rfl⟩ := ih hrest
      exact ⟨rfl, rfl⟩

/-- Where the codewords of one sequence start those of another, the sequence starts the other. -/
theorem Separates.prefix_of_flatMap {f : α → List β} (hf : Separates f) (hne : ∀ a, f a ≠ [])
    {as bs : List α} (h : as.flatMap f <+: bs.flatMap f) : as <+: bs := by
  induction as generalizing bs with
  | nil => exact List.nil_prefix
  | cons a as ih =>
    obtain ⟨r, hr⟩ := h
    rw [List.flatMap_cons, List.append_assoc] at hr
    cases bs with
    | nil => exact absurd (List.append_eq_nil_iff.mp hr).1 (hne a)
    | cons b bs =>
      rw [List.flatMap_cons] at hr
      obtain ⟨rfl, hrest⟩ := hf.rest hr
      exact List.cons_prefix_cons.mpr ⟨rfl, ih ⟨r, hrest⟩⟩

/-- A run of symbols of one kind is determined up to a symbol of another. -/
theorem eq_of_append {p : β → Prop} {xs ys r r' : List β} (hxs : ∀ b ∈ xs, p b)
    (hys : ∀ b ∈ ys, p b) (hr : ∀ b ∈ r.head?, ¬p b) (hr' : ∀ b ∈ r'.head?, ¬p b)
    (h : xs ++ r = ys ++ r') : xs = ys ∧ r = r' := by
  induction xs generalizing ys with
  | nil =>
    cases ys with
    | nil => exact ⟨rfl, h⟩
    | cons b ys =>
      rw [List.nil_append] at h
      exact absurd (hys b List.mem_cons_self) (hr b (by rw [h]; rfl))
  | cons a xs ih =>
    cases ys with
    | nil =>
      rw [List.nil_append] at h
      exact absurd (hxs a List.mem_cons_self) (hr' a (by rw [← h]; rfl))
    | cons b ys =>
      obtain ⟨rfl, htail⟩ := List.cons.inj h
      obtain ⟨rfl, hrest⟩ := ih (fun c hc => hxs c (List.mem_cons_of_mem _ hc))
        (fun c hc => hys c (List.mem_cons_of_mem _ hc)) htail
      exact ⟨rfl, hrest⟩

/-! ### Sequences with separators -/

/-- What follows an item of a sequence that ends with a mark: the mark, if it is the last item, or
the separator and the other items. -/
def afterItem (separator mark : β) (items : List (List β)) (r : List β) : List β :=
  if items = [] then mark :: r
  else separator :: (List.intercalate [separator] items ++ mark :: r)

/-- A sequence is its first item and what follows it. -/
theorem intercalate_cons_append (separator mark : β) (item : List β) (items : List (List β))
    (r : List β) : List.intercalate [separator] (item :: items) ++ mark :: r =
      item ++ afterItem separator mark items r := by
  cases items with
  | nil => simp [afterItem]
  | cons next items =>
    rw [List.intercalate_cons_cons, afterItem, if_neg (List.cons_ne_nil _ _)]
    simp

/-- What follows an item tells the other items. -/
theorem afterItem_inj {separator mark : β} (hne : separator ≠ mark) {items items' : List (List β)}
    {r r' : List β} (h : afterItem separator mark items r = afterItem separator mark items' r') :
    List.intercalate [separator] items ++ mark :: r =
      List.intercalate [separator] items' ++ mark :: r' := by
  unfold afterItem at h
  by_cases hitems : items = [] <;> by_cases hitems' : items' = []
  · rw [if_pos hitems, if_pos hitems'] at h
    simpa [hitems, hitems'] using h
  · rw [if_pos hitems, if_neg hitems'] at h
    exact absurd (List.cons.inj h).1.symm hne
  · rw [if_neg hitems, if_pos hitems'] at h
    exact absurd (List.cons.inj h).1 hne
  · rw [if_neg hitems, if_neg hitems'] at h
    exact (List.cons.inj h).2

/-- A sequence of items is determined up to a mark, if each item is determined up to a separator or
a mark and none starts with the mark. -/
theorem intercalate_append_inj {f : α → List β} {separator mark : β} {Ends : List β → Prop}
    (hne : separator ≠ mark) (hseparator : ∀ r, Ends (separator :: r))
    (hmark : ∀ r, Ends (mark :: r)) {as bs : List α} {r r' : List β}
    (has : ∀ a ∈ as, ∀ t t', f a ++ t ≠ mark :: t') (hbs : ∀ b ∈ bs, ∀ t t', f b ++ t ≠ mark :: t')
    (hf : ∀ a ∈ as, ∀ b ∈ bs, ∀ t t', Ends t → Ends t' → f a ++ t = f b ++ t' → a = b ∧ t = t')
    (h : List.intercalate [separator] (as.map f) ++ mark :: r =
      List.intercalate [separator] (bs.map f) ++ mark :: r') : as = bs ∧ r = r' := by
  have hends : ∀ items t, Ends (afterItem separator mark items t) := by
    intro items t
    unfold afterItem
    split_ifs
    · exact hmark t
    · exact hseparator _
  induction as generalizing bs with
  | nil =>
    cases bs with
    | nil => exact ⟨rfl, (List.cons.inj h).2⟩
    | cons b bs =>
      rw [List.map_cons, intercalate_cons_append] at h
      exact absurd h.symm (hbs b List.mem_cons_self _ _)
  | cons a as ih =>
    rw [List.map_cons, intercalate_cons_append] at h
    cases bs with
    | nil => exact absurd h (has a List.mem_cons_self _ _)
    | cons b bs =>
      rw [List.map_cons, intercalate_cons_append] at h
      obtain ⟨rfl, hrest⟩ := hf a List.mem_cons_self b List.mem_cons_self _ _ (hends _ _)
        (hends _ _) h
      obtain ⟨rfl, rfl⟩ := ih (fun c hc => has c (List.mem_cons_of_mem _ hc))
        (fun c hc => hbs c (List.mem_cons_of_mem _ hc))
        (fun c hc d hd => hf c (List.mem_cons_of_mem _ hc) d (List.mem_cons_of_mem _ hd))
        (afterItem_inj hne hrest)
      exact ⟨rfl, rfl⟩

end PrefixCode
