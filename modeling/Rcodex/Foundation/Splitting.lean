import Mathlib.Data.List.DropRight

/-!
# Lists and separators

`splitLast` cuts a list at its last separator, as `rsplitn` does with two parts.  `words` are the
runs between separators, as `split_whitespace` gives them; `getElem?_words_eq_some_iff` says where
they stand.  `strip` takes the separators off both ends, as `trim` does.
-/

namespace Splitting

variable {α : Type*}

section SplitLast

variable [DecidableEq α]

/-- The parts before and after the last separator, if there is one. -/
def splitLast (separator : α) : List α → Option (List α × List α)
  | [] => none
  | a :: l => match splitLast separator l with
    | some (before, after) => some (a :: before, after)
    | none => if a = separator then some ([], l) else none

/-- A list is not cut if it has no separator. -/
theorem splitLast_eq_none_iff {separator : α} {l : List α} :
    splitLast separator l = none ↔ separator ∉ l := by
  induction l with
  | nil => simp [splitLast]
  | cons a l ih =>
    rw [splitLast, List.mem_cons, not_or, ← ih]
    split
    · next hl => simp [hl]
    · next hl => simp [hl, eq_comm]

/-- A list is cut at its last separator. -/
theorem splitLast_append {separator : α} {after : List α} (h : separator ∉ after)
    (before : List α) :
    splitLast separator (before ++ separator :: after) = some (before, after) := by
  induction before with
  | nil =>
    rw [List.nil_append, splitLast, splitLast_eq_none_iff.mpr h]
    exact if_pos rfl
  | cons a before ih => rw [List.cons_append, splitLast, ih]

/-- Where a list is cut. -/
theorem splitLast_eq_some_iff {separator : α} {l before after : List α} :
    splitLast separator l = some (before, after) ↔
      l = before ++ separator :: after ∧ separator ∉ after := by
  constructor
  · intro h
    induction l generalizing before with
    | nil => simp [splitLast] at h
    | cons a l ih =>
      rw [splitLast] at h
      split at h
      · next hl =>
        obtain ⟨rfl, rfl⟩ := Prod.mk.inj (Option.some.inj h)
        obtain ⟨hl, hafter⟩ := ih hl
        exact ⟨by rw [hl, List.cons_append], hafter⟩
      · next hl =>
        split_ifs at h with ha
        obtain ⟨rfl, rfl⟩ := Prod.mk.inj (Option.some.inj h)
        exact ⟨by rw [ha, List.nil_append], splitLast_eq_none_iff.mp hl⟩
  · rintro ⟨rfl, hafter⟩
    exact splitLast_append hafter before

end SplitLast

/-- The non-empty parts between elements with a property. -/
def words (p : α → Bool) (l : List α) : List (List α) := (l.splitOnP p).filter (· ≠ [])

/-- The list without the elements with a property at its ends. -/
def strip (p : α → Bool) (l : List α) : List α := (l.dropWhile p).rdropWhile p

/-! ### Words -/

section Words

variable {p : α → Bool}

/-- A separator is between words. -/
theorem words_cons {a : α} (h : p a = true) (l : List α) : words p (a :: l) = words p l := by
  rw [words, List.splitOnP_cons_eq_if_modifyHead, if_pos h, List.filter_cons_of_neg (by simp)]
  rfl

/-- A word up to the end or to a separator. -/
theorem words_append {w rest : List α} (hw : w ≠ []) (hword : ∀ a ∈ w, p a = false)
    (hrest : ∀ a ∈ rest.head?, p a = true) : words p (w ++ rest) = w :: words p rest := by
  cases rest with
  | nil =>
    rw [List.append_nil, words, List.splitOnP_eq_singleton hword]
    simp [words, hw]
  | cons a rest =>
    have ha : p a = true := hrest a (by simp)
    rw [words_cons ha, words, List.splitOnP_append_cons _ _ ha,
      List.splitOnP_eq_singleton hword]
    simp [words, hw]

/-- The first word of a list that starts with one, and what is after it. -/
theorem words_eq_cons {l : List α} (hne : l ≠ []) (hhead : ∀ a ∈ l.head?, p a = false) :
    words p l = l.takeWhile (fun a => !p a) :: words p (l.dropWhile fun a => !p a) := by
  have hsplit : l.takeWhile (fun a => !p a) ++ l.dropWhile (fun a => !p a) = l :=
    List.takeWhile_append_dropWhile
  rw [← words_append, hsplit]
  · cases l with
    | nil => exact absurd rfl hne
    | cons a l => simp [hhead a (by simp)]
  · intro a ha
    simpa using List.mem_takeWhile_imp ha
  · intro a ha
    have h := List.head?_dropWhile_not (fun a => !p a) l
    rw [Option.mem_def.mp ha] at h
    simpa using h

/-- A separator ends a word. -/
theorem words_append_cons {a : α} (h : p a = true) (l m : List α) :
    words p (l ++ a :: m) = words p l ++ words p m := by
  rw [words, List.splitOnP_append_cons _ _ h, List.filter_append]
  rfl

/-- After a separator a new word starts. -/
theorem words_append_of_getLast {l : List α} (h : ∀ a ∈ l.getLast?, p a = true) (m : List α) :
    words p (l ++ m) = words p l ++ words p m := by
  induction l using List.reverseRecOn with
  | nil => rfl
  | append_singleton l a =>
    have ha : p a = true := h a (by simp)
    rw [List.append_assoc, List.singleton_append, words_append_cons ha, words_append_cons ha]
    change _ = words p l ++ [] ++ words p m
    rw [List.append_nil]

/-- A word between separators or the ends of the list. -/
structure WordAt (p : α → Bool) (before word after : List α) : Prop where
  /-- What is before it ends with a separator. -/
  before_ends : ∀ a ∈ before.getLast?, p a = true
  /-- It has elements. -/
  ne_nil : word ≠ []
  /-- It has no separator. -/
  noSeparator : ∀ a ∈ word, p a = false
  /-- What is after it starts with a separator. -/
  after_starts : ∀ a ∈ after.head?, p a = true

/-- A word can be checked. -/
theorem WordAt.of_all {before word after : List α} (hbefore : before.getLast?.all p = true)
    (hne : word ≠ []) (hword : (word.all fun a => !p a) = true)
    (hafter : after.head?.all p = true) : WordAt p before word after where
  before_ends := (Option.all_eq_true ..).mp hbefore
  ne_nil := hne
  noSeparator := fun a ha => by simpa using List.all_eq_true.mp hword a ha
  after_starts := (Option.all_eq_true ..).mp hafter

/-- The words of a list with such a word. -/
theorem WordAt.words_eq {before word after : List α} (h : WordAt p before word after) :
    words p (before ++ word ++ after) = words p before ++ word :: words p after := by
  rw [List.append_assoc, words_append_of_getLast h.before_ends,
    words_append h.ne_nil h.noSeparator h.after_starts]

/-- A list that does not start with a separator starts with a word. -/
theorem exists_wordAt_nil {l : List α} (hne : l ≠ []) (hhead : ∀ a ∈ l.head?, p a = false) :
    ∃ word rest, l = word ++ rest ∧ WordAt p [] word rest := by
  refine ⟨l.takeWhile fun a => !p a, l.dropWhile fun a => !p a,
    List.takeWhile_append_dropWhile.symm, by simp, ?_, fun a ha => ?_, fun a ha => ?_⟩
  · cases l with
    | nil => exact absurd rfl hne
    | cons a l => simp [hhead a rfl]
  · simpa using List.mem_takeWhile_imp ha
  · have hnot := List.head?_dropWhile_not (fun a => !p a) l
    rw [Option.mem_def.mp ha] at hnot
    simpa using hnot

/-- Between two words of a list there is a separator. -/
theorem WordAt.ne_nil_of_append {first before word after : List α}
    (h : WordAt p [] first (before ++ word ++ after)) (hat : WordAt p before word after) :
    before ≠ [] := by
  rintro rfl
  obtain ⟨b, w, rfl⟩ := List.exists_cons_of_ne_nil hat.ne_nil
  have hb : p b = true := h.after_starts b rfl
  rw [hat.noSeparator b List.mem_cons_self] at hb
  contradiction

/-- The words stand in the list one after the other. -/
theorem getElem?_words_eq_some_iff {l word : List α} {n : ℕ} :
    (words p l)[n]? = some word ↔
      ∃ before after, l = before ++ word ++ after ∧ (words p before).length = n ∧
        WordAt p before word after := by
  constructor
  · intro h
    induction hlength : l.length using Nat.strong_induction_on generalizing l n with
    | _ length ih =>
      cases l with
      | nil => simp [words] at h
      | cons a l =>
        by_cases ha : p a = true
        · -- A separator goes to the elements before the word.
          rw [words_cons ha] at h
          obtain ⟨before, after, rfl, hn, hat⟩ := ih l.length (by simp [← hlength]) h rfl
          refine ⟨a :: before, after, rfl, (congrArg _ (words_cons ha before)).trans hn,
            ⟨?_, hat.ne_nil, hat.noSeparator, hat.after_starts⟩⟩
          intro b hb
          cases before with
          | nil =>
            obtain rfl : a = b := by simpa using hb
            exact ha
          | cons c before => exact hat.before_ends b (by simpa using hb)
        · obtain ⟨first, rest, hl, hfirst⟩ :=
            exists_wordAt_nil (p := p) (List.cons_ne_nil a l) (by simpa using ha)
          rw [hl, words_append hfirst.ne_nil hfirst.noSeparator hfirst.after_starts] at h
          cases n with
          | zero =>
            obtain rfl : first = word := Option.some.inj h
            exact ⟨[], rest, hl, rfl, hfirst⟩
          | succ n =>
            -- The first word goes to the elements before a later one.
            rw [List.getElem?_cons_succ] at h
            have hshort : rest.length < length := by
              have hpos := List.length_pos_iff.mpr hfirst.ne_nil
              rw [← hlength, hl, List.length_append]
              omega
            obtain ⟨before, after, rfl, hn, hat⟩ := ih _ hshort h rfl
            have hbefore := hfirst.ne_nil_of_append hat
            have hstarts : ∀ b ∈ before.head?, p b = true := by
              intro b hb
              refine hfirst.after_starts b ?_
              rwa [List.append_assoc, List.head?_append_of_ne_nil _ hbefore]
            refine ⟨first ++ before, after, by rw [hl]; simp, ?_,
              ⟨?_, hat.ne_nil, hat.noSeparator, hat.after_starts⟩⟩
            · rw [words_append hfirst.ne_nil hfirst.noSeparator hstarts, List.length_cons, hn]
            · rw [List.getLast?_append_of_ne_nil _ hbefore]
              exact hat.before_ends
  · rintro ⟨before, after, rfl, rfl, hat⟩
    rw [hat.words_eq]
    simp

/-- A word of a list is at least the front of one of a longer list. -/
theorem WordAt.append {before word after : List α} (h : WordAt p before word after)
    (more : List α) : ∃ word' after', word ++ after ++ more = word' ++ after' ∧
      WordAt p before word' after' := by
  cases after with
  | cons a after =>
    refine ⟨word, a :: after ++ more, by rw [List.append_assoc], h.before_ends, h.ne_nil,
      h.noSeparator, fun b hb => h.after_starts b ?_⟩
    simpa using hb
  | nil =>
    by_cases hmore : ∀ a ∈ more.head?, p a = true
    · exact ⟨word, more, by rw [List.append_nil], h.before_ends, h.ne_nil, h.noSeparator, hmore⟩
    · -- The word goes on with the first one of what is added.
      push Not at hmore
      obtain ⟨a, ha, hword⟩ := hmore
      obtain ⟨rest, rfl⟩ := List.head?_eq_some_iff.mp ha
      obtain ⟨front, after, hfront, hat⟩ :=
        exists_wordAt_nil (p := p) (List.cons_ne_nil a rest) (by simpa using hword)
      refine ⟨word ++ front, after, by rw [hfront, List.append_nil, List.append_assoc],
        h.before_ends, by simp [h.ne_nil], fun b hb => ?_, hat.after_starts⟩
      rcases List.mem_append.mp hb with hb | hb
      · exact h.noSeparator b hb
      · exact hat.noSeparator b hb

end Words

/-! ### Stripping -/

section Strip

variable {p : α → Bool}

/-- Two properties that agree on a list drop the same elements. -/
theorem dropWhile_congr {q : α → Bool} {l : List α} (h : ∀ a ∈ l, p a = q a) :
    l.dropWhile p = l.dropWhile q := by
  induction l with
  | nil => rfl
  | cons a l ih =>
    rw [List.dropWhile_cons, List.dropWhile_cons, h a (by simp),
      ih fun b hb => h b (List.mem_cons_of_mem _ hb)]

/-- What is left at the end of a list after another one. -/
theorem rdropWhile_append (l m : List α) :
    (l ++ m).rdropWhile p =
      if m.rdropWhile p = [] then l.rdropWhile p else l ++ m.rdropWhile p := by
  simp only [List.rdropWhile, List.reverse_append, List.dropWhile_append, List.isEmpty_iff,
    List.reverse_eq_nil_iff]
  split_ifs <;> simp

/-- A list that starts and ends without the property is kept by stripping. -/
theorem strip_append {before l after : List α} (hbefore : ∀ a ∈ before, p a = true)
    (hne : l ≠ []) (hl : ∀ a ∈ l, p a = false) :
    strip p (before ++ l ++ after) = l ++ after.rdropWhile p := by
  have hdrop : (before ++ l ++ after).dropWhile p = l ++ after := by
    rw [List.append_assoc, List.dropWhile_append_of_pos hbefore]
    cases l with
    | nil => exact absurd rfl hne
    | cons a l => simp [hl a (by simp)]
  rw [strip, hdrop, rdropWhile_append]
  split_ifs with h
  · rw [h, List.append_nil, List.rdropWhile_eq_self_iff]
    intro hl'
    simpa using hl _ (List.getLast_mem hl')
  · rfl

end Strip

end Splitting
