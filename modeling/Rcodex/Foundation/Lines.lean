import Mathlib.Data.List.Infix

/-!
# Lines of a stream that arrives in reads

A buffered reader takes a stream in the pieces in which it arrives.  It holds what it has read and
not yet handed out.  `readUntil` reads up to and with the next mark, or up to a limit.

`lines` cuts a list after each mark.  Reading line by line through one reader gives these lines,
however the stream arrives (`Serves.readUntil_eq`).  A reader that has handed out a prefix of
the stream holds nothing more exactly when this prefix ends where a read ends
(`Serves.buffer_eq_nil_iff`).
-/

namespace Lines

variable {α : Type*}

/-- A buffered reader: what was read and not handed out, and the reads to come. -/
structure BufReader (α : Type*) where
  /-- The buffer. -/
  buffer : List α
  /-- The pieces in which the rest of the stream arrives. -/
  reads : List (List α)

namespace BufReader

/-- A reader that has read nothing. -/
def fresh (reads : List (List α)) : BufReader α := ⟨[], reads⟩

/-- Everything the reader has not handed out. -/
def bytes (r : BufReader α) : List α := r.buffer ++ r.reads.flatten

/-- The next element, read from the stream when the buffer is empty. A read of nothing is the end
of the stream. -/
def next : BufReader α → Option (α × BufReader α)
  | ⟨b :: buffer, reads⟩ => some (b, ⟨buffer, reads⟩)
  | ⟨[], (b :: buffer) :: reads⟩ => some (b, ⟨buffer, reads⟩)
  | _ => none

variable [DecidableEq α] (mark : α)

/-- Read up to and with the next mark, but at most `limit` elements. -/
def readUntil : ℕ → BufReader α → List α × BufReader α
  | 0, r => ([], r)
  | limit + 1, r =>
    match r.next with
    | none => ([], r)
    | some (b, r') =>
      if b = mark then ([b], r')
      else (b :: (readUntil limit r').1, (readUntil limit r').2)

end BufReader

open BufReader

/-! ### The pieces of a stream -/

/-- A reader that has handed out `given` of a stream that arrives in `reads`: its buffer is what is
left of the last piece it has read. -/
structure Serves (reads : List (List α)) (given : List α) (r : BufReader α) : Prop where
  /-- No piece is empty. -/
  nonempty : [] ∉ reads
  /-- It holds the end of the pieces it has read, and no whole piece. -/
  pieces : ∃ taken, reads = taken ++ r.reads ∧ taken.flatten = given ++ r.buffer ∧
    (r.buffer ≠ [] → ∃ before used, used ≠ [] ∧ taken = before ++ [used ++ r.buffer])

namespace Serves

variable {reads : List (List α)} {given : List α} {r : BufReader α}

/-- A reader that has read nothing has handed out nothing. -/
theorem fresh (h : [] ∉ reads) : Serves reads [] (BufReader.fresh reads) :=
  ⟨h, [], rfl, rfl, fun hne => absurd rfl hne⟩

/-- What was handed out and what was not make up the stream. -/
theorem given_append_bytes (h : Serves reads given r) : given ++ r.bytes = reads.flatten := by
  obtain ⟨taken, hreads, htaken, -⟩ := h.pieces
  rw [hreads, List.flatten_append, htaken, BufReader.bytes, List.append_assoc]

/-- The next element is the first of those not handed out. -/
theorem next_eq (h : Serves reads given r) :
    r.next = none ∧ r.bytes = [] ∨
      ∃ b r', r.next = some (b, r') ∧ r.bytes = b :: r'.bytes ∧ Serves reads (given ++ [b]) r' := by
  obtain ⟨buffer, rest⟩ := r
  obtain ⟨taken, hreads, htaken, hlast⟩ := h.pieces
  simp only at hreads htaken hlast
  cases buffer with
  | cons b buffer =>
    refine Or.inr ⟨b, ⟨buffer, rest⟩, rfl, rfl, h.nonempty, taken, hreads, ?_, fun _ => ?_⟩
    · rw [htaken, List.append_assoc]
      rfl
    · obtain ⟨before, used, -, heq⟩ := hlast (List.cons_ne_nil b buffer)
      exact ⟨before, used ++ [b], by simp, by rw [heq, List.append_assoc]; rfl⟩
  | nil =>
    cases rest with
    | nil => exact Or.inl ⟨rfl, rfl⟩
    | cons piece rest =>
      cases piece with
      | nil => exact absurd (by rw [hreads]; simp) h.nonempty
      | cons b buffer =>
        refine Or.inr ⟨b, ⟨buffer, rest⟩, rfl, rfl, h.nonempty, taken ++ [b :: buffer], ?_, ?_,
          fun _ => ⟨taken, [b], List.cons_ne_nil b [], rfl⟩⟩
        · rw [hreads, List.append_assoc]
          rfl
        · rw [List.flatten_append, htaken]
          simp

/-- The buffer is empty exactly when what was handed out ends where a read ends. -/
theorem buffer_eq_nil_iff (h : Serves reads given r) :
    r.buffer = [] ↔ ∃ k, (reads.take k).flatten = given := by
  obtain ⟨taken, hreads, htaken, hlast⟩ := h.pieces
  constructor
  · intro hnil
    refine ⟨taken.length, ?_⟩
    rw [hreads, List.take_left, htaken, hnil, List.append_nil]
  · intro hread
    obtain ⟨k, hk⟩ := hread
    by_contra hne
    obtain ⟨before, used, hused, heq⟩ := hlast hne
    have hgiven : given = before.flatten ++ used := by
      rw [heq, List.flatten_append, List.flatten_singleton, ← List.append_assoc] at htaken
      exact (List.append_cancel_right htaken).symm
    have hpos : 0 < used.length := List.length_pos_iff.mpr hused
    have hbuffer : 0 < r.buffer.length := List.length_pos_iff.mpr hne
    have hlen := congrArg List.length hk
    rw [hgiven, List.length_append] at hlen
    -- fewer pieces are too short, more pieces too long
    rcases Nat.lt_or_ge before.length k with hlt | hge
    · have hpieces : taken <+: reads.take k := by
        have htake : taken = reads.take (before.length + 1) := by
          rw [hreads, List.take_append_of_le_length (by rw [heq]; simp),
            List.take_of_length_le (by rw [heq]; simp)]
        rw [htake]
        exact List.take_prefix_take_left hlt
      have hle := hpieces.flatten.length_le
      rw [htaken, hk, List.length_append] at hle
      omega
    · have hpieces : reads.take k <+: before := by
        have htake : before = reads.take before.length := by
          rw [hreads, heq, List.append_assoc, List.take_left]
        rw [htake]
        exact List.take_prefix_take_left hge
      have hle := hpieces.flatten.length_le
      omega

variable [DecidableEq α] (mark : α)

/-- A reader that reads a line goes on serving the stream. -/
theorem readUntil (h : Serves reads given r) (limit : ℕ) :
    Serves reads (given ++ (r.readUntil mark limit).1) (r.readUntil mark limit).2 := by
  induction limit generalizing given r with
  | zero => simpa [BufReader.readUntil] using h
  | succ limit ih =>
    rcases h.next_eq with ⟨hnext, -⟩ | ⟨b, r', hnext, -, hserves⟩
    · simpa [BufReader.readUntil, hnext] using h
    · by_cases hb : b = mark
      · simpa [BufReader.readUntil, hnext, hb] using hserves
      · have hrest := ih hserves
        rw [List.append_assoc, List.singleton_append] at hrest
        simpa only [BufReader.readUntil, hnext, if_neg hb] using hrest

/-- What is read and what is left make up what was left before. -/
theorem bytes_eq (h : Serves reads given r) (limit : ℕ) :
    r.bytes = (r.readUntil mark limit).1 ++ (r.readUntil mark limit).2.bytes := by
  have hafter := (h.readUntil mark limit).given_append_bytes
  rw [← h.given_append_bytes, List.append_assoc] at hafter
  exact (List.append_cancel_left hafter).symm

end Serves

/-! ### Lines -/

section Lines

variable [DecidableEq α] (mark : α)

/-- The lines of a list: cut after each mark; the last line may have none. -/
def lines : List α → List (List α)
  | [] => []
  | b :: l =>
    if b = mark then [b] :: lines l
    else
      match lines l with
      | [] => [[b]]
      | line :: rest => (b :: line) :: rest

@[simp] theorem lines_nil : lines mark [] = [] := rfl

variable {mark}

/-- A list with elements has a first line. -/
theorem lines_eq_nil_iff {l : List α} : lines mark l = [] ↔ l = [] := by
  cases l with
  | nil => simp
  | cons b l =>
    rw [lines]
    split_ifs
    · simp
    · split <;> simp

/-- Gluing the lines of a list gives the list back. -/
theorem flatten_lines (l : List α) : (lines mark l).flatten = l := by
  induction l with
  | nil => rfl
  | cons b l ih =>
    rw [lines]
    split_ifs
    · rw [List.flatten_cons, ih]
      rfl
    · split
      next hnil =>
        rw [hnil] at ih
        rw [← ih]
        rfl
      next line rest hcons =>
        rw [hcons] at ih
        rw [← ih]
        rfl

variable (mark) in
/-- No line is empty. -/
theorem ne_nil_of_mem_lines {l line : List α} (h : line ∈ lines mark l) : line ≠ [] := by
  induction l generalizing line with
  | nil => simp at h
  | cons b l ih =>
    rw [lines] at h
    split_ifs at h
    · rcases List.mem_cons.mp h with rfl | h
      · exact List.cons_ne_nil _ _
      · exact ih h
    · split at h
      next =>
        rw [List.mem_singleton] at h
        rw [h]
        exact List.cons_ne_nil _ _
      next first rest hcons =>
        rcases List.mem_cons.mp h with rfl | h
        · exact List.cons_ne_nil _ _
        · exact ih (by rw [hcons]; exact List.mem_cons_of_mem _ h)

/-- A line without its mark. -/
def content (mark : α) (line : List α) : List α :=
  if line.getLast? = some mark then line.dropLast else line

@[simp] theorem content_append_mark (line : List α) : content mark (line ++ [mark]) = line := by
  rw [content, List.getLast?_concat, if_pos rfl, List.dropLast_concat]

/-- A line that has no mark. -/
theorem content_of_notMem {line : List α} (h : mark ∉ line) : content mark line = line :=
  if_neg fun hlast => h (List.mem_of_getLast? hlast)

/-- A line that ends with a mark, and the lines after it. -/
theorem lines_append_mark {line : List α} (h : mark ∉ line) (rest : List α) :
    lines mark (line ++ mark :: rest) = (line ++ [mark]) :: lines mark rest := by
  induction line with
  | nil => rw [List.nil_append, lines, if_pos rfl, List.nil_append]
  | cons b line ih =>
    obtain ⟨hb, hline⟩ := not_or.mp (mt List.mem_cons.mpr h)
    rw [List.cons_append, lines, if_neg fun heq => hb heq.symm, ih hline]
    rfl

/-- A mark is the end of its line. -/
theorem mem_lines {l line : List α} (h : line ∈ lines mark l) :
    ∃ text, mark ∉ text ∧ (line = text ++ [mark] ∨ line = text) := by
  induction l generalizing line with
  | nil => simp at h
  | cons b l ih =>
    rw [lines] at h
    split_ifs at h with hb
    · rcases List.mem_cons.mp h with rfl | h
      · exact ⟨[], by simp, Or.inl (by rw [hb, List.nil_append])⟩
      · exact ih h
    · have hextend : ∀ first, first ∈ lines mark l →
          ∃ text, mark ∉ text ∧ (b :: first = text ++ [mark] ∨ b :: first = text) := by
        intro first hfirst
        obtain ⟨text, htext, hfirst⟩ := ih hfirst
        refine ⟨b :: text, by simp [htext, Ne.symm hb], ?_⟩
        rcases hfirst with rfl | rfl
        · exact Or.inl rfl
        · exact Or.inr rfl
      split at h
      · rw [List.mem_singleton] at h
        exact ⟨[b], by simpa using Ne.symm hb, Or.inr h⟩
      · next first rest hlines =>
        rcases List.mem_cons.mp h with rfl | h
        · exact hextend first (by rw [hlines]; exact List.mem_cons_self)
        · exact ih (by rw [hlines]; exact List.mem_cons_of_mem _ h)

/-- A reader reads the first line, or as much of it as the limit allows. After a line that the
limit allows it goes on with the next one. -/
theorem Serves.readUntil_eq {reads : List (List α)} {given : List α} {r : BufReader α}
    (h : Serves reads given r) {line : List α} {rest : List (List α)}
    (hlines : lines mark r.bytes = line :: rest) (limit : ℕ) :
    (r.readUntil mark limit).1 = line.take limit ∧
      (line.length ≤ limit → lines mark (r.readUntil mark limit).2.bytes = rest) := by
  induction limit generalizing given r line with
  | zero =>
    refine ⟨by rw [BufReader.readUntil, List.take_zero], fun hlen => ?_⟩
    have hne : line ≠ [] :=
      ne_nil_of_mem_lines mark (by rw [hlines]; exact List.mem_cons_self)
    exact absurd (List.length_eq_zero_iff.mp (Nat.le_zero.mp hlen)) hne
  | succ limit ih =>
    rcases h.next_eq with ⟨-, hbytes⟩ | ⟨b, r', hnext, hbytes, hserves⟩
    · rw [hbytes] at hlines
      simp at hlines
    · rw [hbytes, lines] at hlines
      by_cases hb : b = mark
      · rw [if_pos hb] at hlines
        obtain ⟨rfl, rfl⟩ := List.cons.inj hlines
        simp [BufReader.readUntil, hnext, hb]
      · rw [if_neg hb] at hlines
        simp only [BufReader.readUntil, hnext, if_neg hb]
        cases hlater : lines mark r'.bytes with
        | nil =>
          -- the stream ends inside this line
          rw [hlater] at hlines
          obtain ⟨rfl, rfl⟩ := List.cons.inj hlines
          have hempty := hserves.bytes_eq mark limit
          rw [lines_eq_nil_iff.mp hlater] at hempty
          obtain ⟨hfirst, hsecond⟩ := List.append_eq_nil_iff.mp hempty.symm
          rw [hfirst, hsecond]
          simp
        | cons first later =>
          rw [hlater] at hlines
          obtain ⟨rfl, rfl⟩ := List.cons.inj hlines
          obtain ⟨hfirst, hsecond⟩ := ih hserves hlater
          rw [hfirst, List.take_succ_cons]
          refine ⟨rfl, fun hlen => hsecond ?_⟩
          simpa using hlen

variable (mark) in
/-- At the end of the stream nothing is read. -/
theorem Serves.readUntil_of_bytes_eq_nil {reads : List (List α)} {given : List α} {r : BufReader α}
    (h : Serves reads given r) (hbytes : r.bytes = []) (limit : ℕ) :
    (r.readUntil mark limit).1 = [] := by
  have hempty := h.bytes_eq mark limit
  rw [hbytes] at hempty
  exact (List.append_eq_nil_iff.mp hempty.symm).1

end Lines

end Lines
