import Rcodex.Foundation.PrefixCode

/-!
# Texts

The character classes of the standard library, the UTF-8 bytes of a text and back, the text without
surrounding white space and the text without a prefix.
-/

namespace Text

/-- The UTF-8 bytes of a text. -/
def utf8 (s : String) : List UInt8 := s.toList.flatMap String.utf8EncodeChar

/-- `std::str::from_utf8` -/
def fromUtf8 (bytes : List UInt8) : Option String :=
  bytes.toByteArray.utf8Decode?.map fun cs => .ofList cs.toList

/-- The text of the bytes of a text. -/
@[simp] theorem fromUtf8_utf8 (s : String) : fromUtf8 (utf8 s) = some s := by
  have hdecode : (utf8 s).toByteArray.utf8Decode? = some s.toList.toArray :=
    List.utf8Decode?_utf8Encode
  rw [fromUtf8, hdecode, Option.map_some, String.ofList_toList]

/-- A text is determined by its bytes. -/
theorem utf8_inj {s t : String} : utf8 s = utf8 t ↔ s = t := by
  refine ⟨fun h => ?_, congrArg utf8⟩
  rw [← Option.some.injEq, ← fromUtf8_utf8 s, h, fromUtf8_utf8]

/-- The bytes of a text that was read. -/
theorem utf8_of_fromUtf8 {bytes : List UInt8} {s : String} (h : fromUtf8 bytes = some s) :
    utf8 s = bytes := by
  obtain ⟨cs, hcs, rfl⟩ := Option.map_eq_some_iff.mp h
  have hencode : cs.toList.utf8Encode = bytes.toByteArray := by
    have hget := ByteArray.utf8Encode_get_utf8Decode? (b := bytes.toByteArray)
      (h := Option.isSome_of_eq_some hcs)
    rwa [Option.get_of_eq_some _ hcs] at hget
  rw [utf8, String.toList_ofList]
  exact List.toByteArray_inj.mp hencode

/-- UTF-8 is a prefix code. -/
theorem separates_utf8 : PrefixCode.Separates String.utf8EncodeChar := by
  have hread : ∀ c r, (String.utf8EncodeChar c ++ r).toByteArray.utf8DecodeChar? 0 = some c := by
    intro c r
    rw [List.toByteArray_append]
    exact ByteArray.utf8DecodeChar?_utf8EncodeChar_append
  exact PrefixCode.separates_of_read (fun bytes => bytes.toByteArray.utf8DecodeChar? 0) hread

/-- The bytes of a text are at the front of those of another exactly if the text is. -/
theorem utf8_prefix_iff {s t : String} : utf8 s <+: utf8 t ↔ s.toList <+: t.toList := by
  constructor
  · exact separates_utf8.prefix_of_flatMap fun _ => String.utf8EncodeChar_ne_nil
  · rintro ⟨rest, hrest⟩
    rw [utf8, utf8, ← hrest, List.flatMap_append]
    exact List.prefix_append _ _

/-- A character of ASCII is one byte. -/
theorem utf8EncodeChar_of_lt {c : Char} (h : c.toNat < 128) :
    String.utf8EncodeChar c = [UInt8.ofNat c.toNat] :=
  if_pos (Nat.le_of_lt_succ h)

/-- The bytes of any other character are beyond ASCII. -/
theorem le_of_mem_utf8EncodeChar {c : Char} (h : 128 ≤ c.toNat) {b : UInt8}
    (hb : b ∈ String.utf8EncodeChar c) : 128 ≤ b.toNat := by
  have hval : ¬c.val.toNat ≤ 0x7f := Nat.not_le_of_lt h
  have hbound : ∀ n, 128 ≤ n → n < 256 → 128 ≤ (UInt8.ofNat n).toNat := by
    intro n hlow hhigh
    rw [UInt8.toNat_ofNat', Nat.mod_eq_of_lt hhigh]
    exact hlow
  simp only [String.utf8EncodeChar] at hb
  rw [if_neg hval] at hb
  split_ifs at hb
  · simp only [List.mem_cons, List.not_mem_nil, or_false] at hb
    rcases hb with rfl | rfl <;> exact hbound _ (by omega) (by omega)
  · simp only [List.mem_cons, List.not_mem_nil, or_false] at hb
    rcases hb with rfl | rfl | rfl <;> exact hbound _ (by omega) (by omega)
  · simp only [List.mem_cons, List.not_mem_nil, or_false] at hb
    rcases hb with rfl | rfl | rfl | rfl <;> exact hbound _ (by omega) (by omega)

/-- A text of ASCII has one byte for each character. -/
theorem utf8_ofList_of_lt {cs : List Char} (h : ∀ c ∈ cs, c.toNat < 128) :
    utf8 (.ofList cs) = cs.map fun c => UInt8.ofNat c.toNat := by
  rw [utf8, String.toList_ofList]
  induction cs with
  | nil => rfl
  | cons c cs ih =>
    obtain ⟨hc, hcs⟩ := List.forall_mem_cons.mp h
    rw [List.flatMap_cons, utf8EncodeChar_of_lt hc, ih hcs, List.map_cons, List.singleton_append]

/-- Bytes of ASCII are the bytes of a text. -/
theorem fromUtf8_of_lt {bytes : List UInt8} (h : ∀ b ∈ bytes, b.toNat < 128) :
    fromUtf8 bytes = some (.ofList (bytes.map fun b => Char.ofNat b.toNat)) := by
  have hchar : ∀ b ∈ bytes, (Char.ofNat b.toNat).toNat = b.toNat := by
    intro b hb
    have hvalid : b.toNat.isValidChar := Or.inl (Nat.lt_trans (h b hb) (by decide))
    rw [Char.ofNat, dif_pos hvalid]
    rfl
  have hbytes : utf8 (.ofList (bytes.map fun b => Char.ofNat b.toNat)) = bytes := by
    rw [utf8_ofList_of_lt, List.map_map]
    · refine (List.map_congr_left fun b hb => ?_).trans (List.map_id _)
      rw [Function.comp_apply, hchar b hb, UInt8.ofNat_toNat, id]
    · intro c hc
      obtain ⟨b, hb, rfl⟩ := List.mem_map.mp hc
      rw [hchar b hb]
      exact h b hb
  rw [← hbytes, fromUtf8_utf8, hbytes]

/-- `&s[..n]`; nothing where the source panics, that is, if `n` is not at the end of a character. -/
def sliceTo (s : String) (n : ℕ) : Option String :=
  if n ≤ (utf8 s).length then fromUtf8 ((utf8 s).take n) else none

/-- `&s[n..]`; nothing where the source panics. -/
def sliceFrom (s : String) (n : ℕ) : Option String :=
  if n ≤ (utf8 s).length then fromUtf8 ((utf8 s).drop n) else none

/-- The two slices of a text of ASCII. -/
theorem slices_ofList_of_lt {cs : List Char} (h : ∀ c ∈ cs, c.toNat < 128) {n : ℕ}
    (hn : n ≤ cs.length) :
    sliceTo (.ofList cs) n = some (.ofList (cs.take n)) ∧
      sliceFrom (.ofList cs) n = some (.ofList (cs.drop n)) := by
  have hlength : n ≤ (utf8 (.ofList cs)).length := by
    rwa [utf8_ofList_of_lt h, List.length_map]
  rw [sliceTo, sliceFrom, if_pos hlength, if_pos hlength, utf8_ofList_of_lt h, ← List.map_take,
    ← List.map_drop, ← utf8_ofList_of_lt fun c hc => h c (List.mem_of_mem_take hc),
    ← utf8_ofList_of_lt fun c hc => h c (List.mem_of_mem_drop hc)]
  exact ⟨fromUtf8_utf8 _, fromUtf8_utf8 _⟩

/-- `char::is_whitespace`: the characters with the property White_Space. -/
def isWhitespace (c : Char) : Bool :=
  let n := c.toNat
  (9 ≤ n && n ≤ 13) || n == 32 || n == 0x85 || n == 0xa0 || n == 0x1680 ||
    (0x2000 ≤ n && n ≤ 0x200a) || n == 0x2028 || n == 0x2029 || n == 0x202f || n == 0x205f ||
    n == 0x3000

/-- `char::is_control`: the characters of the category Cc. -/
def isControl (c : Char) : Bool := c.toNat < 32 || (127 ≤ c.toNat && c.toNat < 160)

/-- `char::is_ascii_whitespace` -/
def isAsciiWhitespace (c : Char) : Bool :=
  c == ' ' || c == '\t' || c == '\n' || c == '\x0c' || c == '\r'

/-- `char::is_ascii_alphanumeric` -/
def isAsciiAlphanumeric (c : Char) : Bool :=
  let n := c.toNat
  (48 ≤ n && n ≤ 57) || (65 ≤ n && n ≤ 90) || (97 ≤ n && n ≤ 122)

/-- `char::to_ascii_uppercase` -/
def toAsciiUppercase (c : Char) : Char :=
  if 97 ≤ c.toNat ∧ c.toNat ≤ 122 then Char.ofNat (c.toNat - 32) else c

/-- `str::to_ascii_lowercase` -/
def toAsciiLowercase (s : String) : String :=
  .ofList (s.toList.map fun c =>
    if 65 ≤ c.toNat ∧ c.toNat ≤ 90 then Char.ofNat (c.toNat + 32) else c)

/-- Whether these characters stand somewhere in a text. -/
def standsIn (part : List Char) : List Char → Bool
  | [] => part.isEmpty
  | c :: cs => part.isPrefixOf (c :: cs) || standsIn part cs

/-- `str::contains` -/
def contains (s part : String) : Bool := standsIn part.toList s.toList

/-- `str::trim` -/
def trim (s : String) : String :=
  .ofList ((s.toList.dropWhile isWhitespace).reverse.dropWhile isWhitespace).reverse

/-- `str::strip_prefix` -/
def stripPrefix (start s : String) : Option String :=
  if start.toList <+: s.toList then some (.ofList (s.toList.drop start.toList.length)) else none

/-- A prefix that was put in front of a text is stripped. -/
theorem stripPrefix_append (start s : String) : stripPrefix start (start ++ s) = some s := by
  rw [stripPrefix, String.toList_append, if_pos (List.prefix_append _ _), List.drop_left,
    String.ofList_toList]

/-- Letters and digits are no white space and no control characters. -/
theorem plain_of_isAlphanum {c : Char} (h : c.isAlphanum = true) :
    isWhitespace c = false ∧ isAsciiWhitespace c = false ∧ isControl c = false := by
  have hrange : (48 ≤ c.toNat ∧ c.toNat ≤ 57) ∨ (65 ≤ c.toNat ∧ c.toNat ≤ 90) ∨
      (97 ≤ c.toNat ∧ c.toNat ≤ 122) := by
    change ((decide (65 ≤ c.val ∧ c.val ≤ 90) || (97 ≤ c.val && c.val ≤ 122)) ||
      (48 ≤ c.val && c.val ≤ 57)) = true at h
    simp only [Bool.or_eq_true, Bool.and_eq_true, decide_eq_true_eq, UInt32.le_iff_toNat_le] at h
    rcases h with (hupper | hlower) | hdigit
    · exact Or.inr (Or.inl hupper)
    · exact Or.inr (Or.inr hlower)
    · exact Or.inl hdigit
  refine ⟨?_, ?_, ?_⟩
  · simp only [isWhitespace, Bool.or_eq_false_iff, Bool.and_eq_false_iff, decide_eq_false_iff_not,
      beq_eq_false_iff_ne]
    omega
  · simp only [isAsciiWhitespace, Bool.or_eq_false_iff, beq_eq_false_iff_ne]
    refine ⟨⟨⟨⟨?_, ?_⟩, ?_⟩, ?_⟩, ?_⟩ <;>
      · rintro rfl
        revert hrange
        decide
  · simp only [isControl, Bool.or_eq_false_iff, Bool.and_eq_false_iff, decide_eq_false_iff_not]
    omega

end Text
