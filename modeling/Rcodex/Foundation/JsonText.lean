import Rcodex.Foundation.CompactJson
import Rcodex.Foundation.PrefixCode
import Rcodex.Foundation.Text

/-!
# Reading a JSON text back

Where a quoted string stands at the front of a text it can be read back: escaping is a prefix code,
so no string can imitate the quotes, commas and colons around it (`quote_append_inj`).  The compact
text of a value without doubles therefore determines the value (`compact_inj`).  A string without
control characters takes one byte more for each quote and each backslash (`length_quote`).
-/

namespace Json

open PrefixCode

/-- The value of a lower-case hexadecimal digit. -/
def hexValue (digit : UInt8) : ℕ :=
  if digit.toNat < 58 then digit.toNat - 48 else digit.toNat - 87

/-- The character at the front of the inside of a string. -/
def unescape : List UInt8 → Option Char
  | 92 :: 34 :: _ => some '"'
  | 92 :: 92 :: _ => some '\\'
  | 92 :: 110 :: _ => some '\n'
  | 92 :: 114 :: _ => some '\r'
  | 92 :: 116 :: _ => some '\t'
  | 92 :: 98 :: _ => some (Char.ofNat 8)
  | 92 :: 102 :: _ => some (Char.ofNat 12)
  | 92 :: 117 :: _ :: _ :: high :: low :: _ =>
    some (Char.ofNat (hexValue high * 16 + hexValue low))
  | bytes => bytes.toByteArray.utf8DecodeChar? 0

/-- A byte other than the backslash starts a character in UTF-8. -/
theorem unescape_of_ne {b : UInt8} (h : b ≠ 92) (bytes : List UInt8) :
    unescape (b :: bytes) = (b :: bytes).toByteArray.utf8DecodeChar? 0 := by
  unfold unescape
  split <;> simp_all

/-- The characters that UTF-8 writes with a given first byte below 128. -/
theorem eq_of_utf8_eq_cons {c d : Char} {b : UInt8} {r r' : List UInt8}
    (hd : String.utf8EncodeChar d = [b]) (h : String.utf8EncodeChar c ++ r = b :: r') : c = d := by
  have heq : String.utf8EncodeChar c ++ r = String.utf8EncodeChar d ++ r' := by rw [h, hd]; rfl
  exact Text.separates_utf8 heq

theorem hexValue_digit {n : ℕ} (h : n < 10) : hexValue (UInt8.ofNat (48 + n)) = n := by
  have hmod : (48 + n) % 256 = 48 + n := by omega
  simp only [hexValue, UInt8.toNat_ofNat', Nat.reducePow, hmod]
  rw [if_pos (by omega)]
  omega

theorem hexValue_letter {n : ℕ} (hlow : 10 ≤ n) (h : n < 16) :
    hexValue (UInt8.ofNat (87 + n)) = n := by
  have hmod : (87 + n) % 256 = 87 + n := by omega
  simp only [hexValue, UInt8.toNat_ofNat', Nat.reducePow, hmod]
  rw [if_neg (by omega)]
  omega

/-- Unescaping inverts escaping. -/
theorem unescape_escape (c : Char) (r : List UInt8) : unescape (escape c ++ r) = some c := by
  have hofNat : ∀ n, c.toNat = n → some (Char.ofNat n) = some c := by
    rintro n rfl
    rw [Char.ofNat_toNat]
  unfold escape
  split_ifs with hquote hback hn hr ht h8 h12 h32 hdigit
  · rw [hquote]; rfl
  · rw [hback]; rfl
  · rw [hn]; rfl
  · rw [hr]; rfl
  · rw [ht]; rfl
  · exact hofNat 8 h8
  · exact hofNat 12 h12
  · apply hofNat
    rw [hexValue_digit (by omega), hexValue_digit hdigit]
    omega
  · apply hofNat
    rw [hexValue_digit (by omega), hexValue_letter (by omega) (by omega)]
    omega
  · obtain ⟨b, bytes, hbytes⟩ := List.exists_cons_of_ne_nil (String.utf8EncodeChar_ne_nil (c := c))
    have hb : b ≠ 92 := by
      rintro rfl
      exact hback (eq_of_utf8_eq_cons (d := '\\') rfl ((List.append_nil _).trans hbytes))
    rw [hbytes, List.cons_append, unescape_of_ne hb, ← List.cons_append, ← hbytes,
      List.toByteArray_append]
    exact ByteArray.utf8DecodeChar?_utf8EncodeChar_append

/-- Escaping is a prefix code. -/
theorem separates_escape : Separates escape := separates_of_read unescape unescape_escape

/-- No escaped character starts with a quote. -/
theorem escape_append_ne (c : Char) (r r' : List UInt8) : escape c ++ r ≠ 34 :: r' := by
  intro h
  unfold escape at h
  split_ifs at h with hquote hback hn hr ht h8 h12 h32 hdigit
  all_goals first
    | exact hquote (eq_of_utf8_eq_cons (d := '"') rfl h)
    | simp at h

/-- A quoted string at the front of a text is determined, and so is the rest of the text. -/
theorem quote_append_inj {s t : String} {r r' : List UInt8} (h : quote s ++ r = quote t ++ r') :
    s = t ∧ r = r' := by
  have hinside : s.toList.flatMap escape ++ 34 :: r = t.toList.flatMap escape ++ 34 :: r' := by
    simpa [quote] using h
  obtain ⟨hchars, hrest⟩ := separates_escape.flatMap escape_append_ne hinside
  exact ⟨String.toList_inj.mp hchars, hrest⟩

/-! ### Numbers -/

/-- Whether a byte is a decimal digit. -/
def IsDigit (b : UInt8) : Prop := 48 ≤ b.toNat ∧ b.toNat ≤ 57

/-- The byte of a digit is a digit. -/
theorem isDigit_ofNat {c : Char} (h : c.isDigit = true) : IsDigit (UInt8.ofNat c.toNat) := by
  have hrange : 48 ≤ c.toNat ∧ c.toNat ≤ 57 := Char.isDigit_iff_toNat.mp h
  have hmod : c.toNat % 256 = c.toNat := by omega
  simpa only [IsDigit, UInt8.toNat_ofNat', Nat.reducePow, hmod] using hrange

/-- A decimal text consists of digits. -/
theorem isDigit_of_mem_decimal {n : ℕ} {b : UInt8} (h : b ∈ decimal n) : IsDigit b := by
  obtain ⟨c, hc, rfl⟩ := List.mem_map.mp h
  exact isDigit_ofNat (Nat.isDigit_of_mem_toDigits (by omega) (by omega) hc)

/-- The digits of a decimal text, read back. -/
theorem map_decimal (n : ℕ) :
    (decimal n).map (fun b => Char.ofNat b.toNat) = Nat.toDigits 10 n := by
  rw [decimal, List.map_map]
  refine (List.map_congr_left fun c hc => ?_).trans (List.map_id _)
  have hdigit : c.isDigit = true := Nat.isDigit_of_mem_toDigits (by omega) (by omega) hc
  have hrange : 48 ≤ c.toNat ∧ c.toNat ≤ 57 := Char.isDigit_iff_toNat.mp hdigit
  have hmod : c.toNat % 256 = c.toNat := by omega
  simp only [Function.comp_apply, UInt8.toNat_ofNat', Nat.reducePow, hmod, Char.ofNat_toNat, id]

/-- Different numbers have different texts. -/
theorem decimal_inj {m n : ℕ} (h : decimal m = decimal n) : m = n := by
  have hdigits : Nat.toDigits 10 m = Nat.toDigits 10 n := by
    rw [← map_decimal, h, map_decimal]
  rw [← Nat.ofDigitChars_ten_toDigits (n := m), hdigits, Nat.ofDigitChars_ten_toDigits]

/-- A decimal text does not start with a sign. -/
theorem decimal_ne_minus (m : ℕ) (r : List UInt8) : decimal m ≠ 45 :: r := by
  intro h
  have hdigit : IsDigit 45 := isDigit_of_mem_decimal (n := m) (by rw [h]; exact List.mem_cons_self)
  exact absurd hdigit.1 (by decide)

/-- A byte of an integer: a digit or the sign. -/
def IsNumeric (b : UInt8) : Prop := IsDigit b ∨ b = 45

instance (b : UInt8) : Decidable (IsDigit b) := inferInstanceAs (Decidable (_ ∧ _))

instance (b : UInt8) : Decidable (IsNumeric b) := inferInstanceAs (Decidable (_ ∨ _))

/-- A text that does not go on with a number. -/
def EndsNumber (r : List UInt8) : Prop := ∀ b ∈ r.head?, ¬IsNumeric b

/-- A text that starts with a byte of another kind does not go on with a number. -/
theorem endsNumber_cons {b : UInt8} (h : ¬IsNumeric b) (r : List UInt8) : EndsNumber (b :: r) := by
  intro b' hb'
  cases hb'
  exact h

/-! ### Values -/

mutual

/-- No number in the value is a double. -/
def Value.Integral : Value → Prop
  | .number (.float _) => False
  | .array xs => Value.IntegralList xs
  | .object members => Value.IntegralMembers members
  | _ => True

/-- No number in the elements is a double. -/
def Value.IntegralList : List Value → Prop
  | [] => True
  | x :: xs => x.Integral ∧ Value.IntegralList xs

/-- No number in the members is a double. -/
def Value.IntegralMembers : List (String × Value) → Prop
  | [] => True
  | (_, v) :: members => v.Integral ∧ Value.IntegralMembers members

end

/-- Element by element. -/
theorem Value.integralList_iff {xs : List Value} :
    Value.IntegralList xs ↔ ∀ x ∈ xs, x.Integral := by
  induction xs with
  | nil => simp [Value.IntegralList]
  | cons x xs ih => rw [Value.IntegralList, ih, List.forall_mem_cons]

/-- Member by member. -/
theorem Value.integralMembers_iff {members : List (String × Value)} :
    Value.IntegralMembers members ↔ ∀ kv ∈ members, kv.2.Integral := by
  induction members with
  | nil => simp [Value.IntegralMembers]
  | cons kv members ih => rw [Value.IntegralMembers, ih, List.forall_mem_cons]

/-- The texts of the elements of an array, one by one. -/
theorem compactList_eq_map (floatText : F64 → List UInt8) (xs : List Value) :
    compactList floatText xs = xs.map (compact floatText) := by
  induction xs with
  | nil => rfl
  | cons x xs ih => rw [compactList, ih, List.map_cons]

section Injectivity

variable (floatText : F64 → List UInt8)

/-- The text of an integral number is not empty and consists of digits and the sign. -/
theorem compact_number {n : Number} (h : (Value.number n).Integral) :
    compact floatText (.number n) ≠ [] ∧
      ∀ b ∈ compact floatText (.number n), IsNumeric b := by
  cases n with
  | posInt n => exact ⟨decimal_ne_nil _, fun b hb => Or.inl (isDigit_of_mem_decimal hb)⟩
  | negInt m =>
    refine ⟨List.cons_ne_nil _ _, fun b hb => ?_⟩
    rcases List.mem_cons.mp hb with rfl | hb
    · exact Or.inr rfl
    · exact Or.inl (isDigit_of_mem_decimal hb)
  | float f => exact h.elim

/-- Different integral numbers have different texts. -/
theorem compact_number_inj {m n : Number} (hm : (Value.number m).Integral)
    (hn : (Value.number n).Integral)
    (h : compact floatText (.number m) = compact floatText (.number n)) : m = n := by
  cases m with
  | posInt m =>
    cases n with
    | posInt n => exact congrArg Number.posInt (UInt64.toNat_inj.mp (decimal_inj h))
    | negInt n => exact absurd h (decimal_ne_minus _ _)
    | float f => exact hn.elim
  | negInt m =>
    cases n with
    | posInt n => exact absurd h.symm (decimal_ne_minus _ _)
    | negInt n =>
      have hsucc : m.val + 1 = n.val + 1 := decimal_inj (List.cons.inj h).2
      exact congrArg Number.negInt (Fin.ext (Nat.succ.inj hsucc))
    | float f => exact hn.elim
  | float f => exact hm.elim

/-- The kind of a value, told by the first byte of its text. -/
def textKind : List UInt8 → ℕ
  | 110 :: _ => 0
  | 116 :: _ => 1
  | 102 :: _ => 2
  | 34 :: _ => 3
  | 91 :: _ => 4
  | 123 :: _ => 5
  | b :: _ => if IsNumeric b then 6 else 7
  | [] => 7

/-- The kind of a value. -/
def Value.kind : Value → ℕ
  | .null => 0
  | .bool true => 1
  | .bool false => 2
  | .string _ => 3
  | .array _ => 4
  | .object _ => 5
  | .number _ => 6

/-- A number is told by its first byte. -/
theorem textKind_of_isNumeric {b : UInt8} (h : IsNumeric b) (bytes : List UInt8) :
    textKind (b :: bytes) = 6 := by
  unfold textKind
  split
  case h_7 b' _ _ _ _ _ _ _ heq =>
    obtain ⟨rfl, -⟩ := List.cons.inj heq
    exact if_pos h
  case h_8 heq => cases heq
  all_goals
    rename_i heq
    obtain ⟨rfl, -⟩ := List.cons.inj heq
    exact absurd h (by decide)

/-- The first byte of the text of a value tells its kind. -/
theorem textKind_compact {v : Value} (hv : v.Integral) (r : List UInt8) :
    textKind (compact floatText v ++ r) = v.kind := by
  cases v with
  | bool b => cases b <;> rfl
  | number n =>
    obtain ⟨hne, hnumeric⟩ := compact_number floatText hv
    obtain ⟨b, bytes, hbytes⟩ := List.exists_cons_of_ne_nil hne
    rw [hbytes] at hnumeric ⊢
    exact textKind_of_isNumeric (hnumeric b List.mem_cons_self) _
  | _ => rfl

/-- No text of a value starts with a closing bracket. -/
theorem compact_append_ne {v : Value} (hv : v.Integral) (r r' : List UInt8) :
    compact floatText v ++ r ≠ 93 :: r' := by
  intro h
  have hkind := textKind_compact floatText hv r
  rw [h] at hkind
  have hseven : textKind (93 :: r') = 7 := rfl
  rw [hseven] at hkind
  cases v with
  | bool b => cases b <;> cases hkind
  | _ => cases hkind

/-- Two values of one kind. -/
inductive SameKind : Value → Value → Prop
  | null : SameKind .null .null
  | bool (b : Bool) : SameKind (.bool b) (.bool b)
  | number (m n : Number) : SameKind (.number m) (.number n)
  | string (s t : String) : SameKind (.string s) (.string t)
  | array (xs ys : List Value) : SameKind (.array xs) (.array ys)
  | object (m n : Map) : SameKind (.object m) (.object n)

/-- The kinds of two values agree exactly when they are of one kind. -/
theorem sameKind_of_kind_eq {v w : Value} (h : v.kind = w.kind) : SameKind v w := by
  cases v with
  | bool b =>
    cases w with
    | bool c => cases b <;> cases c <;> first | exact .bool _ | cases h
    | _ => cases b <;> cases h
  | _ =>
    cases w with
    | bool c => cases c <;> cases h
    | _ => first | constructor | cases h

/-- Values with one text are of one kind. -/
theorem sameKind_of_compact_append {v w : Value} (hv : v.Integral) (hw : w.Integral)
    {r r' : List UInt8} (h : compact floatText v ++ r = compact floatText w ++ r') :
    SameKind v w := by
  apply sameKind_of_kind_eq
  rw [← textKind_compact floatText hv r, h, textKind_compact floatText hw r']

/-- The text of a value determines the value and what follows it, as long as that does not go on
with a number. -/
def Determined (v : Value) : Prop :=
  ∀ ⦃w : Value⦄ ⦃r r' : List UInt8⦄, v.Integral → w.Integral → EndsNumber r → EndsNumber r' →
    compact floatText v ++ r = compact floatText w ++ r' → v = w ∧ r = r'

variable {floatText}

/-- A number ends where its digits end. -/
theorem determined_number (m : Number) : Determined floatText (.number m) := by
  intro w r r' hv hw hr hr' h
  cases sameKind_of_compact_append floatText hv hw h with
  | number _ n =>
    obtain ⟨htext, hrest⟩ := eq_of_append (compact_number floatText hv).2
      (compact_number floatText hw).2 hr hr' h
    exact ⟨congrArg Value.number (compact_number_inj floatText hv hw htext), hrest⟩

/-- A string ends at its closing quote. -/
theorem determined_string (s : String) : Determined floatText (.string s) := by
  intro w r r' hv hw _ _ h
  cases sameKind_of_compact_append floatText hv hw h with
  | string _ t =>
    obtain ⟨rfl, hrest⟩ := quote_append_inj h
    exact ⟨rfl, hrest⟩

/-- An array is determined if its elements are. -/
theorem determined_array {xs : List Value} (ih : ∀ x ∈ xs, Determined floatText x) :
    Determined floatText (.array xs) := by
  intro w r r' hv hw _ _ h
  cases sameKind_of_compact_append floatText hv hw h with
  | array _ ys =>
    have hxs := Value.integralList_iff.mp hv
    have hys := Value.integralList_iff.mp hw
    have hinside : List.intercalate [44] (xs.map (compact floatText)) ++ 93 :: r =
        List.intercalate [44] (ys.map (compact floatText)) ++ 93 :: r' := by
      simpa [compact, compactList_eq_map] using h
    obtain ⟨rfl, hrest⟩ := intercalate_append_inj (by decide) (endsNumber_cons (by decide))
      (endsNumber_cons (by decide)) (fun x hx => compact_append_ne floatText (hxs x hx))
      (fun y hy => compact_append_ne floatText (hys y hy))
      (fun x hx y hy t t' => ih x hx (hxs x hx) (hys y hy)) hinside
    exact ⟨rfl, hrest⟩

/-- The text of a member determines it if the text of its value does. -/
theorem member_append_inj {kv lw : String × Value} (ih : Determined floatText kv.2)
    (hkv : kv.2.Integral) (hlw : lw.2.Integral) {r r' : List UInt8} (hr : EndsNumber r)
    (hr' : EndsNumber r')
    (h : (compact floatText (.string kv.1) ++ 58 :: compact floatText kv.2) ++ r =
      (compact floatText (.string lw.1) ++ 58 :: compact floatText lw.2) ++ r') :
    kv = lw ∧ r = r' := by
  rw [List.append_assoc, List.append_assoc] at h
  obtain ⟨hkey, hcolon⟩ := quote_append_inj h
  obtain ⟨hvalue, hrest⟩ := ih hkv hlw hr hr' (List.cons.inj hcolon).2
  exact ⟨Prod.ext hkey hvalue, hrest⟩

/-- An object is determined if the values of its members are. -/
theorem determined_object {m : Map} (ih : ∀ kv ∈ m, Determined floatText kv.2) :
    Determined floatText (.object m) := by
  intro w r r' hv hw _ _ h
  cases sameKind_of_compact_append floatText hv hw h with
  | object _ n =>
    have hm := Value.integralMembers_iff.mp hv
    have hn := Value.integralMembers_iff.mp hw
    have hquote : ∀ (kv : String × Value) (t t' : List UInt8),
        (compact floatText (.string kv.1) ++ 58 :: compact floatText kv.2) ++ t ≠ 125 :: t' :=
      fun kv t t' heq => absurd (List.cons.inj heq).1 (by decide)
    have hinside : List.intercalate [44] (m.map fun kv =>
          compact floatText (.string kv.1) ++ 58 :: compact floatText kv.2) ++ 125 :: r =
        List.intercalate [44] (n.map fun kv =>
          compact floatText (.string kv.1) ++ 58 :: compact floatText kv.2) ++ 125 :: r' := by
      simpa [compact, compactMembers_eq_map] using h
    obtain ⟨rfl, hrest⟩ := intercalate_append_inj (by decide) (endsNumber_cons (by decide))
      (endsNumber_cons (by decide)) (fun kv _ => hquote kv) (fun kv _ => hquote kv)
      (fun kv hkv lw hlw t t' => member_append_inj (ih kv hkv) (hm kv hkv) (hn lw hlw)) hinside
    exact ⟨rfl, hrest⟩

/-- Every value is determined. -/
theorem determined (v : Value) : Determined floatText v := by
  induction v using Value.nested_induction with
  | null =>
    intro w r r' hv hw _ _ h
    cases sameKind_of_compact_append floatText hv hw h with
    | null => exact ⟨rfl, List.append_cancel_left h⟩
  | bool b =>
    intro w r r' hv hw _ _ h
    cases sameKind_of_compact_append floatText hv hw h with
    | bool => exact ⟨rfl, List.append_cancel_left h⟩
  | number m => exact determined_number m
  | string s => exact determined_string s
  | array xs ih => exact determined_array ih
  | object m ih => exact determined_object ih

/-- Different integral values have different texts. -/
theorem compact_inj {v w : Value} (hv : v.Integral) (hw : w.Integral)
    (h : compact floatText v = compact floatText w) : v = w := by
  have hends : EndsNumber [] := fun b hb => by cases hb
  exact (determined v hv hw hends hends (by rw [h])).1

end Injectivity

/-! ### Lengths -/

/-- Whether a character is written with a backslash in a text without control characters. -/
def IsEscaped (c : Char) : Prop := c = '"' ∨ c = '\\'

instance (c : Char) : Decidable (IsEscaped c) := inferInstanceAs (Decidable (_ ∨ _))

/-- The bytes a string takes between its quotes, if it has no control characters: its UTF-8 bytes
and one more for each quote and each backslash. -/
def escapedSize (s : String) : ℕ := (Text.utf8 s).length + s.toList.countP IsEscaped

/-- The length of one escaped character. -/
theorem length_escape_of_not_control {c : Char} (h : Text.isControl c = false) :
    (escape c).length = c.utf8Size + if IsEscaped c then 1 else 0 := by
  simp only [Text.isControl, Bool.or_eq_false_iff, decide_eq_false_iff_not, not_lt] at h
  have hlow : 32 ≤ c.toNat := h.1
  have hne : ∀ d : Char, d.toNat < 32 → c ≠ d := by
    rintro d hd rfl
    omega
  by_cases hquote : c = '"'
  · subst hquote
    rfl
  by_cases hback : c = '\\'
  · subst hback
    rfl
  have hplain : ¬IsEscaped c := fun hescaped => hescaped.elim hquote hback
  rw [escape, if_neg hquote, if_neg hback, if_neg (hne '\n' (by decide)),
    if_neg (hne '\r' (by decide)), if_neg (hne '\t' (by decide)), if_neg (by omega),
    if_neg (by omega), if_neg (by omega), if_neg hplain, String.length_utf8EncodeChar, Nat.add_zero]

/-- The length of a quoted string without control characters. -/
theorem length_quote {s : String} (h : ∀ c ∈ s.toList, Text.isControl c = false) :
    (quote s).length = escapedSize s + 2 := by
  have hinside : ∀ cs : List Char, (∀ c ∈ cs, Text.isControl c = false) →
      (cs.flatMap escape).length =
        (cs.flatMap String.utf8EncodeChar).length + cs.countP IsEscaped := by
    intro cs hcs
    induction cs with
    | nil => rfl
    | cons c cs ih =>
      have hc := length_escape_of_not_control (hcs c List.mem_cons_self)
      have hrest := ih fun d hd => hcs d (List.mem_cons_of_mem _ hd)
      rw [List.flatMap_cons, List.flatMap_cons, List.length_append, List.length_append, hc, hrest,
        List.countP_cons, String.length_utf8EncodeChar]
      simp only [decide_eq_true_eq]
      omega
  rw [quote, List.length_cons, List.length_append, List.length_singleton, hinside _ h]
  rfl

/-- A number below a power of ten has at most that many digits. -/
theorem length_decimal_le {n k : ℕ} (hk : 0 < k) (h : n < 10 ^ k) : (decimal n).length ≤ k := by
  rw [decimal, List.length_map]
  exact (Nat.length_toDigits_le_iff (by omega) hk).mpr h

/-- The length of an array: two brackets, the elements and the commas between them. -/
theorem length_compact_array (floatText : F64 → List UInt8) (xs : List Value) :
    (compact floatText (.array xs)).length =
      2 + (xs.map fun x => (compact floatText x).length).sum + (xs.length - 1) := by
  rw [compact, compactList_eq_map, List.length_cons, List.length_append, List.length_singleton]
  cases xs with
  | nil => rfl
  | cons x xs =>
    have hsum : (xs.map fun y => (compact floatText y).length + 1).sum =
        (xs.map fun y => (compact floatText y).length).sum + xs.length := by
      rw [List.sum_map_add]
      simp
    rw [List.map_cons, Codec.length_intercalate, List.map_map, List.map_cons, List.sum_cons,
      List.length_cons]
    simp only [Function.comp_def, hsum]
    omega

end Json
