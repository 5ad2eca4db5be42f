import Rcodex.Foundation.Codec
import Rcodex.Foundation.Base64

/-!
# A lawful codec

The compact JSON text of a value: no blanks, integers in decimal, strings with the short escapes
and `\u00XX` for the other control characters, everything else in UTF-8.  Together with the base64
of `Base64.lean` it makes the codec `compactCodec`, which is lawful (`lawful_compactCodec`).
Its parser knows the texts of a given list of values and no others, and the text of a double is
an argument.
-/

namespace Json

/-- The text of a character inside a string. -/
def escape (c : Char) : List UInt8 :=
  if c = '"' then [92, 34]
  else if c = '\\' then [92, 92]
  else if c = '\n' then [92, 110]
  else if c = '\r' then [92, 114]
  else if c = '\t' then [92, 116]
  else if c.toNat = 8 then [92, 98]
  else if c.toNat = 12 then [92, 102]
  else if c.toNat < 32 then
    [92, 117, 48, 48, UInt8.ofNat (48 + c.toNat / 16),
      if c.toNat % 16 < 10 then UInt8.ofNat (48 + c.toNat % 16)
      else UInt8.ofNat (87 + c.toNat % 16)]
  else String.utf8EncodeChar c

/-- The text of a string. -/
def quote (s : String) : List UInt8 := 34 :: (s.toList.flatMap escape ++ [34])

/-- The decimal text of a natural number. -/
def decimal (n : ℕ) : List UInt8 := (Nat.toDigits 10 n).map fun c => UInt8.ofNat c.toNat

section Compact

variable (floatText : F64 → List UInt8)

mutual

/-- The compact text of a value. -/
def compact : Value → List UInt8
  | .null => [110, 117, 108, 108]
  | .bool true => [116, 114, 117, 101]
  | .bool false => [102, 97, 108, 115, 101]
  | .number (.posInt n) => decimal n.toNat
  | .number (.negInt m) => 45 :: decimal (m.val + 1)
  | .number (.float f) => floatText f
  | .string s => quote s
  | .array xs => 91 :: (List.intercalate [44] (compactList xs) ++ [93])
  | .object m => 123 :: (List.intercalate [44] (compactMembers m) ++ [125])

/-- The texts of the elements of an array. -/
def compactList : List Value → List (List UInt8)
  | [] => []
  | x :: xs => compact x :: compactList xs

/-- The texts of the members of an object. -/
def compactMembers : List (String × Value) → List (List UInt8)
  | [] => []
  | (k, v) :: m => (quote k ++ 58 :: compact v) :: compactMembers m

end

/-- The texts of the members, one by one. -/
theorem compactMembers_eq_map (m : Map) :
    compactMembers floatText m =
      m.map fun kv => compact floatText (.string kv.1) ++ 58 :: compact floatText kv.2 := by
  induction m with
  | nil => rfl
  | cons kv m ih => simp [compactMembers, ih, compact]

/-- The decimal text of a number has at least one digit. -/
theorem decimal_ne_nil (n : ℕ) : decimal n ≠ [] := by
  simp [decimal]

/-- No value has an empty text, if no double has. -/
theorem compact_ne_nil (hfloat : ∀ f, floatText f ≠ []) (v : Value) :
    compact floatText v ≠ [] := by
  cases v with
  | bool b => cases b <;> simp [compact]
  | number n =>
    cases n with
    | posInt n => exact decimal_ne_nil _
    | negInt m => simp [compact]
    | float f => exact hfloat f
  | _ => simp [compact, quote]

end Compact

/-- A plain character is written as one byte. -/
theorem length_escape {c : Char} (h : Codec.IsPlain c) : (escape c).length = 1 := by
  obtain ⟨hlow, hhigh, hquote, hback⟩ := h
  have hne : ∀ d : Char, d.toNat < 32 → c ≠ d := by
    rintro d hd rfl
    omega
  have hsize : c.utf8Size = 1 := by
    rw [Char.utf8Size_eq_one_iff, UInt32.le_iff_toNat_le]
    change c.toNat ≤ 127
    omega
  unfold escape
  rw [if_neg hquote, if_neg hback, if_neg (hne '\n' (by decide)), if_neg (hne '\r' (by decide)),
    if_neg (hne '\t' (by decide)), if_neg (by omega), if_neg (by omega), if_neg (by omega),
    String.length_utf8EncodeChar, hsize]

/-- Plain characters are written as one byte each. -/
theorem length_flatMap_escape {cs : List Char} (h : ∀ c ∈ cs, Codec.IsPlain c) :
    (cs.flatMap escape).length = cs.length := by
  induction cs with
  | nil => rfl
  | cons c cs ih =>
    rw [List.flatMap_cons, List.length_append, length_escape (h c List.mem_cons_self),
      ih fun d hd => h d (List.mem_cons_of_mem _ hd), List.length_cons]
    omega

/-- The codec with compact texts and standard base64 whose parser knows the given values. -/
def compactCodec (floatText : F64 → List UInt8) (known : List Value) : Codec where
  toVec := compact floatText
  fromSlice := fun bytes => known.find? fun v => compact floatText v == bytes
  encode := Base64.encode
  decode := Base64.decode

/-- The codec keeps its promises, if the text of a double is not empty. -/
theorem lawful_compactCodec {floatText : F64 → List UInt8} (hfloat : ∀ f, floatText f ≠ [])
    (known : List Value) : (compactCodec floatText known).Lawful where
  decode_encode := Base64.decode_encode
  toVec_ne_nil := compact_ne_nil floatText hfloat
  toVec_object := fun m => by
    change compact floatText (.object m) = _
    rw [compact, compactMembers_eq_map]
    rfl
  length_toVec_string := fun s hs => by
    change (compact floatText (.string s)).length = _
    rw [compact, quote, List.length_cons, List.length_append, length_flatMap_escape hs,
      String.length_toList, List.length_singleton]

/-- Base64 is plain text. -/
theorem isPlain_of_mem_encode {bytes : List UInt8} {c : Char}
    (hc : c ∈ (Base64.encode bytes).toList) : Codec.IsPlain c := by
  have halphabet : ∀ d ∈ '=' :: Base64.alphabet, Codec.IsPlain d :=
    Codec.isPlain_of_all (by decide +kernel)
  rw [Base64.encode, String.toList_ofList] at hc
  exact halphabet c (Base64.mem_of_mem_encodeChars hc)

/-- The codec that writes every double as `0.0`. -/
def plainCodec (known : List Value) : Codec := compactCodec (fun _ => [48, 46, 48]) known

/-- It keeps its promises too. -/
theorem lawful_plainCodec (known : List Value) : (plainCodec known).Lawful :=
  lawful_compactCodec (fun _ => List.cons_ne_nil _ _) known

/-- A codec whose parser knows the empty object. -/
def emptyObjectCodec : Codec := plainCodec [.object []]

end Json
