import Rcodex.Foundation.PrettyJson

/-!
# The indented text of a value in ASCII

`dumps` writes what `json.dumps` of Python does with an indentation of two blanks: the lines of
`pretty`, and every character that is not printable ASCII as one or two UTF-16 units in
hexadecimal.  If all strings are printable ASCII it is the text that `to_vec_pretty` writes
(`dumps_eq_toVecPretty`).
-/

namespace Json

/-- A lower-case hexadecimal digit. -/
def hexByte (n : ℕ) : UInt8 := UInt8.ofNat (if n < 10 then 48 + n else 87 + n)

/-- A UTF-16 unit as it is escaped. -/
def escapeUnit (n : ℕ) : List UInt8 :=
  [92, 117, hexByte (n / 4096 % 16), hexByte (n / 256 % 16), hexByte (n / 16 % 16),
    hexByte (n % 16)]

/-- The text of a character inside a string, in ASCII. -/
def asciiEscape (c : Char) : List UInt8 :=
  if c = '"' then [92, 34]
  else if c = '\\' then [92, 92]
  else if c = '\n' then [92, 110]
  else if c = '\r' then [92, 114]
  else if c = '\t' then [92, 116]
  else if c.toNat = 8 then [92, 98]
  else if c.toNat = 12 then [92, 102]
  else if 32 ≤ c.toNat ∧ c.toNat ≤ 126 then [UInt8.ofNat c.toNat]
  else if c.toNat < 65536 then escapeUnit c.toNat
  else escapeUnit (55296 + (c.toNat - 65536) / 1024) ++
    escapeUnit (56320 + (c.toNat - 65536) % 1024)

/-- The text of a string in ASCII. -/
def asciiQuote (s : String) : List UInt8 := 34 :: (s.toList.flatMap asciiEscape ++ [34])

section Dumps

variable (floatText : F64 → List UInt8)

mutual

/-- The text of a value whose first line is indented like this. -/
def dumpsFrom (indent : ℕ) : Value → List UInt8
  | .array xs => 91 :: (block indent (dumpsList (indent + 1) xs) ++ [93])
  | .object m => 123 :: (block indent (dumpsMembers (indent + 1) m) ++ [125])
  | .null => compact floatText .null
  | .bool b => compact floatText (.bool b)
  | .number n => compact floatText (.number n)
  | .string s => asciiQuote s

/-- The texts of the elements of an array. -/
def dumpsList (indent : ℕ) : List Value → List (List UInt8)
  | [] => []
  | x :: xs => dumpsFrom indent x :: dumpsList indent xs

/-- The texts of the members of an object. -/
def dumpsMembers (indent : ℕ) : List (String × Value) → List (List UInt8)
  | [] => []
  | (k, v) :: m => (asciiQuote k ++ 58 :: 32 :: dumpsFrom indent v) :: dumpsMembers indent m

end

/-- `json.dumps` with `indent=2` -/
def dumps (v : Value) : List UInt8 := dumpsFrom floatText 0 v

end Dumps

/-! ### Printable ASCII -/

/-- A text of printable ASCII. -/
def IsPrintable (s : String) : Prop := ∀ c ∈ s.toList, 32 ≤ c.toNat ∧ c.toNat ≤ 126

instance (s : String) : Decidable (IsPrintable s) := List.decidableBAll _ _

mutual

/-- All strings in the value are printable. -/
def Value.Printable : Value → Prop
  | .string s => IsPrintable s
  | .array xs => Value.PrintableList xs
  | .object members => Value.PrintableMembers members
  | _ => True

/-- All strings in the elements are printable. -/
def Value.PrintableList : List Value → Prop
  | [] => True
  | x :: xs => x.Printable ∧ Value.PrintableList xs

/-- All keys and strings in the members are printable. -/
def Value.PrintableMembers : List (String × Value) → Prop
  | [] => True
  | (k, v) :: members => IsPrintable k ∧ v.Printable ∧ Value.PrintableMembers members

end

/-- A printable character is written alike. -/
theorem asciiEscape_eq {c : Char} (h : 32 ≤ c.toNat ∧ c.toNat ≤ 126) :
    asciiEscape c = escape c := by
  have hchar : String.utf8EncodeChar c = [UInt8.ofNat c.toNat] :=
    if_pos (show c.val.toNat ≤ 0x7f by have hle : c.val.toNat ≤ 126 := h.2; omega)
  have hnot : ¬c.toNat < 32 := by omega
  unfold asciiEscape escape
  simp only [if_pos h, if_neg hnot, hchar]

/-- A printable string is written alike. -/
theorem asciiQuote_eq {s : String} (h : IsPrintable s) : asciiQuote s = quote s := by
  rw [asciiQuote, quote, List.flatMap_congr fun c hc => asciiEscape_eq (h c hc)]

section Dumps

variable (floatText : F64 → List UInt8)

mutual

/-- A printable value is written alike. -/
theorem dumpsFrom_eq_pretty (indent : ℕ) :
    ∀ v : Value, v.Printable → dumpsFrom floatText indent v = pretty floatText indent v
  | .null, _ => rfl
  | .bool _, _ => rfl
  | .number _, _ => rfl
  | .string _, h => asciiQuote_eq h
  | .array xs, h => by rw [dumpsFrom, pretty, dumpsList_eq_prettyList (indent + 1) xs h]
  | .object m, h => by rw [dumpsFrom, pretty, dumpsMembers_eq_prettyMembers (indent + 1) m h]

/-- Printable elements are written alike. -/
theorem dumpsList_eq_prettyList (indent : ℕ) : ∀ xs : List Value, Value.PrintableList xs →
    dumpsList floatText indent xs = prettyList floatText indent xs
  | [], _ => rfl
  | x :: xs, h => by
    rw [dumpsList, prettyList, dumpsFrom_eq_pretty indent x h.1,
      dumpsList_eq_prettyList indent xs h.2]

/-- Printable members are written alike. -/
theorem dumpsMembers_eq_prettyMembers (indent : ℕ) :
    ∀ m : List (String × Value), Value.PrintableMembers m →
      dumpsMembers floatText indent m = prettyMembers floatText indent m
  | [], _ => rfl
  | (k, v) :: m, h => by
    rw [dumpsMembers, prettyMembers, asciiQuote_eq h.1, dumpsFrom_eq_pretty indent v h.2.1,
      dumpsMembers_eq_prettyMembers indent m h.2.2]

end

/-- A printable value has the text that `to_vec_pretty` writes. -/
theorem dumps_eq_toVecPretty {v : Value} (h : v.Printable) :
    dumps floatText v = toVecPretty floatText v := dumpsFrom_eq_pretty floatText 0 v h

end Dumps

end Json
