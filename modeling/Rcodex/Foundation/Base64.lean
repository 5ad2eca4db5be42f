import Mathlib.Data.List.Basic
import Mathlib.Data.Nat.Basic

/-!
# Base64 with the standard alphabet

The encoding with padding.  Three bytes make four characters; a last group of one or two bytes is
padded with `=`.  The decoder is strict: the padding must be there and the bits it replaces must be
zero.  `decode_encode` is the round trip.
-/

namespace Base64

/-- The characters of the alphabet, in the order of their values. -/
def alphabet : List Char :=
  "ABCDEFGHIJKLMNOPQRSTUVWXYZabcdefghijklmnopqrstuvwxyz0123456789+/".toList

/-- The character of a value below 64. -/
def toChar (n : ℕ) : Char := alphabet.getD n '='

/-- The value of a character of the alphabet. -/
def ofChar (c : Char) : Option ℕ := alphabet.findIdx? (· = c)

/-- The encoding of a byte string, as a list of characters. -/
def encodeChars : List UInt8 → List Char
  | [] => []
  | [a] => [toChar (a.toNat / 4), toChar (a.toNat % 4 * 16), '=', '=']
  | [a, b] => [toChar (a.toNat / 4), toChar (a.toNat % 4 * 16 + b.toNat / 16),
      toChar (b.toNat % 16 * 4), '=']
  | a :: b :: c :: bytes =>
    toChar (a.toNat / 4) :: toChar (a.toNat % 4 * 16 + b.toNat / 16) ::
      toChar (b.toNat % 16 * 4 + c.toNat / 64) :: toChar (c.toNat % 64) :: encodeChars bytes

/-- The bytes of a last group with padding. -/
def decodeLast (w x y : Char) : Option (List UInt8) := do
  let p ← ofChar w
  let q ← ofChar x
  if y = '=' then
    if q % 16 = 0 then some [UInt8.ofNat (p * 4 + q / 16)] else none
  else
    let r ← ofChar y
    if r % 4 = 0 then
      some [UInt8.ofNat (p * 4 + q / 16), UInt8.ofNat (q % 16 * 16 + r / 4)]
    else none

/-- The bytes of a group without padding. -/
def decodeGroup (w x y z : Char) : Option (List UInt8) := do
  let p ← ofChar w
  let q ← ofChar x
  let r ← ofChar y
  let s ← ofChar z
  some [UInt8.ofNat (p * 4 + q / 16), UInt8.ofNat (q % 16 * 16 + r / 4),
    UInt8.ofNat (r % 4 * 64 + s)]

/-- The byte string of a list of characters, if it is an encoding. -/
def decodeChars : List Char → Option (List UInt8)
  | [] => some []
  | w :: x :: y :: z :: chars =>
    if z = '=' ∧ chars = [] then decodeLast w x y
    else do
      let bytes ← decodeGroup w x y z
      let rest ← decodeChars chars
      some (bytes ++ rest)
  | _ => none

/-- The encoding of a byte string. -/
def encode (bytes : List UInt8) : String := String.ofList (encodeChars bytes)

/-- The byte string of a text. -/
def decode (text : String) : Option (List UInt8) := decodeChars text.toList

/-- Every value below 64 is the value of its character. -/
theorem ofChar_toChar {n : ℕ} (hn : n < 64) : ofChar (toChar n) = some n := by
  revert n
  decide +kernel

/-- The padding is not a character of the alphabet. -/
theorem toChar_ne_pad {n : ℕ} (hn : n < 64) : toChar n ≠ '=' := by
  revert n
  decide +kernel

/-- The first byte of a group. -/
theorem ofNat_first (a : UInt8) (n : ℕ) (hn : n < 16) :
    UInt8.ofNat (a.toNat / 4 * 4 + (a.toNat % 4 * 16 + n) / 16) = a := by
  have h : a.toNat / 4 * 4 + (a.toNat % 4 * 16 + n) / 16 = a.toNat := by omega
  rw [h, UInt8.ofNat_toNat]

/-- The second byte of a group. -/
theorem ofNat_second (b : UInt8) (m n : ℕ) (hn : n < 4) :
    UInt8.ofNat ((m * 16 + b.toNat / 16) % 16 * 16 + (b.toNat % 16 * 4 + n) / 4) = b := by
  have hb : b.toNat < 256 := b.toNat_lt
  have h : (m * 16 + b.toNat / 16) % 16 * 16 + (b.toNat % 16 * 4 + n) / 4 = b.toNat := by omega
  rw [h, UInt8.ofNat_toNat]

/-- The third byte of a group. -/
theorem ofNat_third (c : UInt8) (m : ℕ) :
    UInt8.ofNat ((m * 4 + c.toNat / 64) % 4 * 64 + c.toNat % 64) = c := by
  have hc : c.toNat < 256 := c.toNat_lt
  have h : (m * 4 + c.toNat / 64) % 4 * 64 + c.toNat % 64 = c.toNat := by omega
  rw [h, UInt8.ofNat_toNat]

/-- Decoding inverts encoding, on lists of characters. -/
theorem decodeChars_encodeChars (bytes : List UInt8) :
    decodeChars (encodeChars bytes) = some bytes := by
  induction bytes using encodeChars.induct with
  | case1 => rfl
  | case2 a =>
    have ha : a.toNat < 256 := a.toNat_lt
    have hfirst := ofNat_first a 0 (by omega)
    simp only [encodeChars, decodeChars, and_self, if_true, decodeLast,
      ofChar_toChar (show a.toNat / 4 < 64 by omega),
      ofChar_toChar (show a.toNat % 4 * 16 < 64 by omega)]
    rw [Nat.add_zero] at hfirst
    simp only [Option.bind_eq_bind, Option.bind_some, Nat.mul_mod_left, if_true, hfirst]
  | case3 a b =>
    have ha : a.toNat < 256 := a.toNat_lt
    have hb : b.toNat < 256 := b.toNat_lt
    have hfirst := ofNat_first a (b.toNat / 16) (by omega)
    have hsecond := ofNat_second b (a.toNat % 4) 0 (by omega)
    have hpad := toChar_ne_pad (show b.toNat % 16 * 4 < 64 by omega)
    simp only [encodeChars, decodeChars, and_self, if_true, decodeLast,
      ofChar_toChar (show a.toNat / 4 < 64 by omega),
      ofChar_toChar (show a.toNat % 4 * 16 + b.toNat / 16 < 64 by omega),
      ofChar_toChar (show b.toNat % 16 * 4 < 64 by omega), if_neg hpad]
    rw [Nat.add_zero] at hsecond
    simp only [Option.bind_eq_bind, Option.bind_some, Nat.mul_mod_left, if_true, hfirst, hsecond]
  | case4 a b c bytes ih =>
    have ha : a.toNat < 256 := a.toNat_lt
    have hb : b.toNat < 256 := b.toNat_lt
    have hc : c.toNat < 256 := c.toNat_lt
    have hfirst := ofNat_first a (b.toNat / 16) (by omega)
    have hsecond := ofNat_second b (a.toNat % 4) (c.toNat / 64) (by omega)
    have hthird := ofNat_third c (b.toNat % 16)
    have hpad := toChar_ne_pad (show c.toNat % 64 < 64 by omega)
    simp only [encodeChars, decodeChars, hpad, false_and, if_false, decodeGroup,
      ofChar_toChar (show a.toNat / 4 < 64 by omega),
      ofChar_toChar (show a.toNat % 4 * 16 + b.toNat / 16 < 64 by omega),
      ofChar_toChar (show b.toNat % 16 * 4 + c.toNat / 64 < 64 by omega),
      ofChar_toChar (show c.toNat % 64 < 64 by omega), ih]
    simp only [Option.bind_eq_bind, Option.bind_some, hfirst, hsecond, hthird, List.cons_append,
      List.nil_append]

/-- Decoding inverts encoding. -/
theorem decode_encode (bytes : List UInt8) : decode (encode bytes) = some bytes := by
  rw [decode, encode, String.toList_ofList, decodeChars_encodeChars]

/-- Every character of an encoding is the padding or one of the alphabet. -/
theorem mem_of_mem_encodeChars {bytes : List UInt8} {d : Char} (hd : d ∈ encodeChars bytes) :
    d ∈ '=' :: alphabet := by
  have hchar : ∀ n, toChar n ∈ '=' :: alphabet := by
    intro n
    by_cases hn : n < alphabet.length
    · have hget : toChar n = alphabet[n] := by
        rw [toChar, List.getD_eq_getElem?_getD, List.getElem?_eq_getElem hn, Option.getD_some]
      rw [hget]
      exact List.mem_cons_of_mem _ (List.getElem_mem hn)
    · have hpad : toChar n = '=' := by
        rw [toChar, List.getD_eq_getElem?_getD, List.getElem?_eq_none (Nat.le_of_not_lt hn),
          Option.getD_none]
      rw [hpad]
      exact List.mem_cons_self
  induction bytes using encodeChars.induct with
  | case1 => cases hd
  | case2 a =>
    simp only [encodeChars, List.mem_cons, List.not_mem_nil, or_false] at hd
    rcases hd with rfl | rfl | rfl | rfl
    exacts [hchar _, hchar _, List.mem_cons_self, List.mem_cons_self]
  | case3 a b =>
    simp only [encodeChars, List.mem_cons, List.not_mem_nil, or_false] at hd
    rcases hd with rfl | rfl | rfl | rfl
    exacts [hchar _, hchar _, hchar _, List.mem_cons_self]
  | case4 a b c bytes ih =>
    rw [encodeChars, List.mem_cons, List.mem_cons, List.mem_cons, List.mem_cons] at hd
    rcases hd with rfl | rfl | rfl | rfl | hd
    exacts [hchar _, hchar _, hchar _, hchar _, ih hd]

/-- Three bytes make four characters, and so does a last group. -/
theorem length_encode (bytes : List UInt8) :
    (encode bytes).length = (bytes.length + 2) / 3 * 4 := by
  rw [encode, String.length_ofList]
  induction bytes using encodeChars.induct with
  | case1 => rfl
  | case2 a => simp [encodeChars]
  | case3 a b => simp [encodeChars]
  | case4 a b c bytes ih =>
    simp only [encodeChars, List.length_cons, ih]
    omega

/-- The text of some bytes is not empty. -/
theorem toList_encode_ne_nil {bytes : List UInt8} (h : bytes ≠ []) :
    (encode bytes).toList ≠ [] := by
  intro hnil
  have hdecode := decode_encode bytes
  rw [decode, hnil] at hdecode
  exact h (Option.some.inj hdecode).symm

/-- A character that is not in the alphabet is not in a text either. -/
theorem notMem_toList_encode {d : Char} (hd : d ∉ '=' :: alphabet) (bytes : List UInt8) :
    d ∉ (encode bytes).toList := by
  rw [encode, String.toList_ofList]
  exact fun hmem => hd (mem_of_mem_encodeChars hmem)

end Base64
