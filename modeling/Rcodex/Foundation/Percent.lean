import Rcodex.Foundation.Text

/-!
# Percent encoding

`encode` writes the bytes of a set as a percent sign and two hexadecimal digits, and the others as
they are.  `decode` reads such a text back (`decode_encode`), whatever the set, as long as it
contains the percent sign and all bytes beyond ASCII.  `decode_flatMap` is the same for any way of
writing bytes one by one.
-/

namespace Percent

/-- An upper-case hexadecimal digit. -/
def hexDigit (n : ℕ) : Char := Char.ofNat (if n < 10 then 48 + n else 55 + n)

/-- The value of a hexadecimal digit. -/
def hexValue (c : Char) : Option ℕ :=
  let n := c.toNat
  if 48 ≤ n ∧ n ≤ 57 then some (n - 48)
  else if 65 ≤ n ∧ n ≤ 70 then some (n - 55)
  else if 97 ≤ n ∧ n ≤ 102 then some (n - 87)
  else none

/-- A byte as a percent sign and two digits. -/
def encodeByte (b : UInt8) : List Char := ['%', hexDigit (b.toNat / 16), hexDigit (b.toNat % 16)]

/-- The bytes as a text; those of the set are encoded. -/
def encode (set : UInt8 → Bool) (bytes : List UInt8) : List Char :=
  bytes.flatMap fun b => if set b then encodeByte b else [Char.ofNat b.toNat]

/-- The bytes of an encoded text. -/
def decode : List Char → List UInt8
  | '%' :: high :: low :: rest =>
    match hexValue high, hexValue low with
    | some h, some l => UInt8.ofNat (16 * h + l) :: decode rest
    | _, _ => 37 :: decode (high :: low :: rest)
  | c :: rest => String.utf8EncodeChar c ++ decode rest
  | [] => []

/-- A digit is read back. -/
theorem hexValue_hexDigit {n : ℕ} (h : n < 16) : hexValue (hexDigit n) = some n := by
  have hall : ∀ n < 16, hexValue (hexDigit n) = some n := by decide
  exact hall n h

/-- An encoded byte is read back. -/
theorem decode_encodeByte (b : UInt8) (rest : List Char) :
    decode (encodeByte b ++ rest) = b :: decode rest := by
  have hlt := b.toNat_lt
  have hbyte : 16 * (b.toNat / 16) + b.toNat % 16 = b.toNat := Nat.div_add_mod _ _
  simp only [encodeByte, List.cons_append, List.nil_append, decode,
    hexValue_hexDigit (show b.toNat / 16 < 16 by omega),
    hexValue_hexDigit (show b.toNat % 16 < 16 by omega), hbyte, UInt8.ofNat_toNat]

/-- Another character of ASCII is read as its byte. -/
theorem decode_cons {c : Char} (hne : c ≠ '%') (hlt : c.toNat < 128) (rest : List Char) :
    decode (c :: rest) = UInt8.ofNat c.toNat :: decode rest := by
  rw [decode, Text.utf8EncodeChar_of_lt hlt, List.singleton_append]
  intro high low rest' h
  exact absurd h hne

/-- The character of a byte of ASCII. -/
theorem toNat_ofNat {b : UInt8} (hlt : b.toNat < 128) : (Char.ofNat b.toNat).toNat = b.toNat := by
  have hall : ∀ n < 128, (Char.ofNat n).toNat = n := by decide +kernel
  exact hall b.toNat hlt

/-- A byte that is written as it is. -/
theorem decode_ofNat {b : UInt8} (hne : b ≠ 37) (hlt : b.toNat < 128) (rest : List Char) :
    decode (Char.ofNat b.toNat :: rest) = b :: decode rest := by
  have hchar : Char.ofNat b.toNat ≠ '%' := by
    intro heq
    have hnat := toNat_ofNat hlt
    rw [heq] at hnat
    exact hne (UInt8.toNat_inj.mp hnat.symm)
  rw [decode_cons hchar (by rwa [toNat_ofNat hlt]), toNat_ofNat hlt, UInt8.ofNat_toNat]

/-- A text that is read back byte by byte. -/
theorem decode_flatMap {write : UInt8 → List Char} {read : UInt8 → UInt8}
    (h : ∀ b rest, decode (write b ++ rest) = read b :: decode rest) (bytes : List UInt8) :
    decode (bytes.flatMap write) = bytes.map read := by
  induction bytes with
  | nil => rfl
  | cons b bytes ih => rw [List.flatMap_cons, h, ih, List.map_cons]

/-- What every character of a text is that is written byte by byte. -/
theorem forall_mem_flatMap {write : UInt8 → List Char} {P : Char → Prop}
    (h : ∀ b, ∀ c ∈ write b, P c) {bytes : List UInt8} {c : Char} (hc : c ∈ bytes.flatMap write) :
    P c := by
  obtain ⟨b, -, hb⟩ := List.mem_flatMap.mp hc
  exact h b c hb

/-- The characters of an encoded byte. -/
theorem forall_mem_encodeByte {P : Char → Prop} (hpercent : P '%')
    (hdigit : ∀ n < 16, P (hexDigit n)) {b : UInt8} : ∀ c ∈ encodeByte b, P c := by
  have hlt := b.toNat_lt
  intro c hc
  simp only [encodeByte, List.mem_cons, List.not_mem_nil, or_false] at hc
  rcases hc with rfl | rfl | rfl
  · exact hpercent
  · exact hdigit _ (by omega)
  · exact hdigit _ (by omega)

section Set

variable {set : UInt8 → Bool}

/-- Decoding inverts encoding. -/
theorem decode_encode (hpercent : set 37 = true) (hbeyond : ∀ b, 128 ≤ b.toNat → set b = true)
    (bytes : List UInt8) : decode (encode set bytes) = bytes := by
  have hread : ∀ b rest, decode ((if set b then encodeByte b else [Char.ofNat b.toNat]) ++ rest) =
      id b :: decode rest := by
    intro b rest
    split_ifs with hset
    · exact decode_encodeByte b rest
    · have hne : b ≠ 37 := by
        rintro rfl
        exact hset hpercent
      have hlt : b.toNat < 128 := Nat.lt_of_not_le fun hle => hset (hbeyond b hle)
      exact decode_ofNat hne hlt rest
  rw [encode, decode_flatMap hread, List.map_id]

end Set

end Percent
