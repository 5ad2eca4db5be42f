import Rcodex.Foundation.Json
import Mathlib.Algebra.BigOperators.Group.List.Basic
import Mathlib.Algebra.GroupWithZero.Nat

/-!
# Encoders and decoders of wire data

A `Codec` is what a program gets from its JSON and base64 libraries: the compact text of a value
and the parser, the encoder and the decoder.  `Codec.Lawful` lists what their documentation
promises about every input.  That the parser inverts the serialiser is not among the laws, since
parsers bound the nesting depth; it is assumed value by value where it is needed.
-/

open Json

/-- The functions of a JSON library and of a base64 library. -/
structure Codec where
  /-- The compact text of a JSON value. -/
  toVec : Value → List UInt8
  /-- The value a JSON text denotes. -/
  fromSlice : List UInt8 → Option Value
  /-- The base64 text of a byte string. -/
  encode : List UInt8 → String
  /-- The byte string of a base64 text. -/
  decode : String → Option (List UInt8)

namespace Codec

/-- A character that compact JSON writes as one byte, as it is. -/
def IsPlain (c : Char) : Prop := 32 ≤ c.toNat ∧ c.toNat < 127 ∧ c ≠ '"' ∧ c ≠ '\\'

instance (c : Char) : Decidable (IsPlain c) := by
  unfold IsPlain
  infer_instance

/-- A list of plain characters, checked one by one. -/
theorem isPlain_of_all {cs : List Char} (h : (cs.all fun c => IsPlain c) = true) :
    ∀ c ∈ cs, IsPlain c := by
  simpa using h

/-- What the libraries document about every input. -/
structure Lawful (C : Codec) : Prop where
  /-- Decoding inverts encoding. -/
  decode_encode : ∀ bytes, C.decode (C.encode bytes) = some bytes
  /-- No value has an empty text. -/
  toVec_ne_nil : ∀ v, C.toVec v ≠ []
  /-- An object is its members between braces, separated by commas; a member is its key, a colon
  and its value. -/
  toVec_object : ∀ m, C.toVec (.object m) = 123 :: (List.intercalate [44]
    (m.map fun kv => C.toVec (.string kv.1) ++ 58 :: C.toVec kv.2) ++ [125])
  /-- A string of plain characters is written between quotes. -/
  length_toVec_string : ∀ s : String, (∀ c ∈ s.toList, IsPlain c) →
    (C.toVec (.string s)).length = s.length + 2

/-- The length of the elements of a list with separators of one byte. -/
theorem length_intercalate {separator : UInt8} (x : List UInt8) (xs : List (List UInt8)) :
    (List.intercalate [separator] (x :: xs)).length =
      x.length + (xs.map fun y => y.length + 1).sum := by
  induction xs generalizing x with
  | nil => simp
  | cons y ys ih =>
    rw [List.intercalate_cons_cons, List.length_append, List.length_append, ih, List.map_cons,
      List.sum_cons, List.length_singleton]
    omega

/-- The length of an object with at least one member: one byte for the brace, and for each member
its key, its value, the colon and the comma or the closing brace. -/
theorem Lawful.length_toVec_object {C : Codec} (hC : C.Lawful) {m : Map} (hm : m ≠ []) :
    (C.toVec (.object m)).length = 1 + (m.map fun kv =>
      (C.toVec (.string kv.1)).length + (C.toVec kv.2).length + 2).sum := by
  rw [hC.toVec_object]
  obtain ⟨kv, m, rfl⟩ := List.exists_cons_of_ne_nil hm
  rw [List.map_cons, List.map_cons, List.sum_cons, List.length_cons, List.length_append,
    length_intercalate, List.map_map]
  have hsum : (m.map ((fun y => y.length + 1) ∘ fun kv => C.toVec (.string kv.1) ++
      58 :: C.toVec kv.2)) = m.map fun kv =>
        (C.toVec (.string kv.1)).length + (C.toVec kv.2).length + 2 := by
    refine List.map_congr_left fun kv _ => ?_
    simp only [Function.comp_apply, List.length_append, List.length_cons]
    omega
  rw [hsum, List.length_append, List.length_cons, List.length_singleton]
  omega

end Codec
