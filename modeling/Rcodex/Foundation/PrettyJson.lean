import Rcodex.Foundation.CompactJson

/-!
# The indented text of a value

Each element of an array and each member of an object stands on a line of its own, indented by two
blanks for each level; an empty array or object has no lines.
-/

namespace Json

/-- A new line with this indentation. -/
def newline (indent : ℕ) : List UInt8 := 10 :: List.replicate (2 * indent) 32

/-- The lines between two brackets. -/
def block (indent : ℕ) (items : List (List UInt8)) : List UInt8 :=
  if items = [] then []
  else List.intercalate [44] (items.map (newline (indent + 1) ++ ·)) ++ newline indent

section Pretty

variable (floatText : F64 → List UInt8)

mutual

/-- The text of a value whose first line is indented like this. -/
def pretty (indent : ℕ) : Value → List UInt8
  | .array xs => 91 :: (block indent (prettyList (indent + 1) xs) ++ [93])
  | .object m => 123 :: (block indent (prettyMembers (indent + 1) m) ++ [125])
  | .null => compact floatText .null
  | .bool b => compact floatText (.bool b)
  | .number n => compact floatText (.number n)
  | .string s => quote s

/-- The texts of the elements of an array. -/
def prettyList (indent : ℕ) : List Value → List (List UInt8)
  | [] => []
  | x :: xs => pretty indent x :: prettyList indent xs

/-- The texts of the members of an object. -/
def prettyMembers (indent : ℕ) : List (String × Value) → List (List UInt8)
  | [] => []
  | (k, v) :: m => (quote k ++ 58 :: 32 :: pretty indent v) :: prettyMembers indent m

end

/-- `to_vec_pretty` -/
def toVecPretty (v : Value) : List UInt8 := pretty floatText 0 v

end Pretty

end Json
