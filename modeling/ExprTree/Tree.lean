/-!
# Trees to be written

What this library writes as text: nothing, flags, texts, lists, and maps whose
keys are texts. A map keeps the order of its entries.
-/

namespace ExprTree

inductive Tree where
  | null
  | flag (b : Bool)
  | text (s : String)
  | list (items : List Tree)
  | map (entries : List (String × Tree))
deriving Repr, Inhabited

/-- A text that may be missing. -/
def Tree.textOrNull : Option String → Tree
  | some s => .text s
  | none => .null

end ExprTree
