import ExprTree.Number.Decimal
import ExprTree.Ty

/-!
# Values

What expressions evaluate to. Scalars and tuples are their own contents;
lists, dictionaries, objects and functions live in a heap and are referred to
by address, because expressions and methods may change them.
-/

namespace ExprTree

inductive Value where
  | none
  | bool (b : Bool)
  | int (n : Int)
  /-- An integer of fixed width, within the range of its type. -/
  | fixed (t : IntType) (n : Int)
  | float (kind : FloatKind) (x : Binary)
  | decimal (d : Decimal)
  | str (s : String)
  | char (c : Char)
  /-- The outcome of comparing numbers of fixed width. -/
  | flag (b : Bool)
  | bytes (bs : List UInt8)
  | tuple (items : List Value)
  | ref (address : Nat)
  /-- The keys of a dictionary, as they are when looked at. -/
  | keys (address : Nat)
deriving Repr

namespace Value

/-- The text of a string or a character. -/
def text? : Value → Option String
  | .str s => some s
  | .char c => some (String.singleton c)
  | _ => Option.none

def isNone : Value → Bool
  | .none => true
  | _ => false

/-- The class of a value that is its own contents. -/
def scalarClass? : Value → Option ClassName
  | .none => some .nothing
  | .bool _ => some (.builtin "bool")
  | .int _ => some (.builtin "int")
  | .fixed t _ => some (.ofIntType t)
  | .float k _ => some k.className
  | .decimal _ => some .decimal
  | .str _ => some (.builtin "str")
  | .char _ => some .char
  | .flag _ => some ⟨"numpy", "bool"⟩
  | .bytes _ => some (.builtin "bytes")
  | .tuple _ => some (.builtin "tuple")
  | .keys _ => some (.builtin "dict_keys")
  | .ref _ => Option.none

end Value

end ExprTree
