import ExprTree.Heap
import ExprTree.Number.DecimalText

/-!
# Text of values

A value has a plain text and a description; they differ in how strings and
numbers of fixed width are shown, and the parts of a list, tuple or dictionary
are always described. An integer with too many digits has neither.
-/

namespace ExprTree

/-- The text of an integer, if it does not have too many digits. -/
def integerText? (n : Int) : Option String :=
  if digitCount n.natAbs > integerDigitLimit then none else some (toString n)

def FloatKind.style : FloatKind → FloatStyle
  | .general | .double => .double
  | .single => .single
  | .half => .half

def Text.boolText (b : Bool) : String :=
  if b then "True" else "False"

/-- The description of bytes. -/
def Text.quotedBytes (bs : List UInt8) : String :=
  let cs := bs.map fun b => Char.ofNat b.toNat
  let q := Text.quoteFor cs
  let shown := cs.flatMap fun c =>
    if c.toNat < 0x7F then Text.quotedChar q c else '\\' :: 'x' :: Text.hexDigits 2 c.toNat
  String.ofList ('b' :: q :: (shown ++ [q]))

namespace Value

/-- The description of a value, given those of the cells it refers to. -/
def describeWith (cell : Nat → Option String) : Value → Option String
  | .none => some "None"
  | .bool b => some (Text.boolText b)
  | .int n => integerText? n
  | .fixed t n => some ("np." ++ t.name ++ "(" ++ toString n ++ ")")
  | .float .general x => some (FloatStyle.double.render x)
  | .float k x => some ("np." ++ k.className.path ++ "(" ++ k.style.render x ++ ")")
  | .decimal d => some ("Decimal('" ++ d.render ++ "')")
  | .str s => some (Text.quoted s)
  | .char c => some (Text.quoted (String.singleton c))
  | .flag b => some ("np." ++ Text.boolText b ++ "_")
  | .bytes bs => some (Text.quotedBytes bs)
  | .tuple items => do
    let parts ← describeAll items
    return "(" ++ ", ".intercalate parts ++ (if parts.length = 1 then ",)" else ")")
  | .ref a => cell a
  | .keys _ => some "dict_keys"
where
  describeAll : List Value → Option (List String)
    | [] => some []
    | v :: vs => do
      let first ← describeWith cell v
      return first :: (← describeAll vs)

end Value

namespace Heap

/-- The description of a cell; `depth` bounds how far references are followed. -/
def describeCell (h : Heap) : Nat → Nat → Option String
  | 0, _ => some "..."
  | depth + 1, a => do
    let describe := Value.describeWith (h.describeCell depth)
    match h.get? a with
    | some (.list items) => return "[" ++ ", ".intercalate (← items.mapM describe) ++ "]"
    | some (.dict entries) =>
      let parts ← entries.mapM fun (k, v) => do return (← describe k) ++ ": " ++ (← describe v)
      return "\x7b" ++ ", ".intercalate parts ++ "\x7d"
    | some (.object c _) => return "<" ++ c.simpleName ++ ">"
    | some (.function ..) => return "<function>"
    | _ => return "<>"

/-- The description of a value. -/
def describe (h : Heap) (v : Value) : Option String :=
  v.describeWith (h.describeCell (h.cells.size + 1))

/-- The plain text of a value. -/
def textOf (h : Heap) (v : Value) : Option String :=
  match v with
  | .str s => some s
  | .char c => some (String.singleton c)
  | .fixed _ n => some (toString n)
  | .float k x => some (k.style.render x)
  | .decimal d => some d.render
  | .flag b => some (Text.boolText b)
  | v => h.describe v

end Heap

end ExprTree
