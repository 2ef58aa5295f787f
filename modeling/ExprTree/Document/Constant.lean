import ExprTree.Arithmetic

/-!
# Text of constants

The types whose constants documents can hold, and the text of their values.
Numbers are written so that they read back; a float of fixed width is written
as the double it is.
-/

namespace ExprTree.ConstantText

/-- The types that constants are read as. -/
inductive Form where
  | bool | char | int | decimal
  /-- The text itself. -/
  | text
  | fixed (t : IntType)
  | float (k : FloatKind)
deriving DecidableEq, Repr

/-- The form of a type's own values. -/
def formOf? (t : Ty) : Option Form :=
  if t.isBool then some .bool
  else if t.isChar then some .char
  else if t.isInt then some .int
  else if t.isDecimal then some .decimal
  else if t.isStr || t.isObject then some .text
  else
    match t.fixed?, t.floatKind? with
    | some i, _ => some (.fixed i)
    | none, some k => some (.float k)
    | none, none => none

/-- The type that a constant is read as: the other member of a union with the null type, or
the type itself. -/
def target (t : Ty) : Ty :=
  t.optionalInner?.getD t

/-- Reads a value in a form. -/
def Form.read? (f : Form) (s : String) : Option Value :=
  match f with
  | .bool =>
    let word := (Text.trim s).toLower
    if word = "true" then some (.bool true) else if word = "false" then some (.bool false) else none
  | .char =>
    match s.toList with
    | [c] => some (.char c)
    | _ => none
  | .int => (readInteger? s).map .int
  | .decimal => (Decimal.read? s).map .decimal
  | .text => some (.str s)
  | .fixed t => (readInteger? s).bind fun n => if t.Holds n then some (.fixed t n) else none
  | .float k => (Binary.read? .double s).map fun x => .float k (k.format.convert x)

/-- Writes a value; an integer with too many digits has no text. -/
def write? (h : Heap) (v : Value) : Option String :=
  match v with
  | .bool b | .flag b => some (if b then "true" else "false")
  | .float _ x => some (FloatStyle.double.render x)
  | v => h.textOf v

end ExprTree.ConstantText
