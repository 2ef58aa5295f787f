import ExprTree.Number.Decimal
import ExprTree.Ty.Text

/-!
# Faults of evaluation

What can go wrong while values are computed. A fault of the host is an
operation that its values do not support; it has a kind and no text. The
others are found by this library and say what happened.
-/

namespace ExprTree

/-- What sort of fault it is. -/
inductive FaultKind where
  | type | value | index | attribute | overflow | zeroDivision | encoding
  | decimal (f : DecimalFault)
  /-- A chain of calls without an end. -/
  | depth
deriving DecidableEq, Repr

inductive Fault where
  /-- An operation of the host on values it is not made for. -/
  | host (kind : FaultKind)
  /-- A checked result outside its type. -/
  | outOfRange (t : IntType)
  | negativeExponent
  | divisionByZero
  | noneConverted (target : Ty)
  | unconvertible (cls : String) (target : Ty)
  | textAsNumber (s : String)
  /-- A float or decimal without an integer part. -/
  | notFinite (shown target : String)
  | notOneCharacter (s : String)
  | argumentCount (expected given : Nat)
  /-- A generic method that is not closed. -/
  | openMethod (shown : String)
  | unreadable (member : String)
  | readOnly (member : String)
  | unbound (parameter : String)
  | noMatch
  | noElements
  | negativeCount
  | duplicateKey (shown : String)
deriving Repr

namespace Fault

def kind : Fault → FaultKind
  | .host k => k
  | .outOfRange _ | .notFinite .. => .overflow
  | .negativeExponent | .notOneCharacter _ | .noMatch | .noElements | .negativeCount | .duplicateKey _ => .value
  | .divisionByZero => .zeroDivision
  | .noneConverted _ | .unconvertible .. | .textAsNumber _ | .argumentCount .. | .openMethod _ => .type
  | .unreadable _ | .readOnly _ => .attribute
  | .unbound _ => .value

def message? : Fault → Option String
  | .host _ => none
  | .outOfRange t => some ("Arithmetic operation resulted in an overflow of " ++ t.name)
  | .negativeExponent => some "Integer power requires a non-negative exponent"
  | .divisionByZero => some "Attempted to divide by zero"
  | .noneConverted t => some ("Cannot convert None to " ++ t.describe)
  | .unconvertible c t => some ("Cannot convert " ++ c ++ " to " ++ t.describe)
  | .textAsNumber s => some ("Cannot convert string " ++ Text.quoted s ++ " to a number")
  | .notFinite shown target => some ("Cannot convert " ++ shown ++ " to " ++ target)
  | .notOneCharacter s => some ("Char requires exactly one character, got " ++ Text.quoted s)
  | .argumentCount expected given =>
    some ("Lambda takes " ++ toString expected ++ " argument(s), got " ++ toString given)
  | .openMethod shown => some ("Cannot invoke open generic method '" ++ shown ++ "'")
  | .unreadable m => some ("Property '" ++ m ++ "' is not readable")
  | .readOnly m => some ("Property '" ++ m ++ "' is read-only")
  | .unbound p => some ("Parameter '" ++ p ++ "' is not bound")
  | .noMatch => some "Sequence contains no matching element"
  | .noElements => some "Sequence contains no elements"
  | .negativeCount => some "count must be non-negative"
  | .duplicateKey shown => some ("Duplicate key " ++ shown)

end Fault

end ExprTree
