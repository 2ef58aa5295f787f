/-!
# Tokens

The tokens that a text falls into. The start of a block collection and its
end are found by indentation; a key that is written without an indicator gets
its token once the colon after it is seen.
-/

namespace ExprTree.Yaml

/-- Why the text of a scalar does not hold what its tag promises. -/
inductive ScalarFault where
  | noNumber | noFlag | noDate
  /-- A date that no calendar has. -/
  | invalidDate
  /-- A number without any text. -/
  | empty
deriving DecidableEq, Repr

/-- Why a text cannot be read. -/
inductive Fault where
  | malformed
  /-- An escape for a code point that does not exist; `large` if it has 32 bits. -/
  | noCodePoint (large : Bool)
  | scalar (why : ScalarFault)
deriving DecidableEq, Repr

/-- A tag as it is written: a handle, if any, and what follows it. -/
structure WrittenTag where
  handle : Option String
  suffix : String
deriving DecidableEq, Repr

inductive Token where
  | version (major : Nat)
  | tagHandle (handle replacement : String)
  | otherDirective
  | documentStart | documentEnd
  | blockSequenceStart | blockMappingStart | blockEnd
  | flowSequenceStart | flowSequenceEnd | flowMappingStart | flowMappingEnd
  | blockEntry | flowEntry | key | value
  | alias (name : String)
  | anchor (name : String)
  | tag (t : WrittenTag)
  /-- A scalar by its code points; a plain one stands without quotes or indicator. -/
  | scalar (codes : List Nat) (plain : Bool)
deriving DecidableEq, Repr

def Token.isDirective : Token → Bool
  | .version _ | .tagHandle .. | .otherDirective => true
  | _ => false

end ExprTree.Yaml
