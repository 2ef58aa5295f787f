/-!
# Kinds of nodes

The kinds of nodes an expression can have, with the tags that documents use.
Operators are divided by how they are typed and evaluated; the kinds that
have a tag but no form of node come last.
-/

namespace ExprTree

inductive ArithmeticKind where
  | add | addChecked | subtract | subtractChecked | multiply | multiplyChecked
  | divide | modulo | power
deriving DecidableEq, Repr

inductive BitwiseKind where
  | and | or | exclusiveOr
deriving DecidableEq, Repr

inductive ShiftKind where
  | left | right
deriving DecidableEq, Repr

inductive OrderingKind where
  | lessThan | lessThanOrEqual | greaterThan | greaterThanOrEqual
deriving DecidableEq, Repr

/-- The operations that a compound assignment applies before it writes. -/
inductive Operation where
  | arithmetic (k : ArithmeticKind)
  | bitwise (k : BitwiseKind)
  | shift (k : ShiftKind)
deriving DecidableEq, Repr

inductive BinaryKind where
  | operation (o : Operation)
  | andAlso | orElse
  | equal | notEqual
  | ordering (k : OrderingKind)
  | coalesce
  | assign
  | compound (o : Operation)
deriving DecidableEq, Repr

/-- A step by one that is written back, and yields the value before or after it. -/
structure StepKind where
  increments : Bool
  yieldsOld : Bool
deriving DecidableEq, Repr

inductive UnaryKind where
  | convert (checked : Bool)
  | negate (checked : Bool)
  | unaryPlus | not | onesComplement
  | isTrue | isFalse
  | increment | decrement
  | step (k : StepKind)
deriving DecidableEq, Repr

/-- Kinds that have a tag only. -/
inductive BareKind where
  | arrayLength | arrayIndex | invoke | listInit | memberInit | new | newArrayInit | newArrayBounds
  | quote | typeAs | typeIs | block | debugInfo | dynamic | default | extension | goto | index
  | label | runtimeVariables | loop | switch | throw | try | unbox | typeEqual
deriving DecidableEq, Repr

inductive Kind where
  | binary (k : BinaryKind)
  | unary (k : UnaryKind)
  | constant | parameter | lambda | memberAccess | call | conditional
  | bare (k : BareKind)
deriving DecidableEq, Repr

namespace ArithmeticKind

def all : List ArithmeticKind :=
  [.add, .addChecked, .subtract, .subtractChecked, .multiply, .multiplyChecked, .divide, .modulo, .power]

def tag : ArithmeticKind → String
  | .add => "Add"
  | .addChecked => "AddChecked"
  | .subtract => "Subtract"
  | .subtractChecked => "SubtractChecked"
  | .multiply => "Multiply"
  | .multiplyChecked => "MultiplyChecked"
  | .divide => "Divide"
  | .modulo => "Modulo"
  | .power => "Power"

def symbol : ArithmeticKind → String
  | .add | .addChecked => "+"
  | .subtract | .subtractChecked => "-"
  | .multiply | .multiplyChecked => "*"
  | .divide => "/"
  | .modulo => "%"
  | .power => "**"

end ArithmeticKind

namespace Operation

def all : List Operation :=
  ArithmeticKind.all.map .arithmetic ++ [.bitwise .and, .bitwise .or, .bitwise .exclusiveOr,
    .shift .left, .shift .right]

def tag : Operation → String
  | .arithmetic k => k.tag
  | .bitwise .and => "And"
  | .bitwise .or => "Or"
  | .bitwise .exclusiveOr => "ExclusiveOr"
  | .shift .left => "LeftShift"
  | .shift .right => "RightShift"

/-- The tag of the compound assignment of an operation. -/
def assignTag : Operation → String
  | .arithmetic .addChecked => "AddAssignChecked"
  | .arithmetic .subtractChecked => "SubtractAssignChecked"
  | .arithmetic .multiplyChecked => "MultiplyAssignChecked"
  | o => o.tag ++ "Assign"

def symbol : Operation → String
  | .arithmetic k => k.symbol
  | .bitwise .and => "&"
  | .bitwise .or => "|"
  | .bitwise .exclusiveOr => "^"
  | .shift .left => "<<"
  | .shift .right => ">>"

end Operation

namespace BinaryKind

def all : List BinaryKind :=
  Operation.all.map .operation ++
    [.andAlso, .orElse, .equal, .notEqual, .ordering .lessThan, .ordering .lessThanOrEqual,
      .ordering .greaterThan, .ordering .greaterThanOrEqual, .coalesce, .assign] ++
    Operation.all.map .compound

def tag : BinaryKind → String
  | .operation o => o.tag
  | .andAlso => "AndAlso"
  | .orElse => "OrElse"
  | .equal => "Equal"
  | .notEqual => "NotEqual"
  | .ordering .lessThan => "LessThan"
  | .ordering .lessThanOrEqual => "LessThanOrEqual"
  | .ordering .greaterThan => "GreaterThan"
  | .ordering .greaterThanOrEqual => "GreaterThanOrEqual"
  | .coalesce => "Coalesce"
  | .assign => "Assign"
  | .compound o => o.assignTag

def symbol : BinaryKind → String
  | .operation o => o.symbol
  | .andAlso => "and"
  | .orElse => "or"
  | .equal => "=="
  | .notEqual => "!="
  | .ordering .lessThan => "<"
  | .ordering .lessThanOrEqual => "<="
  | .ordering .greaterThan => ">"
  | .ordering .greaterThanOrEqual => ">="
  | .coalesce => "??"
  | .assign => "="
  | .compound o => o.symbol ++ "="

end BinaryKind

namespace UnaryKind

def all : List UnaryKind :=
  [.convert false, .convert true, .negate false, .negate true, .unaryPlus, .not, .onesComplement,
    .isTrue, .isFalse, .increment, .decrement, .step ⟨true, false⟩, .step ⟨false, false⟩,
    .step ⟨true, true⟩, .step ⟨false, true⟩]

def tag : UnaryKind → String
  | .convert checked => if checked then "ConvertChecked" else "Convert"
  | .negate checked => if checked then "NegateChecked" else "Negate"
  | .unaryPlus => "UnaryPlus"
  | .not => "Not"
  | .onesComplement => "OnesComplement"
  | .isTrue => "IsTrue"
  | .isFalse => "IsFalse"
  | .increment => "Increment"
  | .decrement => "Decrement"
  | .step k =>
    (if k.yieldsOld then "Post" else "Pre") ++ (if k.increments then "Increment" else "Decrement") ++ "Assign"

end UnaryKind

namespace BareKind

def all : List BareKind :=
  [.arrayLength, .arrayIndex, .invoke, .listInit, .memberInit, .new, .newArrayInit, .newArrayBounds,
    .quote, .typeAs, .typeIs, .block, .debugInfo, .dynamic, .default, .extension, .goto, .index,
    .label, .runtimeVariables, .loop, .switch, .throw, .try, .unbox, .typeEqual]

def tag : BareKind → String
  | .arrayLength => "ArrayLength"
  | .arrayIndex => "ArrayIndex"
  | .invoke => "Invoke"
  | .listInit => "ListInit"
  | .memberInit => "MemberInit"
  | .new => "New"
  | .newArrayInit => "NewArrayInit"
  | .newArrayBounds => "NewArrayBounds"
  | .quote => "Quote"
  | .typeAs => "TypeAs"
  | .typeIs => "TypeIs"
  | .block => "Block"
  | .debugInfo => "DebugInfo"
  | .dynamic => "Dynamic"
  | .default => "Default"
  | .extension => "Extension"
  | .goto => "Goto"
  | .index => "Index"
  | .label => "Label"
  | .runtimeVariables => "RuntimeVariables"
  | .loop => "Loop"
  | .switch => "Switch"
  | .throw => "Throw"
  | .try => "Try"
  | .unbox => "Unbox"
  | .typeEqual => "TypeEqual"

end BareKind

namespace Kind

def all : List Kind :=
  BinaryKind.all.map .binary ++ UnaryKind.all.map .unary ++
    [.constant, .parameter, .lambda, .memberAccess, .call, .conditional] ++ BareKind.all.map .bare

def tag : Kind → String
  | .binary k => k.tag
  | .unary k => k.tag
  | .constant => "Constant"
  | .parameter => "Parameter"
  | .lambda => "Lambda"
  | .memberAccess => "MemberAccess"
  | .call => "Call"
  | .conditional => "Conditional"
  | .bare k => k.tag

/-- The kind with a tag. -/
def ofTag? (s : String) : Option Kind :=
  all.find? (·.tag = s)

/-- Kinds that documents can hold. -/
def isEncodable : Kind → Bool
  | .conditional | .bare _ => false
  | _ => true

def isBinary : Kind → Bool
  | .binary _ => true
  | _ => false

def isUnary : Kind → Bool
  | .unary _ => true
  | _ => false

/-- The operation that a compound assignment applies before it assigns. -/
def compoundOperation? : Kind → Option Operation
  | .binary (.compound o) => some o
  | _ => none

end Kind

end ExprTree
