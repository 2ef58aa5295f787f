import ExprTree.Value.Text
import ExprTree.Tree

/-!
# Trees that were read

What a reader can find in a text: more sorts of scalars than are written, and
maps whose keys can be any data. A map has each key once; a key that is set
again keeps its place and takes the new value.
-/

namespace ExprTree

inductive Data where
  | null
  | bool (b : Bool)
  | int (n : Int)
  | float (x : Binary)
  | text (s : String)
  /-- Code points that are not all characters, because a surrogate among them has no partner. -/
  | brokenText (codes : List Nat)
  | bytes (content : List UInt8)
  /-- A scalar of another sort, with its description. -/
  | other (sort shown : String)
  | list (items : List Data)
  | tuple (items : List Data)
  | set (items : List Data)
  | map (entries : List (Data × Data))
  /-- A container inside itself. -/
  | loop
deriving Repr, Inhabited

namespace Data

/-- What sort of data it is, in messages. -/
def sort : Data → String
  | .null => "NoneType"
  | .bool _ => "bool"
  | .int _ => "int"
  | .float _ => "float"
  | .text _ | .brokenText _ => "str"
  | .bytes _ => "bytes"
  | .other s _ => s
  | .list _ => "list"
  | .tuple _ => "tuple"
  | .set _ => "set"
  | .map _ | .loop => "dict"

/-- The character with a code point, unless it is a surrogate. -/
def char? (code : Nat) : Option Char :=
  if h : code.isValidChar then some (Char.ofNatAux code h) else none

/-- The text with the given code points. -/
def ofCodes (codes : List Nat) : Data :=
  match codes.mapM char? with
  | some cs => .text (String.ofList cs)
  | none => .brokenText codes

/-- The exact value of a finite number; truth values count as zero and one. -/
def quotient? : Data → Option (Int × Nat)
  | .bool b => some (if b then 1 else 0, 1)
  | .int n => some (n, 1)
  | .float x => if x.isFinite then some x.toQuotient else none
  | _ => none

/-- Are two scalars the same key? Numbers are compared by value, whatever their sort. -/
def sameKey (a b : Data) : Bool :=
  match a.quotient?, b.quotient? with
  | some (m, d), some (n, e) => m * e == n * d
  | none, none =>
    match a, b with
    | .null, .null => true
    | .text s, .text t => s == t
    | .brokenText s, .brokenText t => s == t
    | .bytes s, .bytes t => s == t
    | .other s x, .other t y => s == t && x == y
    | .float (.infinite s), .float (.infinite t) => s == t
    | _, _ => false
  | _, _ => false

/-- Sets a key. -/
def put (entries : List (Data × Data)) (key value : Data) : List (Data × Data) :=
  match entries with
  | [] => [(key, value)]
  | (k, v) :: rest => if k.sameKey key then (k, value) :: rest else (k, v) :: put rest key value

/-- The map with the given entries, set from left to right. -/
def ofEntries (entries : List (Data × Data)) : Data :=
  .map (entries.foldl (fun es (k, v) => put es k v) [])

/-- The description of a scalar. -/
def describe : Data → String
  | .null => "None"
  | .bool b => Text.boolText b
  | .int n => toString n
  | .float x => FloatStyle.double.render x
  | .text s => Text.quoted s
  | .bytes bs => Text.quotedBytes bs
  | .other _ shown => shown
  | d => d.sort

end Data

end ExprTree
