import ExprTree.Data
import ExprTree.Json.Printer

/-!
# Checking data against a form

Data that was read is checked against the form that is expected. All
violations are collected, each with the place where it was found, and listed
in the order of their text.
-/

namespace ExprTree.Schema

/-- One step on the way to a place inside data. -/
inductive Step where
  | name (s : String)
  | index (n : Int)
deriving DecidableEq, Repr

inductive Problem where
  | missing | extraForbidden | invalidKey
  | stringType | stringUnicode | dictType | listType | modelType
  | boolType | boolParsing
  | recursionLoop
deriving DecidableEq, Repr

def Problem.code : Problem → String
  | .missing => "missing"
  | .extraForbidden => "extra_forbidden"
  | .invalidKey => "invalid_key"
  | .stringType => "string_type"
  | .stringUnicode => "string_unicode"
  | .dictType => "dict_type"
  | .listType => "list_type"
  | .modelType => "model_type"
  | .boolType => "bool_type"
  | .boolParsing => "bool_parsing"
  | .recursionLoop => "recursion_loop"

structure Violation where
  place : List Step
  problem : Problem
deriving DecidableEq, Repr

/-- The result of a check, or everything that is wrong. -/
abbrev Checked := Except (List Violation)

def fail {α : Type} (place : List Step) (p : Problem) : Checked α :=
  .error [⟨place, p⟩]

def both {α β : Type} : Checked α → Checked β → Checked (α × β)
  | .ok a, .ok b => .ok (a, b)
  | .error vs, .ok _ => .error vs
  | .ok _, .error ws => .error ws
  | .error vs, .error ws => .error (vs ++ ws)

def all {α : Type} : List (Checked α) → Checked (List α)
  | [] => .ok []
  | c :: cs => (both c (all cs)).map fun (a, as) => a :: as

/-! ## The order of violations -/

def Step.text : Step → List Char
  | .name s => Json.quoted s
  | .index n => (toString n).toList

/-- The text of a violation: its place as a list, and what is wrong there. -/
def Violation.text (v : Violation) : List Char :=
  let steps := [',', ' '].intercalate (v.place.map Step.text)
  "[[".toList ++ steps ++ "], ".toList ++ Json.quoted v.problem.code ++ [']']

/-- The order of the texts, character by character. -/
def Violation.le (v w : Violation) : Bool :=
  !decide (w.text < v.text)

def sort (vs : List Violation) : List Violation :=
  vs.mergeSort Violation.le

/-! ## Places -/

/-- How a key shows in a place: texts and numbers as themselves, other scalars by description. -/
def stepOf : Data → Step
  | .text s => .name s
  | .bool b => .index (if b then 1 else 0)
  | .int n => if -(2 ^ 63) ≤ n && n < 2 ^ 63 then .index n else .name (toString n)
  | d => .name d.describe

/-- What stands at the end of a place for a key itself. -/
def keyStep : Step := .name "[key]"

/-! ## Scalars -/

def text (place : List Step) : Data → Checked String
  | .text s => .ok s
  | .bytes bs =>
    match String.fromUTF8? (ByteArray.mk bs.toArray) with
    | some s => .ok s
    | none => fail place .stringUnicode
  | .brokenText _ => fail place .stringUnicode
  | _ => fail place .stringType

def textOrNull (place : List Step) : Data → Checked (Option String)
  | .null => .ok none
  | d => (text place d).map some

/-- The words for truth values, in any case. -/
def flagWords : List (String × Bool) :=
  [("0", false), ("off", false), ("f", false), ("false", false), ("n", false), ("no", false),
    ("1", true), ("on", true), ("t", true), ("true", true), ("y", true), ("yes", true)]

def flagOfWord (place : List Step) (s : String) : Checked Bool :=
  match flagWords.lookup (String.ofList (s.toList.map Char.toLower)) with
  | some b => .ok b
  | none => fail place .boolParsing

def flagOfNumber (place : List Step) (n : Int) : Checked Bool :=
  if n = 0 then .ok false else if n = 1 then .ok true else fail place .boolParsing

def flag (place : List Step) : Data → Checked Bool
  | .bool b => .ok b
  | .int n => flagOfNumber place n
  | .float x =>
    let (n, d) := x.toQuotient
    if x.isFinite && n % d = 0 then flagOfNumber place (n / d) else fail place .boolType
  | .text s => flagOfWord place s
  | .bytes bs =>
    match String.fromUTF8? (ByteArray.mk bs.toArray) with
    | some s => flagOfWord place s
    | none => fail place .boolParsing
  | .brokenText _ => fail place .boolParsing
  | _ => fail place .boolType

def texts (place : List Step) (d : Data) : Checked (List String) :=
  match d with
  | .list items | .tuple items | .set items =>
    all (items.zipIdx.map fun (item, i) => text (place ++ [.index (Int.ofNat i)]) item)
  | _ => fail place .listType

/-- The text of a key. -/
def key (place : List Step) (k : Data) : Checked String :=
  text (place ++ [stepOf k, keyStep]) k

/-! ## Fields -/

/-- A field has a name in files and may also go by another one. -/
structure Field where
  name : String
  otherName : String
deriving DecidableEq, Repr

/-- The field that a key names. The other name counts only where the first is absent. -/
def fieldOf? (fields : List Field) (entries : List (Data × Data)) (k : String) : Option Field :=
  let has (name : String) := entries.any fun (k, _) => match k with
    | .text s => s == name
    | _ => false
  fields.find? fun f => k = f.name || (k = f.otherName && !has f.name)

/-- What is wrong with an entry that belongs to no field. -/
def stranger (place : List Step) (k : Data) : Violation :=
  match k with
  | .text s => ⟨place ++ [.name s], .extraForbidden⟩
  | k => ⟨place ++ [stepOf k], .invalidKey⟩

end ExprTree.Schema
