import ExprTree.Document
import ExprTree.Schema

/-!
# Documents as data

A document is written as a map with three entries: the kind, the children and
the texts. Reading accepts the fields in any order and under two names each,
lets children and texts be absent, and refuses everything else.
-/

namespace ExprTree.Document

open Schema (Step Checked Violation)

/-! ## Writing -/

mutual

/-- The entries that a document is written as. -/
def entries : Document → List (String × Tree)
  | .node kind children values =>
    [("NodeType", .text kind), ("Expressions", .map (childTrees children)),
      ("Values", .map (values.map fun (r, s) => (r, Tree.textOrNull s)))]

def childTrees : List (String × Option Document) → List (String × Tree)
  | [] => []
  | (r, none) :: rest => (r, .null) :: childTrees rest
  | (r, some d) :: rest => (r, .map d.entries) :: childTrees rest

end

/-! ## Reading -/

def kindField : Schema.Field := ⟨"NodeType", "node_type"⟩
def childrenField : Schema.Field := ⟨"Expressions", "expressions"⟩
def valuesField : Schema.Field := ⟨"Values", "values"⟩

/-- The fields that were found in a map. -/
structure Fields where
  kind : Option (Checked String)
  children : Option (Checked (List (String × Option Document)))
  values : Option (Checked (List (String × Option String)))
  strangers : List Violation

namespace Fields

def none : Fields := ⟨.none, .none, .none, []⟩

/-- The document with these fields; only the kind has to be there. -/
def toDocument (f : Fields) (place : List Step) : Checked Document :=
  let kind := f.kind.getD (Schema.fail (place ++ [.name kindField.name]) .missing)
  let rest := Schema.both (f.children.getD (.ok [])) (f.values.getD (.ok []))
  let strangers : Checked Unit := if f.strangers.isEmpty then .ok () else .error f.strangers
  (Schema.both (Schema.both kind rest) strangers).map fun ((k, cs, vs), _) => .node k cs vs

end Fields

def valueEntries (place : List Step) (d : Data) : Checked (List (String × Option String)) :=
  match d with
  | .map es =>
    Schema.all (es.map fun (k, v) =>
      Schema.both (Schema.key place k) (Schema.textOrNull (place ++ [Schema.stepOf k]) v))
  | .loop => Schema.fail place .recursionLoop
  | _ => Schema.fail place .dictType

mutual

/-- Reads a document; `place` is where it was found. -/
def ofData (place : List Step) : Data → Checked Document
  | .map es => (fieldsOf place es es).toDocument place
  | .loop => Schema.fail place .recursionLoop
  | _ => Schema.fail place .modelType

/-- The fields among some of the entries of a map. -/
def fieldsOf (place : List Step) (all : List (Data × Data)) : List (Data × Data) → Fields
  | [] => .none
  | (k, v) :: rest =>
    let found := fieldsOf place all rest
    let field? := match k with
      | .text s => Schema.fieldOf? [kindField, childrenField, valuesField] all s
      | _ => Option.none
    match field? with
    | some f =>
      let place := place ++ [.name f.name]
      if f.name = kindField.name then { found with kind := some (Schema.text place v) }
      else if f.name = childrenField.name then { found with children := some (childrenOf place v) }
      else { found with values := some (valueEntries place v) }
    | Option.none => { found with strangers := Schema.stranger place k :: found.strangers }

def childrenOf (place : List Step) : Data → Checked (List (String × Option Document))
  | .map es => childEntries place es
  | .loop => Schema.fail place .recursionLoop
  | _ => Schema.fail place .dictType

def childEntries (place : List Step) : List (Data × Data) → Checked (List (String × Option Document))
  | [] => .ok []
  | (k, v) :: rest =>
    let child : Checked (Option Document) := match v with
      | .null => .ok Option.none
      | v => (ofData (place ++ [Schema.stepOf k]) v).map some
    (Schema.both (Schema.both (Schema.key place k) child) (childEntries place rest)).map
      fun (entry, more) => entry :: more

end

end ExprTree.Document
