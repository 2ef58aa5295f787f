import ExprTree.Document.Schema
import ExprTree.Json.Parser
import ExprTree.Yaml.Content
import ExprTree.Yaml.Printer

/-!
# Documents as text

A document is text in one of two formats. What a format's reader finds is
checked against the form of documents afterwards, so both formats admit the
same documents.
-/

namespace ExprTree

inductive TextFormat where
  | json | yaml
deriving DecidableEq, Repr

def TextFormat.name : TextFormat → String
  | .json => "JSON"
  | .yaml => "YAML"

/-- Why a text is no document. -/
inductive DocumentFault where
  | json (f : Json.Fault)
  | yaml (f : Yaml.Fault)
  /-- Data of another sort than a map. -/
  | notMap (sort : String)
  | invalid (vs : List Schema.Violation)
deriving Repr

/-- The wording, unless the text holds a scalar that cannot be read. -/
def DocumentFault.message? : DocumentFault → Option String
  | .json .malformed => some "Invalid JSON document"
  | .yaml .malformed => some "Invalid YAML document"
  | .notMap sort => some ("Document root must be a mapping, got " ++ sort)
  | .invalid _ => some "Invalid encoded node document"
  | .json _ | .yaml _ => none

namespace Document

/-- The document that data at the top of a text stands for. -/
def ofRoot (d : Data) : Except DocumentFault Document :=
  match d with
  | .map es => (ofData [] (.map es)).mapError .invalid
  | d => .error (.notMap d.sort)

def ofJson (s : String) : Except DocumentFault Document := do
  ofRoot (← (Json.read s).mapError .json)

def ofYaml (s : String) : Except DocumentFault Document := do
  ofRoot (← (Yaml.read s).mapError .yaml)

def ofText (f : TextFormat) (s : String) : Except DocumentFault Document :=
  match f with
  | .json => ofJson s
  | .yaml => ofYaml s

def toJson (d : Document) (l : Json.Layout) : String :=
  Json.render l (.map d.entries)

def toYaml (d : Document) : String :=
  Yaml.render d.entries

/-- The text of a document; the layout matters only for JSON. -/
def toText (d : Document) (f : TextFormat) (l : Json.Layout) : String :=
  match f with
  | .json => d.toJson l
  | .yaml => d.toYaml

end Document

end ExprTree
