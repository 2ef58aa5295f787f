import ExprTree.CommandLine.Arguments
import ExprTree.Storage

/-!
# Commands

Documents can be inspected as they are, checked by decoding them under a
policy, and converted to another format. A command ends with a code and what
it printed; what it could not do is told on the second channel with code 1. A
failure that has no wording ends the run instead.
-/

namespace ExprTree.CommandLine

inductive Outcome where
  | help
  | misuse
  | finished (code : Nat) (out err : String)
  | crashed (f : Storage.Failure)
deriving Repr

/-- The status that the program exits with. -/
def Outcome.status : Outcome → Nat
  | .help => 0
  | .misuse => 2
  | .finished code _ _ => code
  | .crashed _ => 1

/-! ## What is printed -/

def margin (depth : Nat) : String :=
  String.ofList (List.replicate (2 * depth) ' ')

mutual

/-- The lines that show a document: its kind, then its texts, then its children, each deeper. -/
def shown (role : String) (depth : Nat) : Document → List String
  | .node kind children values =>
    (margin depth ++ (if role.isEmpty then "" else role ++ ": ") ++ kind) ::
      (values.map (fun (name, s) => margin (depth + 1) ++ name ++ " = " ++ s.getD "-") ++
        shownChildren (depth + 1) children)

def shownChildren (depth : Nat) : List (String × Option Document) → List String
  | [] => []
  | (role, none) :: rest => (margin depth ++ role ++ ": -") :: shownChildren depth rest
  | (role, some d) :: rest => shown role depth d ++ shownChildren depth rest

end

def asLines (ls : List String) : String :=
  String.join (ls.map (· ++ "\n"))

/-! ## Running -/

variable {m : Type → Type} [Monad m] (files : FileAccess m) (library : Library)

/-- Runs a command; the result is what it prints. -/
def act : Command → Storage.Action m String
  | .inspect file => do
    let d ← Storage.readDocument files (.ofString file)
    return asLines (shown "" 0 d)
  | .check file policyFile allowsAllCalls loadsModules => do
    let policy ← match policyFile with
      | some p => Storage.readPolicy files library (.ofString p)
      | none => pure .strict
    let policy := { policy with
      allowsAllCalls := policy.allowsAllCalls || allowsAllCalls
      loadsModules := policy.loadsModules || loadsModules }
    let d ← Storage.readDocument files (.ofString file)
    return asLines [← Storage.decoded library policy d, "No issues found."]
  | .convert source destination => do
    let source := Path.ofString source
    let destination := Path.ofString destination
    Storage.writeDocument files (← Storage.readDocument files source) destination
    return asLines ["Converted '" ++ source.toText ++ "' to '" ++ destination.toText ++ "'."]

/-- The outcome of a command that ended with a result or a failure. -/
def outcome : Except Storage.Failure String → Outcome
  | .ok out => .finished 0 out ""
  | .error f =>
    match f.message? with
    | some message => .finished 1 "" (asLines ["Error: " ++ message])
    | none => .crashed f

/-- Runs a command to its end. -/
def perform (c : Command) : StateT Names m Outcome := do
  return outcome (← (act files library c).run)

/-- Runs what the arguments ask for. -/
def run (arguments : List String) : StateT Names m Outcome :=
  match Request.ofArguments arguments with
  | .help => return .help
  | .misuse => return .misuse
  | .run _ c => perform files library c

end ExprTree.CommandLine
