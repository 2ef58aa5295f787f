import ExprTree.CommandLine
import ExprTree.Host.Standard

/-!
# The program

Commands on the files of the machine it runs on. Only this module acts on the
world; what is done is decided in `ExprTree.CommandLine`.
-/

namespace ExprTree.Main

def problemOf : IO.Error → FileProblem
  | .noFileOrDirectory .. => .notFound
  | .alreadyExists .. => .exists
  | .inappropriateType _ number details | .resourceVanished number details | .otherError number details =>
    if number = 20 then .notDirectory else if number = 21 then .isDirectory else .other number.toNat details
  | .permissionDenied _ number details => .other number.toNat details
  | e => .other 5 (toString e)

def guarded {α : Type} (p : Path) (a : IO α) : IO (Except FileFault α) := do
  try return .ok (← a)
  catch e => return .error ⟨problemOf e, p⟩

/-- The files of the machine. -/
def files : FileAccess IO where
  read p := guarded p do return (← IO.FS.readBinFile p.toText).toList
  write p text := guarded p (IO.FS.writeFile p.toText text)
  makeDirectory p := guarded p (IO.FS.createDir p.toText)
  isDirectory p := return ← ((← IO.currentDir) / p.toText).isDir

def library : Library := Standard.extended [] [] []

def usage : String :=
  "usage: exprtree [-v] inspect FILE\n" ++
  "       exprtree [-v] check FILE [--policy POLICY] [--allow-unsafe] [--allow-imports]\n" ++
  "       exprtree [-v] convert SOURCE DESTINATION\n"

/-- Runs what the arguments ask for and prints the outcome. -/
def run (arguments : List String) : IO UInt32 := do
  let (outcome, _) ← (CommandLine.run files library arguments).run ⟨library.preloaded, []⟩
  match outcome with
  | .help => IO.print usage
  | .misuse => IO.eprint usage
  | .finished _ out err =>
    IO.print out
    IO.eprint err
  | .crashed _ => IO.eprintln "A file holds something that cannot be read."
  return outcome.status.toUInt32

end ExprTree.Main

def main (arguments : List String) : IO UInt32 :=
  ExprTree.Main.run arguments
