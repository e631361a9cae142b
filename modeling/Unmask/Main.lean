import Unmask.CommandLine.Run

/-!
# The program

The command line over the files of the machine.
-/
namespace Unmask

/-- Why the machine refused to read or write a file. -/
def FileError.ofMachine : IO.Error → FileError
  | .noFileOrDirectory .. => .notFound
  | .noSuchThing .. => .notFound
  | .permissionDenied .. => .denied
  | .inappropriateType _ 20 _ => .notDirectory
  | .inappropriateType .. => .isDirectory
  | e => .other (toString e)

def attempt {α : Type} (action : IO α) : IO (Except FileError α) := do
  match ← action.toBaseIO with
  | .ok a => return .ok a
  | .error e => return .error (.ofMachine e)

/-- The files of the machine. -/
def machineFiles : Files IO where
  read path := attempt do return (← IO.FS.readBinFile path).data.toList
  write path contents := attempt (IO.FS.writeBinFile path ⟨contents.toArray⟩)

end Unmask

def main (args : List String) : IO UInt32 := do
  let outcome ← Unmask.CommandLine.run Unmask.machineFiles args
  IO.print outcome.stdout
  IO.eprint outcome.stderr
  return outcome.exit.toUInt32
