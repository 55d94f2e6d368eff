import DocTree.Command.Run

/-!
# The command

Runs the command in the file system.
-/

namespace DocTree.Command

/-- The number of an operating system's fault, which may come with a minus sign. -/
def faultNumber (code : UInt32) : UInt32 := if code < 0x80000000 then code else 0 - code

/-- The wording of a fault with the given number and the given details. -/
def faultText (code : UInt32) (details : String) : String :=
  let n := (faultNumber code).toNat
  match FileFault.ofNumber? n with
  | some fault => fault.message
  | none => FileFault.wording n details

/-- The reason of a fault. -/
def reason : IO.Error → String
  | .noFileOrDirectory _ code details | .inappropriateType _ code details
  | .permissionDenied _ code details | .resourceExhausted _ code details
  | .invalidArgument _ code details => faultText code details
  | e => toString e

/-- What an action gives, or why it fails. -/
def attempt {α : Type} (x : IO α) : IO (Except String α) := do
  match ← x.toBaseIO with
  | .ok a => return .ok a
  | .error e => return .error (reason e)

/-- The file system. -/
def fileSystem : World IO where
  readInput := attempt do (← IO.getStdin).readToEnd
  readFile path := attempt (IO.FS.readFile path)
  writeFile path text := attempt do
    IO.FS.withFile path .write fun file => do
      file.putStr text
      file.flush

end DocTree.Command

open DocTree.Command in
/-- Run the command with the given arguments. -/
def main (args : List String) : IO UInt32 := do
  let outcome ← run fileSystem args
  IO.print outcome.output
  IO.eprint outcome.errors
  return outcome.code.toUInt32
