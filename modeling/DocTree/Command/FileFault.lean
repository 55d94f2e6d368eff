/-!
# Faults of files

Why a file cannot be read or written, by the numbers and in the words of the operating system.
-/

namespace DocTree.Command

/-- Why a file cannot be read or written. -/
inductive FileFault where
  | notFound
  | denied
  | notDirectory
  | isDirectory
  | noSpace
  | nameTooLong
  deriving DecidableEq, Repr

namespace FileFault

/-- The number of a fault. -/
def number : FileFault → Nat
  | notFound => 2
  | denied => 13
  | notDirectory => 20
  | isDirectory => 21
  | noSpace => 28
  | nameTooLong => 36

/-- What a fault is, without its number. -/
def text : FileFault → String
  | notFound => "No such file or directory"
  | denied => "Permission denied"
  | notDirectory => "Not a directory"
  | isDirectory => "Is a directory"
  | noSpace => "No space left on device"
  | nameTooLong => "File name too long"

/-- The wording of a fault of the given number. -/
def wording (number : Nat) (text : String) : String :=
  text ++ " (os error " ++ toString number ++ ")"

/-- The wording of a fault. -/
def message (fault : FileFault) : String := wording fault.number fault.text

/-- The fault of a number. -/
def ofNumber? (n : Nat) : Option FileFault :=
  [notFound, denied, notDirectory, isDirectory, noSpace, nameTooLong].find? (·.number == n)

theorem ofNumber?_number (fault : FileFault) : ofNumber? fault.number = some fault := by
  cases fault <;> rfl

end FileFault

end DocTree.Command
