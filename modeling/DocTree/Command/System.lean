import DocTree.Command.FileFault
import DocTree.NameMap
import DocTree.Text.Basic

/-!
# Systems

As much of an operating system as the command can reach, as data: files, folders, a few devices and
the standard streams.

* `Place`: what a path leads to, and `System.place`, which follows a path segment by segment;
* `System.read`, `System.write`: files and devices by their paths.

The command runs in a folder of files. Of what lies outside, the root folder, its usual folders and
the folders above the running one are there; they hold what the command writes there.
-/

namespace DocTree.Command

/-- What the command reads from and writes to. -/
structure System where
  /-- The texts of the files by their full paths, or by their names in the running folder. -/
  files : NameMap String
  /-- What is left of the standard input. -/
  input : String
  /-- What was written to the standard output as a device. -/
  output : String

/-! ## Places -/

/-- A folder. -/
inductive Directory where
  /-- The folder where the command runs, or the one so many levels above it. -/
  | above (levels : Nat)
  | root
  /-- A folder of the root folder. -/
  | top (name : String)
  deriving DecidableEq, Repr

/-- A device. -/
inductive Device where
  | null
  /-- Takes no text. -/
  | full
  | input
  | output
  | errors
  deriving DecidableEq, Repr

/-- What a path leads to. -/
inductive Place where
  | directory (d : Directory)
  | device (d : Device)
  /-- A file in a folder, whether it exists or not. -/
  | file (d : Directory) (name : String)
  deriving DecidableEq, Repr

/-- The device of a name. -/
def Device.ofName? (name : String) : Option Device :=
  match name with
  | "null" => some null
  | "full" => some full
  | "stdin" => some input
  | "stdout" => some output
  | "stderr" => some errors
  | _ => none

namespace Directory

/-- The names of the folders of the root folder. -/
def topNames : List String :=
  ["bin", "boot", "dev", "etc", "home", "lib", "media", "mnt", "opt", "proc", "root", "run", "sbin",
   "srv", "sys", "tmp", "usr", "var"]

/-- The folder that holds a folder. The root folder holds itself. -/
def parent : Directory → Directory
  | above levels => above (levels + 1)
  | root | top _ => root

/-- The path of a folder, up to the name of a file in it. -/
def path : Directory → String
  | above 0 => ""
  | above (levels + 1) => "../" ++ path (above levels)
  | root => "/"
  | top name => "/" ++ name ++ "/"

/-- What has a name in a folder. -/
def entry (d : Directory) (name : String) : Place :=
  match d with
  | root => if topNames.contains name then .directory (top name) else .file root name
  | top "dev" =>
    match Device.ofName? name with
    | some device => .device device
    | none => .file d name
  | _ => .file d name

end Directory

/-- The bytes that a name may have. -/
def maxNameSize : Nat := 255

/-- The bytes that a path may have. -/
def maxPathSize : Nat := 4095

namespace System

/-! ## Paths -/

/-- The text of a file. -/
def file? (s : System) (d : Directory) (name : String) : Option String :=
  s.files.get? (d.path ++ name)

/-- What a further segment of a path leads to. Only a folder leads on. -/
def step (s : System) (p : Place) (segment : String) : Except FileFault Place :=
  match p with
  | .device _ => .error .notDirectory
  | .file d name => .error (if (s.file? d name).isSome then .notDirectory else .notFound)
  | .directory d =>
    if segment = "" ∨ segment = "." then .ok p
    else if segment = ".." then .ok (.directory d.parent)
    else if maxNameSize < segment.utf8ByteSize then .error .nameTooLong
    else .ok (d.entry segment)

/-- The segments of a path, which a slash separates. -/
def segments (path : String) : List String :=
  (Text.splitWhere (· == '/') path.toList).map String.ofList

/-- The folder where a path starts. -/
def origin (path : String) : Directory :=
  if path.toList.head? = some '/' then .root else .above 0

/-- What the segments lead to from where a path starts. -/
def follow (s : System) (path : String) (segments : List String) : Except FileFault Place :=
  if path.isEmpty then .error .notFound
  else if maxPathSize < path.utf8ByteSize then .error .nameTooLong
  else segments.foldlM s.step (.directory (origin path))

/-- What a path leads to. -/
def place (s : System) (path : String) : Except FileFault Place := s.follow path (segments path)

/-- What the text for a path goes to. A slash at the end asks for a folder, which is refused once
the way there is clear. -/
def target (s : System) (path : String) : Except FileFault Place :=
  let names := segments path
  if names.getLast? = some "" then do
    let way := (names.reverse.dropWhile (·.isEmpty)).reverse.dropLast
    let _ ← s.follow path (way ++ ["."])
    .error .isDirectory
  else s.place path

/-! ## Reading and writing -/

/-- Read all that a device gives. What is read of the standard input is gone. -/
def readDevice (s : System) : Device → String × System
  | .input => (s.input, { s with input := "" })
  | .null | .full | .output | .errors => ("", s)

/-- Write to a device. -/
def writeDevice (s : System) (text : String) : Device → Except FileFault System
  | .output => .ok { s with output := s.output ++ text }
  | .full => .error .noSpace
  | .null | .input | .errors => .ok s

/-- Read all that is at a path. -/
def read (s : System) (path : String) : Except FileFault (String × System) := do
  match ← s.place path with
  | .directory _ => .error .isDirectory
  | .device d => return s.readDevice d
  | .file d name =>
    match s.file? d name with
    | some text => return (text, s)
    | none => .error .notFound

/-- Write a text at a path. A file is new or loses the text it had. -/
def write (s : System) (path text : String) : Except FileFault System := do
  match ← s.target path with
  | .directory _ => .error .isDirectory
  | .device d => s.writeDevice text d
  | .file d name => return { s with files := s.files.insert (d.path ++ name) text }

end System

end DocTree.Command
