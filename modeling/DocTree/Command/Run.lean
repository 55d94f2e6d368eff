import DocTree.Command.Options
import DocTree.Command.System
import DocTree.Load
import DocTree.Token.Json

/-!
# Running the command

From the arguments to what is printed. The files are reached through a `World`, so that the same
command runs on the real system and on a `System`.

* `merge`: a configuration with the options on top;
* `perform`: reading, parsing and writing;
* `run`: **the whole command**, with its exit code and both outputs;
* `runOn`: the command on a system that is data.
-/

namespace DocTree.Command

/-- Access to files. What fails gives its reason. -/
structure World (m : Type → Type) where
  /-- Read the standard input. -/
  readInput : m (Except String String)
  readFile : String → m (Except String String)
  writeFile : String → String → m (Except String Unit)

/-- What a command leaves behind besides files. -/
structure Outcome where
  code : Nat
  output : String
  errors : String
  deriving DecidableEq, Repr

/-! ## Reports -/

/-- Why a command failed: what it was about to do, and what kept it from that. -/
structure Report where
  attempt : String
  cause : Option String
  deriving DecidableEq, Repr

/-- The lines of a cause are indented. -/
def indentCause (cause : String) : String :=
  .ofList (cause.toList.flatMap fun c => if c = '\n' then "\n    ".toList else [c])

/-- The wording of a report. -/
def Report.message (r : Report) : String :=
  match r.cause with
  | none => "Error: " ++ r.attempt ++ "\n"
  | some cause => "Error: " ++ r.attempt ++ "\n\nCaused by:\n    " ++ indentCause cause ++ "\n"

/-- Report an error of the library. -/
def reporting {α : Type} (attempt : String) (x : Except Error α) : Except Report α :=
  x.mapError fun e => ⟨attempt, some e.message⟩

/-- Report a fault of a file. -/
def reportingFile {α : Type} (attempt : String) (x : Except String α) : Except Report α :=
  x.mapError fun reason => ⟨attempt, some reason⟩

/-! ## The steps -/

/-- The host of a manifest that was read from a file. -/
def hostOf (path : String) (text : Except String String) : Except Report Host := do
  let attempt := if path = "-" then "failed to read stdin" else "failed to read " ++ path
  reporting ("invalid host manifest " ++ path) (Host.ofText (← reportingFile attempt text))

/-- The configuration of a file. -/
def configOf (path : String) (text : Except String String) : Except Report Config :=
  reporting ("failed to load config " ++ path) do
    Config.ofText (← text.mapError fun reason => .config (.unreadable path reason))

/-- A configuration with the options on top. The names of the whitelist are added to those of the
configuration, and anything else takes the place of what the configuration says. -/
def merge (config : Config) (o : Options) : Config where
  style := o.style.getD config.style
  main := o.object.or config.main
  whitelist := config.whitelist ++ o.whitelist
  methods := if o.methods.isEmpty then config.methods else o.methods
  recursionLimit := o.recursionLimit.getD config.recursionLimit
  imports := config.imports

/-- The written token tree of the entry object. -/
def treeText (config : Config) (host : Host) (compact : Bool) : Except Report String := do
  match config.main with
  | none => .error ⟨"no object to parse: pass OBJECT or set `main` in the config", none⟩
  | some main =>
    let token ← reporting ("failed to parse " ++ main) (config.parse host)
    return (if compact then token.toJson.compact else token.toJson.pretty) ++ "\n"

section Running

variable {m : Type → Type} [Monad m] (w : World m)

/-- Read the manifest, then the configuration, and parse. -/
def parseTree (host : String) (o : Options) : m (Except Report String) := do
  match hostOf host (← if host = "-" then w.readInput else w.readFile host) with
  | .error r => return .error r
  | .ok h =>
    match o.config with
    | none => return treeText (merge .standard o) h o.compact
    | some path =>
      match configOf path (← w.readFile path) with
      | .error r => return .error r
      | .ok config => return treeText (merge config o) h o.compact

/-- Parse, and write the token tree to the file of the options or else to the output. -/
def perform (host : String) (o : Options) : m (Except Report String) := do
  match ← parseTree w host o, o.output with
  | .ok text, some path =>
    return (reportingFile ("failed to write " ++ path) (← w.writeFile path text)).map fun _ => ""
  | result, _ => return result

/-- The name and the version of the command. -/
def versionText : String := "docstr 0.1.0\n"

def usageText : String :=
  "Usage: docstr [OPTIONS] --host <MANIFEST> [OBJECT]\n"

def helpText : String :=
  "Parse docstrings into typed token trees\n\n" ++ usageText ++
  "\nArguments:\n" ++
  "  [OBJECT]  Full name of the object to parse, instead of `main` of the config file\n" ++
  "\nOptions:\n" ++
  "      --host <MANIFEST>        Host manifest, `-` for the standard input\n" ++
  "  -c, --config <CONFIG>        Parser config file\n" ++
  "  -s, --style <STYLE>          Docstring style: rst (default), numpy, google\n" ++
  "  -w, --whitelist <NAME>       Class or function to expand when used as a type\n" ++
  "  -m, --method <NAME>          Method of the entry class to parse\n" ++
  "      --recursion-limit <N>    Maximum depth of doc linking\n" ++
  "  -o, --output <OUTPUT>        Write the token tree here instead of stdout\n" ++
  "      --compact                Print compact JSON\n" ++
  "  -v, --verbose...             More logging on stderr\n" ++
  "  -h, --help                   Print help\n" ++
  "  -V, --version                Print version\n"

/-- **Run the command.** Its code is 0 when it succeeds, 1 when it fails and 2 when its arguments
make no sense. -/
def run (args : List String) : m Outcome :=
  match Request.ofArgs args with
  | .error e => return ⟨2, "", "error: " ++ e.message ++ "\n\n" ++ usageText⟩
  | .ok .help => return ⟨0, helpText, ""⟩
  | .ok .version => return ⟨0, versionText, ""⟩
  | .ok (.parse host o) => do
    match ← perform w host o with
    | .ok output => return ⟨0, output, ""⟩
    | .error r => return ⟨1, "", r.message⟩

end Running

/-! ## On a system -/

/-- A system as a world. -/
def System.world : World (StateM System) where
  readInput := modifyGet fun s => (.ok s.input, { s with input := "" })
  readFile path := modifyGet fun s =>
    match s.read path with
    | .ok (text, s) => (.ok text, s)
    | .error fault => (.error fault.message, s)
  writeFile path text := modifyGet fun s =>
    match s.write path text with
    | .ok s => (.ok (), s)
    | .error fault => (.error fault.message, s)

/-- Run the command on a system: the outcome, and the system afterwards. -/
def runOn (s : System) (args : List String) : Outcome × System :=
  let (outcome, s) := (run System.world args).run s
  ({ outcome with output := s.output ++ outcome.output }, s)

end DocTree.Command
