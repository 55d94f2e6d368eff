import DocTree.Decimal.Reader
import DocTree.Markup.Style

/-!
# Command-line options

What the arguments of the command ask for.

* `Setting`, `Switch`: options with a value and without;
* `Options.set`, `Options.addOperand`: one more argument;
* `readArg`: an argument on its own, which may want the next one as a value;
* `Request.ofArgs`: **all arguments, from left to right**. The first fault counts, and so does a
  request for help or for the version that comes before it.
-/

namespace DocTree.Command

/-- An option with a value. -/
inductive Setting where
  | host
  | config
  | style
  | whitelist
  | method
  | recursionLimit
  | output
  deriving DecidableEq, Repr

/-- An option without a value. -/
inductive Switch where
  | compact
  /-- More log messages. Nothing is logged here, so it changes nothing. -/
  | verbose
  | help
  | version
  deriving DecidableEq, Repr

/-- An option of either kind. -/
inductive Flag where
  | setting (s : Setting)
  | switch (s : Switch)
  deriving DecidableEq, Repr

namespace Flag

/-- The option of a long name. -/
def ofLong? (name : String) : Option Flag :=
  match name with
  | "host" => some (.setting .host)
  | "config" => some (.setting .config)
  | "style" => some (.setting .style)
  | "whitelist" => some (.setting .whitelist)
  | "method" => some (.setting .method)
  | "recursion-limit" => some (.setting .recursionLimit)
  | "output" => some (.setting .output)
  | "compact" => some (.switch .compact)
  | "verbose" => some (.switch .verbose)
  | "help" => some (.switch .help)
  | "version" => some (.switch .version)
  | _ => none

/-- The option of a short name. -/
def ofShort? (c : Char) : Option Flag :=
  match c with
  | 'c' => some (.setting .config)
  | 's' => some (.setting .style)
  | 'w' => some (.setting .whitelist)
  | 'm' => some (.setting .method)
  | 'o' => some (.setting .output)
  | 'v' => some (.switch .verbose)
  | 'h' => some (.switch .help)
  | 'V' => some (.switch .version)
  | _ => none

end Flag

/-- What is wrong with the arguments. -/
inductive UsageError where
  | unknownOption (text : String)
  | missingValue
  | unexpectedValue (text : String)
  | repeated
  | invalidValue (text : String)
  | extraOperand (text : String)
  | missingHost
  deriving DecidableEq, Repr

/-- The wording of an error. -/
def UsageError.message : UsageError → String
  | unknownOption text => "unexpected argument '" ++ text ++ "' found"
  | missingValue => "a value is required for an option but none was supplied"
  | unexpectedValue text => "unexpected value '" ++ text ++ "' for an option without a value"
  | repeated => "an option cannot be used multiple times"
  | invalidValue text => "invalid value '" ++ text ++ "' for an option"
  | extraOperand text => "unexpected argument '" ++ text ++ "' found"
  | missingHost => "the option '--host' is required"

/-- The options given so far. -/
structure Options where
  /-- The path of the object to parse. -/
  object : Option String
  /-- The file of the manifest; a hyphen means the standard input. -/
  host : Option String
  config : Option String
  style : Option Style
  whitelist : List String
  methods : List String
  recursionLimit : Option Nat
  output : Option String
  compact : Bool

namespace Options

def empty : Options := ⟨none, none, none, none, [], [], none, none, false⟩

/-- A value that can be given once. -/
def once {α : Type} (old : Option α) (new : Except UsageError α) :
    Except UsageError (Option α) :=
  if old.isSome then .error .repeated else new.map some

/-- The path of a file, which is not empty. -/
def path (value : String) : Except UsageError String :=
  if value.isEmpty then .error (.invalidValue value) else .ok value

/-- Give an option its value. -/
def set (o : Options) (value : String) : Setting → Except UsageError Options
  | .host => return { o with host := ← once o.host (path value) }
  | .config => return { o with config := ← once o.config (path value) }
  | .output => return { o with output := ← once o.output (path value) }
  | .style => return { o with
      style := ← once o.style ((Style.ofName value).mapError fun _ => .invalidValue value) }
  | .recursionLimit =>
    match Decimal.readUInt64? value.toList with
    | some n => return { o with recursionLimit := ← once o.recursionLimit (.ok n) }
    | none => .error (.invalidValue value)
  | .whitelist => .ok { o with whitelist := o.whitelist ++ [value] }
  | .method => .ok { o with methods := o.methods ++ [value] }

/-- Take an argument that belongs to no option. There is at most one. -/
def addOperand (o : Options) (text : String) : Except UsageError Options :=
  if o.object.isSome then .error (.extraOperand text) else .ok { o with object := some text }

end Options

/-- What to do. -/
inductive Request where
  /-- Parse an object of the host in the given file. -/
  | parse (host : String) (options : Options)
  | help
  | version

/-- How reading goes on behind an option. -/
inductive Step where
  | next (o : Options)
  /-- The next argument is the value of a setting. -/
  | await (o : Options) (s : Setting)
  | finish (r : Request)

/-- Turn a switch on. -/
def Switch.step (o : Options) : Switch → Except UsageError Step
  | .compact => if o.compact then .error .repeated else .ok (.next { o with compact := true })
  | .verbose => .ok (.next o)
  | .help => .ok (.finish .help)
  | .version => .ok (.finish .version)

/-- A long option, perhaps with its value behind an equals sign. -/
def readLong (o : Options) (text : List Char) : Except UsageError Step :=
  let name := String.ofList (text.takeWhile (· != '='))
  let value := match text.dropWhile (· != '=') with
    | [] => none
    | _ :: cs => some (String.ofList cs)
  match Flag.ofLong? name, value with
  | none, _ => .error (.unknownOption (.ofList ('-' :: '-' :: text)))
  | some (.setting s), some value => (o.set value s).map .next
  | some (.setting s), none => .ok (.await o s)
  | some (.switch _), some value => .error (.unexpectedValue value)
  | some (.switch s), none => s.step o

/-- A row of short options. What stands behind one that takes a value is its value. -/
def readShort (o : Options) : List Char → Except UsageError Step
  | [] => .ok (.next o)
  | c :: cs =>
    match Flag.ofShort? c, cs with
    | none, _ => .error (.unknownOption (.ofList ['-', c]))
    | some (.setting s), [] => .ok (.await o s)
    | some (.setting s), '=' :: cs => (o.set (.ofList cs) s).map .next
    | some (.setting s), cs => (o.set (.ofList cs) s).map .next
    | some (.switch s), cs =>
      match s.step o with
      | .ok (.next o) => readShort o cs
      | other => other

/-- An argument on its own. A single hyphen is no option. -/
def readArg (o : Options) (arg : String) : Except UsageError Step :=
  match arg.toList with
  | '-' :: '-' :: text => readLong o text
  | '-' :: c :: cs => readShort o (c :: cs)
  | _ => (o.addOperand arg).map .next

/-- Whether an argument cannot be the value of the option before it. -/
def looksLikeOption (arg : String) : Bool :=
  match arg.toList with
  | '-' :: _ :: _ => true
  | _ => false

namespace Request

/-- What the options ask for when all have been read. -/
def ofOptions (o : Options) : Except UsageError Request :=
  match o.host with
  | some host => .ok (.parse host o)
  | none => .error .missingHost

/-- Further arguments. Behind two hyphens none is an option. -/
def ofArgsFrom (o : Options) : List String → Except UsageError Request
  | [] => ofOptions o
  | "--" :: rest => do ofOptions (← rest.foldlM Options.addOperand o)
  | arg :: rest =>
    match readArg o arg with
    | .error e => .error e
    | .ok (.finish r) => .ok r
    | .ok (.next o) => ofArgsFrom o rest
    | .ok (.await o s) =>
      match rest with
      | [] => .error .missingValue
      | value :: rest =>
        if looksLikeOption value then .error .missingValue
        else match o.set value s with
          | .error e => .error e
          | .ok o => ofArgsFrom o rest

/-- **What the arguments ask for.** -/
def ofArgs (args : List String) : Except UsageError Request := ofArgsFrom .empty args

end Request

end DocTree.Command
