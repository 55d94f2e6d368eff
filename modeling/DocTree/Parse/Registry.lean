import DocTree.Error
import DocTree.Markup.Style
import DocTree.Resolver

/-!
# Parsing: settings and registry

* `Settings`: what a parse depends on besides the object;
* `Progress`, `Registry`: the objects that are being parsed and the tokens of those that are
  finished, by full name;
* `ParseM`: parsing changes the registry, and the changes stay when it fails;
* `tracked`: **parse an object at most once**, and notice when it is needed before it is finished.
-/

namespace DocTree

/-- The limit on the depth of links, unless another one is set. -/
def defaultRecursionLimit : Nat := 1000

/-- What a parse depends on besides the object. -/
structure Settings where
  resolver : Resolver
  style : Style
  /-- The full names of the classes and functions that are expanded where they occur as types. -/
  whitelist : List String
  recursionLimit : Nat

def Settings.isWhitelisted (s : Settings) (name : String) : Bool := s.whitelist.contains name

/-- How far the parse of an object has come. -/
inductive Progress where
  | inProgress
  | done (token : Token)

/-- The objects that parsing has come to, by full name. -/
abbrev Registry := NameMap Progress

/-- Parsing: it reads and changes the registry, and may fail. -/
abbrev ParseM := ExceptT Error (StateM Registry)

/-- A computation on the registry that may fail, with the registry that it leaves. -/
def ParseM.ofFunction {α : Type} (f : Registry → Except Error α × Registry) : ParseM α := f

/-- The result of parsing from a registry, and the registry after it. -/
def ParseM.runOn {α : Type} (x : ParseM α) (reg : Registry) : Except Error α × Registry :=
  StateT.run (ExceptT.run x) reg

/-- A computation that does not touch the registry. -/
def ParseM.ofExcept {α : Type} (e : Except Error α) : ParseM α :=
  ParseM.ofFunction fun reg => (e, reg)

/-- Record the token of an object. -/
def record (name : String) (token : Token) : ParseM Unit :=
  ParseM.ofFunction fun reg => (.ok (), reg.insert name (.done token))

/-- Parse the object of the given name. A finished object gives its token again, one in progress is
part of a cycle, and the trace of a failed parse is removed. -/
def tracked (name : String) (parse : ParseM Token) : ParseM Token :=
  ParseM.ofFunction fun reg =>
    match reg.get? name with
    | some .inProgress => (.error (.cycle name), reg)
    | some (.done token) => (.ok token, reg)
    | none =>
      match parse.runOn (reg.insert name .inProgress) with
      | (.ok token, reg) => (.ok token, reg.insert name (.done token))
      | (.error e, reg) => (.error e, reg.erase name)

/-- Whether the object of the given name is finished. -/
def Registry.isDone (reg : Registry) (name : String) : Bool :=
  match NameMap.get? reg name with
  | some (.done _) => true
  | _ => false

end DocTree
