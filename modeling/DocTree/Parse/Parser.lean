import DocTree.Parse.Object

/-!
# Parsers

A parser is a host with settings and a registry that lives from call to call. Each call gives its
result and the parser after it; the registry keeps what a failed call finished.
-/

namespace DocTree

/-- A host with settings, and what has been parsed of it. -/
structure Parser where
  settings : Settings
  registry : Registry

namespace Parser

/-- A new parser for a host. -/
def ofHost (host : Host) : Parser :=
  ⟨⟨⟨host, .empty⟩, .rst, [], defaultRecursionLimit⟩, .empty⟩

/-! ## Settings -/

def withStyle (p : Parser) (style : Style) : Parser :=
  { p with settings := { p.settings with style := style } }

/-- Add names to the whitelist. -/
def withWhitelist (p : Parser) (names : List String) : Parser :=
  { p with settings := { p.settings with whitelist := p.settings.whitelist ++ names } }

def withRecursionLimit (p : Parser) (limit : Nat) : Parser :=
  { p with settings := { p.settings with recursionLimit := limit } }

def withScope (p : Parser) (scope : Scope) : Parser :=
  { p with settings := { p.settings with resolver := ⟨p.settings.resolver.host, scope⟩ } }

def isWhitelisted (p : Parser) (name : String) : Bool := p.settings.isWhitelisted name

/-- Whether the object of the given name has been parsed. -/
def isParsed (p : Parser) (name : String) : Bool := p.registry.isDone name

/-! ## Calls -/

/-- Run a computation on the registry of the parser. -/
def run {α : Type} (p : Parser) (x : ParseM α) : Except Error α × Parser :=
  let (result, registry) := x.runOn p.registry
  (result, { p with registry := registry })

/-- The token of an object reached at the given depth, and of the given methods. -/
def parseObject (p : Parser) (o : Object) (methods : List String) (depth : Nat) :
    Except Error Token × Parser :=
  p.run (DocTree.parseObject p.settings depth o methods)

/-- The token of an object. -/
def parse (p : Parser) (o : Object) : Except Error Token × Parser := p.parseObject o [] 0

/-- The token of a class with some of its methods. -/
def parseWithMethods (p : Parser) (o : Object) (methods : List String) :
    Except Error Token × Parser := p.parseObject o methods 0

/-- The documentation of a function, which leaves no entry of its own in the registry. `parent` are
the attributes of the enclosing class. -/
def parseFunction (p : Parser) (f : Function) (parent : Option ArgMap) (depth : Nat) :
    Except Error FunctionDoc × Parser :=
  p.run do
    ParseM.ofExcept (checkDepth p.settings depth)
    (DocTree.parseFunction p.settings f parent).run (needAt p.settings depth)

/-- The documentation of a class, which leaves no entry of its own in the registry. -/
def parseClass (p : Parser) (c : Class) (methods : List String) (depth : Nat) :
    Except Error ClassDoc × Parser :=
  p.run do
    ParseM.ofExcept (checkDepth p.settings depth)
    (DocTree.parseClass p.settings c methods).run (needAt p.settings depth)

end Parser

end DocTree
