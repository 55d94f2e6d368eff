import DocTree.Error
import DocTree.Literal.Reader
import DocTree.Token.Basic

/-!
# Resolving tokens

What the text of a type or a default stands for.

* `Scope`: names bound outside all modules, such as imports;
* `Strategy`: the ways to resolve a token. Each of them either resolves it or declines;
* `Resolver.resolve`: **the first strategy of `Strategy.order` that resolves counts**.
-/

namespace DocTree

/-- Names bound outside all modules. They are consulted after the module of the docstring. -/
abbrev Scope := NameMap Object

/-- Bind every alias to the object of its path. -/
def Scope.ofImports (host : Host) (imports : NameMap String) : Except Error Scope :=
  imports.entries.foldlM (fun scope (name, path) =>
    match host.lookup? path with
    | some object => .ok (NameMap.insert scope name object)
    | none => .error (.unresolved path ("import of `" ++ name ++ "`"))) .empty

/-- Where a token stands. -/
structure Context where
  /-- The dotted path of the defining module. -/
  module : String
  /-- The full name of the documented object, which errors mention. -/
  object : String
  deriving DecidableEq, Repr

/-- A way to resolve a token. -/
inductive Strategy where
  | builtin
  | module
  | scope
  | literal
  | dottedPath
  deriving DecidableEq, Repr

namespace Strategy

/-- The strategies, the first to be tried first. -/
def order : List Strategy := [builtin, module, scope, literal, dottedPath]

end Strategy

/-- Where tokens are looked up. -/
structure Resolver where
  host : Host
  scope : Scope

namespace Resolver

/-- The constants and the built-in types. -/
def builtin? (token : String) : Option Entity :=
  if token = "None" then some (.value .none)
  else if token = "True" then some (.value (.bool true))
  else if token = "False" then some (.value (.bool false))
  else if token = "Ellipsis" then some (.value .ellipsis)
  else (Builtin.ofName? token).map .builtin

/-- Follow a dotted name whose first segment is bound in `names`. -/
def bound? (r : Resolver) (names : NameMap Object) (token : String) : Option Entity :=
  match Text.segments token with
  | [] => none
  | first :: rest =>
    (names.get? first).bind fun object => (r.host.follow? object rest).map Entity.ofObject

/-- Try one strategy. Names are looked up only for tokens that have the form of a dotted name. -/
def apply (r : Resolver) (ctx : Context) (token : String) : Strategy → Option Entity
  | .builtin => builtin? token
  | .module =>
    if isDottedName token then
      (r.host.module? ctx.module).bind fun m => r.bound? m.members token
    else none
  | .scope => if isDottedName token then r.bound? r.scope token else none
  | .literal => (Literal.read token).toOption.map .value
  | .dottedPath =>
    if isDottedName token then (r.host.lookup? token).map Entity.ofObject else none

/-- **The entity that a token stands for.** -/
def resolve (r : Resolver) (ctx : Context) (token : String) : Except Error Entity :=
  let token := Text.trim token
  match Strategy.order.findSome? (r.apply ctx token) with
  | some entity => .ok entity
  | none => .error (.unresolved token ctx.object)

end Resolver

end DocTree
