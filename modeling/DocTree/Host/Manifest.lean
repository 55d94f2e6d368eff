import DocTree.Datum.Decode
import DocTree.Host.Build
import DocTree.Literal.Reader

/-!
# Manifests

A host described by data: modules with their members, whose values are given as literals.

* `Manifest`, `ModuleSpec`, `ClassSpec`, `MemberSpec`: the description;
* `Manifest.ofDatum`: decoding. Keys that a manifest, a module, a class or a constructor does not
  have are refused; other members ignore them. Members and constructors may also be sequences, which
  give the values in the order of the keys, and the texts in them have to be in quotes;
* `Manifest.toHost`: **the host that a manifest describes**. It fails at a value that is no
  literal or at a module described twice, whichever comes first.
-/

namespace DocTree

/-- A constructor. Its parameters are always known. -/
structure InitSpec where
  doc : Option String
  params : List String

mutual

/-- A member of a module or a class. -/
inductive MemberSpec where
  | function (name : String) (doc : Option String) (params : Option (List String))
  | class (spec : ClassSpec)
  /-- A value, by its literal. -/
  | value (name literal : String)
  | module (name path : String)

/-- A class with its members. -/
structure ClassSpec where
  name : String
  doc : Option String
  init : Option InitSpec
  members : List MemberSpec
  bases : List String
  fields : Option (List String)

end

/-- A module with its members. -/
structure ModuleSpec where
  name : String
  doc : Option String
  members : List MemberSpec

/-- The description of a host. -/
structure Manifest where
  modules : List ModuleSpec

/-- Why a manifest describes no host. -/
inductive ManifestFault where
  | duplicateModule (name : String)
  | badValue (name module : String) (error : LiteralError)
  deriving DecidableEq, Repr

/-- The wording of a fault. -/
def ManifestFault.message : ManifestFault → String
  | duplicateModule name => "duplicate module `" ++ name ++ "`"
  | badValue name module error =>
    "value `" ++ name ++ "` in `" ++ module ++ "`: " ++ error.message

/-! ## Decoding -/

section Decoding

open Datum

/-- The kinds of members. -/
inductive MemberKind where
  | function
  | «class»
  | value
  | module
  deriving DecidableEq, Repr

namespace MemberKind

/-- The kinds by their names, in the order of their numbers. -/
def all : List (String × MemberKind) :=
  [("function", function), ("class", .class), ("value", value), ("module", module)]

/-- The kind of a name. -/
def ofName (name : String) : Except DataFault MemberKind :=
  match all.find? (·.1 == name) with
  | some (_, kind) => .ok kind
  | none => .error (.invalid ("unknown variant `" ++ name ++ "`"))

/-- The kind of a member of a module. -/
def ofText (d : Datum) : Except DataFault MemberKind := do ofName (← d.asText)

/-- The kind of a member of a class, by its name in quotes or by its number. -/
def ofNameOrNumber : Datum → Except DataFault MemberKind
  | quoted name => ofName name
  | d => do
    match all[← d.asUInt64]? with
    | some (_, kind) => return kind
    | none => .error (.mismatch "a kind of member")

/-- The keys of a member besides `kind`. -/
def keys : MemberKind → List String
  | function => ["name", "doc", "params"]
  | .class => ["name", "doc", "init", "members", "bases", "fields"]
  | value => ["name", "value"]
  | module => ["name", "path"]

end MemberKind

/-- The keys of a constructor. -/
def InitSpec.keys : List String := ["doc", "params"]

/-- The entries of a constructor, by key or by place. -/
def InitSpec.entries : Datum → Except DataFault Entries
  | seq values => byPlace InitSpec.keys values
  | d => d.asEntries

/-- Decode a constructor. -/
def InitSpec.ofDatum (d : Datum) : Except DataFault InitSpec := do
  let entries ← InitSpec.entries d
  onlyKeys entries InitSpec.keys
  return ⟨← optional entries "doc" asString, ← orElse entries "params" [] (asListOf asString)⟩

/-- A class by its entries, given its members. -/
def ClassSpec.ofEntries (entries : Entries) (members : List MemberSpec) :
    Except DataFault ClassSpec := do
  onlyKeys entries ("kind" :: MemberKind.class.keys)
  return {
    name := ← required entries "name" asString
    doc := ← optional entries "doc" asString
    init := ← optional entries "init" InitSpec.ofDatum
    members := members
    bases := ← orElse entries "bases" [] (asListOf asString)
    fields := ← optional entries "fields" (asListOf asString) }

/-- A member of the given kind by its entries, given the members that it has itself. -/
def MemberSpec.ofEntries (entries : Entries) (members : Except DataFault (List MemberSpec)) :
    MemberKind → Except DataFault MemberSpec
  | .function =>
    return .function (← required entries "name" asString) (← optional entries "doc" asString)
      (← optional entries "params" (asListOf asString))
  | .class => return .class (← ClassSpec.ofEntries entries (← members))
  | .value =>
    return .value (← required entries "name" asString) (← required entries "value" asString)
  | .module =>
    return .module (← required entries "name" asString) (← required entries "path" asString)

mutual

/-- A member, whose kind `kindOf` decodes. -/
def MemberSpec.ofDatum (kindOf : Decoder MemberKind) : Datum → Except DataFault MemberSpec
  | map entries => do
    MemberSpec.ofEntries entries (MemberSpec.ofKey entries) (← required entries "kind" kindOf)
  | seq (kind :: values) => do
    let kind ← kindOf kind
    MemberSpec.ofEntries (← byPlace kind.keys values) (MemberSpec.ofPlace values) kind
  | _ => .error (.mismatch "a member")

/-- The members under the key `members`. -/
def MemberSpec.ofKey : Entries → Except DataFault (List MemberSpec)
  | [] => .ok []
  | (key, seq items) :: entries =>
    if key = "members" then MemberSpec.ofItems MemberKind.ofNameOrNumber items
    else MemberSpec.ofKey entries
  | (key, _) :: entries =>
    if key = "members" then .error (.mismatch "a sequence") else MemberSpec.ofKey entries

/-- The members at the place of the key `members`, which is the fourth of a class. -/
def MemberSpec.ofPlace : List Datum → Except DataFault (List MemberSpec)
  | _ :: _ :: _ :: seq items :: _ => MemberSpec.ofItems MemberKind.ofNameOrNumber items
  | _ :: _ :: _ :: _ :: _ => .error (.mismatch "a sequence")
  | _ => .ok []

def MemberSpec.ofItems (kindOf : Decoder MemberKind) :
    List Datum → Except DataFault (List MemberSpec)
  | [] => .ok []
  | item :: items => do
    return (← MemberSpec.ofDatum kindOf item) :: (← MemberSpec.ofItems kindOf items)

end

/-- Decode a module, whose name and docstring any scalars may give. -/
def ModuleSpec.ofDatum (d : Datum) : Except DataFault ModuleSpec := do
  let entries ← d.asEntries
  onlyKeys entries ["name", "doc", "members"]
  return {
    name := ← required entries "name" asText
    doc := ← optional entries "doc" asText
    members := ← orElse entries "members" [] (asListOf (MemberSpec.ofDatum MemberKind.ofText)) }

/-- Decode a manifest. -/
def Manifest.ofDatum (d : Datum) : Except DataFault Manifest := do
  let entries ← d.asEntries
  onlyKeys entries ["modules"]
  return ⟨← required entries "modules" (asListOf ModuleSpec.ofDatum)⟩

end Decoding

/-! ## Building -/

/-- The name of a member of the module, or of the class that owns it. -/
def memberName (owner : Option String) (name : String) : String :=
  match owner with
  | some owner => qualified owner name
  | none => name

mutual

/-- The object that a member describes, with the name it is bound to. -/
def MemberSpec.build (module : String) (owner : Option String) :
    MemberSpec → Except ManifestFault (String × Object)
  | .function name doc params => .ok (name, .function ⟨module, memberName owner name, doc, params⟩)
  | .class spec => do
    let c ← ClassSpec.build module owner spec
    return (spec.name, .class c)
  | .value name literal =>
    match Literal.read literal with
    | .ok v => .ok (name, .value v)
    | .error e => .error (.badValue name module e)
  | .module name path => .ok (name, .module path)

def ClassSpec.build (module : String) (owner : Option String) :
    ClassSpec → Except ManifestFault Class
  | ⟨name, doc, init, members, bases, fields⟩ => do
    let qualname := memberName owner name
    let members ← MemberSpec.buildAll module (some qualname) .empty members
    return {
      module := module
      qualname := qualname
      doc := doc
      init := init.map fun i =>
        ⟨module, qualified qualname Class.initName, i.doc, some i.params⟩
      members := members
      bases := bases.map Base.ofName
      fields := fields }

/-- Bind the members one by one; of several with one name the last counts. -/
def MemberSpec.buildAll (module : String) (owner : Option String) (bound : NameMap Object) :
    List MemberSpec → Except ManifestFault (NameMap Object)
  | [] => .ok bound
  | spec :: specs => do
    let (name, object) ← MemberSpec.build module owner spec
    MemberSpec.buildAll module owner (bound.insert name object) specs

end

/-- Add the module that `spec` describes to a host. -/
def Host.addSpec (h : Host) (spec : ModuleSpec) : Except ManifestFault Host := do
  let members ← MemberSpec.buildAll spec.name none .empty spec.members
  if h.modules.contains spec.name then .error (.duplicateModule spec.name)
  else return ⟨h.modules.insert spec.name ⟨spec.name, spec.doc, members⟩⟩

/-- **The host that a manifest describes.** -/
def Manifest.toHost (m : Manifest) : Except ManifestFault Host :=
  m.modules.foldlM Host.addSpec .empty

end DocTree
