import DocTree.Host.Basic
import DocTree.Identifier
import DocTree.Value.Display

/-!
# Token trees

What a docstring says, with every name in it resolved.

* `Entity`: what a type or a default stands for;
* `Arg`, `ArgMap`: documented arguments, in order and unique by name;
* `FunctionDoc`, `ClassDoc`, `Token`: the documentation of an object;
* `Entity.same`, `Token.same`: when two entities, or two trees, are the same. A union holds no two
  members that are.
-/

namespace DocTree

/-- A field or a titled section that is kept as it stands. -/
structure OtherSection where
  name : String
  body : String
  deriving DecidableEq, Repr

mutual

/-- What a type or a default stands for. -/
inductive Entity where
  | builtin (b : Builtin)
  | value (v : Value)
  | function (f : Function)
  | class (c : Class)
  /-- A module, by its dotted path. -/
  | module (path : String)
  /-- One of several types. -/
  | union (members : List Entity)
  /-- A class or a function in full. -/
  | expanded (token : Token)

/-- A documented argument or attribute. -/
structure Arg where
  name : String
  type : Entity
  description : Option String
  /-- None if the argument is required. -/
  default : Option Entity

/-- Arguments in document order; no two have the same name. -/
structure ArgMap where
  toList : List Arg

/-- What a function returns. -/
structure Returns where
  name : Option String
  type : Option Entity
  description : Option String

/-- The documentation of a function. -/
structure FunctionDoc where
  subject : Function
  description : Option String
  args : ArgMap
  returns : Option Returns
  otherSections : List OtherSection

/-- The documentation of a class. -/
structure ClassDoc where
  subject : Class
  description : Option String
  attributes : ArgMap
  init : Option FunctionDoc
  /-- The documentation of the methods that were asked for, if any were. -/
  methods : Option (NameMap FunctionDoc)
  otherSections : List OtherSection

/-- The documentation of an object. -/
inductive Token where
  | function (doc : FunctionDoc)
  | class (doc : ClassDoc)

end

/-! ## Arguments -/

namespace ArgMap

def empty : ArgMap := ⟨[]⟩

instance : Inhabited ArgMap := ⟨empty⟩

def names (m : ArgMap) : List String := m.toList.map (·.name)

def size (m : ArgMap) : Nat := m.toList.length

def isEmpty (m : ArgMap) : Bool := m.toList.isEmpty

/-- The argument of the given name. -/
def get? (m : ArgMap) (name : String) : Option Arg := m.toList.find? (·.name == name)

def contains (m : ArgMap) (name : String) : Bool := (m.get? name).isSome

/-- Append an argument, unless its name is taken. -/
def insert? (m : ArgMap) (arg : Arg) : Option ArgMap :=
  if m.contains arg.name then none else some ⟨m.toList ++ [arg]⟩

/-- Change the argument of the given name. -/
def modify (m : ArgMap) (name : String) (f : Arg → Arg) : ArgMap :=
  ⟨m.toList.map fun arg => if arg.name = name then f arg else arg⟩

end ArgMap

/-- Whether the argument has no default. -/
def Arg.isRequired (arg : Arg) : Bool := arg.default.isNone

/-! ## Documentation -/

/-- The first line of a description. -/
def firstLine? (description : Option String) : Option String :=
  description.bind fun text => (Text.lines text).head?

namespace FunctionDoc

def name (doc : FunctionDoc) : String := doc.subject.name

def qualifiedName (doc : FunctionDoc) : String := doc.subject.fullName

end FunctionDoc

namespace ClassDoc

def name (doc : ClassDoc) : String := doc.subject.name

def qualifiedName (doc : ClassDoc) : String := doc.subject.fullName

/-- The arguments that build an instance: those of the constructor, or the attributes where no
constructor was parsed. -/
def constructorArgs (doc : ClassDoc) : ArgMap :=
  match doc.init with
  | some init => init.args
  | none => doc.attributes

end ClassDoc

namespace Token

def name : Token → String
  | .function doc => doc.name
  | .class doc => doc.name

def qualifiedName : Token → String
  | .function doc => doc.qualifiedName
  | .class doc => doc.qualifiedName

def description : Token → Option String
  | .function doc => doc.description
  | .class doc => doc.description

end Token

/-! ## Sameness -/

mutual

/-- Whether two entities are the same: classes and functions by module and name, tokens in full by
all that they say. A class and its token differ. -/
def Entity.same : Entity → Entity → Bool
  | .builtin a, .builtin b => a == b
  | .value a, .value b => a == b
  | .function a, .function b => a.isSame b
  | .class a, .class b => a.isSame b
  | .module a, .module b => a == b
  | .union as, .union bs => Entity.sameAll as bs
  | .expanded a, .expanded b => a.same b
  | _, _ => false
termination_by structural a => a

def Entity.sameAll : List Entity → List Entity → Bool
  | [], [] => true
  | a :: as, b :: bs => a.same b && Entity.sameAll as bs
  | _, _ => false
termination_by structural a => a

def Entity.sameOption : Option Entity → Option Entity → Bool
  | none, none => true
  | some a, some b => a.same b
  | _, _ => false
termination_by structural a => a

def Arg.same : Arg → Arg → Bool
  | ⟨name, type, description, default⟩, ⟨name', type', description', default'⟩ =>
    name == name' && type.same type' && description == description' &&
      Entity.sameOption default default'
termination_by structural a => a

def Arg.sameAll : List Arg → List Arg → Bool
  | [], [] => true
  | a :: as, b :: bs => a.same b && Arg.sameAll as bs
  | _, _ => false
termination_by structural a => a

def ArgMap.same : ArgMap → ArgMap → Bool
  | ⟨args⟩, ⟨args'⟩ => Arg.sameAll args args'
termination_by structural a => a

def Returns.same : Returns → Returns → Bool
  | ⟨name, type, description⟩, ⟨name', type', description'⟩ =>
    name == name' && Entity.sameOption type type' && description == description'
termination_by structural a => a

def Returns.sameOption : Option Returns → Option Returns → Bool
  | none, none => true
  | some r, some r' => r.same r'
  | _, _ => false
termination_by structural a => a

def FunctionDoc.same : FunctionDoc → FunctionDoc → Bool
  | ⟨subject, description, args, returns, sections⟩,
    ⟨subject', description', args', returns', sections'⟩ =>
    subject.isSame subject' && description == description' && args.same args' &&
      Returns.sameOption returns returns' && sections == sections'
termination_by structural a => a

def FunctionDoc.sameOption : Option FunctionDoc → Option FunctionDoc → Bool
  | none, none => true
  | some doc, some doc' => doc.same doc'
  | _, _ => false
termination_by structural a => a

def FunctionDoc.sameEntries : List (String × FunctionDoc) → List (String × FunctionDoc) → Bool
  | [], [] => true
  | (name, doc) :: docs, (name', doc') :: docs' =>
    name == name' && doc.same doc' && FunctionDoc.sameEntries docs docs'
  | _, _ => false
termination_by structural a => a

def FunctionDoc.sameMap : NameMap FunctionDoc → NameMap FunctionDoc → Bool
  | ⟨docs⟩, ⟨docs'⟩ => FunctionDoc.sameEntries docs docs'
termination_by structural a => a

def FunctionDoc.sameMapOption :
    Option (NameMap FunctionDoc) → Option (NameMap FunctionDoc) → Bool
  | none, none => true
  | some docs, some docs' => FunctionDoc.sameMap docs docs'
  | _, _ => false
termination_by structural a => a

def ClassDoc.same : ClassDoc → ClassDoc → Bool
  | ⟨subject, description, attributes, init, methods, sections⟩,
    ⟨subject', description', attributes', init', methods', sections'⟩ =>
    subject.isSame subject' && description == description' && attributes.same attributes' &&
      FunctionDoc.sameOption init init' && FunctionDoc.sameMapOption methods methods' &&
      sections == sections'
termination_by structural a => a

/-- **Whether two tokens say the same**, methods included. -/
def Token.same : Token → Token → Bool
  | .function doc, .function doc' => doc.same doc'
  | .class doc, .class doc' => doc.same doc'
  | _, _ => false
termination_by structural a => a

end

/-! ## Entities -/

namespace Entity

/-- The full name of a class or a function, expanded or not. -/
def qualifiedName? : Entity → Option String
  | .function f => some f.fullName
  | .class c => some c.fullName
  | .expanded token => some token.qualifiedName
  | _ => none

/-- Whether the entity is a literal. -/
def isValue : Entity → Bool
  | .value _ => true
  | _ => false

/-- The value of a literal. -/
def value? : Entity → Option Value
  | .value v => some v
  | _ => none

/-- The entity that an object is. -/
def ofObject : Object → Entity
  | .module path => .module path
  | .class c => .class c
  | .function f => .function f
  | .value v => .value v

instance : BEq Entity := ⟨same⟩

instance : Inhabited Entity := ⟨.builtin .object⟩

mutual

/-- The written form: a union has bars between its members. -/
def display : Entity → String
  | .builtin b => b.name
  | .value v => v.display
  | .function f => f.fullName
  | .class c => c.fullName
  | .module path => path
  | .union members => " | ".intercalate (displayAll members)
  | .expanded token => token.qualifiedName

def displayAll : List Entity → List String
  | [] => []
  | e :: es => display e :: displayAll es

end

/-- The members of the union of the given types: each once, at its first place. -/
def unionMembers (types : List Entity) : List Entity := dedup types

/-- The type of one or more alternatives: a single one stands for itself. -/
def ofAlternatives (types : List Entity) : Entity :=
  match unionMembers types with
  | [single] => single
  | members => .union members

end Entity

end DocTree
