import DocTree.Builtin
import DocTree.NameMap
import DocTree.Text.Basic

/-!
# Hosts

A host is a set of modules whose classes and functions carry docstrings.

* `Function`, `Class`, `Object`, `Module`, `Host`: the data;
* `Host.member?`: attribute access. Classes and functions are what they are by their module and
  their name in it (`Class.isSame`, `Function.isSame`), whatever else they hold;
* `Host.lookup?`: **finding the object of a dotted path**.
-/

namespace DocTree

/-- A function or a method. -/
structure Function where
  /-- The dotted path of the defining module. -/
  module : String
  /-- The name within the module, such as `Point.__init__`. -/
  qualname : String
  doc : Option String
  /-- The names of the parameters, if they are known. -/
  params : Option (List String)
  deriving DecidableEq, Repr

/-- A base of a class. -/
inductive Base where
  | builtin (b : Builtin)
  /-- The full name of a class. -/
  | named (name : String)
  deriving DecidableEq, Repr

mutual

/-- Anything that a name may be bound to. -/
inductive Object where
  /-- A module, by its dotted path; it may be missing from the host. -/
  | module (path : String)
  | class (c : Class)
  | function (f : Function)
  | value (v : Value)

/-- A class and its members. -/
structure Class where
  module : String
  qualname : String
  doc : Option String
  /-- The constructor, if the class has one of its own. -/
  init : Option Function
  members : NameMap Object
  bases : List Base
  /-- The fields of a class that is a record. -/
  fields : Option (List String)

end

instance : Inhabited Object := ⟨.module ""⟩

/-- The last segment of a dotted name. -/
def lastSegment (name : String) : String := ((Text.segments name).getLast?).getD name

namespace Function

def name (f : Function) : String := lastSegment f.qualname

def fullName (f : Function) : String := f.module ++ "." ++ f.qualname

/-- Whether two functions are the same: of one name in one module. -/
def isSame (f g : Function) : Bool := f.module == g.module && f.qualname == g.qualname

end Function

namespace Class

def name (c : Class) : String := lastSegment c.qualname

def fullName (c : Class) : String := c.module ++ "." ++ c.qualname

/-- Whether two classes are the same: of one name in one module. -/
def isSame (c d : Class) : Bool := c.module == d.module && c.qualname == d.qualname

/-- Whether the class is a record: a tuple, and nothing else, with named fields. -/
def isRecord (c : Class) : Bool := c.fields.isSome && c.bases == [.builtin .tuple]

/-- The name of the constructor. -/
def initName : String := "__init__"

/-- The member of the given name. Its constructor's name leads to the constructor alone. -/
def member? (c : Class) (name : String) : Option Object :=
  if name = initName then c.init.map .function else c.members.get? name

end Class

namespace Object

/-- What kind of object it is. -/
def kind : Object → String
  | .module _ => "module"
  | .class _ => "class"
  | .function _ => "function"
  | .value _ => "value"

def fullName? : Object → Option String
  | .module path => some path
  | .class c => some c.fullName
  | .function f => some f.fullName
  | .value _ => none

/-- Whether two objects are the same. -/
def isSame : Object → Object → Bool
  | .module p, .module q => p == q
  | .class c, .class d => c.isSame d
  | .function f, .function g => f.isSame g
  | .value v, .value w => v == w
  | _, _ => false

end Object

/-- A module and what its names are bound to. -/
structure Module where
  name : String
  doc : Option String
  members : NameMap Object

/-- The modules by their dotted paths. -/
structure Host where
  modules : NameMap Module

namespace Host

def empty : Host := ⟨.empty⟩

instance : Inhabited Host := ⟨empty⟩

def module? (h : Host) (path : String) : Option Module := h.modules.get? path

/-- The paths of the modules in order. -/
def moduleNames (h : Host) : List String := h.modules.names

/-- Import a module by its exact path. -/
def import? (h : Host) (path : String) : Option Object :=
  if h.modules.contains path then some (.module path) else none

/-- The attribute of an object. A module has its members and then its submodules; nothing is an
attribute of a module that the host does not have. -/
def member? (h : Host) : Object → String → Option Object
  | .module path, name =>
    (h.module? path).bind fun m =>
      (m.members.get? name).or (h.import? (path ++ "." ++ name))
  | .class c, name => c.member? name
  | .function _, _ => none
  | .value _, _ => none

/-- Follow names one by one from an object. -/
def follow? (h : Host) (o : Object) (names : List String) : Option Object :=
  names.foldlM h.member? o

/-- Import the first `n` names as a module and follow the others; if that fails, try again with
one name less. -/
def lookupFrom? (h : Host) (names : List String) : Nat → Option Object
  | 0 => none
  | n + 1 =>
    ((h.import? (Text.dotted (names.take (n + 1)))).bind (h.follow? · (names.drop (n + 1)))).or
      (lookupFrom? h names n)

/-- **The object of a dotted path**: the longest start of the path that is a module from which the
rest can be followed. -/
def lookup? (h : Host) (path : String) : Option Object :=
  let names := Text.segments path
  h.lookupFrom? names names.length

end Host

end DocTree
