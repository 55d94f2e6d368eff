import DocTree.Host.Basic

/-!
# Building hosts

Hosts built in code: each function adds one thing. What is defined within a module or a class takes
its module and its qualified name from there, and a later member takes the place of an earlier one
of the same name.
-/

namespace DocTree

/-- The name of a member of a class. -/
def qualified (owner name : String) : String := owner ++ "." ++ name

namespace Class

def empty (module qualname : String) : Class :=
  ⟨module, qualname, none, none, .empty, [], none⟩

def withDoc (c : Class) (doc : String) : Class := { c with doc := some doc }

/-- The class with a constructor, whose parameters are known. -/
def withInit (c : Class) (doc : Option String) (params : List String) : Class :=
  { c with init := some ⟨c.module, qualified c.qualname initName, doc, some params⟩ }

def bind (c : Class) (name : String) (o : Object) : Class :=
  { c with members := c.members.insert name o }

def withMethod (c : Class) (name : String) (doc : Option String)
    (params : Option (List String)) : Class :=
  c.bind name (.function ⟨c.module, qualified c.qualname name, doc, params⟩)

/-- The class with a nested class, which `build` completes. -/
def withClass (c : Class) (name : String) (build : Class → Class) : Class :=
  c.bind name (.class (build (empty c.module (qualified c.qualname name))))

def withValue (c : Class) (name : String) (v : Value) : Class := c.bind name (.value v)

def withBase (c : Class) (base : Base) : Class := { c with bases := c.bases ++ [base] }

def withFields (c : Class) (fields : List String) : Class := { c with fields := some fields }

end Class

/-- The base that a name stands for: a built-in type if there is one of that name. -/
def Base.ofName (name : String) : Base :=
  match Builtin.ofName? name with
  | some b => .builtin b
  | none => .named name

namespace Module

def empty (path : String) : Module := ⟨path, none, .empty⟩

def withDoc (m : Module) (doc : String) : Module := { m with doc := some doc }

/-- Bind a name to an object, which may be defined elsewhere. -/
def bind (m : Module) (name : String) (o : Object) : Module :=
  { m with members := m.members.insert name o }

def withFunction (m : Module) (name : String) (doc : Option String)
    (params : Option (List String)) : Module :=
  m.bind name (.function ⟨m.name, name, doc, params⟩)

/-- The module with a class, which `build` completes. -/
def withClass (m : Module) (name : String) (build : Class → Class) : Module :=
  m.bind name (.class (build (.empty m.name name)))

def withValue (m : Module) (name : String) (v : Value) : Module := m.bind name (.value v)

/-- Bind a name to another module. -/
def withAlias (m : Module) (name path : String) : Module := m.bind name (.module path)

end Module

/-- The host with a module, which `build` completes. -/
def Host.withModule (h : Host) (path : String) (build : Module → Module) : Host :=
  ⟨h.modules.insert path (build (.empty path))⟩

end DocTree
