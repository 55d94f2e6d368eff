import DocTree.Error
import DocTree.Text.Basic
import DocTree.Token.Basic

/-!
# Links to the enclosing class

A type field `see self` copies type and default from an attribute of the enclosing class.
-/

namespace DocTree

/-- The name by which a link reaches the enclosing class. -/
def selfName : String := "self"

/-- An argument that is required and has no description yet; its name must be an identifier. -/
def Arg.make (name : String) (type : Entity) : Except Error Arg :=
  if isIdentifier name then .ok ⟨name, type, none, none⟩
  else .error (.invalidIdentifier name)

/-- The attribute that a link names: `self` means the one of the argument's own name, `self arg`
and `self.arg` the one called `arg`. -/
def linkSource? (name target : String) (arg : Option String) : Option String :=
  match Text.dropStart? selfName.toList target.toList, arg with
  | some [], none => some name
  | some [], some arg => some arg
  | some ('.' :: c :: cs), none => some (.ofList (c :: cs))
  | _, _ => none

/-- The argument that a link to the enclosing class gives. Its own description comes before the one
of the attribute. -/
def linkOne (object name target : String) (arg : Option String) (description : Option String)
    (parent : Option ArgMap) : Except Error Arg :=
  match linkSource? name target arg with
  | none =>
    let text := match arg with
      | some arg => target ++ " " ++ arg
      | none => target
    .error (.unsupportedLink object name text)
  | some sourceName =>
    match parent with
    | none => .error (.noParent object)
    | some parent =>
      match parent.get? sourceName with
      | none => .error (.missingParentArg object sourceName)
      | some source => do
        let made ← Arg.make name source.type
        return { made with
          description := description.or source.description
          default := source.default }

end DocTree
