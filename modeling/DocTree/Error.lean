import DocTree.Host.Manifest
import DocTree.Markup.Error

/-!
# Errors

Everything that can go wrong on the way from a host to a token tree. An error ends the parse.
`Error.message` is the wording.
-/

namespace DocTree

/-- Why a configuration cannot be used. -/
inductive ConfigFault where
  /-- It does not say what to parse. -/
  | noMain
  /-- Its file cannot be read. -/
  | unreadable (path reason : String)
  deriving DecidableEq, Repr

/-- The wording of a fault. -/
def ConfigFault.message : ConfigFault → String
  | noMain => "no entry object: set `main`"
  | unreadable path reason => path ++ ": " ++ reason

/-- Why an object is not parsed. -/
inductive Error where
  -- Docstrings
  | markup (e : MarkupError)
  | missingDocstring (object : String)
  | noFields (object : String)
  | duplicateParam (object name : String)
  | duplicateType (object name : String)
  | duplicateField (object field : String)
  /-- Names with a type and no description field, or the other way round. -/
  | unmatched (object : String) (names : List String)
  | malformedLink (object text : String)
  -- Names
  | unresolved (token context : String)
  | unsupportedLink (object name target : String)
  | invalidLinkTarget (object target : String)
  /-- A link to the enclosing class where there is none. -/
  | noParent (object : String)
  | missingParentArg (object name : String)
  -- The graph of links
  /-- An object that is needed before it is finished. -/
  | cycle (name : String)
  | recursionLimit (depth limit : Nat)
  | duplicateViaLink (object name : String)
  -- Contracts
  | invalidIdentifier (name : String)
  | missingConstructorArgs (object : String) (names : List String)
  | missingMethod (className method : String)
  | notCallable (className method : String)
  | notParsable (name kind : String)
  -- Input
  | unknownObject (name : String)
  | manifest (fault : ManifestFault)
  | config (fault : ConfigFault)
  | data (fault : DataFault)
  deriving DecidableEq, Repr

namespace Error

/-- The wording of an error. -/
def message : Error → String
  | markup e => e.message
  | missingDocstring object => "`" ++ object ++ "` has no docstring"
  | noFields object => "the docstring of `" ++ object ++ "` includes no fields"
  | duplicateParam object name => "duplicate parameter `" ++ name ++ "` in `" ++ object ++ "`"
  | duplicateType object name =>
    "duplicate parameter type `" ++ name ++ "` in `" ++ object ++ "`"
  | duplicateField object field => "multiple `" ++ field ++ "` fields in `" ++ object ++ "`"
  | unmatched object names =>
    "unmatched params and types in `" ++ object ++ "`: " ++ ", ".intercalate names
  | malformedLink object text => "malformed link `see " ++ text ++ "` in `" ++ object ++ "`"
  | unresolved token context =>
    "cannot resolve `" ++ token ++ "` in the context of `" ++ context ++ "`"
  | unsupportedLink object name target =>
    "linking `" ++ name ++ "` to `" ++ target ++ "` in `" ++ object ++
      "` is not implemented: only `self` links are supported"
  | invalidLinkTarget object target =>
    "`" ++ target ++ "` linked from `" ++ object ++ "` is not a documented function or class"
  | noParent object => "`" ++ object ++ "` links `self` but has no enclosing class attributes"
  | missingParentArg object name =>
    "`" ++ object ++ "` links `self` for `" ++ name ++ "`, which is not an attribute"
  | cycle name => "`" ++ name ++ "` is still being parsed: doc links form a cycle"
  | recursionLimit depth limit =>
    "over maximum depth of doc linking: " ++ toString depth ++ "/" ++ toString limit
  | duplicateViaLink object name =>
    "duplicate argument `" ++ name ++ "` introduced by a link in `" ++ object ++ "`"
  | invalidIdentifier name =>
    "invalid argument name `" ++ name ++ "`: expected an identifier that is not a keyword"
  | missingConstructorArgs object names =>
    "constructor of `" ++ object ++ "` leaves arguments undocumented: " ++ ", ".intercalate names
  | missingMethod className method =>
    "`" ++ className ++ "` does not have method `" ++ method ++ "`"
  | notCallable className method => "`" ++ className ++ "." ++ method ++ "` is not callable"
  | notParsable name kind =>
    "`" ++ name ++ "` is a " ++ kind ++ ", expected a class or a function"
  | unknownObject name => "no object named `" ++ name ++ "`"
  | manifest fault => "invalid host manifest: " ++ fault.message
  | config fault => "invalid configuration: " ++ fault.message
  | data fault => "YAML error: " ++ fault.message

end Error

end DocTree
