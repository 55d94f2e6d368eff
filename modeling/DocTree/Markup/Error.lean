/-!
# Errors of the docstring markup

What can be wrong with the text of a docstring before any name in it is looked up, and the wording
of each complaint (`MarkupError.message`).
-/

namespace DocTree

/-- Why a docstring cannot be read. -/
inductive MarkupError where
  /-- The name of no dialect. -/
  | unsupportedStyle (name : String)
  /-- An attribute whose content has no type field. -/
  | missingAttributeType (name : String)
  /-- A link that names nothing. -/
  | missingLinkTarget (text : String)
  /-- A link in place of an attribute, with content of its own. -/
  | linkWithBody (target : String)
  /-- More than one name where a field takes one. -/
  | ambiguousFieldName (name : String)
  /-- No name where a field takes one. -/
  | missingFieldName (name : String)
  /-- An attribute directive without a name; lines count from one. -/
  | malformedDirective (line : Nat) (text : String)
  | emptyType (body : String)
  | emptyDefault (body : String)
  /-- A default behind an alternative that is not the last. -/
  | misplacedDefault (body : String)
  /-- Quotes or brackets that do not match. -/
  | unbalanced (body : String)
  deriving DecidableEq, Repr

namespace MarkupError

/-- The wording of an error. -/
def message : MarkupError → String
  | unsupportedStyle name =>
    "unsupported docstring style `" ++ name ++ "`: expected rst, numpy or google"
  | missingAttributeType name => "attribute `" ++ name ++ "` has no `:type:` line"
  | missingLinkTarget text => "`see` link has no target: `" ++ text ++ "`"
  | linkWithBody target => "`see` attribute linking `" ++ target ++ "` must not have a body"
  | ambiguousFieldName name =>
    "ambiguous field name `" ++ name ++ "`: expected exactly one identifier"
  | missingFieldName name => "field `" ++ name ++ "` names no parameter"
  | malformedDirective line text =>
    "malformed directive on line " ++ toString line ++ ": `" ++ text ++ "`"
  | emptyType body => "no type found in `" ++ body ++ "`"
  | emptyDefault body => "empty default value in `" ++ body ++ "`"
  | misplacedDefault body =>
    "default value on a non-final type alternative in `" ++ body ++ "`"
  | unbalanced body => "unbalanced brackets or quotes in `" ++ body ++ "`"

end MarkupError

end DocTree
