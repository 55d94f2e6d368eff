import DocTree.Markup.Error
import DocTree.Markup.Marker

/-!
# Field names

What the name of a field says about the field.
-/

namespace DocTree

open Text

/-- What a field documents, by its name. -/
inductive FieldName where
  /-- `param name`. -/
  | param (name : String)
  /-- `param see target`: all arguments of the target stand here. -/
  | linkAll (target : String)
  /-- `type name`. -/
  | type (name : String)
  | returns
  | returnType
  /-- Any other field; it is kept as it is. -/
  | other (name : String)
  deriving DecidableEq, Repr

namespace FieldName

/-- The words behind a keyword at the start of a field name, if the name starts with it. -/
def wordsBehind? (keyword : String) (name : String) : Option (List String) :=
  ((dropStart? keyword.toList name.toList).bind Marker.textBehind?).map (words <| .ofList ·)

/-- The four spellings of the parameter keyword. -/
def paramKeywords : List String := ["param", "parameter", "arg", "argument"]

/-- Classify a field by its name. -/
def classify (text : String) : Except MarkupError FieldName :=
  let name := trim text
  match paramKeywords.findSome? (wordsBehind? · name) with
  | some [] => .error (.missingFieldName name)
  | some ["see"] => .error (.missingLinkTarget name)
  | some ["see", target] => .ok (.linkAll target)
  | some [single] => .ok (.param single)
  | some _ => .error (.ambiguousFieldName name)
  | none =>
    match wordsBehind? "type" name with
    | some [] => .error (.missingFieldName name)
    | some [single] => .ok (.type single)
    | some _ => .error (.ambiguousFieldName name)
    | none =>
      if name = "returns" ∨ name = "return" then .ok .returns
      else if name = "rtype" then .ok .returnType
      else .ok (.other name)

end FieldName

end DocTree
