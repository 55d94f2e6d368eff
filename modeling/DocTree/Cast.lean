import DocTree.Decimal.Reader
import DocTree.Literal.Reader
import DocTree.Text.Utf8
import DocTree.Token.Basic

/-!
# Casting

Reading a raw text, such as a command-line argument, as a value of a type.

* `Builtin.cast`: the built-in types. A container is written as a literal, and a list will do for
  a tuple or a set;
* `Entity.cast`: **any type**. A union first compares the text with its literals, then tries its
  other members in order.
-/

namespace DocTree

/-- Why a text is not cast to a type. -/
inductive CastError where
  /-- Not one of the two truth values. -/
  | bool (text : String)
  | invalid (text type : String)
  | noMatch (text choices : String)
  /-- A type that no text can be cast to. -/
  | uncastable (type : String)
  deriving DecidableEq, Repr

/-- The wording of an error. -/
def CastError.message : CastError → String
  | bool text => "expected `True` or `False`, got `" ++ text ++ "`"
  | invalid text type => "cannot cast `" ++ text ++ "` to " ++ type
  | noMatch text choices => "`" ++ text ++ "` matches none of " ++ choices
  | uncastable type => "`" ++ type ++ "` has no string caster"

/-- A truth value; it has one spelling. -/
def castBool (text : String) : Except CastError Bool :=
  if text = "True" then .ok true
  else if text = "False" then .ok false
  else .error (.bool text)

namespace Builtin

/-- A container of the given type, from the literal that the text is. -/
def castContainer (b : Builtin) (text : String) : Except CastError Value :=
  match Literal.read text with
  | .ok v =>
    if b.accepts v then .ok v
    else match b, v with
      | tuple, .list items => .ok (.tuple items)
      | set, .list items | frozenSet, .list items => .ok (.set items)
      | _, _ => .error (.invalid text b.name)
  | .error _ => .error (.invalid text b.name)

/-- Cast to a built-in type. -/
def cast (b : Builtin) (text : String) : Except CastError Value :=
  match b with
  | str | object => .ok (.str text)
  | bool => (castBool text).map .bool
  | int =>
    match Decimal.readInt64? ((Text.trim text).toList.filter (· != '_')) with
    | some n => .ok (.int n)
    | none => .error (.invalid text b.name)
  | float =>
    match Decimal.readFloat? (Text.trim text).toList with
    | some x => .ok (.float x)
    | none => .error (.invalid text b.name)
  | bytes => .ok (.bytes (Text.Utf8.encode text))
  | complex | type => .error (.uncastable b.name)
  | list | tuple | dict | set | frozenSet => castContainer b text

end Builtin

/-- Whether a text selects a literal: it is the source form of the literal, or the string itself
without quotes. -/
def Value.selectedBy (v : Value) (text : String) : Bool :=
  (match v with
    | .str s => s == text
    | _ => false) || v.display == text

namespace Entity

/-- The first of the literals that the text selects. -/
def selected? (members : List Entity) (text : String) : Option Value :=
  members.findSome? fun m => m.value?.filter (·.selectedBy text)

/-- The literals of a union, if it has no other members. -/
def choices? (members : List Entity) : Option (List Value) := members.mapM value?

mutual

/-- **Cast a text to a type.** -/
def cast : Entity → String → Except CastError Value
  | .builtin b, text => b.cast text
  | .value v, text => if v.selectedBy text then .ok v else .error (.noMatch text v.display)
  | .union members, text =>
    match (selected? members text).or (castFirst members text) with
    | some v => .ok v
    | none => .error (.noMatch text (display (.union members)))
  | .function f, _ => .error (.uncastable (display (.function f)))
  | .class c, _ => .error (.uncastable (display (.class c)))
  | .module path, _ => .error (.uncastable (display (.module path)))
  | .expanded token, _ => .error (.uncastable (display (.expanded token)))

/-- Cast to the first member, not being a literal, that allows it. -/
def castFirst : List Entity → String → Option Value
  | [], _ => none
  | m :: ms, text =>
    if m.isValue then castFirst ms text
    else match cast m text with
      | .ok v => some v
      | .error _ => castFirst ms text

end

end Entity

end DocTree
