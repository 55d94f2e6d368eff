import DocTree.Value.Basic

/-!
# Built-in types

The types that a token may name directly, and the values that belong to each.
-/

namespace DocTree

/-- A built-in type. -/
inductive Builtin where
  | int
  | float
  | str
  | bool
  | bytes
  | complex
  | list
  | tuple
  | dict
  | set
  | frozenSet
  | object
  | type
  deriving DecidableEq, Repr

namespace Builtin

/-- All built-in types. -/
def all : List Builtin :=
  [int, float, str, bool, bytes, complex, list, tuple, dict, set, frozenSet, object, type]

/-- The name of the type. -/
def name : Builtin → String
  | int => "int"
  | float => "float"
  | str => "str"
  | bool => "bool"
  | bytes => "bytes"
  | complex => "complex"
  | list => "list"
  | tuple => "tuple"
  | dict => "dict"
  | set => "set"
  | frozenSet => "frozenset"
  | object => "object"
  | type => "type"

/-- The built-in type of the given name. -/
def ofName? (s : String) : Option Builtin := all.find? (·.name == s)

theorem ofName?_name (b : Builtin) : ofName? b.name = some b := by cases b <;> rfl

/-- Whether a value belongs to the type. A truth value is an integer too, and everything is an
object. -/
def accepts : Builtin → Value → Bool
  | object, _ => true
  | int, .int _ | int, .bool _ => true
  | float, .float _ => true
  | str, .str _ => true
  | bool, .bool _ => true
  | bytes, .bytes _ => true
  | list, .list _ => true
  | tuple, .tuple _ => true
  | dict, .dict _ => true
  | set, .set _ | frozenSet, .set _ => true
  | _, _ => false

end Builtin

end DocTree
