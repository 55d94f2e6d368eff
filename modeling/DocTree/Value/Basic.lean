/-!
# Values

The data that a literal stands for, and when two values count as the same.
-/

namespace DocTree

/-- A value that can be written down as a literal. -/
inductive Value where
  | none
  | bool (b : Bool)
  | int (n : Int)
  | float (x : Float)
  | str (s : String)
  | bytes (data : List UInt8)
  | tuple (items : List Value)
  | list (items : List Value)
  /-- Keys and values in the order of their first appearance. -/
  | dict (pairs : List (Value × Value))
  /-- Members in the order of their first appearance. -/
  | set (items : List Value)
  | ellipsis

namespace Value

/-- The name of the type of a value. -/
def typeName : Value → String
  | none => "NoneType"
  | bool _ => "bool"
  | int _ => "int"
  | float _ => "float"
  | str _ => "str"
  | bytes _ => "bytes"
  | tuple _ => "tuple"
  | list _ => "list"
  | dict _ => "dict"
  | set _ => "set"
  | ellipsis => "ellipsis"

mutual

/-- Whether two values are the same: of one type, with the same parts in the same order. Numbers
of different types differ, the two floating-point zeros are the same, and what is no number
differs even from itself. -/
def same : Value → Value → Bool
  | none, none => true
  | bool a, bool b => a == b
  | int a, int b => a == b
  | float a, float b => a == b
  | str a, str b => a == b
  | bytes a, bytes b => a == b
  | tuple as, tuple bs => sameItems as bs
  | list as, list bs => sameItems as bs
  | dict as, dict bs => samePairs as bs
  | set as, set bs => sameItems as bs
  | ellipsis, ellipsis => true
  | _, _ => false

def sameItems : List Value → List Value → Bool
  | [], [] => true
  | a :: as, b :: bs => same a b && sameItems as bs
  | _, _ => false

def samePairs : List (Value × Value) → List (Value × Value) → Bool
  | [], [] => true
  | (a, x) :: as, (b, y) :: bs => same a b && same x y && samePairs as bs
  | _, _ => false

end

instance : BEq Value := ⟨same⟩

instance : Inhabited Value := ⟨none⟩

end Value

/-- The elements of a list without those that an earlier one is the same as. -/
def dedup {α : Type} [BEq α] (l : List α) : List α :=
  l.foldl (fun seen a => if seen.contains a then seen else seen ++ [a]) []

end DocTree
