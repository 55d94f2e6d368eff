import DocTree.Json.Basic
import DocTree.Text.Utf8
import DocTree.Value.Basic

/-!
# Values in JSON

Scalars are JSON scalars, bytes and the ellipsis are strings, containers are arrays. Keys need not
be strings, so a dict is an array of pairs.
-/

namespace DocTree.Value

mutual

/-- The JSON form of a value. -/
def toJson : Value → Json
  | none => .null
  | bool b => .bool b
  | int n => .int n
  | float x => .float x
  | str s => .str s
  | bytes data => .str (Text.Utf8.decodeLossy data)
  | tuple items => .arr (itemsToJson items)
  | list items => .arr (itemsToJson items)
  | set items => .arr (itemsToJson items)
  | dict pairs => .arr (pairsToJson pairs)
  | ellipsis => .str "..."

def itemsToJson : List Value → List Json
  | [] => []
  | item :: items => toJson item :: itemsToJson items

def pairsToJson : List (Value × Value) → List Json
  | [] => []
  | (key, value) :: pairs => .arr [toJson key, toJson value] :: pairsToJson pairs

end

end DocTree.Value
