import DocTree.Decimal.Layout

/-!
# JSON

JSON data whose objects keep the order of their members, and its two written forms.

* `Json.compact`: without any white space;
* `Json.pretty`: one member or element a line, each level two columns further in.
-/

namespace DocTree

/-- JSON data. Whole numbers and floating-point numbers are kept apart. -/
inductive Json where
  | null
  | bool (b : Bool)
  | int (n : Int)
  | float (x : Float)
  | str (s : String)
  | arr (items : List Json)
  | obj (members : List (String × Json))

instance : Inhabited Json := ⟨.null⟩

namespace Json

/-- Numbers from `10 ^ -5` up to but not including `10 ^ 16` are written in full. -/
def isPositional (d : Decimal) : Bool := -5 < d.point && d.point ≤ 16

/-- A floating-point number with the fewest digits that read back, a tie going to the even digit.
JSON has no name for infinity or for no number. -/
def floatText (x : Float) : String :=
  let sign (negative : Bool) : String := if negative then "-" else ""
  match FloatShape.of x with
  | .nan | .infinite _ => "null"
  | .zero negative => sign negative ++ "0.0"
  | .finite negative value =>
    let d := value.shortest .toEven
    sign negative ++ .ofList (if isPositional d then d.positional else d.scientific)

/-- A character within a string. Quotes, backslashes and control characters are escaped, all
others stand for themselves. -/
def escape (c : Char) : List Char :=
  if c = '"' then ['\\', '"']
  else if c = '\\' then ['\\', '\\']
  else if c = '\x08' then ['\\', 'b']
  else if c = '\t' then ['\\', 't']
  else if c = '\n' then ['\\', 'n']
  else if c = '\x0c' then ['\\', 'f']
  else if c = '\r' then ['\\', 'r']
  else if c.toNat < 0x20 then
    ['\\', 'u', '0', '0', Nat.digitChar (c.toNat / 16), Nat.digitChar (c.toNat % 16)]
  else [c]

/-- A string in quotes. -/
def quote (s : String) : String := .ofList ('"' :: s.toList.flatMap escape ++ ['"'])

mutual

/-- The written form without white space. -/
def compact : Json → String
  | null => "null"
  | bool b => if b then "true" else "false"
  | int n => toString n
  | float x => floatText x
  | str s => quote s
  | arr items => "[" ++ ",".intercalate (compactItems items) ++ "]"
  | obj members => "\x7b" ++ ",".intercalate (compactMembers members) ++ "\x7d"

def compactItems : List Json → List String
  | [] => []
  | item :: items => compact item :: compactItems items

def compactMembers : List (String × Json) → List String
  | [] => []
  | (key, value) :: members => (quote key ++ ":" ++ compact value) :: compactMembers members

end

/-- A new line at the given depth. -/
def newline (depth : Nat) : String := .ofList ('\n' :: List.replicate (2 * depth) ' ')

/-- The written parts of a container between its brackets, a line each; an empty container has
none. -/
def onLines (depth : Nat) (opening closing : String) (parts : List String) : String :=
  if parts.isEmpty then opening ++ closing
  else opening ++ newline (depth + 1) ++ ("," ++ newline (depth + 1)).intercalate parts ++
    newline depth ++ closing

mutual

/-- The written form on lines, as it stands `depth` levels deep. -/
def prettyAt (depth : Nat) : Json → String
  | arr items => onLines depth "[" "]" (prettyItems (depth + 1) items)
  | obj members => onLines depth "\x7b" "\x7d" (prettyMembers (depth + 1) members)
  | null => "null"
  | bool b => if b then "true" else "false"
  | int n => toString n
  | float x => floatText x
  | str s => quote s

def prettyItems (depth : Nat) : List Json → List String
  | [] => []
  | item :: items => prettyAt depth item :: prettyItems depth items

def prettyMembers (depth : Nat) : List (String × Json) → List String
  | [] => []
  | (key, value) :: members =>
    (quote key ++ ": " ++ prettyAt depth value) :: prettyMembers depth members

end

/-- The written form with one member or element a line. -/
def pretty (j : Json) : String := prettyAt 0 j

/-- The member of an object with the given key. -/
def get? (key : String) : Json → Option Json
  | obj members => (members.find? (·.1 == key)).map (·.2)
  | _ => none

end Json

end DocTree
