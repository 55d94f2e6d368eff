import DocTree.Decimal.Layout
import DocTree.Value.Basic

/-!
# Values in source form

The literal that a value is written as.

* `floatText`: a floating-point number in full, never with an exponent;
* `quoted`, `bytesText`: strings and bytes between quotes;
* `Value.display`: **the source form of a value**.
-/

namespace DocTree.Value

/-- A floating-point number in full. A whole number shows all its digits and the point; any other
has the fewest digits that read back, a tie going up. -/
def floatText (x : Float) : String :=
  let sign (negative : Bool) : String := if negative then "-" else ""
  match FloatShape.of x with
  | .nan => "NaN"
  | .infinite negative => sign negative ++ "inf"
  | .zero negative => sign negative ++ "0.0"
  | .finite negative value =>
    sign negative ++
      .ofList (if value.isWhole then (Decimal.mk value.whole 0).positional
        else (value.shortest .up).positional)

/-- The quote mark around a string: the double one only for a string with the single one and
without the double one. -/
def quoteMark (cs : List Char) : Char :=
  if cs.contains '\'' && !cs.contains '"' then '"' else '\''

/-- A character of a string between the given quote marks. -/
def escape (mark c : Char) : List Char :=
  if c = '\\' then ['\\', '\\']
  else if c = '\n' then ['\\', 'n']
  else if c = '\t' then ['\\', 't']
  else if c = '\r' then ['\\', 'r']
  else if c = mark then ['\\', c]
  else [c]

/-- A string in quotes. -/
def quoted (s : String) : String :=
  let cs := s.toList
  let mark := quoteMark cs
  .ofList (mark :: cs.flatMap (escape mark) ++ [mark])

/-- A byte within quotes: printable ASCII stands for itself. -/
def byteText (b : UInt8) : List Char :=
  let n := b.toNat
  if n = '\''.toNat then ['\\', '\'']
  else if n = '\\'.toNat then ['\\', '\\']
  else if 0x20 ≤ n ∧ n ≤ 0x7E then [Char.ofNat n]
  else ['\\', 'x', Nat.digitChar (n / 16), Nat.digitChar (n % 16)]

/-- Bytes in quotes. -/
def bytesText (data : List UInt8) : String :=
  .ofList ('b' :: '\'' :: data.flatMap byteText ++ ['\''])

mutual

/-- **The source form of a value.** -/
def display : Value → String
  | none => "None"
  | bool b => if b then "True" else "False"
  | int n => toString n
  | float x => floatText x
  | str s => quoted s
  | bytes data => bytesText data
  | tuple [] => "()"
  | tuple [item] => "(" ++ display item ++ ",)"
  | tuple (item :: items) => "(" ++ ", ".intercalate (display item :: displayItems items) ++ ")"
  | list items => "[" ++ ", ".intercalate (displayItems items) ++ "]"
  | dict pairs => "\x7b" ++ ", ".intercalate (displayPairs pairs) ++ "\x7d"
  | set [] => "set()"
  | set (item :: items) =>
    "\x7b" ++ ", ".intercalate (display item :: displayItems items) ++ "\x7d"
  | ellipsis => "Ellipsis"

def displayItems : List Value → List String
  | [] => []
  | item :: items => display item :: displayItems items

def displayPairs : List (Value × Value) → List String
  | [] => []
  | (key, value) :: pairs => (display key ++ ": " ++ display value) :: displayPairs pairs

end

end DocTree.Value
