import DocTree.Literal.Quoted
import DocTree.Text.Letter

/-!
# Numbers

Reading integers in four bases and floating-point numbers. Underscores between digits mean
nothing.
-/

namespace DocTree.Literal

open Text

/-- A hexadecimal digit or an underscore. -/
def isHexOrUnderscore (c : Char) : Bool := (Decimal.digitValue? c).isSome || c == '_'

def isDigitOrUnderscore (c : Char) : Bool := c.isDigit || c == '_'

/-- The base that the two characters at the start of a number announce. -/
def base? : List Char → Option (Nat × List Char)
  | '0' :: c :: cs =>
    if c = 'x' ∨ c = 'X' then some (16, cs)
    else if c = 'o' ∨ c = 'O' then some (8, cs)
    else if c = 'b' ∨ c = 'B' then some (2, cs)
    else none
  | _ => none

def withoutUnderscores (cs : List Char) : List Char := cs.filter (· != '_')

/-- The integer with the given sign. -/
def signed (negative : Bool) (n : Nat) : Value := .int (if negative then -n else n)

/-- An integer behind the mark of its base. -/
def basedInteger (negative : Bool) (base : Nat) (cs : List Char) : Except Stopped (Front Value) :=
  let rest := cs.dropWhile isHexOrUnderscore
  let digits := withoutUnderscores (cs.takeWhile isHexOrUnderscore)
  match Decimal.readDigits base Decimal.maxInt64 digits with
  | .ok n => .ok (signed negative n, rest)
  | .error fault => stop rest (.badDigits fault)

/-- A point and the digits behind it. A point before another point belongs to no number. -/
def fractionPart (cs : List Char) : List Char × List Char :=
  match cs with
  | '.' :: cs =>
    if cs.head? = some '.' then ([], '.' :: cs)
    else ('.' :: cs.takeWhile isDigitOrUnderscore, cs.dropWhile isDigitOrUnderscore)
  | cs => ([], cs)

/-- The letter of an exponent, its sign and its digits. -/
def exponentPart (cs : List Char) : List Char × List Char :=
  match cs with
  | e :: cs =>
    if e = 'e' ∨ e = 'E' then
      match cs with
      | s :: ds =>
        if s = '-' ∨ s = '+' then (e :: s :: ds.takeWhile Char.isDigit, ds.dropWhile Char.isDigit)
        else (e :: cs.takeWhile Char.isDigit, cs.dropWhile Char.isDigit)
      | [] => ([e], [])
    else ([], e :: cs)
  | [] => ([], [])

/-- A decimal number without its sign. It is an integer if it has neither a point nor an
exponent. -/
def decimal (negative : Bool) (cs : List Char) : Except Stopped (Front Value) :=
  let whole := cs.takeWhile isDigitOrUnderscore
  let (fraction, rest) := fractionPart (cs.dropWhile isDigitOrUnderscore)
  let (exponent, rest) := exponentPart rest
  let text := whole ++ fraction ++ exponent
  if text = [] ∨ text = ['.'] then stop rest .noNumber
  else if rest.head?.any isAlphanumeric then stop rest .numberSuffix
  else if fraction = [] ∧ exponent = [] then
    match Decimal.readDigits 10 Decimal.maxInt64 (withoutUnderscores text) with
    | .ok n => .ok (signed negative n, rest)
    | .error _ => stop rest (.badDigits .overflow)
  else match Decimal.readFloat? (withoutUnderscores text) with
    | some x => .ok (.float (if negative then -x else x), rest)
    | none => stop rest .badFloat

/-- A number: an optional sign, which white space may follow, and its digits. -/
def number (cs : List Char) : Except Stopped (Front Value) :=
  let (negative, cs) := Decimal.takeSign cs
  let cs := cs.dropWhile isSpace
  match base? cs with
  | some (base, cs) => basedInteger negative base cs
  | none => decimal negative cs

end DocTree.Literal
