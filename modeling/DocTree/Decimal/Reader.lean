import DocTree.Text.Basic

/-!
# Reading numbers

The number of a digit string, and the two readers of signed numbers that casting is built on:
`readInt64?` and `readFloat?`. Both read a whole text, without white space or underscores.
-/

namespace DocTree.Decimal

/-- The value of a digit in bases up to sixteen. -/
def digitValue? (c : Char) : Option Nat :=
  let n := c.toNat
  if '0'.toNat ≤ n ∧ n ≤ '9'.toNat then some (n - '0'.toNat)
  else if 'a'.toNat ≤ n ∧ n ≤ 'f'.toNat then some (n - 'a'.toNat + 10)
  else if 'A'.toNat ≤ n ∧ n ≤ 'F'.toNat then some (n - 'A'.toNat + 10)
  else none

/-- Why digits have no value: there are none, one of them is no digit, or the value is too big. -/
inductive DigitsFault where
  | empty
  | invalid
  | overflow
  deriving DecidableEq, Repr

/-- The value of further digits behind ones of value `n`, as long as it is at most `bound`. The
first digit at fault counts. -/
def foldDigits (base bound n : Nat) : List Char → Except DigitsFault Nat
  | [] => .ok n
  | c :: cs =>
    match (digitValue? c).filter (· < base) with
    | none => .error .invalid
    | some d =>
      if n * base + d ≤ bound then foldDigits base bound (n * base + d) cs
      else .error .overflow

/-- The value of a digit string in the given base, if it is at most `bound`. -/
def readDigits (base bound : Nat) (cs : List Char) : Except DigitsFault Nat :=
  if cs.isEmpty then .error .empty else foldDigits base bound 0 cs

/-- The greatest 64-bit integer. -/
def maxInt64 : Nat := 0x7FFFFFFFFFFFFFFF

/-- The greatest number of 64 bits. -/
def maxUInt64 : Nat := 0xFFFFFFFFFFFFFFFF

/-- A sign, if there is one, and what follows it. -/
def takeSign : List Char → Bool × List Char
  | '-' :: cs => (true, cs)
  | '+' :: cs => (false, cs)
  | cs => (false, cs)

/-- A 64-bit integer with an optional sign. -/
def readInt64? (cs : List Char) : Option Int :=
  match takeSign cs with
  | (true, cs) => ((readDigits 10 (maxInt64 + 1) cs).toOption).map fun n => -(n : Int)
  | (false, cs) => ((readDigits 10 maxInt64 cs).toOption).map fun n => (n : Int)

/-- A number of 64 bits; a plus sign may precede it. -/
def readUInt64? (cs : List Char) : Option Nat :=
  let cs := match cs with
    | '+' :: cs => cs
    | cs => cs
  (readDigits 10 maxUInt64 cs).toOption

/-- The floating-point number closest to `coefficient · 10 ^ exponent`. A number far outside the
range of floating-point numbers is settled by its magnitude. -/
def toFloat (coefficient : Nat) (exponent : Int) : Float :=
  let top := (Nat.toDigits 10 coefficient).length + exponent
  if coefficient = 0 ∨ top < -330 then 0.0
  else if 330 < top then 1.0 / 0.0
  else Float.ofScientific coefficient (exponent < 0) exponent.natAbs

/-- The value of decimal digits, however many. -/
def natOfDigits (cs : List Char) : Nat :=
  cs.foldl (fun n c => n * 10 + (c.toNat - '0'.toNat)) 0

/-- The exponent part behind a mantissa: nothing, or `e`, an optional sign and digits. -/
def readExponent? : List Char → Option Int
  | [] => some 0
  | e :: cs =>
    let (negative, cs) := takeSign cs
    if (e = 'e' ∨ e = 'E') ∧ cs ≠ [] ∧ cs.all Char.isDigit then
      some (if negative then -(natOfDigits cs : Int) else natOfDigits cs)
    else none

/-- A decimal without sign: digits with an optional point, at least one of them, and an optional
exponent. -/
def readUnsigned? (cs : List Char) : Option Float :=
  let whole := cs.takeWhile Char.isDigit
  let cs := cs.dropWhile Char.isDigit
  let (fraction, cs) := match cs with
    | '.' :: cs => (cs.takeWhile Char.isDigit, cs.dropWhile Char.isDigit)
    | cs => ([], cs)
  if whole ++ fraction = [] then none
  else (readExponent? cs).map fun e =>
    toFloat (natOfDigits (whole ++ fraction)) (e - fraction.length)

/-- A floating-point number with an optional sign. The names of infinity and of no number may be
written in any case. -/
def readFloat? (cs : List Char) : Option Float :=
  let (negative, cs) := takeSign cs
  let name := String.ofList (cs.map Char.toLower)
  let x :=
    if name = "inf" ∨ name = "infinity" then some (1.0 / 0.0)
    else if name = "nan" then some (0.0 / 0.0)
    else readUnsigned? cs
  x.map fun x => if negative then -x else x

end DocTree.Decimal
