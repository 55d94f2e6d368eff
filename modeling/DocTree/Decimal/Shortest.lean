/-!
# Shortest decimals

The fewest decimal digits that read back to a given floating-point number.

* `Binary`: a finite positive number `significand · 2 ^ exponent`, with the reals that round to it
  (`Binary.contains`: halfway to either neighbour, ends included for an even significand);
* `Binary.onGrid?`: the multiple of `10 ^ g` to write, if one of the two nearest ones reads back;
* `Binary.shortest`: **the first grid, from coarse to fine, that has such a multiple**. A decimal
  on a coarser grid has fewer digits, so no shorter one reads back;
* `Binary.exact`: the number itself in decimal.
-/

namespace DocTree

/-- The number `coefficient · 10 ^ exponent`. -/
structure Decimal where
  coefficient : Nat
  exponent : Int
  deriving DecidableEq, Repr

/-- What to do with a number halfway between two candidates. -/
inductive Tie where
  | toEven
  | up
  deriving DecidableEq, Repr

/-- The number `significand · 2 ^ exponent`. -/
structure Binary where
  significand : Nat
  exponent : Int
  /-- The neighbour below is half as far away as the one above. -/
  narrowBelow : Bool
  deriving DecidableEq, Repr

/-- What the bits of a floating-point number stand for. -/
inductive FloatShape where
  | nan
  | infinite (negative : Bool)
  | zero (negative : Bool)
  | finite (negative : Bool) (value : Binary)
  deriving DecidableEq, Repr

/-- Decode the bits of a floating-point number. -/
def FloatShape.ofBits (bits : UInt64) : FloatShape :=
  let negative := bits >>> 63 == 1
  let exponent := ((bits >>> 52) &&& 0x7FF).toNat
  let fraction := (bits &&& 0xFFFFFFFFFFFFF).toNat
  if exponent = 0x7FF then
    if fraction = 0 then .infinite negative else .nan
  else if exponent = 0 then
    if fraction = 0 then .zero negative else .finite negative ⟨fraction, -1074, false⟩
  else
    let significand := 0x10000000000000 + fraction
    .finite negative ⟨significand, (exponent : Int) - 1075, fraction = 0 ∧ 1 < exponent⟩

def FloatShape.of (x : Float) : FloatShape := .ofBits x.toBits

namespace Binary

/-- The power `b ^ e`, or one if the exponent is negative. -/
def power (b : Nat) (e : Int) : Nat := Nat.pow b e.toNat

/-- Compare `a · 10 ^ i` with `b · 2 ^ j`. Both are multiplied by the powers that have a negative
exponent, so that only natural numbers are compared. -/
def compareScaled (a : Nat) (i : Int) (b : Nat) (j : Int) : Ordering :=
  compare (a * power 10 i * power 2 (-j)) (b * power 2 j * power 10 (-i))

/-- Whether `c · 10 ^ g` is one of the reals that round to `x`. -/
def contains (x : Binary) (c : Nat) (g : Int) : Bool :=
  let below := 4 * x.significand - (if x.narrowBelow then 1 else 2)
  let above := 4 * x.significand + 2
  let closed := x.significand % 2 == 0
  (match compareScaled c g below (x.exponent - 2) with
    | .gt => true
    | .eq => closed
    | .lt => false) &&
  (match compareScaled c g above (x.exponent - 2) with
    | .lt => true
    | .eq => closed
    | .gt => false)

/-- The multiple of `10 ^ g` closest to `x`, among the one below and the one above, that reads back
to `x`. -/
def onGrid? (tie : Tie) (x : Binary) (g : Int) : Option Nat :=
  let num := x.significand * power 2 x.exponent * power 10 (-g)
  let den := power 2 (-x.exponent) * power 10 g
  let c := num / den
  match x.contains c g, x.contains (c + 1) g with
  | false, false => none
  | true, false => some c
  | false, true => some (c + 1)
  | true, true =>
    match compare (2 * num) ((2 * c + 1) * den) with
    | .lt => some c
    | .gt => some (c + 1)
    | .eq => some (if tie = .toEven ∧ c % 2 = 0 then c else c + 1)

/-- The number itself, written out. -/
def exact (x : Binary) : Decimal :=
  ⟨x.significand * power 2 x.exponent * power 5 (-x.exponent), min x.exponent 0⟩

/-- Whether the number is whole. -/
def isWhole (x : Binary) : Bool := x.significand % power 2 (-x.exponent) == 0

/-- The whole part of the number. -/
def whole (x : Binary) : Nat :=
  x.significand * power 2 x.exponent / power 2 (-x.exponent)

/-- The first hit among `10 ^ g`, `10 ^ (g - 1)` and so on. -/
def shortestFrom (tie : Tie) (x : Binary) (g : Int) : Nat → Decimal
  | 0 => x.exact
  | steps + 1 =>
    match x.onGrid? tie g with
    | some c => ⟨c, g⟩
    | none => shortestFrom tie x (g - 1) steps

/-- A power of ten above the number: `30103 / 100000` is just above the logarithm of two. -/
def topGrid (x : Binary) : Int :=
  ((x.significand.log2 + x.exponent + 1) * 30103).fdiv 100000 + 1

/-- **The fewest digits that read back.** Seventeen always do, and the search begins at most two
grids above the leading digit. -/
def shortest (tie : Tie) (x : Binary) : Decimal := x.shortestFrom tie x.topGrid 20

end Binary

end DocTree
