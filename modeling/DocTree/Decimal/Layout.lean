import DocTree.Decimal.Shortest

/-!
# Layouts of decimals

Where the point of a decimal goes, and when an exponent is written instead.

* `Decimal.positional`, `Decimal.scientific`: the two layouts;
* `Decimal.point`: the number of digits before the point, which decides between them.
-/

namespace DocTree.Decimal

/-- The digits of the coefficient. -/
def digits (d : Decimal) : List Char := Nat.toDigits 10 d.coefficient

/-- The number of digits in front of the point; it is negative if zeros follow the point. -/
def point (d : Decimal) : Int := d.digits.length + d.exponent

/-- The decimal in full, with at least one digit on either side of the point. -/
def positional (d : Decimal) : List Char :=
  if 0 ≤ d.exponent then d.digits ++ List.replicate d.exponent.toNat '0' ++ ['.', '0']
  else if 0 < d.point then d.digits.take d.point.toNat ++ '.' :: d.digits.drop d.point.toNat
  else '0' :: '.' :: List.replicate (-d.point).toNat '0' ++ d.digits

/-- The decimal with one digit in front of the point and a signed exponent; a single digit has no
point. -/
def scientific (d : Decimal) : List Char :=
  let e := d.point - 1
  d.digits.take 1 ++ (if d.digits.length ≤ 1 then [] else '.' :: d.digits.drop 1) ++
    'e' :: (if e < 0 then '-' else '+') :: Nat.toDigits 10 e.natAbs

end DocTree.Decimal
