import Mathlib.Algebra.Group.Nat.Defs
import Mathlib.Data.List.TakeWhile
import DocTree.Literal.Number

/-!
# Floating-point numbers that are read

A decimal is read by multiplying or dividing numbers none of which is NaN, and the divisor is a
power of ten. So it is not read as NaN, although it may be read as infinity.

* `Floats.isNaN_unpack_pack`: packing makes no NaN. **One lemma for each operation after it**;
* `Floats.isNaN_ofScientific`: a coefficient with an exponent;
* `Decimal.isNaN_of_readFloat?`: what is read, unless the text is the name of NaN;
* **`Literal.isNaN_of_decimal`**: a decimal.
-/

namespace DocTree

namespace Floats

open Float.Model Float.Model.UnpackedFloat

/-! ## Branches -/

theorem isNaN_dite {c : Prop} [Decidable c] {a : c → UnpackedFloat} {b : ¬ c → UnpackedFloat}
    (ha : ∀ h, (a h).isNaN = false) (hb : ∀ h, (b h).isNaN = false) :
    (dite c a b).isNaN = false := by
  split
  · exact ha _
  · exact hb _

theorem isNaN_ite {c : Prop} [Decidable c] {a b : UnpackedFloat} (ha : a.isNaN = false)
    (hb : b.isNaN = false) : (ite c a b).isNaN = false := by
  split
  · exact ha
  · exact hb

/-! ## Packing -/

section Packing

variable {spec : Format}

/-- A packed number is NaN only if its exponent is the greatest one and its mantissa is not zero. -/
theorem isNaN_unpack_packComponents {sign : Sign} {exponent : BitVec spec.exponentBits}
    {mantissa : BitVec spec.mantissaBitsWithoutImplicit} (h : exponent ≠ -1#_ ∨ mantissa = 0#_) :
    (UnpackedFloat.unpack spec (packComponents spec sign exponent mantissa)).isNaN = false := by
  delta UnpackedFloat.unpack
  dsimp only
  by_cases hexponent : unpackExponent (packComponents spec sign exponent mantissa) = -1#_
  · rw [if_pos hexponent]
    rw [unpackExponent_packComponents] at hexponent
    rw [unpackMantissa_packComponents, if_pos (h.resolve_left (not_not_intro hexponent))]
    rfl
  · rw [if_neg hexponent]
    exact isNaN_ite (isNaN_dite (fun _ => rfl) fun _ => rfl) rfl

/-- An exponent below the greatest one. -/
theorem ofNat_ne_neg_one {n k : Nat} (h : k + 1 < 2 ^ n) : BitVec.ofNat n k ≠ -1#n := by
  intro heq
  have hnat := congrArg BitVec.toNat heq
  rw [BitVec.toNat_ofNat, BitVec.toNat_neg, BitVec.toNat_ofNat, Nat.mod_eq_of_lt (by omega)] at hnat
  have hone : 1 % 2 ^ n = 1 := Nat.mod_eq_of_lt (by omega)
  rw [hone, Nat.mod_eq_of_lt (by omega)] at hnat
  omega

/-- Packing makes no NaN. -/
theorem isNaN_unpack_pack {u : UnpackedFloat} (h : u.isNaN = false) :
    (UnpackedFloat.unpack spec (UnpackedFloat.pack spec u)).isNaN = false := by
  have hzero : BitVec.ofNat spec.exponentBits 0 ≠ -1#_ :=
    ofNat_ne_neg_one (Nat.one_lt_two_pow (Nat.ne_of_gt spec.he))
  cases u with
  | notANumber => cases h
  | infinity s => exact isNaN_unpack_packComponents (.inr rfl)
  | zero s => exact isNaN_unpack_packComponents (.inr rfl)
  | finite s m e hm =>
    delta UnpackedFloat.pack
    dsimp only
    split
    · exact isNaN_unpack_packComponents (.inr rfl)
    · next hbound =>
      split
      · exact isNaN_unpack_packComponents (.inl (ofNat_ne_neg_one (Nat.lt_of_not_le hbound)))
      · exact isNaN_unpack_packComponents (.inl hzero)

end Packing

/-! ## Operations -/

section Operations

variable {spec : Format}

theorem isNaN_roundWithAccuracy (sign : Sign) (mantissa : Nat) (exponent : Int)
    (accuracy : Accuracy) :
    (roundWithAccuracy spec sign mantissa exponent accuracy).isNaN = false := by
  unfold roundWithAccuracy
  exact isNaN_dite (fun _ => rfl) fun _ => rfl

theorem isNaN_ofNat (n : Nat) : (UnpackedFloat.ofNat spec n).isNaN = false := by
  unfold UnpackedFloat.ofNat UnpackedFloat.ofInt UnpackedFloat.normalize
  split
  · exact isNaN_roundWithAccuracy _ _ _ _
  · rfl
  · exact isNaN_roundWithAccuracy _ _ _ _

variable {a : UnpackedFloat} (ha : a.isNaN = false) (s : Sign) {m : Nat} (e : Int) (hm : 0 < m)

include ha

/-- A number times one that is neither zero nor infinite. -/
theorem isNaN_mul : (UnpackedFloat.mul spec a (.finite s m e hm)).isNaN = false := by
  cases a with
  | notANumber => cases ha
  | infinity _ | zero _ => rfl
  | finite => exact isNaN_roundWithAccuracy _ _ _ _

/-- A number divided by one that is neither zero nor infinite. -/
theorem isNaN_div : (UnpackedFloat.div spec a (.finite s m e hm)).isNaN = false := by
  cases a with
  | notANumber => cases ha
  | infinity _ | zero _ => rfl
  | finite => exact isNaN_roundWithAccuracy _ _ _ _

theorem isNaN_unpacked_neg : a.neg.isNaN = false := by
  cases a with
  | notANumber => cases ha
  | infinity _ | zero _ | finite => rfl

omit ha in
theorem isNaN_unpacked_ofScientific (m : Nat) (e : Int) :
    (UnpackedFloat.ofScientific spec m e).isNaN = false := by
  unfold UnpackedFloat.ofScientific
  refine isNaN_dite (fun _ => rfl) fun _ => isNaN_ite rfl (isNaN_ite rfl (isNaN_ite ?_ ?_))
  · exact isNaN_mul (a := .finite _ _ _ _) rfl _ _ _
  · exact isNaN_div (a := .finite _ _ _ _) rfl _ _ _

end Operations

/-! ## Coefficients with exponents -/

theorem isNaN_ofModel_pack {u : UnpackedFloat} (h : u.isNaN = false) :
    (Float.ofModel (Float.Model.pack u)).isNaN = false :=
  isNaN_unpack_pack h

theorem isNaN_neg {x : Float} (h : x.isNaN = false) : (-x).isNaN = false :=
  isNaN_ofModel_pack (isNaN_unpacked_neg h)

/-- The number is neither zero nor infinite. -/
def isProper : UnpackedFloat → Bool
  | .finite _ _ _ _ => true
  | _ => false

theorem isNaN_mul_of_isProper {x y : Float} (hx : x.isNaN = false)
    (hy : isProper y.toModel.unpack = true) : (x * y).isNaN = false := by
  refine isNaN_ofModel_pack ?_
  cases h : y.toModel.unpack with
  | finite s m e hm => exact isNaN_mul hx s e hm
  | notANumber | infinity _ | zero _ =>
    rw [h] at hy
    cases hy

theorem isNaN_div_of_isProper {x y : Float} (hx : x.isNaN = false)
    (hy : isProper y.toModel.unpack = true) : (x / y).isNaN = false := by
  refine isNaN_ofModel_pack ?_
  cases h : y.toModel.unpack with
  | finite s m e hm => exact isNaN_div hx s e hm
  | notANumber | infinity _ | zero _ =>
    rw [h] at hy
    cases hy

theorem isProper_powers : ∀ (e : Nat) (h : e < Float.exactlyRepresentablePowersOfTen.size),
    isProper (Float.exactlyRepresentablePowersOfTen[e]).toModel.unpack = true := by
  decide +kernel

/-- **A coefficient with an exponent is not NaN.** -/
theorem isNaN_ofScientific (m : Nat) (negative : Bool) (e : Nat) :
    (Float.ofScientific m negative e).isNaN = false := by
  unfold Float.ofScientific
  split
  · have hm : m.toUInt64.toFloat.isNaN = false := isNaN_ofModel_pack (isNaN_ofNat _)
    cases negative with
    | true => exact isNaN_div_of_isProper hm (isProper_powers e _)
    | false => exact isNaN_mul_of_isProper hm (isProper_powers e _)
  · exact isNaN_ofModel_pack (isNaN_unpacked_ofScientific m _)

end Floats

/-! ## Decimals -/

namespace Decimal

open Floats

theorem isNaN_infinity : (1.0 / 0.0 : Float).isNaN = false := by decide +kernel

theorem isNaN_toFloat (coefficient : Nat) (exponent : Int) :
    (toFloat coefficient exponent).isNaN = false := by
  unfold toFloat
  dsimp only
  split
  · exact isNaN_ofScientific _ _ _
  · split
    · exact isNaN_infinity
    · exact isNaN_ofScientific _ _ _

theorem isNaN_of_readUnsigned? {cs : List Char} {x : Float} (h : readUnsigned? cs = some x) :
    x.isNaN = false := by
  have hparts : ∀ whole fraction rest, (if whole ++ fraction = [] then none
      else (readExponent? rest).map fun e =>
        toFloat (natOfDigits (whole ++ fraction)) (e - fraction.length)) = some x →
      x.isNaN = false := by
    intro whole fraction rest h
    split at h
    · cases h
    · obtain ⟨e, -, rfl⟩ := Option.map_eq_some_iff.mp h
      exact isNaN_toFloat _ _
  exact hparts _ _ _ h

/-- What is read is not NaN, unless the text has its name. -/
theorem isNaN_of_readFloat? {cs : List Char} {x : Float} (h : readFloat? cs = some x)
    (hname : (takeSign cs).2.map Char.toLower ≠ ['n', 'a', 'n']) : x.isNaN = false := by
  rcases hsign : takeSign cs with ⟨negative, digits⟩
  rw [hsign] at hname
  rw [readFloat?, hsign] at h
  obtain ⟨y, hy, rfl⟩ := Option.map_eq_some_iff.mp h
  have hnumber : y.isNaN = false := by
    split at hy
    · cases hy
      exact isNaN_infinity
    · split at hy
      · next hnan => exact absurd (String.ofList_injective hnan) hname
      · exact isNaN_of_readUnsigned? hy
  cases negative with
  | true => exact isNaN_neg hnumber
  | false => exact hnumber

end Decimal

/-! ## Literals -/

namespace Literal

/-- A character that a decimal may have. -/
def IsDecimalChar (c : Char) : Prop :=
  isDigitOrUnderscore c = true ∨ c ∈ ['.', 'e', 'E', '-', '+']

theorem isDecimalChar_of_fractionPart {cs : List Char} {c : Char} (h : c ∈ (fractionPart cs).1) :
    IsDecimalChar c := by
  unfold fractionPart at h
  split at h
  · split at h
    · cases h
    · rcases List.mem_cons.mp h with rfl | h
      · exact .inr (by decide)
      · exact .inl (List.mem_takeWhile_imp h)
  · cases h

theorem isDecimalChar_of_exponentPart {cs : List Char} {c : Char} (h : c ∈ (exponentPart cs).1) :
    IsDecimalChar c := by
  have hdigits : ∀ {ds : List Char}, c ∈ ds.takeWhile Char.isDigit → IsDecimalChar c := by
    intro ds hc
    refine .inl ?_
    rw [isDigitOrUnderscore, List.mem_takeWhile_imp hc, Bool.true_or]
  have hletter : ∀ {e : Char}, e = 'e' ∨ e = 'E' → IsDecimalChar e := by
    rintro e (rfl | rfl) <;> exact .inr (by decide)
  have hsign : ∀ {s : Char}, s = '-' ∨ s = '+' → IsDecimalChar s := by
    rintro s (rfl | rfl) <;> exact .inr (by decide)
  unfold exponentPart at h
  split at h
  · split at h
    · next he =>
      split at h
      · split at h
        · next hs =>
          rcases List.mem_cons.mp h with rfl | h
          · exact hletter he
          · rcases List.mem_cons.mp h with rfl | h
            · exact hsign hs
            · exact hdigits h
        · rcases List.mem_cons.mp h with rfl | h
          · exact hletter he
          · exact hdigits h
      · obtain rfl := List.mem_singleton.mp h
        exact hletter he
    · cases h
  · cases h

theorem eq_of_toLower_eq_n {c : Char} (h : c.toLower = 'n') : c = 'n' ∨ c = 'N' := by
  unfold Char.toLower at h
  split at h
  · have hval : c.val + ('a'.val - 'A'.val) = 'n'.val := congrArg Char.val h
    refine .inr (Char.ext ?_)
    rw [← UInt32.add_sub_cancel c.val ('a'.val - 'A'.val), hval]
    rfl
  · exact .inl h

/-- The name of NaN is no decimal. -/
theorem ne_nan_of_isDecimalChar {cs : List Char} (h : ∀ c ∈ cs, IsDecimalChar c) :
    (Decimal.takeSign cs).2.map Char.toLower ≠ ['n', 'a', 'n'] := by
  have hsuffix : ∀ c ∈ (Decimal.takeSign cs).2, c ∈ cs := by
    intro c hc
    unfold Decimal.takeSign at hc
    split at hc
    · exact List.mem_cons_of_mem _ hc
    · exact List.mem_cons_of_mem _ hc
    · exact hc
  intro hname
  obtain ⟨c, hc, hlower⟩ : ∃ c ∈ (Decimal.takeSign cs).2, c.toLower = 'n' :=
    List.mem_map.mp (hname ▸ List.mem_cons_self)
  have hletters : ¬ IsDecimalChar 'n' ∧ ¬ IsDecimalChar 'N' := by
    unfold IsDecimalChar
    decide
  rcases eq_of_toLower_eq_n hlower with rfl | rfl
  · exact hletters.1 (h _ (hsuffix _ hc))
  · exact hletters.2 (h _ (hsuffix _ hc))

/-- **A decimal is not read as NaN.** -/
theorem isNaN_of_decimal {cs : List Char} {x : Float}
    (h : Decimal.readFloat? (withoutUnderscores (cs.takeWhile isDigitOrUnderscore ++
      (fractionPart (cs.dropWhile isDigitOrUnderscore)).1 ++
      (exponentPart (fractionPart (cs.dropWhile isDigitOrUnderscore)).2).1)) = some x) :
    x.isNaN = false := by
  refine Decimal.isNaN_of_readFloat? h (ne_nan_of_isDecimalChar fun c hc => ?_)
  rcases List.mem_append.mp (List.mem_filter.mp hc).1 with hc | hc
  · rcases List.mem_append.mp hc with hc | hc
    · exact .inl (List.mem_takeWhile_imp hc)
    · exact isDecimalChar_of_fractionPart hc
  · exact isDecimalChar_of_exponentPart hc

end Literal

end DocTree
