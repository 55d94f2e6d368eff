import Mathlib.Data.List.Basic
import Mathlib.Data.Nat.Digits.Defs
import DocTree.Literal.Number

/-!
# Digits

What digits are read as, in any base and up to any bound.

* `digit?`, `numeral`: the value of a digit, and the number that digits stand for;
* `digitValue?_eq`: what a digit is read as is its place among the digits;
* **`foldDigits_eq_numeral`**: digits are read as their number, if it is within the bound;
* `foldDigits_le`, `digit_of_mem`: what is read is within the bound, and was written in digits;
* `readDigits_toDigits`: the digits of a number are read as that number.
-/

namespace DocTree.Literal

/-- The digits in the order of their values. -/
def digitChars : List Char :=
  ['0', '1', '2', '3', '4', '5', '6', '7', '8', '9', 'a', 'b', 'c', 'd', 'e', 'f']

/-- The value of a digit in the given base. A letter may be a capital. -/
def digit? (base : Nat) (c : Char) : Option Nat :=
  (digitChars.idxOf? c.toLower).filter (· < base)

/-- The number that the digits of a text stand for. -/
def numeral (base : Nat) (cs : List Char) : Nat :=
  Nat.ofDigits base (cs.filterMap (digit? base)).reverse

section Digits

variable {base bound : Nat} {c : Char} {cs : List Char}

/-- What a digit is read as is its place among the digits. -/
theorem digitValue?_eq (c : Char) : Decimal.digitValue? c = digitChars.idxOf? c.toLower := by
  by_cases hascii : c.toNat < 0x80
  · have hall : ∀ n < 0x80, Decimal.digitValue? (Char.ofNat n) =
        digitChars.idxOf? (Char.ofNat n).toLower := by decide
    have hvalue := hall c.toNat hascii
    rwa [Char.ofNat_toNat] at hvalue
  · have hlower : c.toLower = c := dif_neg fun hcapital =>
      hascii (Nat.lt_of_le_of_lt (UInt32.le_iff_toNat_le.mp hcapital.2) (by decide))
    have hnone : c ∉ digitChars := fun hmem => by
      have hdigits : ∀ n ∈ digitChars.map Char.toNat, n < 0x80 := by decide
      exact hascii (hdigits c.toNat (List.mem_map_of_mem hmem))
    have hbeyond : ∀ d : Char, d.toNat < 0x80 → ¬ c.toNat ≤ d.toNat := fun d hd hle =>
      hascii (Nat.lt_of_le_of_lt hle hd)
    rw [hlower, List.idxOf?_eq_none_iff.mpr hnone]
    unfold Decimal.digitValue?
    dsimp only
    rw [if_neg fun h => hbeyond '9' (by decide) h.2, if_neg fun h => hbeyond 'f' (by decide) h.2,
      if_neg fun h => hbeyond 'F' (by decide) h.2]

theorem filter_digitValue? (base : Nat) (c : Char) :
    (Decimal.digitValue? c).filter (· < base) = digit? base c := by
  rw [digitValue?_eq, digit?]

/-! ## Decimal digits -/

theorem digit_range (h : c.isDigit = true) : '0'.toNat ≤ c.toNat ∧ c.toNat ≤ '9'.toNat := by
  simpa [Char.isDigit, UInt32.le_iff_toNat_le] using h

theorem digit?_of_isDigit (h : c.isDigit = true) : digit? 10 c = some (c.toNat - '0'.toNat) := by
  have hrange := digit_range h
  have hvalue : Decimal.digitValue? c = some (c.toNat - '0'.toNat) := by
    unfold Decimal.digitValue?
    dsimp only
    rw [if_pos hrange]
  have hlt : c.toNat - '0'.toNat < 10 := by
    have h0 : '0'.toNat = 48 := rfl
    have h9 : '9'.toNat = 57 := rfl
    omega
  rw [← filter_digitValue?, hvalue, Option.filter_some, if_pos (decide_eq_true hlt)]

theorem digitValue?_of_digit? {d : Nat} (h : digit? base c = some d) :
    Decimal.digitValue? c = some d ∧ d < base := by
  rw [← filter_digitValue?] at h
  obtain ⟨hvalue, hlt⟩ := Option.filter_eq_some_iff.mp h
  exact ⟨hvalue, of_decide_eq_true hlt⟩

theorem isDigit_of_digit?_ten (h : (digit? 10 c).isSome = true) : c.isDigit = true := by
  obtain ⟨d, hd⟩ := Option.isSome_iff_exists.mp h
  obtain ⟨hvalue, hlt⟩ := digitValue?_of_digit? hd
  unfold Decimal.digitValue? at hvalue
  dsimp only at hvalue
  split at hvalue
  · next hrange => simpa [Char.isDigit, UInt32.le_iff_toNat_le] using hrange
  · split at hvalue
    · have hten := Option.some.inj hvalue
      omega
    · split at hvalue
      · have hten := Option.some.inj hvalue
        omega
      · cases hvalue

/-! ## Reading digits -/

/-- The first digit counts most. -/
theorem numeral_cons {d : Nat} (hd : digit? base c = some d)
    (hcs : ∀ c ∈ cs, (digit? base c).isSome = true) :
    numeral base (c :: cs) = d * base ^ cs.length + numeral base cs := by
  have hlength : (cs.filterMap (digit? base)).length = cs.length :=
    List.filterMap_length_eq_length.mpr hcs
  rw [numeral, numeral, List.filterMap_cons_some hd, List.reverse_cons, Nat.ofDigits_append,
    List.length_reverse, hlength, Nat.ofDigits_singleton, Nat.add_comm, Nat.mul_comm]

/-- **Digits are read as the number that they stand for**, if it is within the bound. -/
theorem foldDigits_eq_numeral (hbase : 0 < base) (hcs : ∀ c ∈ cs, (digit? base c).isSome = true)
    {n : Nat} (hn : n ≤ bound) :
    Decimal.foldDigits base bound n cs =
      if n * base ^ cs.length + numeral base cs ≤ bound then
        .ok (n * base ^ cs.length + numeral base cs)
      else .error .overflow := by
  induction cs generalizing n with
  | nil =>
    have hvalue : n * base ^ ([] : List Char).length + numeral base [] = n := by
      simp [numeral]
    rw [hvalue, Decimal.foldDigits, if_pos hn]
  | cons c cs ih =>
    obtain ⟨hc, hcs⟩ := List.forall_mem_cons.mp hcs
    obtain ⟨d, hd⟩ := Option.isSome_iff_exists.mp hc
    have hvalue : n * base ^ (c :: cs).length + numeral base (c :: cs) =
        (n * base + d) * base ^ cs.length + numeral base cs := by
      rw [numeral_cons hd hcs, List.length_cons, pow_succ]
      ring
    rw [hvalue, Decimal.foldDigits, filter_digitValue?, hd]
    dsimp only
    split
    · next hle => exact ih hcs hle
    · next hgt =>
      -- The value only grows, so that it cannot come back below the bound.
      have hgrows : n * base + d ≤ (n * base + d) * base ^ cs.length + numeral base cs :=
        (Nat.le_mul_of_pos_right _ (Nat.pow_pos hbase)).trans (Nat.le_add_right _ _)
      rw [if_neg fun hle => hgt (hgrows.trans hle)]

theorem readDigits_eq_numeral (hbase : 0 < base) (hne : cs ≠ [])
    (hcs : ∀ c ∈ cs, (digit? base c).isSome = true) :
    Decimal.readDigits base bound cs =
      if numeral base cs ≤ bound then .ok (numeral base cs) else .error .overflow := by
  have hread := foldDigits_eq_numeral hbase hcs (Nat.zero_le bound)
  rw [Nat.zero_mul, Nat.zero_add] at hread
  rw [Decimal.readDigits, List.isEmpty_eq_false_iff.mpr hne, if_neg Bool.false_ne_true, hread]

/-- Underscores mean nothing. -/
theorem numeral_withoutUnderscores (base : Nat) (cs : List Char) :
    numeral base (withoutUnderscores cs) = numeral base cs := by
  have hnone : digit? base '_' = none := rfl
  rw [numeral, numeral, withoutUnderscores, List.filterMap_filter]
  congr 2
  refine List.filterMap_congr fun c _ => ?_
  split
  · rfl
  · next hc =>
    obtain rfl : c = '_' := by simpa using hc
    exact hnone.symm

theorem foldDigits_le {n m : Nat} (hn : n ≤ bound)
    (h : Decimal.foldDigits base bound n cs = .ok m) : m ≤ bound := by
  induction cs generalizing n with
  | nil => cases h; exact hn
  | cons c cs ih =>
    rw [Decimal.foldDigits] at h
    split at h
    · cases h
    · split at h
      · next hle => exact ih hle h
      · cases h

theorem readDigits_le {n : Nat} (h : Decimal.readDigits base bound cs = .ok n) : n ≤ bound := by
  unfold Decimal.readDigits at h
  split at h
  · cases h
  · exact foldDigits_le (Nat.zero_le _) h

/-- Only digits are read. -/
theorem digit_of_mem {n m : Nat} (h : Decimal.foldDigits base bound n cs = .ok m) :
    ∀ d ∈ cs, (Decimal.digitValue? d).isSome = true := by
  induction cs generalizing n with
  | nil => exact fun _ hd => nomatch hd
  | cons c cs ih =>
    rw [Decimal.foldDigits] at h
    split at h
    · cases h
    · next d hdigit =>
      split at h
      · have hc := Option.isSome_of_isSome_filter _ _ (Option.isSome_of_eq_some hdigit)
        exact List.forall_mem_cons.mpr ⟨hc, ih h⟩
      · cases h

end Digits

/-! ## The digits of a number -/

theorem isDigit_cases {n : Nat} :
    ∃ d ds, Nat.toDigits 10 n = d :: ds ∧ d.isDigit = true ∧ ∀ c ∈ ds, c.isDigit = true := by
  have hdigits : ∀ c ∈ Nat.toDigits 10 n, c.isDigit = true :=
    fun c hc => Nat.isDigit_of_mem_toDigits (by decide) (by decide) hc
  cases h : Nat.toDigits 10 n with
  | nil => exact absurd h Nat.toDigits_ne_nil
  | cons d ds =>
    rw [h] at hdigits
    obtain ⟨hd, hds⟩ := List.forall_mem_cons.mp hdigits
    exact ⟨d, ds, rfl, hd, hds⟩

/-- Decimal digits stand for the number that the library gives them. -/
theorem numeral_eq_ofDigitChars {cs : List Char} (hcs : ∀ c ∈ cs, c.isDigit = true) :
    numeral 10 cs = Nat.ofDigitChars 10 cs 0 := by
  induction cs with
  | nil => rfl
  | cons c cs ih =>
    obtain ⟨hc, hcs⟩ := List.forall_mem_cons.mp hcs
    have hdigits : ∀ c ∈ cs, (digit? 10 c).isSome = true := fun c hc => by
      rw [digit?_of_isDigit (hcs c hc)]
      rfl
    have hfirst : Nat.ofDigitChars 10 cs (c.toNat - '0'.toNat) =
        10 ^ cs.length * (c.toNat - '0'.toNat) + Nat.ofDigitChars 10 cs 0 :=
      Nat.ofDigitChars_eq_ofDigitChars_zero
    rw [numeral_cons (digit?_of_isDigit hc) hdigits, ih hcs, Nat.ofDigitChars_cons, Nat.mul_zero,
      Nat.zero_add, hfirst, Nat.mul_comm]

theorem readDigits_toDigits {n bound : Nat} (h : n ≤ bound) :
    Decimal.readDigits 10 bound (Nat.toDigits 10 n) = .ok n := by
  have hdigits : ∀ c ∈ Nat.toDigits 10 n, c.isDigit = true :=
    fun c hc => Nat.isDigit_of_mem_toDigits (by decide) (by decide) hc
  have hvalue : numeral 10 (Nat.toDigits 10 n) = n :=
    (numeral_eq_ofDigitChars hdigits).trans Nat.ofDigitChars_ten_toDigits
  have hsome : ∀ c ∈ Nat.toDigits 10 n, (digit? 10 c).isSome = true := fun c hc => by
    rw [digit?_of_isDigit (hdigits c hc)]
    rfl
  rw [readDigits_eq_numeral (by decide) Nat.toDigits_ne_nil hsome, hvalue, if_pos h]

end DocTree.Literal
