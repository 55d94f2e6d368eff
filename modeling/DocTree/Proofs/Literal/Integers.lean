import DocTree.Proofs.Literal.RoundTrip

/-!
# Spellings of integers

Which integers are read, however they are spelled.

* `IntegerText`: an integer with its sign, the mark of its base, and underscores between digits;
* **`IntegerText.read_text`**: it is read exactly if its absolute value has 63 bits.
-/

namespace DocTree.Literal

open Text

/-! ## Signs and bases -/

/-- The sign in front of a number, if there is one. -/
inductive Sign where
  | none
  | plus
  | minus
  deriving DecidableEq, Repr

def Sign.text : Sign → List Char
  | none => []
  | plus => ['+']
  | minus => ['-']

/-- How the base of a number is announced: not at all, or by a zero and a letter of either case. -/
inductive Radix where
  | decimal
  | hexadecimal (capital : Bool)
  | octal (capital : Bool)
  | binary (capital : Bool)
  deriving DecidableEq, Repr

namespace Radix

def base : Radix → Nat
  | decimal => 10
  | hexadecimal _ => 16
  | octal _ => 8
  | binary _ => 2

def mark : Radix → List Char
  | decimal => []
  | hexadecimal capital => ['0', if capital then 'X' else 'x']
  | octal capital => ['0', if capital then 'O' else 'o']
  | binary capital => ['0', if capital then 'B' else 'b']

theorem base_pos (radix : Radix) : 0 < radix.base := by
  cases radix <;> exact Nat.succ_pos _

end Radix

/-- An integer: its sign, its base, a digit, and further digits and underscores. -/
structure IntegerText where
  sign : Sign
  radix : Radix
  first : Char
  more : List Char
  first_isDigit : (digit? radix.base first).isSome = true
  more_areDigits : ∀ c ∈ more, c = '_' ∨ (digit? radix.base c).isSome = true

namespace IntegerText

variable (s : IntegerText)

/-- The characters behind the sign. -/
def unsigned : List Char := s.radix.mark ++ s.first :: s.more

def text : String := .ofList (s.sign.text ++ s.unsigned)

def magnitude : Nat := numeral s.radix.base (s.first :: s.more)

/-- The integer that is written. -/
def value : Int := if s.sign = .minus then -s.magnitude else s.magnitude

/-- What is true of digits and of underscores is true of all characters. -/
theorem forall_digits {p : Char → Bool}
    (hdigit : ∀ c, (digit? s.radix.base c).isSome = true → p c = true)
    (hunderscore : p '_' = true) :
    ∀ c ∈ s.first :: s.more, p c = true := by
  refine List.forall_mem_cons.mpr ⟨hdigit _ s.first_isDigit, fun c hc => ?_⟩
  rcases s.more_areDigits c hc with rfl | hc
  · exact hunderscore
  · exact hdigit c hc

theorem readDigits_digits (bound : Nat) :
    Decimal.readDigits s.radix.base bound (withoutUnderscores (s.first :: s.more)) =
      if s.magnitude ≤ bound then .ok s.magnitude else .error .overflow := by
  have hfirst : s.first ≠ '_' := by
    intro hunderscore
    have hdigit := s.first_isDigit
    rw [hunderscore] at hdigit
    cases hdigit
  have hne : withoutUnderscores (s.first :: s.more) ≠ [] := by
    rw [withoutUnderscores, List.filter_cons_of_pos (by simpa using hfirst)]
    exact List.cons_ne_nil _ _
  have hdigits : ∀ c ∈ withoutUnderscores (s.first :: s.more),
      (digit? s.radix.base c).isSome = true := by
    intro c hc
    obtain ⟨hmem, hunderscore⟩ := List.mem_filter.mp hc
    rcases List.mem_cons.mp hmem with rfl | hmore
    · exact s.first_isDigit
    · exact (s.more_areDigits c hmore).resolve_left (by simpa using hunderscore)
  rw [readDigits_eq_numeral s.radix.base_pos hne hdigits, numeral_withoutUnderscores, magnitude]

/-- What is read of the characters behind the sign. -/
def outcome (negative : Bool) : Except Stopped (Front Value) :=
  if s.magnitude ≤ Decimal.maxInt64 then .ok (signed negative s.magnitude, [])
  else stop [] (.badDigits .overflow)

theorem basedInteger_digits (negative : Bool) :
    basedInteger negative s.radix.base (s.first :: s.more) = s.outcome negative := by
  have hdigit : ∀ c, (digit? s.radix.base c).isSome = true → isHexOrUnderscore c = true := by
    intro c hc
    rw [← filter_digitValue?] at hc
    rw [isHexOrUnderscore, Option.isSome_of_isSome_filter _ _ hc, Bool.true_or]
  have hall := s.forall_digits hdigit rfl
  unfold basedInteger
  dsimp only
  rw [List.takeWhile_eq_self_iff.mpr hall, List.dropWhile_eq_nil_iff.mpr hall, readDigits_digits,
    outcome]
  by_cases hbound : s.magnitude ≤ Decimal.maxInt64
  · rw [if_pos hbound, if_pos hbound]
  · rw [if_neg hbound, if_neg hbound]

theorem decimal_digits (hradix : s.radix = .decimal) (negative : Bool) :
    decimal negative (s.first :: s.more) = s.outcome negative := by
  have hbase : s.radix.base = 10 := by rw [hradix]; rfl
  have hdigit : ∀ c, (digit? s.radix.base c).isSome = true → isDigitOrUnderscore c = true := by
    intro c hc
    rw [hbase] at hc
    rw [isDigitOrUnderscore, isDigit_of_digit?_ten hc, Bool.true_or]
  have hdecimal := decimal_of_forall negative (List.cons_ne_nil _ _)
    (s.forall_digits hdigit rfl) stops_nil
  rw [List.append_nil, ← hbase, readDigits_digits] at hdecimal
  rw [hdecimal, outcome]
  by_cases hbound : s.magnitude ≤ Decimal.maxInt64
  · rw [if_pos hbound, if_pos hbound]
  · rw [if_neg hbound, if_neg hbound]

/-- The text behind the sign begins with a digit. -/
theorem exists_unsigned : ∃ d ds, s.unsigned = d :: ds ∧ d.isDigit = true := by
  cases hradix : s.radix with
  | decimal =>
    refine ⟨s.first, s.more, by rw [unsigned, hradix]; rfl, ?_⟩
    have hfirst := s.first_isDigit
    rw [hradix] at hfirst
    exact isDigit_of_digit?_ten hfirst
  | _ => exact ⟨'0', _, by rw [unsigned, hradix]; rfl, rfl⟩

/-- The mark tells the base. -/
theorem read_unsigned (negative : Bool) :
    (match base? s.unsigned with
      | some (base, cs) => basedInteger negative base cs
      | none => decimal negative s.unsigned) = s.outcome negative := by
  have hmarked : base? s.unsigned = some (s.radix.base, s.first :: s.more) ∨
      s.radix = .decimal := by
    rw [unsigned]
    cases s.radix with
    | decimal => exact .inr rfl
    | hexadecimal capital => cases capital <;> exact .inl rfl
    | octal capital => cases capital <;> exact .inl rfl
    | binary capital => cases capital <;> exact .inl rfl
  rcases hmarked with hbase | hradix
  · rw [hbase]
    exact s.basedInteger_digits negative
  · have hplain : s.unsigned = s.first :: s.more := by rw [unsigned, hradix]; rfl
    have hnone : base? (s.first :: s.more) = none := by
      have hletters : ∀ d ∈ ['x', 'X', 'o', 'O', 'b', 'B'],
          ¬ (d = '_' ∨ (digit? 10 d).isSome = true) := by decide
      refine base?_eq_none fun d hd hletter => hletters d hletter ?_
      have hdigit := s.more_areDigits d (List.mem_of_head? hd)
      rwa [hradix] at hdigit
    rw [hplain, hnone]
    exact s.decimal_digits hradix negative

theorem number_text : number (s.sign.text ++ s.unsigned) = s.outcome (s.sign = .minus) := by
  obtain ⟨d, ds, hunsigned, hd⟩ := s.exists_unsigned
  have hsign : Decimal.takeSign (s.sign.text ++ s.unsigned) =
      (decide (s.sign = .minus), s.unsigned) := by
    cases s.sign with
    | none =>
      change Decimal.takeSign s.unsigned = (false, s.unsigned)
      rw [hunsigned]
      exact takeSign_of_isDigit hd ds
    | plus => rfl
    | minus => rfl
  have hspace : s.unsigned.dropWhile isSpace = s.unsigned := by
    rw [hunsigned, List.dropWhile_cons_of_neg]
    rw [not_isSpace_of_isDigit hd]
    exact Bool.false_ne_true
  rw [number, hsign]
  dsimp only
  rw [hspace]
  exact s.read_unsigned _

theorem readForm_text (part : List Char → Except Stopped (Front Value)) :
    readForm part s.text.toList = s.outcome (s.sign = .minus) := by
  rw [text, String.toList_ofList, ← s.number_text]
  obtain ⟨d, ds, hunsigned, hd⟩ := s.exists_unsigned
  rw [hunsigned]
  cases s.sign with
  | none => exact readForm_number (.inl hd) ds
  | plus => rfl
  | minus => rfl

theorem magnitude_le_iff :
    s.magnitude ≤ Decimal.maxInt64 ↔ -2 ^ 63 < s.value ∧ s.value < 2 ^ 63 := by
  have hmax : Decimal.maxInt64 = 2 ^ 63 - 1 := rfl
  rw [hmax, value]
  split <;> omega

/-- **The integers that are read**, however they are spelled: those whose absolute value has 63
bits. -/
theorem read_text :
    read s.text = if -2 ^ 63 < s.value ∧ s.value < 2 ^ 63 then .ok (.int s.value)
      else .error ⟨byteLength s.text.toList, .badDigits .overflow⟩ := by
  have hne : s.text.toList ≠ [] := by
    obtain ⟨d, ds, hunsigned, -⟩ := s.exists_unsigned
    rw [text, String.toList_ofList, hunsigned]
    exact List.append_ne_nil_of_right_ne_nil _ (List.cons_ne_nil _ _)
  obtain ⟨depth, hvalue⟩ := readValue_of_ne_nil hne
  rw [readForm_text, outcome] at hvalue
  by_cases hbound : s.magnitude ≤ Decimal.maxInt64
  · have hint : signed (s.sign = .minus) s.magnitude = .int s.value := by
      rw [signed, value]
      congr 1
      simp only [decide_eq_true_eq]
    rw [if_pos hbound, hint] at hvalue
    rw [if_pos (s.magnitude_le_iff.mp hbound)]
    exact read_of_readValue hvalue nofun
  · rw [if_neg hbound] at hvalue
    rw [if_neg fun hrange => hbound (s.magnitude_le_iff.mpr hrange)]
    exact read_of_readValue_error hvalue

/-- The least integer of 64 bits is not read. -/
theorem least_not_read :
    ∃ s : IntegerText, s.text = "-9223372036854775808" ∧ s.value = -2 ^ 63 ∧
      read s.text = .error ⟨20, .badDigits .overflow⟩ := by
  refine ⟨⟨.minus, .decimal, '9', "223372036854775808".toList, by decide, by decide⟩, ?_, ?_, ?_⟩
  · decide +kernel
  · decide +kernel
  · rfl

end IntegerText

end DocTree.Literal
