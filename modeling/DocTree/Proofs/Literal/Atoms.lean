import Mathlib.Data.List.TakeWhile
import DocTree.Literal.Reader
import DocTree.Proofs.Literal.Digits
import DocTree.Value.Display

/-!
# Reading back values without parts

The source form of a string, of bytes, of an integer or of a constant, followed by what may stand
behind a value, is read as that value.

* `Stops`: what may stand behind a value;
* `quoted_flatMap`: a string whose characters are written one by one;
* **`strings_quoted`, `strings_bytesText`, `number_toString`, `readWord_constant`**: one for each
  form.
-/

namespace DocTree.Literal

open Text

/-! ## What stands behind a value -/

/-- What is true of the characters of a list is decided along the list. The type of characters is
finite, but far too large to go through. -/
instance (priority := 2000) decidableForallMem {p : Char → Prop} [DecidablePred p]
    (cs : List Char) : Decidable (∀ c ∈ cs, p c) :=
  cs.decidableBAll p

/-- The characters that may stand behind a value: a comma, a colon or a closing bracket. -/
def stopChars : List Char := [',', ':', ')', ']', '}']

/-- The text behind a value is empty or begins with one of `stopChars`. -/
def Stops (rest : List Char) : Prop := ∀ c ∈ rest.head?, c ∈ stopChars

theorem stops_nil : Stops [] := fun _ h => nomatch h

theorem stops_cons {c : Char} (h : c ∈ stopChars) (rest : List Char) : Stops (c :: rest) := by
  rintro _ ⟨⟩
  exact h

section Stops

variable {rest : List Char} {p : Char → Bool} (hrest : Stops rest)
  (hp : ∀ c ∈ stopChars, p c = false)

include hrest hp

theorem Stops.takeWhile : rest.takeWhile p = [] := by
  cases rest with
  | nil => rfl
  | cons c rest => rw [List.takeWhile_cons, hp c (hrest c rfl), if_neg Bool.false_ne_true]

theorem Stops.dropWhile : rest.dropWhile p = rest := by
  cases rest with
  | nil => rfl
  | cons c rest => rw [List.dropWhile_cons, hp c (hrest c rfl), if_neg Bool.false_ne_true]

theorem Stops.any : rest.head?.any p = false := by
  cases rest with
  | nil => rfl
  | cons c rest => exact hp c (hrest c rfl)

/-- A run of characters ends where the value does. -/
theorem Stops.takeWhile_append {cs : List Char} (hcs : ∀ c ∈ cs, p c = true) :
    (cs ++ rest).takeWhile p = cs := by
  rw [List.takeWhile_append_of_pos hcs, hrest.takeWhile hp, List.append_nil]

theorem Stops.dropWhile_append {cs : List Char} (hcs : ∀ c ∈ cs, p c = true) :
    (cs ++ rest).dropWhile p = rest := by
  rw [List.dropWhile_append_of_pos hcs, hrest.dropWhile hp]

end Stops

theorem Stops.skipSpace {rest : List Char} (hrest : Stops rest) : skipSpace rest = rest :=
  hrest.dropWhile (by decide)

/-! ## Characters in quotes -/

section Quoted

variable {form : QuoteForm} {c : Char} (tail : List Char)

theorem quotedFrom_plain (hmark : c ≠ form.mark) (hnewline : c ≠ '\n') (hbackslash : c ≠ '\\') :
    quotedFrom form .text (c :: tail) = prepend c (quotedFrom form .text tail) := by
  rw [quotedFrom.eq_def]
  dsimp only
  rw [if_neg hmark, if_neg fun h => hnewline h.1, if_pos hbackslash]

theorem quotedFrom_mark (htriple : form.triple = false) :
    quotedFrom form .text (form.mark :: tail) = .ok ([], tail) := by
  rw [quotedFrom.eq_def]
  dsimp only
  rw [if_pos rfl, htriple]
  rfl

theorem quotedFrom_backslash (hmark : form.mark ≠ '\\') (hraw : form.raw = false) :
    quotedFrom form .text ('\\' :: tail) = quotedFrom form .escape tail := by
  rw [quotedFrom.eq_def]
  dsimp only
  rw [if_neg hmark.symm, if_neg (fun h => nomatch h.1),
    if_neg (show ¬ '\\' ≠ '\\' from not_not_intro rfl), hraw]
  rfl

theorem quotedFrom_simple (hwidth : escapeWidth? c = none) :
    quotedFrom form .escape (c :: tail) =
      (simpleEscape c).foldr prepend (quotedFrom form .text tail) := by
  rw [quotedFrom.eq_def]
  dsimp only
  rw [hwidth]

/-- An escape of two hexadecimal digits. -/
theorem quotedFrom_hex {a b : Char} (hcode : codePoint? [a, b] = some c) :
    quotedFrom form .escape ('x' :: a :: b :: tail) =
      prepend c (quotedFrom form .text tail) := by
  have hwidth : escapeWidth? 'x' = some 2 := rfl
  rw [quotedFrom.eq_def]
  dsimp only
  rw [hwidth]
  dsimp only
  rw [quotedFrom.eq_def]
  dsimp only
  rw [if_neg (by decide), quotedFrom.eq_def]
  dsimp only [List.nil_append, List.cons_append]
  rw [if_pos (by decide), hcode]

end Quoted

/-- A string between single marks, without backslashes that stand for themselves. -/
def plainForm (mark : Char) : QuoteForm := ⟨mark, false, false⟩

theorem mark_cases {mark : Char} (h : isQuote mark = true) : mark = '\'' ∨ mark = '"' := by
  simpa [isQuote] using h

theorem quotedFrom_escape {mark : Char} (hmark : isQuote mark = true) (c : Char)
    (tail : List Char) :
    quotedFrom (plainForm mark) .text (Value.escape mark c ++ tail) =
      prepend c (quotedFrom (plainForm mark) .text tail) := by
  have hbackslash : (plainForm mark).mark ≠ '\\' := by
    rcases mark_cases hmark with rfl | rfl <;> decide
  -- All escapes are a backslash and one letter.
  have hletter : ∀ letter, escapeWidth? letter = none → simpleEscape letter = [c] →
      quotedFrom (plainForm mark) .text (['\\', letter] ++ tail) =
        prepend c (quotedFrom (plainForm mark) .text tail) := by
    intro letter hwidth hsimple
    change quotedFrom (plainForm mark) .text ('\\' :: letter :: tail) = _
    rw [quotedFrom_backslash _ hbackslash rfl, quotedFrom_simple _ hwidth, hsimple]
    rfl
  unfold Value.escape
  split
  · next h => exact hletter '\\' rfl (by rw [h]; rfl)
  · next hplain =>
    split
    · next h => exact hletter 'n' rfl (by rw [h]; rfl)
    · next hnewline =>
      split
      · next h => exact hletter 't' rfl (by rw [h]; rfl)
      · split
        · next h => exact hletter 'r' rfl (by rw [h]; rfl)
        · split
          · next h =>
            subst h
            rcases mark_cases hmark with rfl | rfl
            · exact hletter _ rfl rfl
            · exact hletter _ rfl rfl
          · next hc => exact quotedFrom_plain tail hc hnewline hplain

theorem codePoint?_hex : ∀ n < 0x100,
    codePoint? [Nat.digitChar (n / 16), Nat.digitChar (n % 16)] = some (Char.ofNat n) := by
  decide +kernel

theorem toNat_ofNat {n : Nat} (h : n < 0xD800) : (Char.ofNat n).toNat = n := by
  have hvalid : n.isValidChar := .inl h
  rw [Char.ofNat, dif_pos hvalid]
  rfl

/-- The character that stands for a byte. -/
theorem toNat_ofNat_byte (b : UInt8) : (Char.ofNat b.toNat).toNat = b.toNat :=
  toNat_ofNat (b.toNat_lt.trans (by decide))

theorem quotedFrom_byteText (b : UInt8) (tail : List Char) :
    quotedFrom (plainForm '\'') .text (Value.byteText b ++ tail) =
      prepend (Char.ofNat b.toNat) (quotedFrom (plainForm '\'') .text tail) := by
  have hbackslash : (plainForm '\'').mark ≠ '\\' := by decide
  unfold Value.byteText
  dsimp only
  split
  · next hb =>
    change quotedFrom (plainForm '\'') .text ('\\' :: '\'' :: tail) = _
    rw [quotedFrom_backslash _ hbackslash rfl, quotedFrom_simple _ rfl, hb]
    rfl
  · split
    · next hb =>
      change quotedFrom (plainForm '\'') .text ('\\' :: '\\' :: tail) = _
      rw [quotedFrom_backslash _ hbackslash rfl, quotedFrom_simple _ rfl, hb]
      rfl
    · next hmark hplain =>
      split
      · next hprintable =>
        have hne : ∀ c : Char, b.toNat ≠ c.toNat → Char.ofNat b.toNat ≠ c := by
          rintro c hc rfl
          exact hc (toNat_ofNat_byte b).symm
        have hnewline : b.toNat ≠ '\n'.toNat := fun hb => absurd (hb ▸ hprintable.1) (by decide)
        exact quotedFrom_plain tail (hne _ hmark) (hne _ hnewline) (hne _ hplain)
      · change quotedFrom (plainForm '\'') .text ('\\' :: 'x' :: _ :: _ :: tail) = _
        rw [quotedFrom_backslash _ hbackslash rfl, quotedFrom_hex _ (codePoint?_hex _ b.toNat_lt)]

/-! ## Strings -/

/-- Without two more marks behind it, a mark opens no string in triple quotes. -/
theorem quoted_single {raw : Bool} {mark : Char} {cs : List Char}
    (h : ∀ tail, cs ≠ mark :: mark :: tail) :
    quoted raw mark cs = quotedFrom ⟨mark, false, raw⟩ .text cs := by
  unfold quoted
  split
  · next a b tail =>
    rw [if_neg]
    rintro ⟨rfl, rfl⟩
    exact h tail rfl
  · rfl

theorem quoted_triple (raw : Bool) (mark : Char) (tail : List Char) :
    quoted raw mark (mark :: mark :: tail) = quotedFrom ⟨mark, true, raw⟩ .text tail := by
  unfold quoted
  dsimp only
  rw [if_pos ⟨rfl, rfl⟩]

/-- A string whose characters are written one by one is read up to its closing mark. -/
theorem quoted_flatMap {α : Type} {mark : Char} {write : α → List Char} {char : α → Char}
    {l : List α} {rest : List Char}
    (hchar : ∀ a ∈ l, ∀ tail, quotedFrom (plainForm mark) .text (write a ++ tail) =
      prepend (char a) (quotedFrom (plainForm mark) .text tail))
    (hhead : ∀ a ∈ l, ∃ c cs, write a = c :: cs ∧ c ≠ mark) (hrest : rest.head? ≠ some mark) :
    quoted false mark (l.flatMap write ++ mark :: rest) = .ok (l.map char, rest) := by
  have hfrom : quotedFrom (plainForm mark) .text (l.flatMap write ++ mark :: rest) =
      .ok (l.map char, rest) := by
    clear hhead
    induction l with
    | nil => exact quotedFrom_mark rest rfl
    | cons a l ih =>
      obtain ⟨ha, hl⟩ := List.forall_mem_cons.mp hchar
      rw [List.flatMap_cons, List.append_assoc, ha, ih hl]
      rfl
  rw [quoted_single, ← plainForm, hfrom]
  intro tail heq
  cases l with
  | nil =>
    obtain ⟨-, rfl⟩ := List.cons_eq_cons.mp heq
    exact hrest rfl
  | cons x l =>
    obtain ⟨c, cs, hwrite, hc⟩ := hhead x List.mem_cons_self
    rw [List.flatMap_cons, hwrite] at heq
    exact hc (List.cons_eq_cons.mp heq).1

/-- No string follows. -/
theorem stringsWithin_stops {rest : List Char} (hrest : Stops rest) (bound : Nat)
    (kind : Option Bool) : stringsWithin bound kind rest = .ok ((kind.getD false, []), rest) := by
  cases bound with
  | zero => rfl
  | succ bound =>
    have hquote := hrest.any (p := isQuote) (by decide)
    rw [stringsWithin]
    dsimp only
    rw [hrest.dropWhile (by decide), hrest.dropWhile (by decide)]
    cases rest with
    | nil => rfl
    | cons c rest =>
      dsimp only
      rw [if_pos (by rw [show isQuote c = false from hquote]; rfl)]

/-- A mark is neither white space nor a letter. -/
theorem dropWhile_mark {mark : Char} (hmark : isQuote mark = true) (body : List Char) :
    (mark :: body).dropWhile isSpace = mark :: body ∧
      (mark :: body).takeWhile Char.isAlpha = [] ∧
        (mark :: body).dropWhile Char.isAlpha = mark :: body := by
  rcases mark_cases hmark with rfl | rfl
  · exact ⟨rfl, rfl, rfl⟩
  · exact ⟨rfl, rfl, rfl⟩

section OneString

variable {body text rest : List Char}

theorem strings_str {mark : Char} (hmark : isQuote mark = true)
    (hquoted : quoted false mark body = .ok (text, rest)) (hrest : Stops rest) :
    strings (mark :: body) = .ok (.str (.ofList text), rest) := by
  obtain ⟨hspace, hletters, hmarkFirst⟩ := dropWhile_mark hmark body
  change (stringsWithin (body.length + 1) none (mark :: body)).map _ = _
  rw [stringsWithin]
  dsimp only
  rw [hspace, hletters, hmarkFirst]
  dsimp only
  rw [hmark]
  change Except.map _ (quoted false mark body >>= _) = _
  rw [hquoted]
  change Except.map _ (stringsWithin body.length (some false) rest >>= _) = _
  rw [stringsWithin_stops hrest]
  change Except.ok (Value.str (.ofList (text ++ [])), rest) = _
  rw [List.append_nil]

/-- Whether a string of bytes is ASCII is asked when its escapes are already characters. -/
theorem strings_bytes (hquoted : quoted false '\'' body = .ok (text, rest)) (hrest : Stops rest) :
    strings ('b' :: '\'' :: body) =
      if text.all (·.toNat < 0x80) then .ok (.bytes (text.map fun c => c.toNat.toUInt8), rest)
      else stop rest .nonAsciiBytes := by
  change (stringsWithin ((body.length + 1) + 1) none ('b' :: '\'' :: body)).map _ = _
  rw [stringsWithin]
  change Except.map _ (quoted false '\'' body >>= _) = _
  rw [hquoted]
  change Except.map _ (if !(text.all (·.toNat < 0x80)) then _ else _) = _
  cases text.all (·.toNat < 0x80) with
  | false => rfl
  | true =>
    change Except.map _ (stringsWithin (body.length + 1) (some true) rest >>= _) = _
    rw [stringsWithin_stops hrest]
    change Except.ok (Value.bytes ((text ++ []).map _), rest) = _
    rw [List.append_nil]
    rfl

end OneString

theorem isQuote_quoteMark (cs : List Char) : isQuote (Value.quoteMark cs) = true := by
  unfold Value.quoteMark
  split
  · rfl
  · rfl

/-- An escaped character does not begin with the mark. -/
theorem exists_escape {mark : Char} (hmark : isQuote mark = true) (c : Char) :
    ∃ d cs, Value.escape mark c = d :: cs ∧ d ≠ mark := by
  have hbackslash : '\\' ≠ mark := by rcases mark_cases hmark with rfl | rfl <;> decide
  unfold Value.escape
  split
  · exact ⟨_, _, rfl, hbackslash⟩
  · split
    · exact ⟨_, _, rfl, hbackslash⟩
    · split
      · exact ⟨_, _, rfl, hbackslash⟩
      · split
        · exact ⟨_, _, rfl, hbackslash⟩
        · split
          · exact ⟨_, _, rfl, hbackslash⟩
          · next hc => exact ⟨_, _, rfl, hc⟩

theorem exists_byteText (b : UInt8) : ∃ d cs, Value.byteText b = d :: cs ∧ d ≠ '\'' := by
  unfold Value.byteText
  dsimp only
  split
  · exact ⟨_, _, rfl, by decide⟩
  · next hmark =>
    split
    · exact ⟨_, _, rfl, by decide⟩
    · split
      · refine ⟨_, _, rfl, fun heq => hmark ?_⟩
        rw [← heq, toNat_ofNat_byte]
      · exact ⟨_, _, rfl, by decide⟩

theorem Stops.head?_ne {rest : List Char} (hrest : Stops rest) {c : Char} (hc : c ∉ stopChars) :
    rest.head? ≠ some c := fun h => hc (hrest c h)

/-- **A string in quotes is read back.** -/
theorem strings_quoted (s : String) {rest : List Char} (hrest : Stops rest) :
    strings ((Value.quoted s).toList ++ rest) = .ok (.str s, rest) := by
  have hmark := isQuote_quoteMark s.toList
  have hnot : Value.quoteMark s.toList ∉ stopChars := by
    rcases mark_cases hmark with h | h <;> rw [h] <;> decide
  have hquoted : quoted false (Value.quoteMark s.toList)
      (s.toList.flatMap (Value.escape (Value.quoteMark s.toList)) ++
        Value.quoteMark s.toList :: rest) = .ok (s.toList.map id, rest) :=
    quoted_flatMap (fun c _ tail => quotedFrom_escape hmark c tail)
      (fun c _ => exists_escape hmark c) (hrest.head?_ne hnot)
  rw [List.map_id] at hquoted
  have htext : (Value.quoted s).toList ++ rest = Value.quoteMark s.toList ::
      (s.toList.flatMap (Value.escape (Value.quoteMark s.toList)) ++
        Value.quoteMark s.toList :: rest) := by
    simp [Value.quoted]
  rw [htext, strings_str hmark hquoted hrest, String.ofList_toList]

/-- The source form of any bytes, read as a string with one character for each byte. -/
theorem quoted_bytes (data : List UInt8) {rest : List Char} (hrest : Stops rest) :
    quoted false '\'' (data.flatMap Value.byteText ++ '\'' :: rest) =
      .ok (data.map fun b => Char.ofNat b.toNat, rest) :=
  quoted_flatMap (fun b _ tail => quotedFrom_byteText b tail) (fun b _ => exists_byteText b)
    (hrest.head?_ne (by decide))

theorem toList_bytesText (data : List UInt8) (rest : List Char) :
    (Value.bytesText data).toList ++ rest =
      'b' :: '\'' :: (data.flatMap Value.byteText ++ '\'' :: rest) := by
  simp [Value.bytesText]

/-- **Bytes in quotes are read back** if they are ASCII, and refused if not. -/
theorem strings_bytesText (data : List UInt8) {rest : List Char} (hrest : Stops rest) :
    strings ((Value.bytesText data).toList ++ rest) =
      if data.all (·.toNat < 0x80) then .ok (.bytes data, rest)
      else stop rest .nonAsciiBytes := by
  have hascii : (data.map fun b => Char.ofNat b.toNat).all (·.toNat < 0x80) =
      data.all (·.toNat < 0x80) := by
    rw [List.all_map]
    congr 1
    funext b
    simp [toNat_ofNat_byte]
  have hback : (data.map fun b => Char.ofNat b.toNat).map (fun c => c.toNat.toUInt8) = data := by
    rw [List.map_map]
    refine (List.map_congr_left fun b _ => ?_).trans (List.map_id data)
    change (Char.ofNat b.toNat).toNat.toUInt8 = b
    rw [toNat_ofNat_byte]
    exact UInt8.ofNat_toNat
  rw [toList_bytesText, strings_bytes (quoted_bytes data hrest) hrest, hascii, hback]

/-! ## Integers -/

theorem base?_eq_none {c : Char} {cs : List Char}
    (h : ∀ d ∈ cs.head?, d ∉ ['x', 'X', 'o', 'O', 'b', 'B']) : base? (c :: cs) = none := by
  unfold base?
  split
  · next d ds heq =>
    obtain ⟨-, rfl⟩ := List.cons_eq_cons.mp heq
    have hd := h d rfl
    simp only [List.mem_cons, List.not_mem_nil, or_false, not_or] at hd
    rw [if_neg (by simp [hd]), if_neg (by simp [hd]), if_neg (by simp [hd])]
  · rfl

/-- Decimal digits announce no other base. -/
theorem base?_toDigits (n : Nat) {rest : List Char} (hrest : Stops rest) :
    base? (Nat.toDigits 10 n ++ rest) = none := by
  obtain ⟨d, ds, hn, -, hds⟩ := isDigit_cases (n := n)
  rw [hn, List.cons_append]
  refine base?_eq_none fun c hc hletter => ?_
  cases ds with
  | nil =>
    have hstop := hrest c hc
    revert hletter hstop
    simp only [stopChars, List.mem_cons, List.not_mem_nil, or_false]
    rintro (rfl | rfl | rfl | rfl | rfl | rfl) h <;> revert h <;> decide
  | cons e ds =>
    obtain rfl := Option.some.inj hc
    have hdigit := hds _ List.mem_cons_self
    revert hletter hdigit
    simp only [List.mem_cons, List.not_mem_nil, or_false]
    rintro (rfl | rfl | rfl | rfl | rfl | rfl) <;> decide

/-- Digits and underscores are a number without a point and without an exponent. -/
theorem decimal_of_forall (negative : Bool) {cs : List Char} (hne : cs ≠ [])
    (hcs : ∀ c ∈ cs, isDigitOrUnderscore c = true) {rest : List Char} (hrest : Stops rest) :
    decimal negative (cs ++ rest) =
      match Decimal.readDigits 10 Decimal.maxInt64 (withoutUnderscores cs) with
      | .ok n => .ok (signed negative n, rest)
      | .error _ => stop rest (.badDigits .overflow) := by
  have hnext : fractionPart rest = ([], rest) ∧ exponentPart rest = ([], rest) := by
    cases rest with
    | nil => exact ⟨rfl, rfl⟩
    | cons c rest =>
      have hc := hrest c rfl
      simp only [stopChars, List.mem_cons, List.not_mem_nil, or_false] at hc
      rcases hc with rfl | rfl | rfl | rfl | rfl <;> exact ⟨rfl, rfl⟩
  have htext : ¬ (cs = [] ∨ cs = ['.']) := by
    rintro (rfl | rfl)
    · exact hne rfl
    · exact absurd (hcs '.' List.mem_cons_self) (by decide)
  unfold decimal
  dsimp only
  rw [hrest.takeWhile_append (by decide) hcs, hrest.dropWhile_append (by decide) hcs, hnext.1]
  dsimp only
  rw [hnext.2]
  dsimp only
  rw [List.append_nil, List.append_nil, if_neg htext, hrest.any (by decide),
    if_neg Bool.false_ne_true]
  exact if_pos ⟨rfl, rfl⟩

theorem decimal_toDigits (negative : Bool) {n : Nat} (h : n ≤ Decimal.maxInt64) {rest : List Char}
    (hrest : Stops rest) :
    decimal negative (Nat.toDigits 10 n ++ rest) = .ok (signed negative n, rest) := by
  have hdigits : ∀ c ∈ Nat.toDigits 10 n, isDigitOrUnderscore c = true := fun c hc => by
    rw [isDigitOrUnderscore, Nat.isDigit_of_mem_toDigits (by decide) (by decide) hc]
    rfl
  have hplain : withoutUnderscores (Nat.toDigits 10 n) = Nat.toDigits 10 n := by
    refine List.filter_eq_self.mpr fun c hc => ?_
    have hne : c ≠ '_' := fun heq => Nat.underscore_not_in_toDigits (heq ▸ hc)
    simpa using hne
  rw [decimal_of_forall negative Nat.toDigits_ne_nil hdigits hrest, hplain, readDigits_toDigits h]

theorem not_isSpace_of_isDigit {c : Char} (h : c.isDigit = true) : isSpace c = false := by
  obtain ⟨hlow, hhigh⟩ := digit_range h
  have h0 : '0'.toNat = 48 := rfl
  have h9 : '9'.toNat = 57 := rfl
  rw [h0] at hlow
  rw [h9] at hhigh
  simp [isSpace]
  omega

/-- The digits of a number behind its sign. -/
theorem unsigned_toDigits (negative : Bool) {n : Nat} (h : n ≤ Decimal.maxInt64) {rest : List Char}
    (hrest : Stops rest) :
    (match base? ((Nat.toDigits 10 n ++ rest).dropWhile isSpace) with
      | some (base, cs) => basedInteger negative base cs
      | none => decimal negative ((Nat.toDigits 10 n ++ rest).dropWhile isSpace)) =
        .ok (signed negative n, rest) := by
  obtain ⟨d, ds, hn, hd, -⟩ := isDigit_cases (n := n)
  have hspace : (Nat.toDigits 10 n ++ rest).dropWhile isSpace = Nat.toDigits 10 n ++ rest := by
    rw [hn, List.cons_append, List.dropWhile_cons_of_neg]
    rw [not_isSpace_of_isDigit hd]
    exact Bool.false_ne_true
  rw [hspace, base?_toDigits n hrest]
  exact decimal_toDigits negative h hrest

/-- A number that begins with a digit has no sign. -/
theorem takeSign_of_isDigit {d : Char} (hd : d.isDigit = true) (cs : List Char) :
    Decimal.takeSign (d :: cs) = (false, d :: cs) := by
  unfold Decimal.takeSign
  split
  · next heq =>
    obtain ⟨rfl, -⟩ := List.cons_eq_cons.mp heq
    exact absurd hd (by decide)
  · next heq =>
    obtain ⟨rfl, -⟩ := List.cons_eq_cons.mp heq
    exact absurd hd (by decide)
  · rfl

theorem takeSign_toDigits (n : Nat) (rest : List Char) :
    Decimal.takeSign (Nat.toDigits 10 n ++ rest) = (false, Nat.toDigits 10 n ++ rest) := by
  obtain ⟨d, ds, hn, hd, -⟩ := isDigit_cases (n := n)
  rw [hn, List.cons_append]
  exact takeSign_of_isDigit hd _

/-- The digits of an integer, behind a minus sign if it is negative. -/
theorem toList_toString (n : Int) :
    (toString n).toList = (if n < 0 then ['-'] else []) ++ Nat.toDigits 10 n.natAbs := by
  rw [Int.toString_eq_repr, Int.repr_eq_if]
  by_cases hn : 0 ≤ n
  · rw [if_pos hn, if_neg (Int.not_lt.mpr hn), Nat.toList_repr]
    congr 1
    omega
  · rw [if_neg hn, if_pos (Int.not_le.mp hn), String.toList_append, Nat.toList_repr]
    congr 2
    omega

/-- **An integer is read back**, if it has 64 bits with its sign. -/
theorem number_toString {n : Int} (h : n.natAbs ≤ Decimal.maxInt64) {rest : List Char}
    (hrest : Stops rest) : number ((toString n).toList ++ rest) = .ok (.int n, rest) := by
  rw [toList_toString]
  by_cases hn : n < 0
  · rw [if_pos hn]
    have hvalue : signed true n.natAbs = .int n := by
      change Value.int (-(n.natAbs : Int)) = _
      congr 1
      omega
    have hread := unsigned_toDigits true h hrest
    rw [hvalue] at hread
    exact hread
  · rw [if_neg hn, List.nil_append, number, takeSign_toDigits]
    have hvalue : signed false n.natAbs = .int n := by
      change Value.int (n.natAbs : Int) = _
      congr 1
      omega
    have hread := unsigned_toDigits false h hrest
    rw [hvalue] at hread
    exact hread

/-! ## Words -/

/-- The names of the constants and their values. -/
def constants : List (String × Value) :=
  [("None", .none), ("True", .bool true), ("False", .bool false), ("Ellipsis", .ellipsis)]

/-- **A constant is read back.** -/
theorem readWord_constant (word : String) {v : Value} (h : (word, v) ∈ constants)
    {rest : List Char} (hrest : Stops rest) : readWord (word.toList ++ rest) = .ok (v, rest) := by
  have hwords : ∀ w ∈ constants.map (·.1), ∀ c ∈ w.toList, isWordChar c = true := by decide
  have hword := hwords word (List.mem_map_of_mem h)
  have htake := hrest.takeWhile_append (by decide) hword
  have hdrop := hrest.dropWhile_append (by decide) hword
  have hquote := hrest.any (p := isQuote) (by decide)
  unfold readWord
  dsimp only
  rw [htake, hdrop, hquote, String.ofList_toList]
  simp only [constants, List.mem_cons, Prod.mk.injEq, List.not_mem_nil, or_false] at h
  rcases h with ⟨rfl, rfl⟩ | ⟨rfl, rfl⟩ | ⟨rfl, rfl⟩ | ⟨rfl, rfl⟩ <;> rfl

/-- The empty set is read back. -/
theorem readWord_set (rest : List Char) :
    readWord ("set()".toList ++ rest) = .ok (.set [], rest) := rfl

end DocTree.Literal
