import DocTree.Proofs.Literal.RoundTrip
import DocTree.Proofs.Text.Lines

/-!
# Spellings of adjacent strings

Which strings in a row are read, with letters in front of their quotes.

* `StringPiece`: one string, in single or triple quotes, without escapes;
* `stringsWithin_piece`: reading one string of a row;
* `stringsWithin_more`, `stringsWithin_mixed`: **strings of one kind are joined**, and a string of
  another kind is refused;
* `StringPiece.readForm_known`, `StringPiece.readForm_unknown`: the letters of the first string;
* **`StringRow.read_eq_ok_iff`**: the strings in a row that are read. Only the letters of the first
  one are checked.
-/

namespace DocTree.Literal

open Text

/-! ## Letters and quotes -/

/-- A letter of ASCII is neither white space, a quote nor a digit. -/
theorem letter_classes {c : Char} (h : c.isAlpha = true) :
    isSpace c = false ∧ isQuote c = false ∧ c.isDigit = false ∧ isAlphabetic c = true ∧
      c ∉ ['(', '[', '{', '.', '-', '+'] := by
  have hascii : ∀ n < 0x80, (Char.ofNat n).isAlpha = true →
      isSpace (Char.ofNat n) = false ∧ isQuote (Char.ofNat n) = false ∧
        (Char.ofNat n).isDigit = false ∧ isAlphabetic (Char.ofNat n) = true ∧
          Char.ofNat n ∉ ['(', '[', '{', '.', '-', '+'] := by decide
  have hlt : c.toNat < 0x80 := by
    have hrange := letter_range h
    omega
  have hletter := hascii c.toNat hlt
  rw [Char.ofNat_toNat] at hletter
  exact hletter h

/-- A text that begins with a letter is a word. -/
theorem readForm_letter (part : List Char → Except Stopped (Front Value)) {c : Char}
    (h : c.isAlpha = true) (cs : List Char) : readForm part (c :: cs) = readWord (c :: cs) := by
  obtain ⟨hspace, hquote, hdigit, halphabetic, hne⟩ := letter_classes h
  simp only [List.mem_cons, List.not_mem_nil, or_false, not_or] at hne
  have hskip : skipSpace (c :: cs) = c :: cs :=
    List.dropWhile_cons_of_neg (by rw [hspace]; exact Bool.false_ne_true)
  unfold readForm
  rw [hskip]
  dsimp only
  rw [if_neg hne.1, if_neg hne.2.1, if_neg hne.2.2.1, hquote, if_neg Bool.false_ne_true,
    if_neg fun hdots => hne.2.2.2.1 hdots.1, hdigit, halphabetic]
  simp [hne]

/-! ## One string -/

/-- A string: letters directly before quotes, and a body that has no quotes, backslashes or line
ends in it. -/
structure StringPiece where
  letters : List Char
  mark : Char
  triple : Bool
  body : List Char
  letters_areAlpha : ∀ c ∈ letters, c.isAlpha = true
  mark_isQuote : isQuote mark = true
  body_isPlain : ∀ c ∈ body, isQuote c = false ∧ c ≠ '\\' ∧ c ≠ '\n' ∧ c.toNat < 0x80

namespace StringPiece

variable (p : StringPiece)

/-- The text behind the first quote. -/
def inner : List Char :=
  if p.triple then p.mark :: p.mark :: (p.body ++ [p.mark, p.mark, p.mark]) else p.body ++ [p.mark]

def text : List Char := p.letters ++ p.mark :: p.inner

/-- The letters in front of the quotes may stand there, in either case. -/
def IsKnown : Prop := toLowerAscii (.ofList p.letters) ∈ ["", "r", "u", "b", "br", "rb"]

def isBytes : Bool := (p.letters.map Char.toLower).contains 'b'

theorem quotedFrom_body (form : QuoteForm) (hmark : form.mark = p.mark) {tail rest : List Char}
    (h : quotedFrom form .text tail = .ok ([], rest)) :
    quotedFrom form .text (p.body ++ tail) = .ok (p.body, rest) := by
  have hbody := p.body_isPlain
  generalize p.body = body at hbody ⊢
  induction body with
  | nil => exact h
  | cons c cs ih =>
    obtain ⟨⟨hquote, hbackslash, hnewline, -⟩, hcs⟩ := List.forall_mem_cons.mp hbody
    have hne : c ≠ form.mark := by
      rintro rfl
      rw [hmark, p.mark_isQuote] at hquote
      cases hquote
    rw [List.cons_append, quotedFrom_plain _ hne hnewline hbackslash, ih hcs]
    rfl

/-- **What a string is read as is its body.** -/
theorem quoted_inner (raw : Bool) {rest : List Char} (hrest : rest.head? ≠ some p.mark) :
    quoted raw p.mark (p.inner ++ rest) = .ok (p.body, rest) := by
  cases htriple : p.triple with
  | true =>
    have hlast : quotedFrom ⟨p.mark, true, raw⟩ .text (p.mark :: p.mark :: p.mark :: rest) =
        .ok ([], rest) := by
      rw [quotedFrom.eq_def]
      dsimp only
      rw [if_pos rfl, if_neg (by decide), if_pos ⟨rfl, rfl⟩]
    have hread := p.quotedFrom_body _ rfl hlast
    have hinner : p.inner ++ rest =
        p.mark :: p.mark :: (p.body ++ p.mark :: p.mark :: p.mark :: rest) := by
      rw [inner, if_pos htriple, List.cons_append, List.cons_append, List.append_assoc]
      rfl
    rw [hinner, quoted_triple, hread]
  | false =>
    have hread := p.quotedFrom_body ⟨p.mark, false, raw⟩ rfl (quotedFrom_mark rest rfl)
    have hinner : p.inner ++ rest = p.body ++ p.mark :: rest := by
      rw [inner, htriple, if_neg Bool.false_ne_true, List.append_assoc]
      rfl
    rw [hinner, quoted_single, hread]
    intro tail heq
    cases hbody : p.body with
    | nil =>
      rw [hbody] at heq
      obtain ⟨-, rfl⟩ := List.cons_eq_cons.mp heq
      exact hrest rfl
    | cons c cs =>
      have hquote := (p.body_isPlain c (hbody ▸ List.mem_cons_self)).1
      rw [hbody] at heq
      rw [(List.cons_eq_cons.mp heq).1, p.mark_isQuote] at hquote
      cases hquote

/-- The letters end at the first quote. -/
theorem span_text (rest : List Char) {q : Char → Bool}
    (hletter : ∀ c, c.isAlpha = true → q c = true) (hmark : q p.mark = false) :
    (p.text ++ rest).takeWhile q = p.letters ∧
      (p.text ++ rest).dropWhile q = p.mark :: (p.inner ++ rest) := by
  have hletters : ∀ c ∈ p.letters, q c = true := fun c hc => hletter c (p.letters_areAlpha c hc)
  have htext : p.text ++ rest = p.letters ++ p.mark :: (p.inner ++ rest) := by
    rw [text, List.append_assoc, List.cons_append]
  rw [htext, List.takeWhile_append_of_pos hletters, List.dropWhile_append_of_pos hletters,
    List.takeWhile_cons_of_neg (by rw [hmark]; exact Bool.false_ne_true),
    List.dropWhile_cons_of_neg (by rw [hmark]; exact Bool.false_ne_true), List.append_nil]
  exact ⟨rfl, rfl⟩

/-- A string begins with a letter or a quote. -/
theorem exists_text : ∃ c cs, p.text = c :: cs ∧ (c.isAlpha = true ∨ isQuote c = true) := by
  rw [text]
  cases hletters : p.letters with
  | nil => exact ⟨_, _, rfl, .inr p.mark_isQuote⟩
  | cons c cs => exact ⟨_, _, rfl, .inl (p.letters_areAlpha c (hletters ▸ List.mem_cons_self))⟩

/-- **One string in a row**: it has to be of the kind of those before. -/
theorem stringsWithin_piece (bound : Nat) (kind : Option Bool) {gap rest : List Char}
    (hgap : ∀ c ∈ gap, isSpace c = true) (hrest : rest.head? ≠ some p.mark) :
    stringsWithin (bound + 1) kind (gap ++ (p.text ++ rest)) =
      if kind.any (· != p.isBytes) then stop (p.mark :: (p.inner ++ rest)) .mixedStrings
      else (stringsWithin bound (some p.isBytes) rest).map fun ((isBytes, more), rest') =>
        ((isBytes, p.body ++ more), rest') := by
  have hspace : (gap ++ (p.text ++ rest)).dropWhile isSpace = p.text ++ rest := by
    obtain ⟨c, cs, htext, hc⟩ := p.exists_text
    have hspace : isSpace c = false := by
      rcases hc with hc | hc
      · exact (letter_classes hc).1
      · rcases mark_cases hc with rfl | rfl <;> rfl
    rw [List.dropWhile_append_of_pos hgap, htext, List.cons_append,
      List.dropWhile_cons_of_neg (by rw [hspace]; exact Bool.false_ne_true)]
  have hmark : p.mark.isAlpha = false := by
    rcases mark_cases p.mark_isQuote with h | h <;> rw [h] <;> rfl
  obtain ⟨hletters, hquotes⟩ := p.span_text rest (fun _ h => h) hmark
  have hascii : (p.body.all fun c => c.toNat < 0x80) = true :=
    List.all_eq_true.mpr fun c hc => decide_eq_true (p.body_isPlain c hc).2.2.2
  rw [stringsWithin]
  dsimp only
  rw [hspace, hletters, hquotes]
  dsimp only
  rw [p.mark_isQuote, p.quoted_inner _ hrest, ← isBytes, ok_bind]
  dsimp only
  rw [hascii, Bool.not_true, if_neg Bool.false_ne_true, Bool.and_false, if_neg Bool.false_ne_true]
  cases stringsWithin bound (some p.isBytes) rest <;> rfl

end StringPiece

/-! ## Strings in a row -/

/-- Strings with white space between neighbours: the first one, and the others with what stands in
front of them. -/
structure StringRow where
  first : StringPiece
  more : List (List Char × StringPiece)
  more_areSpaced : ∀ item ∈ more, item.1 ≠ [] ∧ ∀ c ∈ item.1, isSpace c = true

/-- The text of the strings behind the first one. -/
def moreText (more : List (List Char × StringPiece)) : List Char :=
  more.flatMap fun item => item.1 ++ item.2.text

section More

variable {more : List (List Char × StringPiece)}

/-- A gap stands in front of each string but the first. -/
theorem head?_moreText (hmore : ∀ item ∈ more, item.1 ≠ [] ∧ ∀ c ∈ item.1, isSpace c = true)
    {mark : Char} (hmark : isQuote mark = true) : (moreText more).head? ≠ some mark := by
  cases more with
  | nil => exact nofun
  | cons item more =>
    obtain ⟨hne, hspace⟩ := hmore item List.mem_cons_self
    obtain ⟨c, cs, hgap⟩ := List.exists_cons_of_ne_nil hne
    rw [moreText, List.flatMap_cons, hgap]
    intro hhead
    obtain rfl := Option.some.inj hhead
    have hc := hspace c (hgap ▸ List.mem_cons_self)
    rcases mark_cases hmark with rfl | rfl <;> cases hc

theorem stringsWithin_nil (bound : Nat) (kind : Option Bool) :
    stringsWithin bound kind [] = .ok ((kind.getD false, []), []) :=
  stringsWithin_stops stops_nil bound kind

/-- **Strings of one kind are joined.** -/
theorem stringsWithin_more (hmore : ∀ item ∈ more, item.1 ≠ [] ∧ ∀ c ∈ item.1, isSpace c = true)
    {bound : Nat} (hbound : more.length ≤ bound) {isBytes : Bool}
    (hkind : ∀ item ∈ more, item.2.isBytes = isBytes) :
    stringsWithin bound (some isBytes) (moreText more) =
      .ok ((isBytes, more.flatMap (·.2.body)), []) := by
  induction more generalizing bound with
  | nil => exact stringsWithin_nil bound _
  | cons item more ih =>
    obtain ⟨⟨-, hgap⟩, hspaced⟩ := List.forall_mem_cons.mp hmore
    obtain ⟨hfirst, hkind⟩ := List.forall_mem_cons.mp hkind
    obtain ⟨bound, rfl⟩ := Nat.exists_eq_add_of_le' (Nat.one_le_of_lt hbound)
    rw [moreText, List.flatMap_cons, List.append_assoc, ← moreText,
      item.2.stringsWithin_piece bound _ hgap (head?_moreText hspaced item.2.mark_isQuote), hfirst,
      ih hspaced (Nat.le_of_succ_le_succ hbound) hkind, if_neg (by simp)]
    rfl

/-- **A string of another kind is refused.** -/
theorem stringsWithin_mixed (hmore : ∀ item ∈ more, item.1 ≠ [] ∧ ∀ c ∈ item.1, isSpace c = true)
    {bound : Nat} (hbound : more.length ≤ bound) {isBytes : Bool}
    (hkind : ¬ ∀ item ∈ more, item.2.isBytes = isBytes) :
    ∃ rest, stringsWithin bound (some isBytes) (moreText more) = stop rest .mixedStrings := by
  induction more generalizing bound with
  | nil => exact absurd (List.forall_mem_nil _) hkind
  | cons item more ih =>
    obtain ⟨⟨-, hgap⟩, hspaced⟩ := List.forall_mem_cons.mp hmore
    obtain ⟨bound, rfl⟩ := Nat.exists_eq_add_of_le' (Nat.one_le_of_lt hbound)
    rw [moreText, List.flatMap_cons, List.append_assoc, ← moreText,
      item.2.stringsWithin_piece bound _ hgap (head?_moreText hspaced item.2.mark_isQuote)]
    by_cases hfirst : item.2.isBytes = isBytes
    · obtain ⟨rest, hrest⟩ := ih hspaced (Nat.le_of_succ_le_succ hbound) fun hall =>
        hkind (List.forall_mem_cons.mpr ⟨hfirst, hall⟩)
      rw [hfirst, hrest, if_neg (by simp)]
      exact ⟨rest, rfl⟩
    · rw [if_pos (by simpa using Ne.symm hfirst)]
      exact ⟨_, rfl⟩

theorem length_le_moreText (more : List (List Char × StringPiece)) :
    more.length ≤ (moreText more).length := by
  induction more with
  | nil => exact Nat.le_refl _
  | cons item more ih =>
    rw [moreText, List.flatMap_cons, ← moreText]
    simp only [List.length_cons, List.length_append, StringPiece.text]
    omega

end More

/-! ## Words in front of quotes -/

namespace StringPiece

variable (p : StringPiece) (rest : List Char)

theorem isWordChar_mark : isWordChar p.mark = false := by
  rcases mark_cases p.mark_isQuote with h | h <;> rw [h] <;> rfl

theorem isWordChar_of_isAlpha {c : Char} (h : c.isAlpha = true) : isWordChar c = true := by
  rw [isWordChar, isAlphanumeric, (letter_classes h).2.2.2.1, Bool.true_or, Bool.true_or]

theorem isKnown_iff :
    p.IsKnown ↔ p.letters = [] ∨
      stringLetters.contains (toLowerAscii (.ofList p.letters)) = true := by
  have hempty : toLowerAscii (.ofList p.letters) = "" ↔ p.letters = [] := by
    rw [← String.toList_inj, toLowerAscii, String.toList_ofList, String.toList_ofList]
    exact List.map_eq_nil_iff
  rw [← hempty, List.contains_iff_mem]
  exact List.mem_cons

/-- What is decided by the letters in front of a string, if there are any. -/
theorem readForm_letters (part : List Char → Except Stopped (Front Value)) (h : p.letters ≠ []) :
    readForm part (p.text ++ rest) = readWord (p.text ++ rest) := by
  obtain ⟨c, cs, hletters⟩ := List.exists_cons_of_ne_nil h
  have hc := p.letters_areAlpha c (hletters ▸ List.mem_cons_self)
  rw [text, hletters]
  exact readForm_letter part hc _

/-- A string whose letters are known is read as a string. -/
theorem readForm_known (part : List Char → Except Stopped (Front Value)) (h : p.IsKnown) :
    readForm part (p.text ++ rest) = strings (p.text ++ rest) := by
  by_cases hnil : p.letters = []
  · rw [text, hnil]
    exact readForm_quote p.mark_isQuote _
  · obtain ⟨hword, hrest⟩ := p.span_text rest (fun _ => isWordChar_of_isAlpha) p.isWordChar_mark
    have hknown := (p.isKnown_iff.mp h).resolve_left hnil
    rw [p.readForm_letters rest part hnil]
    unfold readWord
    dsimp only
    rw [hword, hrest, List.head?_cons, Option.any_some, p.mark_isQuote, hknown]
    rfl

/-- **Any other letters in front of the first quote are refused**: they are a name, or a constant
behind which no quote may stand. -/
theorem readForm_unknown (part : List Char → Except Stopped (Front Value)) (h : ¬ p.IsKnown) :
    (∃ stopped, readForm part (p.text ++ rest) = .error stopped) ∨
      ∃ v, readForm part (p.text ++ rest) = .ok (v, p.mark :: (p.inner ++ rest)) := by
  obtain ⟨hword, hrest⟩ := p.span_text rest (fun _ => isWordChar_of_isAlpha) p.isWordChar_mark
  rw [isKnown_iff, not_or] at h
  rw [p.readForm_letters rest part h.1]
  unfold readWord
  dsimp only
  rw [hword, hrest, if_neg]
  · split
    · exact .inr ⟨_, rfl⟩
    · exact .inr ⟨_, rfl⟩
    · exact .inr ⟨_, rfl⟩
    · exact .inr ⟨_, rfl⟩
    · next heq =>
      have hmark := p.mark_isQuote
      rw [(List.cons_eq_cons.mp heq).1] at hmark
      cases hmark
    · exact .inl ⟨_, rfl⟩
  · rw [Bool.and_eq_true]
    exact fun hboth => h.2 hboth.2

end StringPiece

namespace StringRow

variable (row : StringRow)

def text : String := .ofList (row.first.text ++ moreText row.more)

/-- The strings are all bytes, or none of them is. -/
def IsUniform : Prop := ∀ item ∈ row.more, item.2.isBytes = row.first.isBytes

/-- The bodies one behind another. -/
def bodies : List Char := row.first.body ++ row.more.flatMap (·.2.body)

def value : Value :=
  if row.first.isBytes then .bytes (row.bodies.map fun c => c.toNat.toUInt8)
  else .str (.ofList row.bodies)

/-- The first string may be of any kind, and it decides of what kind the others have to be. -/
theorem exists_strings : ∃ bound, row.more.length ≤ bound ∧ strings row.text.toList =
    (stringsWithin bound (some row.first.isBytes) (moreText row.more)).map
      fun ((isBytes, more), rest) =>
        (if isBytes then .bytes ((row.first.body ++ more).map fun c => c.toNat.toUInt8)
          else .str (.ofList (row.first.body ++ more)), rest) := by
  have hhead := head?_moreText row.more_areSpaced row.first.mark_isQuote
  have hmore := length_le_moreText row.more
  obtain ⟨bound, hlength, hbound⟩ :
      ∃ bound, row.text.toList.length = bound + 1 ∧ row.more.length ≤ bound := by
    rw [text, String.toList_ofList, StringPiece.text]
    simp only [List.length_append, List.length_cons]
    exact ⟨row.first.letters.length + row.first.inner.length + (moreText row.more).length,
      by omega, by omega⟩
  have hpiece := row.first.stringsWithin_piece bound none (List.forall_mem_nil _) hhead
  rw [List.nil_append, Option.any_none, if_neg Bool.false_ne_true] at hpiece
  refine ⟨bound, hbound, ?_⟩
  rw [strings, hlength, text, String.toList_ofList, hpiece]
  cases stringsWithin bound (some row.first.isBytes) (moreText row.more) <;> rfl

theorem strings_of_isUniform (h : row.IsUniform) :
    strings row.text.toList = .ok (row.value, []) := by
  obtain ⟨bound, hbound, hstrings⟩ := row.exists_strings
  rw [hstrings, stringsWithin_more row.more_areSpaced hbound h]
  rfl

theorem strings_of_not_isUniform (h : ¬ row.IsUniform) :
    ∃ stopped, strings row.text.toList = .error stopped := by
  obtain ⟨bound, hbound, hstrings⟩ := row.exists_strings
  obtain ⟨rest, hmixed⟩ := stringsWithin_mixed row.more_areSpaced hbound h
  exact ⟨_, by rw [hstrings, hmixed]; rfl⟩

/-- **The strings in a row that are read**: the letters of the first one are known, and the others
are of its kind. No more is asked of their letters. -/
theorem read_eq_ok_iff {v : Value} :
    read row.text = .ok v ↔ row.first.IsKnown ∧ row.IsUniform ∧ v = row.value := by
  have hne : row.text.toList ≠ [] := by
    obtain ⟨c, cs, hfirst, -⟩ := row.first.exists_text
    rw [text, String.toList_ofList, hfirst]
    exact List.cons_ne_nil _ _
  obtain ⟨depth, hvalue⟩ := readValue_of_ne_nil hne
  have htext : row.text.toList = row.first.text ++ moreText row.more := String.toList_ofList
  by_cases hknown : row.first.IsKnown
  · have hform := row.first.readForm_known (moreText row.more) (readValue depth) hknown
    rw [← htext] at hform
    rw [hform] at hvalue
    by_cases huniform : row.IsUniform
    · rw [row.strings_of_isUniform huniform] at hvalue
      rw [read_of_readValue hvalue nofun]
      exact ⟨fun h => ⟨hknown, huniform, (Except.ok.inj h).symm⟩, fun h => congrArg _ h.2.2.symm⟩
    · obtain ⟨stopped, hstopped⟩ := row.strings_of_not_isUniform huniform
      rw [hstopped] at hvalue
      rw [read_of_readValue_error hvalue]
      exact ⟨nofun, fun h => absurd h.2.1 huniform⟩
  · have hunread : ∃ fault, read row.text = .error fault := by
      have hform := row.first.readForm_unknown (moreText row.more) (readValue depth) hknown
      rw [← htext, ← hvalue] at hform
      rcases hform with ⟨stopped, hstopped⟩ | ⟨w, hconstant⟩
      · exact ⟨_, read_of_readValue_error hstopped⟩
      · -- The quote that is left over is neither white space nor a comma.
        have hskip : skipSpace (row.first.mark :: (row.first.inner ++ moreText row.more)) =
            row.first.mark :: (row.first.inner ++ moreText row.more) :=
          (dropWhile_mark row.first.mark_isQuote _).1
        have hcomma : row.first.mark ≠ ',' := by
          rcases mark_cases row.first.mark_isQuote with h | h <;> rw [h] <;> decide
        have hread := read_of_readValue hconstant (by rw [hskip]; simpa using hcomma)
        rw [hskip] at hread
        exact ⟨_, hread⟩
    obtain ⟨fault, hfault⟩ := hunread
    rw [hfault]
    exact ⟨nofun, fun h => absurd h.1 hknown⟩

/-- A name in front of the second string. -/
theorem name_before_quote_read :
    ∃ row : StringRow, row.text = "'a' foo'b'" ∧ (∃ item ∈ row.more, ¬ item.2.IsKnown) ∧
      read row.text = .ok (.str "ab") := by
  let second : StringPiece := ⟨['f', 'o', 'o'], '\'', false, ['b'], by decide, rfl, by decide⟩
  refine ⟨⟨⟨[], '\'', false, ['a'], by decide, rfl, by decide⟩, [([' '], second)], ?_⟩, ?_, ?_, ?_⟩
  · exact List.forall_mem_singleton.mpr ⟨List.cons_ne_nil _ _, by decide⟩
  · decide +kernel
  · exact ⟨_, List.mem_cons_self, by unfold StringPiece.IsKnown; decide +kernel⟩
  · exact read_eq_of_same (Value.everywhere_of_leaf rfl nofun) (by decide +kernel)

end StringRow

end DocTree.Literal
