import DocTree.Proofs.Literal.RoundTrip
import DocTree.Proofs.Text.Lines
import DocTree.Proofs.Text.Scans

/-!
# Source forms within a line

The source form of a value can stand on a line with other text around it: the line is not broken,
and no separator in the source form is taken for one of the line.

* `Inline`: what may stand on a line;
* `inline_quoted`, `inline_brackets`: quotes and brackets with anything in between;
* **`inline_text`**, `tight_text`: source forms.
-/

namespace DocTree.Literal

open Text Value ScanState

/-- The text may stand on a line, in any number of brackets: it has neither tabs nor newlines,
leaves the scanner where it was, and shows it no separator. -/
structure Inline (cs : List Char) : Prop where
  noBreak : ∀ c ∈ cs, c ≠ '\t' ∧ c ≠ '\n'
  scans (depth : Nat) : Scans isSeparator (.plain depth) cs (.plain depth)

section Inline

variable {cs ds : List Char}

theorem Inline.append (hcs : Inline cs) (hds : Inline ds) : Inline (cs ++ ds) where
  noBreak := List.forall_mem_append.mpr ⟨hcs.noBreak, hds.noBreak⟩
  scans depth := (hcs.scans depth).append (hds.scans depth)

/-- Characters that mean nothing to the scanner. -/
theorem inline_of_forall
    (h : ∀ c ∈ cs, (c ≠ '\t' ∧ c ≠ '\n') ∧ isSeparator c = false ∧ isDelimiter c = false) :
    Inline cs where
  noBreak c hc := (h c hc).1
  scans depth := scans_of_forall (fun c hc => (h c hc).2.1) fun c hc =>
    step_of_not_isDelimiter (h c hc).2.2 depth

theorem inline_flatMap {α : Type} {l : List α} {f : α → List Char} (h : ∀ a ∈ l, Inline (f a)) :
    Inline (l.flatMap f) where
  noBreak c hc := by
    obtain ⟨a, ha, hc⟩ := List.mem_flatMap.mp hc
    exact (h a ha).noBreak c hc
  scans depth := scans_flatMap fun a ha => (h a ha).scans depth

/-- A pair of brackets around a text. -/
theorem inline_brackets {left right : Char} (hleft : left ∈ ['(', '[', '{'])
    (hright : right ∈ [')', ']', '}']) (hcs : Inline cs) : Inline (left :: (cs ++ [right])) where
  noBreak := by
    have hbreak : ∀ c ∈ ['(', '[', '{'] ++ [')', ']', '}'], c ≠ '\t' ∧ c ≠ '\n' := by decide
    refine List.forall_mem_cons.mpr ⟨hbreak left (List.mem_append_left _ hleft), ?_⟩
    refine List.forall_mem_append.mpr ⟨hcs.noBreak, List.forall_mem_singleton.mpr ?_⟩
    exact hbreak right (List.mem_append_right _ hright)
  scans depth := by
    have hfirst : isSeparator left = false ∧
        ScanState.step (.plain depth) left = some (.plain (depth + 1)) := by
      simp only [List.mem_cons, List.not_mem_nil, or_false] at hleft
      rcases hleft with rfl | rfl | rfl <;> exact ⟨rfl, rfl⟩
    have hlast : ScanState.step (.plain (depth + 1)) right = some (.plain depth) := by
      simp only [List.mem_cons, List.not_mem_nil, or_false] at hright
      rcases hright with rfl | rfl | rfl <;> rfl
    exact .cons (fun _ => hfirst.1) hfirst.2
      ((hcs.scans (depth + 1)).append (scans_one (fun h => nomatch h) hlast))

end Inline

/-! ## Strings -/

/-- The inside of a string: characters that stand for themselves, and such as a backslash hides. -/
inductive Within (mark : Char) : List Char → Prop where
  | nil : Within mark []
  | char {c : Char} {cs : List Char} (hc : c ∉ [mark, '\\', '\t', '\n']) (h : Within mark cs) :
      Within mark (c :: cs)
  | hidden {c : Char} {cs : List Char} (hc : c ∉ ['\t', '\n']) (h : Within mark cs) :
      Within mark ('\\' :: c :: cs)

section Within

variable {mark : Char} {cs ds : List Char}

theorem Within.append (hcs : Within mark cs) (hds : Within mark ds) : Within mark (cs ++ ds) := by
  induction hcs with
  | nil => exact hds
  | char hc _ ih => exact .char hc ih
  | hidden hc _ ih => exact .hidden hc ih

theorem within_flatMap {α : Type} {l : List α} {f : α → List Char}
    (h : ∀ a ∈ l, Within mark (f a)) : Within mark (l.flatMap f) := by
  induction l with
  | nil => exact .nil
  | cons a l ih =>
    obtain ⟨ha, hl⟩ := List.forall_mem_cons.mp h
    rw [List.flatMap_cons]
    exact ha.append (ih hl)

theorem Within.noBreak (h : Within mark cs) : ∀ c ∈ cs, c ≠ '\t' ∧ c ≠ '\n' := by
  induction h with
  | nil => exact fun _ hc => nomatch hc
  | char hc _ ih =>
    simp only [List.mem_cons, List.not_mem_nil, or_false, not_or] at hc
    exact List.forall_mem_cons.mpr ⟨⟨hc.2.2.1, hc.2.2.2⟩, ih⟩
  | hidden hc _ ih =>
    simp only [List.mem_cons, List.not_mem_nil, or_false, not_or] at hc
    exact List.forall_mem_cons.mpr ⟨by decide, List.forall_mem_cons.mpr ⟨hc, ih⟩⟩

theorem Within.scans (h : Within mark cs) (depth : Nat) :
    Scans isSeparator (.quoted depth mark false) cs (.quoted depth mark false) := by
  have hinside : ∀ escaped, ScanState.quoted depth mark escaped ≠ outside := by
    rintro _ ⟨⟩
  induction h with
  | nil => exact .nil _
  | char hc _ ih =>
    simp only [List.mem_cons, List.not_mem_nil, or_false, not_or] at hc
    refine .cons (fun h => absurd h (hinside _)) ?_ ih
    rw [ScanState.step, if_neg hc.2.1, if_neg hc.1]
  | hidden _ _ ih =>
    have hstep :
        ScanState.step (.quoted depth mark false) '\\' = some (.quoted depth mark true) := by
      rw [ScanState.step, if_pos rfl]
    exact .cons (fun h => absurd h (hinside _)) hstep (.cons (fun h => absurd h (hinside _)) rfl ih)

theorem within_escape (mark c : Char) : Within mark (escape mark c) := by
  unfold escape
  split
  · exact .hidden (by decide) .nil
  · next hbackslash =>
    split
    · exact .hidden (by decide) .nil
    · next hnewline =>
      split
      · exact .hidden (by decide) .nil
      · next htab =>
        split
        · exact .hidden (by decide) .nil
        · split
          · exact .hidden (by simp [htab, hnewline]) .nil
          · next hmark => exact .char (by simp [htab, hnewline, hbackslash, hmark]) .nil

/-- Hexadecimal digits mean nothing within a string. -/
theorem digitChar_not_mem : ∀ n < 16, Nat.digitChar n ∉ ['\'', '\\', '\t', '\n'] := by decide

theorem within_byteText (b : UInt8) : Within '\'' (byteText b) := by
  have hbyte : b.toNat < 256 := b.toNat_lt
  unfold byteText
  dsimp only
  split
  · exact .hidden (by decide) .nil
  · next hmark =>
    split
    · exact .hidden (by decide) .nil
    · next hbackslash =>
      split
      · next hprintable =>
        refine .char (fun hc => ?_) .nil
        have hvalue := toNat_ofNat_byte b
        simp only [List.mem_cons, List.not_mem_nil, or_false] at hc
        rcases hc with hc | hc | hc | hc <;> rw [hc] at hvalue
        · exact hmark hvalue.symm
        · exact hbackslash hvalue.symm
        · exact absurd (hvalue ▸ hprintable.1) (by decide)
        · exact absurd (hvalue ▸ hprintable.1) (by decide)
      · refine .hidden (by decide) (.char (digitChar_not_mem _ (by omega)) ?_)
        exact .char (digitChar_not_mem _ (by omega)) .nil

/-- **A pair of quotes with the inside of a string between them.** -/
theorem inline_quotes (hmark : isQuote mark = true) (hcs : Within mark cs) :
    Inline (mark :: (cs ++ [mark])) where
  noBreak := by
    have hmarks : mark ≠ '\t' ∧ mark ≠ '\n' := by
      rcases mark_cases hmark with rfl | rfl <;> decide
    exact List.forall_mem_cons.mpr
      ⟨hmarks, List.forall_mem_append.mpr ⟨hcs.noBreak, List.forall_mem_singleton.mpr hmarks⟩⟩
  scans depth := by
    have hfirst : isSeparator mark = false ∧
        ScanState.step (.plain depth) mark = some (.quoted depth mark false) := by
      rcases mark_cases hmark with rfl | rfl <;> exact ⟨rfl, rfl⟩
    have hlast : ScanState.step (.quoted depth mark false) mark = some (.plain depth) := by
      rcases mark_cases hmark with rfl | rfl <;> rfl
    exact .cons (fun _ => hfirst.1) hfirst.2
      ((hcs.scans depth).append (scans_one (fun h => nomatch h) hlast))

end Within

/-! ## Source forms -/

theorem inline_further {texts : List (List Char)} (h : ∀ t ∈ texts, Inline t) :
    Inline (further texts) := by
  refine inline_flatMap fun t ht => ?_
  have hcomma : Inline [',', ' '] := inline_of_forall (by decide)
  exact hcomma.append (h t ht)

theorem inline_items {α : Type} {f : α → List Char} {first : α} {items : List α}
    (h : ∀ a ∈ first :: items, Inline (f a)) : Inline (f first ++ further (items.map f)) := by
  obtain ⟨hfirst, hitems⟩ := List.forall_mem_cons.mp h
  refine hfirst.append (inline_further fun t ht => ?_)
  obtain ⟨a, ha, rfl⟩ := List.mem_map.mp ht
  exact hitems a ha

theorem inline_pairText {pair : Value × Value} (hkey : Inline (text pair.1))
    (hvalue : Inline (text pair.2)) : Inline (pairText pair) := by
  have hcolon : Inline [':', ' '] := inline_of_forall (by decide)
  exact hkey.append (hcolon.append hvalue)

/-- An integer consists of digits and of the sign in front of them. -/
theorem mem_text_int {n : Int} {c : Char} (hc : c ∈ text (int n)) : c = '-' ∨ c.isDigit = true := by
  change c ∈ (toString n).toList at hc
  rw [toList_toString] at hc
  rcases List.mem_append.mp hc with hc | hc
  · split at hc
    · exact .inl (List.mem_singleton.mp hc)
    · cases hc
  · exact .inr (Nat.isDigit_of_mem_toDigits (by decide) (by decide) hc)

theorem inline_int (n : Int) : Inline (text (int n)) := by
  refine inline_of_forall fun c hc => ?_
  rcases mem_text_int hc with rfl | hdigit
  · decide
  · have hne : ∀ d : Char, d.isDigit = false → c ≠ d := by
      rintro d hd rfl
      rw [hd] at hdigit
      cases hdigit
    refine ⟨⟨hne _ rfl, hne _ rfl⟩, ?_, ?_⟩
    · simp [isSeparator, hne '|' rfl, hne '=' rfl]
    · simp [isDelimiter, isQuote, isOpening, isClosing, hne '\'' rfl, hne '"' rfl, hne '(' rfl,
        hne '[' rfl, hne '{' rfl, hne ')' rfl, hne ']' rfl, hne '}' rfl]

/-- **The source form of a value may stand on a line.** -/
theorem inline_text {v : Value} (hv : v.FloatFree) : Inline (text v) := by
  induction v using induction_parts with
  | h v ih =>
    have hparts : ∀ c ∈ v.children, Inline (text c) := fun c hc => ih c hc (hv.child hc)
    have hnil : Inline [] := inline_of_forall fun _ h => nomatch h
    cases v with
    | none => exact inline_of_forall (by decide)
    | bool b => cases b <;> exact inline_of_forall (by decide)
    | ellipsis => exact inline_of_forall (by decide)
    | float x => exact (hv.self x rfl).elim
    | int n => exact inline_int n
    | str s =>
      rw [text_str]
      exact inline_quotes (isQuote_quoteMark _) (within_flatMap fun c _ => within_escape _ c)
    | bytes data =>
      have hletter : Inline ['b'] := inline_of_forall (by decide)
      rw [text_bytes]
      exact hletter.append (inline_quotes rfl (within_flatMap fun b _ => within_byteText b))
    | tuple items =>
      match items with
      | [] => exact inline_brackets (by decide) (by decide) hnil
      | [first] =>
        have hcomma : Inline [','] := inline_of_forall (by decide)
        have hfirst := (hparts first List.mem_cons_self).append hcomma
        rw [text_singleton, List.append_cons]
        exact inline_brackets (by decide) (by decide) hfirst
      | first :: second :: items =>
        rw [text_tuple]
        exact inline_brackets (by decide) (by decide) (inline_items hparts)
    | list items =>
      cases items with
      | nil => exact inline_brackets (by decide) (by decide) hnil
      | cons first items =>
        rw [text_list]
        exact inline_brackets (by decide) (by decide) (inline_items hparts)
    | dict pairs =>
      cases pairs with
      | nil => exact inline_brackets (by decide) (by decide) hnil
      | cons first pairs =>
        have hpairs : ∀ pair ∈ first :: pairs, Inline (pairText pair) := fun pair hpair =>
          inline_pairText (hparts _ (mem_children_dict.mpr ⟨pair, hpair, .inl rfl⟩))
            (hparts _ (mem_children_dict.mpr ⟨pair, hpair, .inr rfl⟩))
        rw [text_dict]
        exact inline_brackets (by decide) (by decide) (inline_items hpairs)
    | set items =>
      cases items with
      | nil =>
        have hword : Inline ['s', 'e', 't'] := inline_of_forall (by decide)
        exact hword.append (inline_brackets (by decide) (by decide) hnil)
      | cons first items =>
        rw [text_set]
        exact inline_brackets (by decide) (by decide) (inline_items hparts)

/-- **There is no white space around a source form.** -/
theorem tight_text {v : Value} (hv : ∀ x, v ≠ .float x) : Tight isSpace (text v) := by
  rcases text_cases hv with ⟨name, hname⟩ | ⟨n, rfl⟩ |
    ⟨lead, hlead, left, hleft, mid, right, hright, h⟩
  · have hwords : ∀ pair ∈ constants, Tight isSpace (text pair.2) := by decide
    exact hwords (name, v) hname
  · refine tight_of_forall (text_opens hv).ne_nil fun c hc => ?_
    rcases mem_text_int hc with rfl | hdigit
    · rfl
    · exact not_isSpace_of_isDigit hdigit
  · have hbefore : ∀ lead ∈ [[], ['b'], ['s', 'e', 't']], ∀ left ∈ ['\'', '"', '(', '[', '{'],
        Tight isSpace (lead ++ [left]) := by decide
    have hbehind : ∀ right ∈ ['\'', '"', ')', ']', '}'], Tight isSpace [right] := by decide
    rw [h, List.append_cons]
    exact (hbefore lead hlead left hleft).append mid (hbehind right hright)

end DocTree.Literal
