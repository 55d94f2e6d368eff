import Mathlib.Data.List.TakeWhile
import DocTree.Text.Margin

/-!
# Texts that are kept

Trimming, cutting into lines and words, and removing the margin undo what was added around and
between the pieces.

* `Tight`: a list that stripping leaves alone, **whatever is dropped around it** (`Tight.strip`);
* `splitWhere_intercalate`, `intercalate_splitWhere`: pieces with separators between them;
* `words_eq_cons`, `words_eq_singleton`: the words of a text, of which the first one is known;
* `PlainLine`, **`prepare_unlines`**: lines that are prepared to themselves.
-/

namespace DocTree.Text

/-- The code points of letters. -/
theorem letter_range {c : Char} (h : c.isAlpha = true) :
    65 ≤ c.toNat ∧ c.toNat ≤ 90 ∨ 97 ≤ c.toNat ∧ c.toNat ≤ 122 := by
  change (decide (65 ≤ c.val ∧ c.val ≤ 90) ||
    (decide (97 ≤ c.val) && decide (c.val ≤ 122))) = true at h
  simpa [UInt32.le_iff_toNat_le] using h

theorem dropStart?_eq_some {start s rest : List Char} :
    dropStart? start s = some rest ↔ s = start ++ rest := by
  rw [dropStart?, Option.ite_none_right_eq_some, Option.some_inj, List.isPrefixOf_iff_prefix]
  refine ⟨fun ⟨⟨t, ht⟩, hrest⟩ => ?_, ?_⟩
  · subst ht
    rw [List.drop_left] at hrest
    rw [hrest]
  · rintro rfl
    exact ⟨List.prefix_append _ _, List.drop_left⟩

/-! ## Stripping -/

section Tight

variable {α : Type} {p : α → Bool} {l m : List α}

/-- The list begins and ends with elements that do not satisfy `p`. -/
def Tight (p : α → Bool) (l : List α) : Prop :=
  l.head?.any (!p ·) = true ∧ l.getLast?.any (!p ·) = true

instance : Decidable (Tight p l) := inferInstanceAs (Decidable (_ ∧ _))

theorem Tight.exists_cons (h : Tight p l) : ∃ a tail, l = a :: tail ∧ p a = false := by
  obtain ⟨hfirst, -⟩ := h
  cases l with
  | nil => cases hfirst
  | cons a tail => exact ⟨a, tail, rfl, by simpa using hfirst⟩

theorem Tight.exists_concat (h : Tight p l) : ∃ init a, l = init ++ [a] ∧ p a = false := by
  obtain ⟨-, hlast⟩ := h
  rcases List.eq_nil_or_concat l with rfl | ⟨init, a, rfl⟩
  · cases hlast
  · exact ⟨init, a, by simp, by simpa using hlast⟩

theorem Tight.ne_nil (h : Tight p l) : l ≠ [] := by
  obtain ⟨a, tail, rfl, -⟩ := h.exists_cons
  exact List.cons_ne_nil _ _

theorem tight_of_forall (hne : l ≠ []) (h : ∀ a ∈ l, p a = false) : Tight p l := by
  rcases List.eq_nil_or_concat l with rfl | ⟨init, a, rfl⟩
  · exact absurd rfl hne
  · constructor
    · cases init with
      | nil => simpa using h
      | cons b init => simpa using h b (by simp)
    · simpa using h a (by simp)

theorem tight_singleton {a : α} (h : p a = false) : Tight p [a] :=
  tight_of_forall (List.cons_ne_nil _ _) (List.forall_mem_singleton.mpr h)

/-- What stands between does not matter. -/
theorem Tight.append (hl : Tight p l) (mid : List α) (hm : Tight p m) :
    Tight p (l ++ (mid ++ m)) := by
  obtain ⟨a, tail, rfl, ha⟩ := hl.exists_cons
  obtain ⟨init, b, rfl, hb⟩ := hm.exists_concat
  constructor
  · simpa using ha
  · rw [← List.append_assoc, ← List.append_assoc, List.getLast?_concat]
    simpa using hb

/-- **What is dropped at the ends is what was added there.** -/
theorem Tight.strip (h : Tight p l) {before behind : List α} (hbefore : ∀ a ∈ before, p a = true)
    (hbehind : ∀ a ∈ behind, p a = true) : stripWhile p (before ++ (l ++ behind)) = l := by
  obtain ⟨a, tail, hcons, ha⟩ := h.exists_cons
  have hfirst : (before ++ (l ++ behind)).dropWhile p = l ++ behind := by
    rw [List.dropWhile_append_of_pos hbefore, hcons, List.cons_append,
      List.dropWhile_cons_of_neg (by rw [ha]; exact Bool.false_ne_true)]
  obtain ⟨init, b, hconcat, hb⟩ := h.exists_concat
  have hlast : (behind.reverse ++ l.reverse).dropWhile p = l.reverse := by
    rw [List.dropWhile_append_of_pos fun c hc => hbehind c (List.mem_reverse.mp hc), hconcat,
      List.reverse_concat, List.dropWhile_cons_of_neg (by rw [hb]; exact Bool.false_ne_true)]
  rw [stripWhile, dropEndWhile, hfirst, List.reverse_append, hlast, List.reverse_reverse]

theorem Tight.stripWhile (h : Tight p l) : stripWhile p l = l := by
  have hstrip : Text.stripWhile p ([] ++ (l ++ [])) = l :=
    h.strip (fun _ h => nomatch h) (fun _ h => nomatch h)
  rwa [List.append_nil] at hstrip

theorem Tight.dropEndWhile (h : Tight p l) : dropEndWhile p l = l := by
  obtain ⟨a, tail, hcons, ha⟩ := h.exists_cons
  have hfirst : l.dropWhile p = l := by
    rw [hcons, List.dropWhile_cons_of_neg (by rw [ha]; exact Bool.false_ne_true)]
  have hstrip := h.stripWhile
  rwa [Text.stripWhile, hfirst] at hstrip

end Tight

theorem trim_of_tight {s : String} (h : Tight isSpace s.toList) : trim s = s := by
  rw [trim, h.stripWhile, String.ofList_toList]

theorem not_isBlank_of_tight {s : String} (h : Tight isSpace s.toList) : isBlank s = false := by
  obtain ⟨c, tail, hs, hc⟩ := h.exists_cons
  rw [isBlank, hs, List.all_cons, hc, Bool.false_and]

/-! ## Cutting -/

section Split

variable {α : Type} {p : α → Bool}

theorem splitWhere_eq_singleton {piece : List α} (h : ∀ a ∈ piece, p a = false) :
    splitWhere p piece = [piece] := by
  induction piece with
  | nil => rfl
  | cons a piece ih =>
    obtain ⟨ha, hpiece⟩ := List.forall_mem_cons.mp h
    rw [splitWhere, if_neg (by rw [ha]; exact Bool.false_ne_true), ih hpiece]

/-- A separator parts the pieces before it from those behind it. -/
theorem splitWhere_append_sep (l : List α) {sep : α} (hsep : p sep = true) (rest : List α) :
    splitWhere p (l ++ sep :: rest) = splitWhere p l ++ splitWhere p rest := by
  induction l with
  | nil => exact if_pos hsep
  | cons a l ih =>
    rw [List.cons_append, splitWhere, splitWhere, ih]
    split
    · rfl
    · cases hl : splitWhere p l with
      | nil => exact absurd hl (splitWhere_ne_nil p l)
      | cons piece pieces => rfl

theorem splitWhere_append_cons {piece : List α} (h : ∀ a ∈ piece, p a = false) {sep : α}
    (hsep : p sep = true) (rest : List α) :
    splitWhere p (piece ++ sep :: rest) = piece :: splitWhere p rest := by
  rw [splitWhere_append_sep piece hsep, splitWhere_eq_singleton h, List.singleton_append]

/-- **The pieces with separators between them are the list.** -/
theorem intercalate_splitWhere [DecidableEq α] (sep : α) (l : List α) :
    [sep].intercalate (splitWhere (· == sep) l) = l := by
  induction l with
  | nil => rfl
  | cons a l ih =>
    rw [splitWhere]
    cases hl : splitWhere (· == sep) l with
    | nil => exact absurd hl (splitWhere_ne_nil _ l)
    | cons piece pieces =>
      rw [hl] at ih
      split
      · next heq =>
        rw [List.intercalate_cons_cons, ih, eq_of_beq heq]
        rfl
      · cases pieces with
        | nil =>
          rw [List.intercalate_singleton] at ih ⊢
          rw [ih]
        | cons second pieces =>
          rw [List.intercalate_cons_cons] at ih ⊢
          rw [← ih]
          rfl

/-- **Pieces with separators between them are cut apart.** -/
theorem splitWhere_intercalate {sep : α} (hsep : p sep = true) {first : List α}
    {pieces : List (List α)} (h : ∀ piece ∈ first :: pieces, ∀ a ∈ piece, p a = false) :
    splitWhere p ([sep].intercalate (first :: pieces)) = first :: pieces := by
  induction pieces generalizing first with
  | nil =>
    rw [List.intercalate_singleton]
    exact splitWhere_eq_singleton (h first List.mem_cons_self)
  | cons second pieces ih =>
    obtain ⟨hfirst, hrest⟩ := List.forall_mem_cons.mp h
    rw [List.intercalate_cons_cons, List.append_assoc, List.singleton_append,
      splitWhere_append_cons hfirst hsep, ih hrest]

/-- What stands before the first occurrence of an element, and what stands from there on. -/
theorem takeWhile_ne [DecidableEq α] {a : α} {l : List α} (h : a ∉ l) (rest : List α) :
    (l ++ a :: rest).takeWhile (· != a) = l := by
  have hne : ∀ b ∈ l, (b != a) = true := fun b hb => by
    have hb : b ≠ a := fun heq => h (heq ▸ hb)
    simpa using hb
  rw [List.takeWhile_append_of_pos hne, List.takeWhile_cons_of_neg (by simp), List.append_nil]

theorem dropWhile_ne [DecidableEq α] {a : α} {l : List α} (h : a ∉ l) (rest : List α) :
    (l ++ a :: rest).dropWhile (· != a) = a :: rest := by
  have hsplit := List.takeWhile_append_dropWhile (p := (· != a)) (l := l ++ a :: rest)
  rw [takeWhile_ne h] at hsplit
  exact List.append_cancel_left hsplit

/-- The first piece ends at the first separator. -/
theorem splitWhere_eq_cons (l : List α) :
    ∃ pieces, splitWhere p l = l.takeWhile (!p ·) :: pieces := by
  induction l with
  | nil => exact ⟨[], rfl⟩
  | cons a l ih =>
    obtain ⟨pieces, ih⟩ := ih
    rw [splitWhere]
    split
    · next h => exact ⟨_, by rw [List.takeWhile_cons_of_neg (by simp [h])]⟩
    · next h => exact ⟨pieces, by rw [ih, List.takeWhile_cons_of_pos (by simp [h])]⟩

end Split

/-! ## Words -/

/-- The first word of a text that begins with it. -/
theorem words_eq_cons {s : String} (h : Tight isSpace s.toList) :
    ∃ rest, words s = .ofList (s.toList.takeWhile (!isSpace ·)) :: rest := by
  obtain ⟨pieces, hpieces⟩ := splitWhere_eq_cons (p := isSpace) s.toList
  obtain ⟨c, tail, hs, hc⟩ := h.exists_cons
  have hword : (s.toList.takeWhile (!isSpace ·)).isEmpty = false := by
    rw [hs, List.takeWhile_cons_of_pos (by simp [hc])]
    rfl
  rw [words, hpieces, List.filter_cons_of_pos (by rw [hword]; rfl), List.map_cons]
  exact ⟨_, rfl⟩

/-- A text without white space is a word. -/
theorem words_eq_singleton {s : String} (hne : s ≠ "") (h : ∀ c ∈ s.toList, isSpace c = false) :
    words s = [s] := by
  have hword : s.toList.isEmpty = false := by simpa using hne
  rw [words, splitWhere_eq_singleton h, List.filter_cons_of_pos (by rw [hword]; rfl),
    List.filter_nil, List.map_singleton, String.ofList_toList]

/-! ## Lines -/

/-- A line without white space around it, on which nothing has to be expanded. -/
structure PlainLine (line : String) : Prop where
  tight : Tight isSpace line.toList
  noTab : '\t' ∉ line.toList
  noNewline : '\n' ∉ line.toList

theorem linesOfPieces_of_tight {pieces : List (List Char)}
    (h : ∀ piece ∈ pieces, Tight isSpace piece) : linesOfPieces pieces = pieces := by
  match pieces with
  | [] => rfl
  | [last] =>
    have hne := (h last List.mem_cons_self).ne_nil
    rw [linesOfPieces, if_neg (by simpa using hne)]
  | first :: second :: pieces =>
    obtain ⟨hfirst, hrest⟩ := List.forall_mem_cons.mp h
    obtain ⟨init, c, rfl, hc⟩ := hfirst.exists_concat
    have hreturn : (init ++ [c]).getLast? ≠ some '\r' := by
      rw [List.getLast?_concat]
      rintro ⟨⟩
      cases hc
    rw [linesOfPieces, linesOfPieces_of_tight hrest, dropReturn, if_neg hreturn]
    exact List.cons_ne_nil _ _

theorem lines_unlines {ls : List String} (h : ∀ line ∈ ls, PlainLine line) :
    lines (unlines ls) = ls := by
  cases ls with
  | nil => rfl
  | cons first ls =>
    have hnone : ∀ piece ∈ (first :: ls).map String.toList, ∀ c ∈ piece, (c == '\n') = false := by
      intro piece hpiece c hc
      obtain ⟨line, hline, rfl⟩ := List.mem_map.mp hpiece
      have hne : c ≠ '\n' := fun heq => (h line hline).noNewline (heq ▸ hc)
      simpa using hne
    have hpieces : splitWhere (· == '\n') (unlines (first :: ls)).toList =
        (first :: ls).map String.toList := by
      rw [unlines, String.toList_intercalate]
      exact splitWhere_intercalate rfl hnone
    have htight : ∀ piece ∈ (first :: ls).map String.toList, Tight isSpace piece := by
      intro piece hpiece
      obtain ⟨line, hline, rfl⟩ := List.mem_map.mp hpiece
      exact (h line hline).tight
    rw [lines, hpieces, linesOfPieces_of_tight htight, List.map_map]
    exact (List.map_congr_left fun line _ => String.ofList_toList).trans (List.map_id _)

theorem expandTabsFrom_of_not_mem {cs : List Char} (h : '\t' ∉ cs) (col : Nat) :
    expandTabsFrom col cs = cs := by
  induction cs generalizing col with
  | nil => rfl
  | cons c cs ih =>
    obtain ⟨hc, hcs⟩ := List.ne_and_not_mem_of_not_mem_cons h
    rw [expandTabsFrom, if_neg (Ne.symm hc), ih hcs]

theorem expandTabs_of_plain {line : String} (h : PlainLine line) : expandTabs line = line := by
  rw [expandTabs, expandTabsFrom_of_not_mem h.noTab, String.ofList_toList]

theorem indent_of_tight {line : String} (h : Tight isSpace line.toList) : indent line = 0 := by
  obtain ⟨c, tail, hline, hc⟩ := h.exists_cons
  have hne : c ≠ ' ' := by
    rintro rfl
    cases hc
  simp [indent, hline, hne]

theorem dropMargin_zero_of_tight {line : String} (h : Tight isSpace line.toList) :
    dropMargin 0 line = line := by
  rw [dropMargin, not_isBlank_of_tight h, List.drop_zero, h.dropEndWhile, String.ofList_toList]
  rfl

/-- Lines that stand at column zero, without white space at their ends. -/
theorem dedent_eq_self {ls : List String} (hmargin : margin ls = 0)
    (hlines : ∀ line ∈ ls, dropMargin 0 line = line) : dedent ls = ls := by
  rw [dedent, hmargin]
  exact (List.map_congr_left hlines).trans (List.map_id ls)

theorem dedent_of_plain {ls : List String} (h : ∀ line ∈ ls, PlainLine line) : dedent ls = ls := by
  have hmargin : margin ls = 0 := by
    unfold margin
    cases hmin : ((ls.filter (!isBlank ·)).map indent).min? with
    | none => rfl
    | some n =>
      obtain ⟨line, hline, rfl⟩ := List.mem_map.mp (List.min?_mem hmin)
      exact indent_of_tight (h line (List.mem_filter.mp hline).1).tight
  exact dedent_eq_self hmargin fun line hline => dropMargin_zero_of_tight (h line hline).tight

/-- **Lines without white space around them are prepared to themselves.** -/
theorem prepare_unlines {ls : List String} (h : ∀ line ∈ ls, PlainLine line) :
    prepare (unlines ls) = ls := by
  have hexpand : ls.map expandTabs = ls :=
    (List.map_congr_left fun line hline => expandTabs_of_plain (h line hline)).trans
      (List.map_id ls)
  rw [prepare, lines_unlines h, hexpand]
  cases ls with
  | nil => rfl
  | cons first ls =>
    obtain ⟨hfirst, hrest⟩ := List.forall_mem_cons.mp h
    have htight : Tight isBlank (first :: ls) :=
      tight_of_forall (List.cons_ne_nil _ _) fun line hline =>
        not_isBlank_of_tight (h line hline).tight
    change stripBlank (trim first :: dedent ls) = first :: ls
    rw [trim_of_tight hfirst.tight, dedent_of_plain hrest]
    exact htight.stripWhile

end DocTree.Text
