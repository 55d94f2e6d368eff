import Mathlib.Data.List.DropRight
import DocTree.Proofs.Text.Lines

/-!
# Margins that do not matter

Removing the margin of some lines gives the same lines, however far to the right they stood.

* `dropEndWhile_append`, `dropEndWhile_drop`: what is dropped at the end of a list;
* `exists_stripWhile`, `tight_trim`: what is dropped at both ends, and what is left;
* `shift`, `MovesRight`, `margin_eq`: a line moved right, and when a number is the margin of some
  lines;
* `dedent_map`: a change of lines that moves them all by one distance;
* **`MovesRight.dedent_map`**, **`dedent_dropMargin`**: lines moved right, and lines of which a part
  of the margin is gone;
* `dedent_append_blank`, `joinTrimmed_append_blank`, `joinTrimmed_dedent`: blank lines at the end do
  not matter either.
-/

namespace DocTree.Text

/-! ## The end of a list -/

section Lists

variable {α : Type} {p : α → Bool}

theorem dropEndWhile_append (l : List α) {s : List α} (hs : ∀ a ∈ s, p a = true) :
    dropEndWhile p (l ++ s) = dropEndWhile p l := by
  have hrev : ∀ a ∈ s.reverse, p a = true := by simpa using hs
  rw [dropEndWhile, List.reverse_append, List.dropWhile_append_of_pos hrev, dropEndWhile]

theorem dropEndWhile_append_of_exists (l : List α) {m : List α} (hm : ∃ a ∈ m, p a = false) :
    dropEndWhile p (l ++ m) = l ++ dropEndWhile p m := by
  have hne : (m.reverse.dropWhile p).isEmpty = false := by
    obtain ⟨a, ha, hpa⟩ := hm
    rw [List.isEmpty_eq_false_iff]
    intro hnil
    have hall := List.dropWhile_eq_nil_iff.mp hnil a (List.mem_reverse.mpr ha)
    rw [hpa] at hall
    cases hall
  simp [dropEndWhile, List.dropWhile_append, hne]

/-- What is dropped at the end. -/
theorem exists_dropEndWhile (p : α → Bool) (l : List α) :
    ∃ s, dropEndWhile p l ++ s = l ∧ ∀ a ∈ s, p a = true :=
  ⟨l.rtakeWhile p, List.rdropWhile_append_rtakeWhile, fun _ ha => List.mem_rtakeWhile_imp ha⟩

/-- It does not matter whether the end is dropped before the beginning. -/
theorem dropEndWhile_drop (p : α → Bool) (l : List α) (k : Nat) :
    dropEndWhile p ((dropEndWhile p l).drop k) = dropEndWhile p (l.drop k) := by
  obtain ⟨s, hl, hs⟩ := exists_dropEndWhile p l
  conv_rhs => rw [← hl, List.drop_append]
  exact (dropEndWhile_append _ fun a ha => hs a (List.mem_of_mem_drop ha)).symm

/-- Nothing is dropped in front of an element that stays. -/
theorem Tight.dropEndWhile_append {l : List α} (hl : Tight p l) (m : List α) :
    Text.dropEndWhile p (l ++ m) = l ++ Text.dropEndWhile p m := by
  by_cases hall : ∀ a ∈ m, p a = true
  · have hnil : Text.dropEndWhile p m = [] := by simpa [Text.dropEndWhile] using hall
    rw [Text.dropEndWhile_append l hall, hl.dropEndWhile, hnil, List.append_nil]
  · exact dropEndWhile_append_of_exists l (by simpa using hall)

theorem Tight.stripWhile_append {l : List α} (hl : Tight p l) (m : List α) :
    Text.stripWhile p (l ++ m) = l ++ Text.dropEndWhile p m := by
  obtain ⟨a, tail, rfl, ha⟩ := hl.exists_cons
  rw [Text.stripWhile, List.cons_append, List.dropWhile_cons_of_neg (by simp [ha]),
    ← List.cons_append, hl.dropEndWhile_append]

theorem mem_of_mem_dropEndWhile {a : α} {l : List α} (h : a ∈ dropEndWhile p l) : a ∈ l := by
  obtain ⟨s, hl, -⟩ := exists_dropEndWhile p l
  rw [← hl]
  exact List.mem_append_left _ h

theorem mem_of_mem_stripWhile {a : α} {l : List α} (h : a ∈ stripWhile p l) : a ∈ l :=
  (List.dropWhile_sublist p).mem (mem_of_mem_dropEndWhile h)

theorem stripWhile_append (l : List α) {s : List α} (hs : ∀ a ∈ s, p a = true) :
    stripWhile p (l ++ s) = stripWhile p l := by
  rw [stripWhile, stripWhile, List.dropWhile_append]
  split
  · next hempty =>
    rw [List.dropWhile_eq_nil_iff.mpr hs, List.isEmpty_iff.mp hempty]
  · exact dropEndWhile_append _ hs

/-- What stripping leaves, and what it drops. -/
theorem exists_stripWhile (p : α → Bool) (l : List α) :
    ∃ before behind, l = before ++ (stripWhile p l ++ behind) ∧ (∀ a ∈ before, p a = true) ∧
      ∀ a ∈ behind, p a = true := by
  obtain ⟨behind, hl, hbehind⟩ := exists_dropEndWhile p (l.dropWhile p)
  refine ⟨l.takeWhile p, behind, ?_, fun _ ha => List.mem_takeWhile_imp ha, hbehind⟩
  rw [stripWhile, hl, List.takeWhile_append_dropWhile]

theorem tight_stripWhile {l : List α} (h : stripWhile p l ≠ []) : Tight p (stripWhile p l) := by
  have hnot : ∀ m : List α, m.dropWhile p ≠ [] → (m.dropWhile p).head?.any (!p ·) = true := by
    intro m hm
    obtain ⟨a, tail, hcons⟩ := List.exists_cons_of_ne_nil hm
    have ha := List.head?_dropWhile_not p m
    rw [hcons] at ha ⊢
    simpa using ha
  obtain ⟨behind, hl, -⟩ := exists_dropEndWhile p (l.dropWhile p)
  rw [← stripWhile] at hl
  constructor
  · have hfirst := hnot l fun hnil => h (by rw [stripWhile, hnil]; rfl)
    rwa [← hl, List.head?_append_of_ne_nil _ h] at hfirst
  · rw [stripWhile, dropEndWhile, List.getLast?_reverse]
    exact hnot _ fun hnil => h (by rw [stripWhile, dropEndWhile, hnil]; rfl)

end Lists

theorem toList_trim (s : String) : (trim s).toList = stripWhile isSpace s.toList := by
  rw [trim, String.toList_ofList]

theorem tight_trim {s : String} (h : trim s ≠ "") : Tight isSpace (trim s).toList := by
  rw [toList_trim]
  refine tight_stripWhile fun hnil => h ?_
  rw [trim, hnil]

/-! ## Lines -/

/-- A line that is not blank: its indentation, and a rest that does not start with a space. -/
theorem exists_indent {line : String} (h : isBlank line = false) :
    ∃ c cs, line.toList = List.replicate (indent line) ' ' ++ c :: cs ∧ c ≠ ' ' ∧
      ∃ d ∈ c :: cs, isSpace d = false := by
  have htake : line.toList.takeWhile (· == ' ') = List.replicate (indent line) ' ' :=
    List.eq_replicate_iff.mpr ⟨rfl, fun c hc => by simpa using List.mem_takeWhile_imp hc⟩
  have hsplit := List.takeWhile_append_dropWhile (p := (· == ' ')) (l := line.toList)
  rw [htake] at hsplit
  obtain ⟨d, hd, hspace⟩ : ∃ d ∈ line.toList, isSpace d = false := by
    simpa [isBlank] using h
  have hrest : d ∈ line.toList.dropWhile (· == ' ') := by
    rw [← hsplit] at hd
    rcases List.mem_append.mp hd with hd | hd
    · rw [List.eq_of_mem_replicate hd] at hspace
      cases hspace
    · exact hd
  cases hdrop : line.toList.dropWhile (· == ' ') with
  | nil =>
    rw [hdrop] at hrest
    cases hrest
  | cons c cs =>
    rw [hdrop] at hsplit hrest
    have hne : ¬ (c == ' ') = true := by
      simpa [hdrop] using List.head_dropWhile_not (p := (· == ' ')) (l := line.toList) (by simp [hdrop])
    exact ⟨c, cs, hsplit.symm, by simpa using hne, d, hrest, hspace⟩

/-- The number of spaces in front of another character. -/
theorem indent_of_toList {line : String} {n : Nat} {c : Char} {cs : List Char}
    (h : line.toList = List.replicate n ' ' ++ c :: cs) (hc : c ≠ ' ') : indent line = n := by
  rw [indent, h, List.takeWhile_append_of_pos (by simp),
    List.takeWhile_cons_of_neg (by simpa using hc), List.append_nil, List.length_replicate]

/-- A line moved right. -/
def shift (width : Nat) (line : String) : String := .ofList (List.replicate width ' ') ++ line

@[simp] theorem toList_shift (width : Nat) (line : String) :
    (shift width line).toList = List.replicate width ' ' ++ line.toList := by
  simp [shift]

@[simp] theorem shift_zero (line : String) : shift 0 line = line := by
  simp [shift]

@[simp] theorem isBlank_shift (width : Nat) (line : String) :
    isBlank (shift width line) = isBlank line := by
  have hspaces : (List.replicate width ' ').all isSpace = true := by
    simp [show isSpace ' ' = true from rfl]
  simp [isBlank, hspaces]

@[simp] theorem indent_shift (width : Nat) (line : String) :
    indent (shift width line) = width + indent line := by
  rw [indent, toList_shift, List.takeWhile_append_of_pos (by simp), List.length_append,
    List.length_replicate, indent]

theorem trim_shift (width : Nat) {line : String} (h : Tight isSpace line.toList) :
    trim (shift width line) = line := by
  have hspaces : ∀ c ∈ List.replicate width ' ', isSpace c = true := fun c hc => by
    rw [List.eq_of_mem_replicate hc]
    rfl
  have hstrip : stripWhile isSpace (List.replicate width ' ' ++ (line.toList ++ [])) =
      line.toList := h.strip hspaces fun _ hc => nomatch hc
  rw [List.append_nil] at hstrip
  rw [trim, toList_shift, hstrip, String.ofList_toList]

/-- The change moves lines right. Of a blank line it does not matter whether it is moved. -/
structure MovesRight (width : Nat) (move : String → String) : Prop where
  blank : ∀ line, isBlank line = true → isBlank (move line) = true
  other : ∀ line, isBlank line = false → move line = shift width line

theorem movesRight_shift (width : Nat) : MovesRight width (shift width) where
  blank line h := by simp [h]
  other line _ := rfl

namespace MovesRight

variable {width : Nat} {move : String → String}

theorem isBlank_move (h : MovesRight width move) (line : String) :
    isBlank (move line) = isBlank line := by
  cases hline : isBlank line with
  | true => exact h.blank line hline
  | false => rw [h.other line hline, isBlank_shift, hline]

theorem indent_move (h : MovesRight width move) {line : String} (hline : isBlank line = false) :
    indent (move line) = width + indent line := by
  rw [h.other line hline, indent_shift]

/-- Lines moved right stand to the right of each column before. -/
theorem right_of (h : MovesRight width move) {base : Nat} (hbase : base < width) {ls : List String} :
    ∀ line ∈ ls.map move, isBlank line = true ∨ base < indent line := by
  intro line hline
  obtain ⟨l, -, rfl⟩ := List.mem_map.mp hline
  cases hl : isBlank l with
  | true => exact .inl (h.blank l hl)
  | false =>
    right
    rw [h.indent_move hl]
    omega

end MovesRight

theorem dropMargin_of_blank (n : Nat) {line : String} (h : isBlank line = true) :
    dropMargin n line = "" := if_pos h

theorem toList_dropMargin (n : Nat) {line : String} (h : isBlank line = false) :
    (dropMargin n line).toList = dropEndWhile isSpace (line.toList.drop n) := by
  simp [dropMargin, h]

/-- A line of which a part of its indentation is dropped. -/
theorem exists_dropMargin {n : Nat} {line : String} (h : isBlank line = false)
    (hn : n ≤ indent line) :
    isBlank (dropMargin n line) = false ∧ indent (dropMargin n line) + n = indent line := by
  obtain ⟨c, cs, hline, hc, d, hd, hspace⟩ := exists_indent h
  have hdrop : line.toList.drop n = List.replicate (indent line - n) ' ' ++ c :: cs := by
    rw [hline, List.drop_append_of_le_length (by simpa using hn), List.drop_replicate]
  have hlist : (dropMargin n line).toList =
      List.replicate (indent line - n) ' ' ++ dropEndWhile isSpace (c :: cs) := by
    rw [toList_dropMargin n h, hdrop, dropEndWhile_append_of_exists _ ⟨d, hd, hspace⟩]
  -- The rest still begins with `c`, since not all of it is dropped.
  obtain ⟨s, happend, hs⟩ := exists_dropEndWhile isSpace (c :: cs)
  have hmem : d ∈ dropEndWhile isSpace (c :: cs) := by
    rw [← happend] at hd
    rcases List.mem_append.mp hd with hd | hd
    · exact hd
    · rw [hs d hd] at hspace
      cases hspace
  cases hrest : dropEndWhile isSpace (c :: cs) with
  | nil =>
    rw [hrest] at hmem
    cases hmem
  | cons e es =>
    obtain rfl : e = c := by
      rw [hrest] at happend
      exact (List.cons_eq_cons.mp happend).1
    rw [hrest] at hlist hmem
    refine ⟨?_, ?_⟩
    · have hall : (dropMargin n line).toList.all isSpace = false := by
        rw [List.all_eq_false]
        exact ⟨d, by rw [hlist]; exact List.mem_append.mpr (.inr hmem), by simp [hspace]⟩
      exact hall
    · rw [indent_of_toList hlist hc]
      omega

theorem isBlank_dropMargin {n : Nat} {line : String} (hn : isBlank line = false → n ≤ indent line) :
    isBlank (dropMargin n line) = isBlank line := by
  cases h : isBlank line with
  | true => rw [dropMargin_of_blank n h]; rfl
  | false => exact (exists_dropMargin h (hn h)).1

/-! ## The margin of some lines -/

theorem margin_le {ls : List String} {line : String} (hline : line ∈ ls)
    (h : isBlank line = false) : margin ls ≤ indent line := by
  have hmem : indent line ∈ (ls.filter (!isBlank ·)).map indent :=
    List.mem_map_of_mem (List.mem_filter.mpr ⟨hline, by simp [h]⟩)
  cases hmin : ((ls.filter (!isBlank ·)).map indent).min? with
  | none =>
    rw [List.min?_eq_none_iff.mp hmin] at hmem
    cases hmem
  | some n =>
    rw [margin, hmin]
    exact (List.min?_eq_some_iff.mp hmin).2 _ hmem

theorem trim_of_blank {line : String} (h : isBlank line = true) : trim line = "" := by
  have hall : ∀ c ∈ line.toList, isSpace c = true := by simpa [isBlank] using h
  rw [trim, ← List.nil_append line.toList, stripWhile_append [] hall]
  rfl

/-- White space is all that a line loses with its margin. -/
theorem trim_dropMargin {n : Nat} {line : String} (hn : isBlank line = false → n ≤ indent line) :
    trim (dropMargin n line) = trim line := by
  cases hline : isBlank line with
  | true => rw [dropMargin_of_blank n hline, trim_of_blank hline]; rfl
  | false =>
    obtain ⟨behind, hdrop, hbehind⟩ := exists_dropEndWhile isSpace (line.toList.drop n)
    obtain ⟨c, cs, hcons, -⟩ := exists_indent hline
    have hspaces : ∀ d ∈ line.toList.take n, isSpace d = true := by
      intro d hd
      rw [hcons, List.take_append_of_le_length (by simpa using hn hline), List.take_replicate] at hd
      rw [List.eq_of_mem_replicate hd]
      rfl
    have hstrip : stripWhile isSpace line.toList = stripWhile isSpace (line.toList.drop n) := by
      conv_lhs => rw [← List.take_append_drop n line.toList, stripWhile,
        List.dropWhile_append_of_pos hspaces]
      rfl
    rw [trim, trim, toList_dropMargin n hline, hstrip]
    conv_rhs => rw [← hdrop, stripWhile_append _ hbehind]

/-- A line without the margin, and the line as it stood. -/
theorem exists_getElem?_of_dedent {ls : List String} {i : Nat} {line : String}
    (h : (dedent ls)[i]? = some line) : ∃ l, ls[i]? = some l ∧ trim l = trim line := by
  rw [dedent, List.getElem?_map] at h
  obtain ⟨l, hl, rfl⟩ := Option.map_eq_some_iff.mp h
  exact ⟨l, hl, (trim_dropMargin (margin_le (List.mem_of_getElem? hl))).symm⟩

/-- The margin is the indentation of a line, if one is not blank. -/
theorem exists_margin {ls : List String} (h : ∃ line ∈ ls, isBlank line = false) :
    ∃ line ∈ ls, isBlank line = false ∧ indent line = margin ls := by
  obtain ⟨line, hline, hblank⟩ := h
  have hmem : indent line ∈ (ls.filter (!isBlank ·)).map indent :=
    List.mem_map_of_mem (List.mem_filter.mpr ⟨hline, by simp [hblank]⟩)
  cases hmin : ((ls.filter (!isBlank ·)).map indent).min? with
  | none =>
    rw [List.min?_eq_none_iff.mp hmin] at hmem
    cases hmem
  | some n =>
    obtain ⟨first, hfirst, rfl⟩ := List.mem_map.mp (List.min?_mem hmin)
    obtain ⟨hfirst, hnot⟩ := List.mem_filter.mp hfirst
    exact ⟨first, hfirst, by simpa using hnot, by simp [margin, hmin]⟩

theorem margin_eq {ls : List String} {n : Nat}
    (hle : ∀ line ∈ ls, isBlank line = false → n ≤ indent line)
    (hex : ∃ line ∈ ls, isBlank line = false ∧ indent line = n) : margin ls = n := by
  obtain ⟨line, hline, hblank, rfl⟩ := hex
  obtain ⟨first, hfirst, hnot, hmargin⟩ := exists_margin ⟨line, hline, hblank⟩
  have h1 := hle first hfirst hnot
  have h2 := margin_le hline hblank
  omega

/-- Blank lines have no part in the margin. -/
theorem margin_append_blank (ls : List String) {blank : List String}
    (h : ∀ line ∈ blank, isBlank line = true) : margin (ls ++ blank) = margin ls := by
  have hnone : blank.filter (!isBlank ·) = [] := by simpa using h
  rw [margin, margin, List.filter_append, hnone, List.append_nil]

/-- Blank lines at the end become empty. -/
theorem dedent_append_blank (ls : List String) {blank : List String}
    (h : ∀ line ∈ blank, isBlank line = true) :
    dedent (ls ++ blank) = dedent ls ++ List.replicate blank.length "" := by
  rw [dedent, margin_append_blank ls h, List.map_append, dedent, ← List.map_const']
  congr 1
  exact List.map_congr_left fun line hline => dropMargin_of_blank _ (h line hline)

theorem isBlank_of_mem_replicate_empty (n : Nat) :
    ∀ line ∈ List.replicate n "", isBlank line = true := fun line hline => by
  rw [List.eq_of_mem_replicate hline]
  rfl

theorem joinTrimmed_append_blank (ls : List String) {blank : List String}
    (h : ∀ line ∈ blank, isBlank line = true) : joinTrimmed (ls ++ blank) = joinTrimmed ls := by
  rw [joinTrimmed, joinTrimmed, stripBlank, stripBlank, stripWhile_append _ h]

/-- **A change that moves all lines by one distance, and leaves the text behind the margin alone.**
The distance is `b` to the right or `a` to the left. -/
theorem dedent_map {ls : List String} {f : String → String} {a b : Nat}
    (hblank : ∀ line ∈ ls, isBlank (f line) = isBlank line)
    (hindent : ∀ line ∈ ls, isBlank line = false → indent (f line) + a = indent line + b)
    (hcut : ∀ line ∈ ls, isBlank line = false → ∀ m m', m ≤ indent line → m' + a = m + b →
      dropMargin m' (f line) = dropMargin m line) :
    dedent (ls.map f) = dedent ls := by
  rw [dedent, dedent, List.map_map]
  refine List.map_congr_left fun line hline => ?_
  cases h : isBlank line with
  | true =>
    change dropMargin _ (f line) = dropMargin _ line
    rw [dropMargin_of_blank _ h, dropMargin_of_blank _ ((hblank line hline).trans h)]
  | false =>
    obtain ⟨first, hfirst, hnot, hmargin⟩ := exists_margin ⟨line, hline, h⟩
    have hmoved : margin (ls.map f) + a = margin ls + b := by
      have hnew : margin (ls.map f) = indent (f first) := by
        refine margin_eq (fun moved hmem hb => ?_)
          ⟨f first, List.mem_map_of_mem hfirst, (hblank first hfirst).trans hnot, rfl⟩
        obtain ⟨l, hl, rfl⟩ := List.mem_map.mp hmem
        rw [hblank l hl] at hb
        have h1 := margin_le hl hb
        have h2 := hindent l hl hb
        have h3 := hindent first hfirst hnot
        omega
      rw [hnew, hindent first hfirst hnot, hmargin]
    exact hcut line hline h _ _ (margin_le hline h) hmoved

/-- **Lines moved right have the same text behind their margin.** -/
theorem MovesRight.dedent_map {width : Nat} {move : String → String} (h : MovesRight width move)
    (ls : List String) : dedent (ls.map move) = dedent ls := by
  refine Text.dedent_map (a := 0) (b := width) (fun line _ => h.isBlank_move line)
    (fun line _ hline => ?_) fun line _ hline m m' _ hm => ?_
  · rw [h.indent_move hline]
    omega
  · obtain rfl : m' = width + m := by omega
    have hdrop : (List.replicate width ' ' ++ line.toList).drop (width + m) =
        line.toList.drop m := by
      simp [List.drop_append]
    rw [h.other line hline, dropMargin, dropMargin, isBlank_shift, toList_shift, hdrop]

theorem mem_of_mem_dropMargin {n : Nat} {line : String} {c : Char}
    (h : c ∈ (dropMargin n line).toList) : c ∈ line.toList := by
  cases hline : isBlank line with
  | true => simp [dropMargin_of_blank n hline] at h
  | false =>
    rw [toList_dropMargin n hline] at h
    exact List.mem_of_mem_drop (mem_of_mem_dropEndWhile h)

/-- **Lines of which a part of the margin is gone.** -/
theorem dedent_dropMargin {ls : List String} {n : Nat} (hn : n ≤ margin ls) :
    dedent (ls.map (dropMargin n)) = dedent ls := by
  have hle : ∀ line ∈ ls, isBlank line = false → n ≤ indent line := fun line hline h =>
    hn.trans (margin_le hline h)
  refine dedent_map (a := n) (b := 0) (fun line hline => isBlank_dropMargin (hle line hline))
    (fun line hline h => ?_) fun line hline h m m' _ hm => ?_
  · exact (exists_dropMargin h (hle line hline h)).2
  · have hnot := (exists_dropMargin h (hle line hline h)).1
    rw [← String.toList_inj, toList_dropMargin m' hnot, toList_dropMargin n h,
      toList_dropMargin m h, dropEndWhile_drop, List.drop_drop]
    congr 2
    omega

theorem dedent_dedent (ls : List String) : dedent (dedent ls) = dedent ls :=
  dedent_dropMargin le_rfl

/-- A line without white space at its end. -/
theorem dropMargin_zero {line : String} (h : dropEndWhile isSpace line.toList = line.toList) :
    dropMargin 0 line = line := by
  cases hblank : isBlank line with
  | true =>
    have hall : ∀ c ∈ line.toList, isSpace c = true := by simpa [isBlank] using hblank
    have hnil : line.toList = [] := h.symm.trans (dropEndWhile_append [] hall)
    rw [dropMargin_of_blank 0 hblank, String.toList_eq_nil_iff.mp hnil]
  | false => rw [← String.toList_inj, toList_dropMargin 0 hblank, List.drop_zero, h]

theorem dropMargin_zero_dropMargin (n : Nat) (line : String) :
    dropMargin 0 (dropMargin n line) = dropMargin n line := by
  cases hblank : isBlank line with
  | true =>
    rw [dropMargin_of_blank n hblank]
    rfl
  | false =>
    refine dropMargin_zero ?_
    rw [toList_dropMargin n hblank]
    exact dropEndWhile_drop isSpace (line.toList.drop n) 0

theorem joinTrimmed_singleton {line : String} (h : Tight isSpace line.toList) :
    joinTrimmed [line] = line := by
  have htight : Tight isBlank [line] := tight_singleton (not_isBlank_of_tight h)
  rw [joinTrimmed, stripBlank, htight.stripWhile]
  rfl

/-- The empty lines that are dropped at the end are blank. -/
theorem exists_dropEndWhile_isEmpty (ls : List String) :
    ∃ s, dropEndWhile (·.isEmpty) ls ++ s = ls ∧ ∀ line ∈ s, isBlank line = true := by
  obtain ⟨s, hls, hs⟩ := exists_dropEndWhile (α := String) (·.isEmpty) ls
  refine ⟨s, hls, fun line hline => ?_⟩
  obtain rfl : line = "" := by simpa using hs line hline
  rfl

/-- **Blank lines at the end do not matter** to lines joined behind another one. -/
theorem joinTrimmed_dedent (first : String) (ls : List String) :
    joinTrimmed (first :: dedent (dropEndWhile (·.isEmpty) ls)) =
      joinTrimmed (first :: dedent ls) := by
  obtain ⟨s, hls, hblank⟩ := exists_dropEndWhile_isEmpty ls
  conv_rhs => rw [← hls, dedent_append_blank _ hblank, ← List.cons_append,
    joinTrimmed_append_blank _ (isBlank_of_mem_replicate_empty _)]

end DocTree.Text
