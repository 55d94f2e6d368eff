import DocTree.Proofs.Text.Margins

/-!
# Text without its white space

Trimming, joining lines and removing their margin change white space and nothing else.

* `visible`: the characters of a text that are not white space;
* `filter_stripWhile`: stripping drops what a filter drops as well;
* `visible_trim`, `visible_unlines`, `visible_joinTrimmed`: texts that are trimmed and joined;
* **`visible_dedent`**: lines without their margin;
* `bareLines`: the lines that are not blank, each without the white space around it, and
  **`bareLines_dedent`**.
-/

namespace DocTree.Text

/-- The characters that are not white space, in their order. -/
def visible (s : String) : List Char := s.toList.filter (!isSpace ·)

/-! ## Stripping -/

section Lists

variable {α : Type} {p : α → Bool}

theorem filter_not_eq_nil {l : List α} (h : ∀ a ∈ l, p a = true) : l.filter (!p ·) = [] := by
  simpa using h

theorem filter_dropEndWhile (l : List α) : (dropEndWhile p l).filter (!p ·) = l.filter (!p ·) := by
  obtain ⟨s, hl, hs⟩ := exists_dropEndWhile p l
  conv_rhs => rw [← hl, List.filter_append, filter_not_eq_nil hs, List.append_nil]

theorem filter_dropWhile {q : α → Bool} (h : ∀ a, q a = true → p a = true) (l : List α) :
    (l.dropWhile q).filter (!p ·) = l.filter (!p ·) := by
  have htake : ∀ a ∈ l.takeWhile q, p a = true := fun a ha => h a (List.mem_takeWhile_imp ha)
  conv_rhs => rw [← List.takeWhile_append_dropWhile (p := q) (l := l), List.filter_append,
    filter_not_eq_nil htake, List.nil_append]

/-- **Stripping drops what a filter drops as well.** -/
theorem filter_stripWhile (l : List α) : (stripWhile p l).filter (!p ·) = l.filter (!p ·) := by
  rw [stripWhile, filter_dropEndWhile, filter_dropWhile fun _ h => h]

end Lists

/-! ## Texts -/

@[simp] theorem visible_empty : visible "" = [] := rfl

@[simp] theorem visible_append (s t : String) : visible (s ++ t) = visible s ++ visible t := by
  simp [visible]

@[simp] theorem visible_ofList (cs : List Char) :
    visible (.ofList cs) = cs.filter (!isSpace ·) := by
  rw [visible, String.toList_ofList]

theorem visible_of_blank {line : String} (h : isBlank line = true) : visible line = [] :=
  filter_not_eq_nil (by simpa [isBlank] using h)

theorem visible_ne_nil {line : String} (h : isBlank line = false) : visible line ≠ [] := by
  intro hnil
  have hblank : isBlank line = true := by simpa [visible, isBlank] using hnil
  rw [h] at hblank
  cases hblank

@[simp] theorem visible_trim (s : String) : visible (trim s) = visible s := by
  rw [trim, visible_ofList, filter_stripWhile, visible]

/-- Only newlines stand between the lines. -/
theorem visible_unlines (ls : List String) : visible (unlines ls) = ls.flatMap visible := by
  have hnewline : visible "\n" = [] := rfl
  induction ls with
  | nil => rfl
  | cons first ls ih =>
    cases ls with
    | nil => simp [unlines]
    | cons second ls =>
      rw [unlines, String.intercalate_cons_cons, visible_append, visible_append, hnewline,
        List.append_nil, ← unlines, ih, ← List.flatMap_cons]

/-! ## Lines -/

/-- Lines that are dropped at the ends are blank. -/
theorem flatMap_visible_stripBlank (ls : List String) :
    (stripBlank ls).flatMap visible = ls.flatMap visible := by
  have hfilter : ∀ ls : List String,
      (ls.filter (!isBlank ·)).flatMap visible = ls.flatMap visible := by
    intro ls
    induction ls with
    | nil => rfl
    | cons line ls ih =>
      cases h : isBlank line with
      | true => simp [h, ih, visible_of_blank h]
      | false => simp [h, ih]
  rw [← hfilter, stripBlank, filter_stripWhile, hfilter]

theorem visible_joinTrimmed (ls : List String) : visible (joinTrimmed ls) = ls.flatMap visible := by
  rw [joinTrimmed, visible_unlines, flatMap_visible_stripBlank]

/-- A margin that is not too large is white space. -/
theorem visible_dropMargin {n : Nat} {line : String} (h : isBlank line = false → n ≤ indent line) :
    visible (dropMargin n line) = visible line := by
  cases hblank : isBlank line with
  | true => rw [dropMargin_of_blank n hblank, visible_of_blank hblank, visible_empty]
  | false =>
    obtain ⟨c, cs, hline, -⟩ := exists_indent hblank
    have hspaces : ∀ k, ∀ d ∈ List.replicate k ' ', isSpace d = true := by
      intro k d hd
      rw [List.eq_of_mem_replicate hd]
      rfl
    rw [visible, toList_dropMargin n hblank, filter_dropEndWhile, visible, hline,
      List.drop_append_of_le_length (by simpa using h hblank), List.drop_replicate,
      List.filter_append, List.filter_append, filter_not_eq_nil (hspaces _),
      filter_not_eq_nil (hspaces _)]

/-- **The margin of lines is white space.** -/
theorem visible_dedent (ls : List String) : (dedent ls).flatMap visible = ls.flatMap visible := by
  rw [dedent, List.flatMap_map]
  exact List.flatMap_congr fun line hline => visible_dropMargin (margin_le hline)

/-! ## Lines without their white space -/

/-- The lines that are not blank, without the white space around them, in their order. -/
def bareLines (ls : List String) : List String := (ls.filter (!isBlank ·)).map trim

@[simp] theorem bareLines_nil : bareLines [] = [] := rfl

@[simp] theorem bareLines_append (ls ms : List String) :
    bareLines (ls ++ ms) = bareLines ls ++ bareLines ms := by
  rw [bareLines, List.filter_append, List.map_append, bareLines, bareLines]

theorem bareLines_eq_nil {ls : List String} :
    bareLines ls = [] ↔ ∀ line ∈ ls, isBlank line = true := by
  rw [bareLines, List.map_eq_nil_iff, List.filter_eq_nil_iff]
  simp

theorem bareLines_cons {line : String} (h : isBlank line = false) (ls : List String) :
    bareLines (line :: ls) = trim line :: bareLines ls := by
  rw [bareLines, List.filter_cons_of_pos (by simp [h]), List.map_cons, bareLines]

/-- **The margin of lines is white space**, so they are the same lines without it. -/
theorem bareLines_dedent (ls : List String) : bareLines (dedent ls) = bareLines ls := by
  have hmargin : ∀ line ∈ ls, isBlank line = false → margin ls ≤ indent line :=
    fun line hline => margin_le hline
  have hfilter : ls.filter ((!isBlank ·) ∘ dropMargin (margin ls)) = ls.filter (!isBlank ·) := by
    refine List.filter_congr fun line hline => ?_
    rw [Function.comp_apply, isBlank_dropMargin (hmargin line hline)]
  rw [bareLines, dedent, List.filter_map, hfilter, List.map_map, bareLines]
  refine List.map_congr_left fun line hline => ?_
  exact trim_dropMargin (hmargin line (List.mem_of_mem_filter hline))

theorem bareLines_dropEndWhile (ls : List String) :
    bareLines (dropEndWhile (·.isEmpty) ls) = bareLines ls := by
  obtain ⟨s, hls, hblank⟩ := exists_dropEndWhile_isEmpty ls
  conv_rhs => rw [← hls, bareLines_append, bareLines_eq_nil.mpr hblank, List.append_nil]

end DocTree.Text
