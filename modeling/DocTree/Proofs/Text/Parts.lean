import DocTree.Proofs.Text.Visible

/-!
# Texts within texts

* `IsPartOf`: the characters of a text within another one;
* **`IsPartOf.trim`**: a part that is not blank is not lost when the whole is trimmed;
* `isPartOf_intercalate`: a text within those that it is joined with;
* `IsShownBy`: a text, up to the white space around it, within one of some lines.
-/

namespace DocTree.Text

/-- The characters of `t` stand in `s`, one behind the other. -/
def IsPartOf (t s : String) : Prop := t.toList <:+: s.toList

instance (t s : String) : Decidable (IsPartOf t s) := inferInstanceAs (Decidable (_ <:+: _))

namespace IsPartOf

variable {s t u : String}

theorem refl (s : String) : IsPartOf s s := List.infix_rfl

theorem trans (h : IsPartOf s t) (h' : IsPartOf t u) : IsPartOf s u := List.IsInfix.trans h h'

theorem append_left (h : IsPartOf t s) (u : String) : IsPartOf t (u ++ s) := by
  rw [IsPartOf, String.toList_append]
  exact List.IsInfix.trans h (List.suffix_append _ _).isInfix

theorem append_right (h : IsPartOf t s) (u : String) : IsPartOf t (s ++ u) := by
  rw [IsPartOf, String.toList_append]
  exact List.IsInfix.trans h (List.prefix_append _ _).isInfix

end IsPartOf

theorem trim_isPartOf (s : String) : IsPartOf (trim s) s := by
  obtain ⟨before, behind, hs, -, -⟩ := exists_stripWhile isSpace s.toList
  rw [IsPartOf, toList_trim]
  exact ⟨before, behind, by rw [List.append_assoc, ← hs]⟩

theorem trim_ne_empty {s : String} (h : isBlank s = false) : trim s ≠ "" := by
  intro hempty
  refine visible_ne_nil h ?_
  rw [← visible_trim, hempty, visible_empty]

theorem not_isEmpty_of_not_isBlank {s : String} (h : isBlank s = false) : s.isEmpty = false := by
  refine Bool.eq_false_iff.mpr fun hempty => ?_
  rw [String.isEmpty_iff.mp hempty] at h
  cases h

/-- Nothing of a part that is tight is lost by stripping. -/
theorem Tight.infix_stripWhile {α : Type} {p : α → Bool} {l m : List α} (hl : Tight p l)
    (h : l <:+: m) : l <:+: Text.stripWhile p m := by
  obtain ⟨before, behind, rfl⟩ := h
  have hfront : ∃ front, (before ++ l ++ behind).dropWhile p = front ++ (l ++ behind) := by
    rw [List.append_assoc, List.dropWhile_append]
    obtain ⟨a, tail, rfl, ha⟩ := hl.exists_cons
    split
    · exact ⟨[], List.dropWhile_cons_of_neg (by simp [ha])⟩
    · exact ⟨_, rfl⟩
  obtain ⟨front, hfront⟩ := hfront
  obtain ⟨a, tail, hcons, ha⟩ := hl.exists_cons
  have hstays : ∃ b ∈ l ++ behind, p b = false := ⟨a, by simp [hcons], ha⟩
  rw [Text.stripWhile, hfront, dropEndWhile_append_of_exists front hstays,
    hl.dropEndWhile_append behind]
  exact List.infix_append' _ _ _

/-- **White space around a text is no part of what stands in it.** -/
theorem IsPartOf.trim {s t : String} (h : IsPartOf t s) (ht : isBlank t = false) :
    IsPartOf (Text.trim t) (Text.trim s) := by
  have hpart := (tight_trim (trim_ne_empty ht)).infix_stripWhile ((trim_isPartOf t).trans h)
  rwa [IsPartOf, toList_trim s]

/-- A text is part of any it is joined with. -/
theorem isPartOf_intercalate {s sep : String} {ss : List String} (h : s ∈ ss) :
    IsPartOf s (sep.intercalate ss) := by
  induction ss with
  | nil => cases h
  | cons first ss ih =>
    cases ss with
    | nil =>
      obtain rfl := List.mem_singleton.mp h
      rw [String.intercalate_singleton]
      exact .refl s
    | cons second ss =>
      rw [String.intercalate_cons_cons]
      rcases List.mem_cons.mp h with rfl | h
      · exact ((IsPartOf.refl s).append_right _).append_right _
      · exact (ih h).append_left _

/-! ## Lines that show a text -/

/-- The text without the white space around it stands in one of the lines. -/
def IsShownBy (text : String) (ls : List String) : Prop := ∃ line ∈ ls, IsPartOf (trim text) line

instance (text : String) (ls : List String) : Decidable (IsShownBy text ls) :=
  inferInstanceAs (Decidable (∃ line ∈ ls, _))

theorem IsPartOf.isShownBy {text line : String} {ls : List String} (h : IsPartOf text line)
    (hline : line ∈ ls) : IsShownBy text ls :=
  ⟨line, hline, (trim_isPartOf text).trans h⟩

theorem IsShownBy.mono {text : String} {ls ms : List String} (h : IsShownBy text ls)
    (hsub : ls ⊆ ms) : IsShownBy text ms := by
  obtain ⟨line, hline, hpart⟩ := h
  exact ⟨line, hsub hline, hpart⟩

end DocTree.Text
