import DocTree.Markup.Section
import DocTree.Proofs.Text.Visible

/-!
# Which lines the entries of a body keep

A body is read as entries, each with the lines below it. From its first entry on no line is lost;
what stands above the first entry belongs to none.

* `opensEntry`, `linesAbove`: the lines that open an entry, and those above the first of them;
* `groupsFrom_cons_of_opens`, `groupsFrom_cons_of_not_opens`: **the step from line to line**;
* `groupsFrom_open`, `groupsFrom_none`: with an entry that is open, and before there is one;
* **`groupEntries_keeps`**: the lines above, the heads and the lines below them are the lines of the
  body, and none stand above exactly if the first line that is not blank stands at the margin.
-/

namespace DocTree

open Text

/-! ## The entries of a body -/

/-- A line at the margin `base` that is not blank. -/
def opensEntry (base : Nat) (line : String) : Bool := !isBlank line && indent line == base

/-- The lines of a body above its first entry. -/
def linesAbove (body : List String) : List String :=
  body.takeWhile (!opensEntry (margin body) ·)

/-- The lines of a group: its head, and the lines below it. -/
def groupLines (group : String × List String) : List String := group.1 :: bareLines group.2

section Step

variable {base : Nat} {line : String}

theorem not_isBlank_of_opensEntry (h : opensEntry base line = true) : isBlank line = false := by
  simp only [opensEntry, Bool.and_eq_true, Bool.not_eq_true'] at h
  exact h.1

theorem not_opensEntry (h : isBlank line = true ∨ base < indent line) :
    opensEntry base line = false := by
  rcases h with hblank | hindent
  · simp [opensEntry, hblank]
  · have hne : indent line ≠ base := by omega
    simp [opensEntry, hne]

theorem groupsFrom_cons_of_opens (h : opensEntry base line = true)
    (current : Option (String × List String)) (ls : List String) :
    groupsFrom base current (line :: ls) =
      current.toList ++ groupsFrom base (some (trim line, [])) ls :=
  if_pos h

theorem groupsFrom_cons_of_not_opens (h : opensEntry base line = false)
    (current : Option (String × List String)) (ls : List String) :
    groupsFrom base current (line :: ls) =
      groupsFrom base (current.map fun (head, below) => (head, below ++ [line])) ls :=
  if_neg (Bool.eq_false_iff.mp h)

end Step

/-- **An entry that is open takes all lines up to the next one**, which takes the others. -/
theorem groupsFrom_open (base : Nat) (head : String) (above ls : List String) :
    (groupsFrom base (some (head, above)) ls).flatMap groupLines =
      head :: bareLines (above ++ ls) := by
  induction ls generalizing head above with
  | nil => simp [groupsFrom, groupLines]
  | cons line ls ih =>
    cases h : opensEntry base line with
    | true =>
      rw [groupsFrom_cons_of_opens h, Option.toList_some, List.singleton_append, List.flatMap_cons,
        ih, List.nil_append, groupLines, bareLines_append,
        bareLines_cons (not_isBlank_of_opensEntry h), List.cons_append]
    | false =>
      rw [groupsFrom_cons_of_not_opens h, Option.map_some, ih, List.append_assoc,
        List.singleton_append]

/-- Without an entry that is open, lines are passed over up to the first that opens one. -/
theorem groupsFrom_none (base : Nat) (ls : List String) :
    (groupsFrom base none ls).flatMap groupLines =
      bareLines (ls.dropWhile (!opensEntry base ·)) := by
  induction ls with
  | nil => rfl
  | cons line ls ih =>
    cases h : opensEntry base line with
    | true =>
      rw [List.dropWhile_cons_of_neg (by simp [h]), bareLines_cons (not_isBlank_of_opensEntry h),
        groupsFrom_cons_of_opens h, Option.toList_none, List.nil_append, groupsFrom_open,
        List.nil_append]
    | false =>
      rw [List.dropWhile_cons_of_pos (by simp [h]), groupsFrom_cons_of_not_opens h,
        Option.map_none, ih]

theorem flatMap_groupEntries (body : List String) :
    (groupEntries body).flatMap groupLines =
      bareLines (body.dropWhile (!opensEntry (margin body) ·)) := by
  rw [← groupsFrom_none, groupEntries, List.flatMap_map]
  refine List.flatMap_congr fun (head, below) _ => ?_
  rw [groupLines, groupLines, bareLines_dropEndWhile, bareLines_dedent]

/-- Whether lines that are not blank stand above the first entry is a matter of the first such
line. -/
theorem blank_above_iff (base : Nat) (ls : List String) :
    (∀ line ∈ ls.takeWhile (!opensEntry base ·), isBlank line = true) ↔
      ∀ line, ls.find? (!isBlank ·) = some line → indent line = base := by
  induction ls with
  | nil => simp
  | cons line ls ih =>
    cases hblank : isBlank line with
    | true =>
      have hopens : opensEntry base line = false := not_opensEntry (.inl hblank)
      simpa [hblank, hopens] using ih
    | false =>
      by_cases hindent : indent line = base
      · have hopens : opensEntry base line = true := by simp [opensEntry, hblank, hindent]
        simp [hblank, hopens, hindent]
      · have hopens : opensEntry base line = false := by simp [opensEntry, hindent]
        simp [hblank, hopens, hindent]

/-- **What the entries of a body keep.** The lines above the first entry, and then group by group
the head and the lines below it, are the lines of the body. So the groups alone are all of them
exactly if the first line that is not blank stands at the margin. -/
theorem groupEntries_keeps (body : List String) :
    bareLines body = bareLines (linesAbove body) ++ (groupEntries body).flatMap groupLines ∧
    (bareLines body = (groupEntries body).flatMap groupLines ↔
      ∀ line, body.find? (!isBlank ·) = some line → indent line = margin body) := by
  have hparts : bareLines body =
      bareLines (linesAbove body) ++ (groupEntries body).flatMap groupLines := by
    conv_lhs => rw [← List.takeWhile_append_dropWhile (p := (!opensEntry (margin body) ·))
      (l := body), bareLines_append, ← flatMap_groupEntries, ← linesAbove]
  refine ⟨hparts, ?_⟩
  rw [hparts, List.append_left_eq_self, bareLines_eq_nil, linesAbove, blank_above_iff]

namespace Sample

/-- A body that starts further to the right than it goes on. -/
def deeperFirst : List String := ["    x : int", "", "y : int", "    The y."]

/-- **What stands above the first entry is lost.** -/
theorem line_above_lost :
    groupEntries deeperFirst = [("y : int", ["The y."])] ∧
    bareLines deeperFirst = ["x : int", "y : int", "The y."] ∧
    ¬ ∀ body, bareLines body = (groupEntries body).flatMap groupLines := by
  refine ⟨by decide, by decide, fun hall => ?_⟩
  exact absurd (hall deeperFirst) (by decide)

end Sample

end DocTree
