import DocTree.Markup.Google
import DocTree.Markup.Numpy
import DocTree.Proofs.Markup.Groups

/-!
# Written sections

A section that is written entry by entry is read entry by entry, in both prose dialects.

* `EntryText`: an entry as it is written down, its head at some column and the lines below it further
  to the right;
* `EntryText.groupEntries_lines`: **the entries of a body are those that were written**;
* `Numpy.paramSection`, `Google.paramSection`: the parameter sections of the two dialects;
* `Numpy.toFields_paramSection`, `Google.toFields_paramSection`: **their field markup is that of the
  entries, one by one**.
-/

namespace DocTree

open Text

/-- An entry of a section as it is written down. -/
structure EntryText where
  head : String
  /-- The lines below the head, as they stand in the section. -/
  below : List String

/-- The field markup of a parameter. -/
def Entry.paramLines (e : Entry) : List String :=
  fieldLines ("param " ++ e.name) e.description ++ typeLine (":type " ++ e.name ++ ": ") e.type

namespace EntryText

variable {base : Nat} {entries : List EntryText}

/-- The lines of an entry whose head stands at column `base`. -/
def lines (base : Nat) (e : EntryText) : List String := shift base e.head :: e.below

/-- The head has no white space around it, and each line below is blank or further to the right. -/
structure IsAt (base : Nat) (e : EntryText) : Prop where
  head : Tight isSpace e.head.toList
  below : ∀ line ∈ e.below, isBlank line = true ∨ base < indent line

/-- The entry of a parameter section, in the dialect that reads heads by `entry`. -/
def read (entry : SectionKind → String → List String → Entry) (e : EntryText) : Entry :=
  entry .params e.head (dropEndWhile (·.isEmpty) (dedent e.below))

/-! ## Grouping -/

/-- Lines that do not stand at the margin belong to the entry above them. -/
theorem groupsFrom_below {below : List String}
    (h : ∀ line ∈ below, isBlank line = true ∨ base < indent line) (head : String)
    (above rest : List String) :
    groupsFrom base (some (head, above)) (below ++ rest) =
      groupsFrom base (some (head, above ++ below)) rest := by
  induction below generalizing above with
  | nil => simp
  | cons line below ih =>
    obtain ⟨hline, hbelow⟩ := List.forall_mem_cons.mp h
    rw [List.cons_append, groupsFrom_cons_of_not_opens (not_opensEntry hline), Option.map_some,
      ih hbelow, List.append_assoc, List.singleton_append]

theorem groupsFrom_lines (h : ∀ e ∈ entries, e.IsAt base)
    (current : Option (String × List String)) :
    groupsFrom base current (entries.flatMap (lines base)) =
      current.toList ++ entries.map fun e => (e.head, e.below) := by
  induction entries generalizing current with
  | nil => simp [groupsFrom]
  | cons e entries ih =>
    obtain ⟨he, hrest⟩ := List.forall_mem_cons.mp h
    have hopens : opensEntry base (shift base e.head) = true := by
      simp [opensEntry, not_isBlank_of_tight he.head, indent_of_tight he.head]
    rw [List.flatMap_cons, lines, List.cons_append, groupsFrom_cons_of_opens hopens,
      groupsFrom_below he.below, ih hrest, trim_shift base he.head]
    simp

/-- The margin of a body is the column of the heads. -/
theorem margin_lines (h : ∀ e ∈ entries, e.IsAt base) (hne : entries ≠ []) :
    margin (entries.flatMap (lines base)) = base := by
  refine margin_eq (fun line hline hblank => ?_) ?_
  · obtain ⟨e, he, hline⟩ := List.mem_flatMap.mp hline
    rcases List.mem_cons.mp hline with rfl | hbelow
    · simp
    · rcases (h e he).below line hbelow with hb | hindent
      · simp [hb] at hblank
      · omega
  · obtain ⟨e, he⟩ := List.exists_mem_of_ne_nil _ hne
    refine ⟨shift base e.head, List.mem_flatMap.mpr ⟨e, he, List.mem_cons_self⟩, ?_, ?_⟩
    · simp [not_isBlank_of_tight (h e he).head]
    · simp [indent_of_tight (h e he).head]

/-- **The entries of a body are those that were written.** -/
theorem groupEntries_lines (h : ∀ e ∈ entries, e.IsAt base) :
    groupEntries (entries.flatMap (lines base)) =
      entries.map fun e => (e.head, dropEndWhile (·.isEmpty) (dedent e.below)) := by
  by_cases hnil : entries = []
  · subst hnil
    rfl
  · rw [groupEntries, margin_lines h hnil, groupsFrom_lines h]
    simp [Function.comp_def]

/-- A parameter section is rendered parameter by parameter. -/
theorem renderTitled_lines (h : ∀ e ∈ entries, e.IsAt base)
    (entry : SectionKind → String → List String → Entry) {title : String}
    (htitle : SectionKind.ofTitle title = .params) :
    renderTitled entry title (entries.flatMap (lines base)) =
      (entries.map (read entry)).flatMap Entry.paramLines ++ [""] := by
  rw [renderTitled, htitle, groupEntries_lines h, List.map_map]
  rfl

end EntryText

/-- A text that consists of one section. -/
theorem layout_titled (entry : SectionKind → String → List String → Entry) (title : String)
    (body : List String) :
    layout entry [.titled title body] = renderTitled entry title body := by
  simp [layout, layoutStep]

/-! ## The underlined dialect -/

namespace Numpy

/-- A line that underlines another one starts with a sign. -/
theorem exists_cons_of_isUnderline {line : String} (h : isUnderline line = true) :
    ∃ c cs, line.toList = c :: cs ∧ isUnderlineChar c = true := by
  cases hline : line.toList with
  | nil => simp [isUnderline, hline] at h
  | cons c cs =>
    refine ⟨c, cs, rfl, ?_⟩
    by_contra hc
    simp [isUnderline, hline, hc] at h

theorem not_isUnderline {line : String} (h : isBlank line = true ∨ 0 < indent line) :
    isUnderline line = false := by
  by_contra hunder
  obtain ⟨c, cs, hline, hc⟩ := exists_cons_of_isUnderline (by simpa using hunder)
  rcases h with hblank | hindent
  · have hspace : isSpace c = true := by
      simp [isBlank, hline] at hblank
      exact hblank.1
    simp only [isUnderlineChar, Bool.or_eq_true, beq_iff_eq] at hc
    rcases hc with (((((rfl | rfl) | rfl) | rfl) | rfl) | rfl) | rfl <;> cases hspace
  · have hspace : c = ' ' := by
      by_contra hne
      simp [indent, hline, hne] at hindent
    subst hspace
    cases hc

/-- Without an underline, a section reaches to the end. -/
theorem segmentsFrom_section {ls : List String} (h : ∀ line ∈ ls, isUnderline line = false)
    (title : String) (body : List String) :
    segmentsFrom (some (title, body)) ls = [.titled title (body ++ ls)] := by
  induction ls generalizing body with
  | nil => simp [segmentsFrom, Segment.ofOpen]
  | cons line rest ih =>
    obtain ⟨-, hrest⟩ := List.forall_mem_cons.mp h
    cases rest with
    | nil => simp [segmentsFrom, addLine, Segment.ofOpen]
    | cons under rest =>
      have hheader : isHeader line under = false := by
        simp [isHeader, hrest under List.mem_cons_self]
      rw [segmentsFrom, hheader, if_neg Bool.false_ne_true]
      simp [addLine, ih hrest]

/-- A parameter section with the heads at column zero. -/
def paramSection (entries : List EntryText) : List String :=
  "Parameters" :: "----------" :: entries.flatMap (EntryText.lines 0)

theorem toFields_paramSection {entries : List EntryText} (h : ∀ e ∈ entries, e.IsAt 0)
    (hunder : ∀ e ∈ entries, isUnderline e.head = false) :
    toFields (paramSection entries) =
      (entries.map (EntryText.read entry)).flatMap Entry.paramLines ++ [""] := by
  have hnone : ∀ line ∈ entries.flatMap (EntryText.lines 0), isUnderline line = false := by
    intro line hline
    obtain ⟨e, he, hline⟩ := List.mem_flatMap.mp hline
    rcases List.mem_cons.mp hline with rfl | hbelow
    · simpa using hunder e he
    · exact not_isUnderline ((h e he).below line hbelow)
  have hheader : isHeader "Parameters" "----------" = true := by decide
  have htitle : trim "Parameters" = "Parameters" := by decide
  have hkind : SectionKind.ofTitle "Parameters" = .params := by decide
  have hsegments : segmentsFrom none (paramSection entries) =
      [.titled "Parameters" (entries.flatMap (EntryText.lines 0))] := by
    rw [paramSection, segmentsFrom, hheader, if_pos rfl, segmentsFrom_section hnone, htitle]
    simp [Segment.ofOpen]
  rw [toFields, hsegments, layout_titled, EntryText.renderTitled_lines h entry hkind]

end Numpy

/-! ## The indented dialect -/

namespace Google

/-- Blank and indented lines belong to the section above them. -/
theorem segmentsFrom_section {ls : List String}
    (h : ∀ line ∈ ls, isBlank line = true ∨ 0 < indent line) (title : String)
    (body : List String) :
    segmentsFrom (some (title, body)) ls = [.titled title (body ++ ls)] := by
  induction ls generalizing body with
  | nil => simp [segmentsFrom, Segment.ofOpen]
  | cons line rest ih =>
    obtain ⟨hline, hrest⟩ := List.forall_mem_cons.mp h
    have hbelongs : (isBlank line || indent line > 0) = true := by simpa using hline
    simp [segmentsFrom, hbelongs, ih hrest]

/-- A parameter section with the heads at column `base`. -/
def paramSection (base : Nat) (entries : List EntryText) : List String :=
  "Args:" :: entries.flatMap (EntryText.lines base)

theorem toFields_paramSection {base : Nat} (hbase : 0 < base) {entries : List EntryText}
    (h : ∀ e ∈ entries, e.IsAt base) :
    toFields (paramSection base entries) =
      (entries.map (EntryText.read entry)).flatMap Entry.paramLines ++ [""] := by
  have hbelow : ∀ line ∈ entries.flatMap (EntryText.lines base),
      isBlank line = true ∨ 0 < indent line := by
    intro line hline
    obtain ⟨e, he, hline⟩ := List.mem_flatMap.mp hline
    rcases List.mem_cons.mp hline with rfl | hbelow
    · right
      rw [indent_shift]
      omega
    · exact ((h e he).below line hbelow).imp_right hbase.trans
  have htitle : title? "Args:" = some "Args" := by decide
  have hkind : SectionKind.ofTitle "Args" = .params := by decide
  have hsegments : segmentsFrom none (paramSection base entries) =
      [.titled "Args" (entries.flatMap (EntryText.lines base))] := by
    rw [paramSection, segmentsFrom, htitle]
    simp [segmentsFrom_section hbelow, Segment.ofOpen]
  rw [toFields, hsegments, layout_titled, EntryText.renderTitled_lines h entry hkind]

end Google

end DocTree
