import DocTree.Proofs.Markup.Sections
import DocTree.Proofs.Text.Parts

/-!
# Which parts of an entry its section shows

A section is written from the parts of its entries. All of them stand in the lines that are written,
but for the name of a result that is the only one, and for the types of errors.

* `Entry.parts`, `SectionKind.kept`: the parts of an entry, and **what a section keeps of it**;
* `isShownBy_fieldLines`, `isShownBy_attributeLines`, `isPartOf_bullet`: the parts in each form of
  an entry;
* **`render_keeps`**: what is kept is shown, and nothing else is read.
-/

namespace DocTree

open Text

/-! ## The forms of an entry -/

/-- The parts of an entry: its name, its type and the lines of its description. -/
def Entry.parts (e : Entry) : List String := e.name :: e.type :: e.description

theorem Entry.forall_parts {e : Entry} {P : String → Prop} :
    (∀ part ∈ e.parts, P part) ↔ P e.name ∧ P e.type ∧ ∀ line ∈ e.description, P line := by
  rw [parts, List.forall_mem_cons, List.forall_mem_cons]

theorem isPartOf_indented (width : Nat) (line : String) : IsPartOf line (indented width line) := by
  rw [indented]
  split
  · next h =>
    rw [String.isEmpty_iff.mp h]
    exact .refl ""
  · exact (IsPartOf.refl line).append_left _

theorem isShownBy_map_indented {line : String} {ls : List String} (h : line ∈ ls) (width : Nat) :
    IsShownBy line (ls.map (indented width)) :=
  (isPartOf_indented width line).isShownBy (List.mem_map_of_mem h)

theorem isShownBy_typeLine {type : String} (h : isBlank type = false) (start : String) :
    IsShownBy type (typeLine start type) := by
  rw [typeLine, not_isEmpty_of_not_isBlank h, if_neg Bool.false_ne_true]
  exact ((IsPartOf.refl type).append_left start).isShownBy List.mem_cons_self

/-- A field shows its own name. -/
theorem isShownBy_fieldLines {text name : String} (h : IsPartOf text name)
    (description : List String) : IsShownBy text (fieldLines name description) := by
  have hmarker : ∀ rest, IsPartOf text (":" ++ name ++ rest) := fun rest =>
    (h.append_left ":").append_right rest
  cases description with
  | nil => exact (hmarker ":").isShownBy List.mem_cons_self
  | cons first rest =>
    rw [fieldLines]
    split
    · exact (hmarker ":").isShownBy List.mem_cons_self
    · exact ((hmarker ": ").append_right first).isShownBy List.mem_cons_self

/-- A field shows each line of its description. -/
theorem exists_fieldLines_of_mem {line : String} {description : List String}
    (h : line ∈ description) (name : String) :
    ∃ l ∈ fieldLines name description, IsPartOf line l := by
  cases description with
  | nil => cases h
  | cons first rest =>
    rw [fieldLines]
    split
    · exact ⟨_, List.mem_cons_of_mem _ (List.mem_map_of_mem h), isPartOf_indented 4 line⟩
    · rcases List.mem_cons.mp h with rfl | h
      · exact ⟨_, List.mem_cons_self, (IsPartOf.refl line).append_left _⟩
      · exact ⟨_, List.mem_cons_of_mem _ (List.mem_map_of_mem h), isPartOf_indented 4 line⟩

theorem isShownBy_fieldLines_of_mem {line : String} {description : List String}
    (h : line ∈ description) (name : String) : IsShownBy line (fieldLines name description) := by
  obtain ⟨l, hl, hpart⟩ := exists_fieldLines_of_mem h name
  exact hpart.isShownBy hl

/-- **A parameter shows all parts of its entry.** -/
theorem Entry.isShownBy_paramLines (e : Entry) :
    ∀ part ∈ e.parts, isBlank part = false → IsShownBy part e.paramLines := by
  rw [paramLines]
  refine forall_parts.mpr ⟨fun _ => ?_, fun htype => ?_, fun line hline _ => ?_⟩
  · have hname : IsPartOf e.name ("param " ++ e.name) := (IsPartOf.refl _).append_left _
    exact (isShownBy_fieldLines hname _).mono (List.subset_append_left _ _)
  · exact (isShownBy_typeLine htype _).mono (List.subset_append_right _ _)
  · exact (isShownBy_fieldLines_of_mem hline _).mono (List.subset_append_left _ _)

/-- **An attribute shows all parts of its entry.** -/
theorem Entry.isShownBy_attributeLines (e : Entry) :
    ∀ part ∈ e.parts, isBlank part = false → IsShownBy part (attributeLines e) := by
  refine forall_parts.mpr ⟨fun _ => ?_, fun htype => ?_, fun line hline _ => ?_⟩
  · exact ((IsPartOf.refl e.name).append_left _).isShownBy List.mem_cons_self
  · refine (isShownBy_typeLine htype "   :type: ").mono fun l hl => ?_
    simp [attributeLines, hl]
  · have hdescription : e.description.isEmpty = false :=
      List.isEmpty_eq_false_iff_exists_mem.mpr ⟨line, hline⟩
    refine (isShownBy_map_indented hline 3).mono fun l hl => ?_
    rw [attributeLines, hdescription, if_neg Bool.false_ne_true]
    simp [hl]

/-! ### Entries on one line -/

namespace Entry

/-- The name and the type of an entry, on one line. -/
def lineHead (e : Entry) : String :=
  if e.name.isEmpty then e.type
  else if e.type.isEmpty then e.name
  else e.name ++ " (" ++ e.type ++ ")"

/-- The description of an entry, on one line. -/
def lineText (e : Entry) : String := trim (" ".intercalate e.description)

variable {e : Entry}

theorem name_isPartOf_lineHead (h : isBlank e.name = false) : IsPartOf e.name e.lineHead := by
  rw [lineHead, not_isEmpty_of_not_isBlank h, if_neg Bool.false_ne_true]
  split
  · exact .refl _
  · exact (((IsPartOf.refl e.name).append_right _).append_right _).append_right _

theorem type_isPartOf_lineHead (h : isBlank e.type = false) : IsPartOf e.type e.lineHead := by
  rw [lineHead, not_isEmpty_of_not_isBlank h, if_neg Bool.false_ne_true]
  split
  · exact .refl _
  · exact ((IsPartOf.refl e.type).append_left _).append_right _

/-- Joining the lines of a description and trimming the whole keeps what is not white space. -/
theorem isPartOf_lineText {line : String} (hline : line ∈ e.description)
    (h : isBlank line = false) : IsPartOf (trim line) e.lineText :=
  (isPartOf_intercalate hline).trim h

theorem bullet_eq (e : Entry) :
    bullet e = if e.lineText.isEmpty then "* " ++ e.lineHead
      else "* " ++ e.lineHead ++ " -- " ++ e.lineText := rfl

theorem lineHead_isPartOf_bullet (e : Entry) : IsPartOf e.lineHead (bullet e) := by
  have hmark : IsPartOf e.lineHead ("* " ++ e.lineHead) := (IsPartOf.refl _).append_left _
  rw [bullet_eq]
  split
  · exact hmark
  · exact (hmark.append_right _).append_right _

theorem lineText_isPartOf_bullet (h : e.lineText ≠ "") : IsPartOf e.lineText (bullet e) := by
  rw [bullet_eq, if_neg (by simpa using h)]
  exact (IsPartOf.refl _).append_left _

/-- **An entry on one line shows all its parts.** -/
theorem isPartOf_bullet : ∀ part ∈ e.parts, isBlank part = false →
    IsPartOf (trim part) (bullet e) := by
  refine forall_parts.mpr ⟨fun hname => ?_, fun htype => ?_, fun line hline h => ?_⟩
  · exact (trim_isPartOf _).trans
      ((name_isPartOf_lineHead hname).trans e.lineHead_isPartOf_bullet)
  · exact (trim_isPartOf _).trans
      ((type_isPartOf_lineHead htype).trans e.lineHead_isPartOf_bullet)
  · have hpart := isPartOf_lineText hline h
    refine hpart.trans (lineText_isPartOf_bullet fun hempty => ?_)
    rw [hempty, IsPartOf, String.toList_empty, List.infix_nil, String.toList_eq_nil_iff] at hpart
    exact trim_ne_empty h hpart

end Entry

/-! ## Sections -/

/-- **What a section keeps of one of `count` entries.** The name of a result that is the only one
is not written, and neither is the type of an error. -/
def SectionKind.kept (kind : SectionKind) (count : Nat) (e : Entry) : Entry :=
  match kind with
  | .returns => if count = 1 then { e with name := "" } else e
  | .raises => { e with type := "" }
  | .params | .attributes | .yields | .other => e

section Render

variable {entries : List Entry} {e : Entry}

theorem isShownBy_flatMap {lines : Entry → List String} {text : String} (he : e ∈ entries)
    (h : IsShownBy text (lines e)) : IsShownBy text (entries.flatMap lines) :=
  h.mono fun _ hline => List.mem_flatMap.mpr ⟨e, he, hline⟩

/-- Entries that are listed in one field show all their parts. -/
theorem isShownBy_bullets (he : e ∈ entries) (field : String) :
    ∀ part ∈ e.parts, isBlank part = false →
      IsShownBy part (fieldLines field (entries.map bullet)) := by
  intro part hpart h
  obtain ⟨line, hline, hbullet⟩ := exists_fieldLines_of_mem (List.mem_map_of_mem he) field
  exact ⟨line, hline, (Entry.isPartOf_bullet part hpart h).trans hbullet⟩

/-- A result that is the only one shows its type and its description. -/
theorem isShownBy_result (e : Entry) : ∀ part ∈ (SectionKind.returns.kept 1 e).parts,
    isBlank part = false → IsShownBy part
      (fieldLines "returns" e.description ++ typeLine ":rtype: " e.type) := by
  refine Entry.forall_parts.mpr ⟨fun hname => ?_, fun htype => ?_, fun line hline _ => ?_⟩
  · cases hname
  · exact (isShownBy_typeLine htype _).mono (List.subset_append_right _ _)
  · exact (isShownBy_fieldLines_of_mem hline _).mono (List.subset_append_left _ _)

/-- An error shows its name and its description. -/
theorem isShownBy_error (count : Nat) (e : Entry) :
    ∀ part ∈ (SectionKind.raises.kept count e).parts, isBlank part = false →
      IsShownBy part (fieldLines ("raises " ++ e.name) e.description) := by
  refine Entry.forall_parts.mpr ⟨fun _ => ?_, fun htype => ?_, fun line hline _ => ?_⟩
  · exact isShownBy_fieldLines ((IsPartOf.refl _).append_left _) _
  · cases htype
  · exact isShownBy_fieldLines_of_mem hline _

/-- **What a section keeps of its entries is shown.** -/
theorem isShownBy_render {kind : SectionKind} (hkind : kind ≠ .other) (title : String)
    (body : List String) (he : e ∈ entries) :
    ∀ part ∈ (kind.kept entries.length e).parts, isBlank part = false →
      IsShownBy part (kind.render title entries body) := by
  intro part hpart h
  refine IsShownBy.mono ?_ (List.subset_append_left _ [""])
  cases kind with
  | params => exact isShownBy_flatMap he (e.isShownBy_paramLines part hpart h)
  | attributes => exact isShownBy_flatMap he (e.isShownBy_attributeLines part hpart h)
  | returns =>
    match entries, he with
    | [single], he =>
      obtain rfl := List.mem_singleton.mp he
      exact isShownBy_result e part hpart h
    | first :: second :: rest, he =>
      have hmany : (first :: second :: rest).length ≠ 1 := by simp
      rw [SectionKind.kept, if_neg hmany] at hpart
      exact isShownBy_bullets he "returns" part hpart h
  | yields => exact isShownBy_bullets he "yields" part hpart h
  | raises => exact isShownBy_flatMap he (isShownBy_error _ e part hpart h)
  | other => exact absurd rfl hkind

/-- **Nothing is read of an entry but what is kept.** -/
theorem render_map_kept (kind : SectionKind) (title : String) (entries : List Entry)
    (body : List String) :
    kind.render title (entries.map (kind.kept entries.length)) body =
      kind.render title entries body := by
  cases kind with
  | params | attributes | yields | other =>
    have hkept : entries.map id = entries := List.map_id entries
    exact congrArg (SectionKind.render _ title · body) hkept
  | returns =>
    match entries with
    | [] => rfl
    | [single] => rfl
    | first :: second :: rest =>
      have hmany : (first :: second :: rest).length ≠ 1 := by simp
      have hkept : SectionKind.returns.kept (first :: second :: rest).length = id :=
        funext fun e => by rw [SectionKind.kept, if_neg hmany, id]
      rw [hkept, List.map_id]
  | raises =>
    rw [SectionKind.render, SectionKind.render, List.flatMap_map]
    rfl

/-- **What a section shows of its entries.** The lines of a section depend on what it keeps of its
entries and on nothing else of them, and each part of what is kept stands in one of the lines. All
is kept but the name of a result that is the only one, and the types of errors. -/
theorem render_keeps {kind : SectionKind} (hkind : kind ≠ .other) (title : String)
    (entries : List Entry) (body : List String) :
    kind.render title (entries.map (kind.kept entries.length)) body =
        kind.render title entries body ∧
      ∀ e ∈ entries, ∀ part ∈ (kind.kept entries.length e).parts, isBlank part = false →
        IsShownBy part (kind.render title entries body) :=
  ⟨render_map_kept kind title entries body, fun _ he => isShownBy_render hkind title body he⟩

end Render

namespace Sample

/-- Two results, the second one without a type. -/
def twoResults : List Entry := [⟨"total", "int", ["The sum,", "", "  rounded."]⟩, ⟨"rest", "", []⟩]

theorem render_keeps_of_twoResults :
    SectionKind.returns ≠ .other ∧
    SectionKind.returns.render "Returns" (twoResults.map (SectionKind.returns.kept 2)) [] =
        SectionKind.returns.render "Returns" twoResults [] ∧
      ∀ e ∈ twoResults, ∀ part ∈ (SectionKind.returns.kept 2 e).parts, isBlank part = false →
        IsShownBy part (SectionKind.returns.render "Returns" twoResults []) := by
  have hkind : SectionKind.returns ≠ .other := by decide
  exact ⟨hkind, render_keeps hkind "Returns" twoResults []⟩

/-- The markup of these results. -/
example : SectionKind.returns.render "Returns" twoResults [] =
    [":returns: * total (int) -- The sum,    rounded.", "    * rest", ""] := by decide +kernel

/-- **The name of a result that is the only one is lost**, and the type of an error is. -/
theorem part_of_entry_lost :
    (SectionKind.returns.render "Returns" [⟨"total", "int", ["The sum."]⟩] [] =
        [":returns: The sum.", ":rtype: int", ""] ∧
      ¬ IsShownBy "total" [":returns: The sum.", ":rtype: int", ""]) ∧
    (SectionKind.raises.render "Raises" [⟨"ValueError", "if negative", []⟩] [] =
        [":raises ValueError:", ""] ∧
      ¬ IsShownBy "if negative" [":raises ValueError:", ""]) ∧
    ¬ ∀ (kind : SectionKind) (title : String) (entries : List Entry) (body : List String),
      kind ≠ .other → ∀ e ∈ entries, ∀ part ∈ e.parts, isBlank part = false →
        IsShownBy part (kind.render title entries body) := by
  refine ⟨by decide +kernel, by decide +kernel, fun hall => ?_⟩
  have hshown := hall .returns "Returns" [⟨"total", "int", ["The sum."]⟩] [] (by decide) _
    List.mem_cons_self "total" List.mem_cons_self rfl
  exact absurd hshown (by decide +kernel)

end Sample

end DocTree
