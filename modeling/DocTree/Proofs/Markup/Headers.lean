import Mathlib.Data.List.Chain
import DocTree.Markup.Normalize
import DocTree.Proofs.Markup.Sections

/-!
# No headers are left

The field markup of a docstring has no section headers, so that making field markup of it once more
changes nothing.

* `IsMarkup`: how the lines of a rendered section begin, **whatever the section holds**
  (`isMarkup_of_mem_render`);
* `exists_layoutStep_titled`, `mem_layout`: the lines of the markup are plain lines of the text and
  rendered ones;
* `Style.Headless`: lines without a header of the dialect, which are their own field markup
  (`Style.toFields_of_headless`);
* **`Style.toFields_headless`**: the lines that field markup consists of.
-/

namespace DocTree

open Text

/-! ## Rendered lines -/

/-- The line is empty or begins as field markup does. -/
def IsMarkup (line : String) : Prop := ∀ c ∈ line.toList.head?, c ∈ [':', '.', ' ']

theorem isMarkup_empty : IsMarkup "" := fun _ h => nomatch h

/-- The first character decides. -/
theorem isMarkup_append {start : String} (h : ∃ c ∈ [':', '.', ' '], start.toList.head? = some c)
    (line : String) : IsMarkup (start ++ line) := by
  obtain ⟨c, hc, hstart⟩ := h
  rw [IsMarkup, String.toList_append, List.head?_append, hstart]
  rintro _ ⟨⟩
  exact hc

theorem isMarkup_indented (width : Nat) (line : String) : IsMarkup (indented (width + 1) line) := by
  rw [indented]
  split
  · exact isMarkup_empty
  · refine isMarkup_append ⟨' ', by decide, ?_⟩ _
    rw [String.toList_ofList, List.replicate_succ, List.head?_cons]

theorem isMarkup_of_mem_map_indented {width : Nat} {ls : List String} :
    ∀ line ∈ ls.map (indented (width + 1)), IsMarkup line := by
  intro line hline
  obtain ⟨l, -, rfl⟩ := List.mem_map.mp hline
  exact isMarkup_indented width l

theorem isMarkup_of_mem_fieldLines (name : String) (description : List String) :
    ∀ line ∈ fieldLines name description, IsMarkup line := by
  have hcolon : ∀ rest, IsMarkup (":" ++ name ++ rest) := fun rest => by
    rw [String.append_assoc]
    exact isMarkup_append ⟨':', by decide, rfl⟩ _
  cases description with
  | nil => exact List.forall_mem_singleton.mpr (hcolon ":")
  | cons first rest =>
    rw [fieldLines]
    split
    · exact List.forall_mem_cons.mpr ⟨hcolon ":", isMarkup_of_mem_map_indented⟩
    · refine List.forall_mem_cons.mpr ⟨?_, isMarkup_of_mem_map_indented⟩
      rw [String.append_assoc]
      exact hcolon _

theorem isMarkup_of_mem_typeLine {start : String}
    (h : ∃ c ∈ [':', '.', ' '], start.toList.head? = some c) (type : String) :
    ∀ line ∈ typeLine start type, IsMarkup line := by
  rw [typeLine]
  split
  · exact fun _ h => nomatch h
  · exact List.forall_mem_singleton.mpr (isMarkup_append h type)

theorem isMarkup_of_mem_attributeLines (e : Entry) : ∀ line ∈ attributeLines e, IsMarkup line := by
  have hdescription : ∀ line ∈ (if e.description.isEmpty then []
      else "" :: e.description.map (indented 3)), IsMarkup line := by
    split
    · exact fun _ h => nomatch h
    · exact List.forall_mem_cons.mpr ⟨isMarkup_empty, isMarkup_of_mem_map_indented⟩
  rw [attributeLines]
  simp only [List.cons_append, List.forall_mem_cons, List.forall_mem_append]
  exact ⟨isMarkup_append ⟨'.', by decide, rfl⟩ _,
    ⟨isMarkup_of_mem_typeLine ⟨' ', by decide, rfl⟩ _, hdescription⟩,
    isMarkup_empty, fun _ h => nomatch h⟩

/-- **All lines of a rendered section are field markup**, whatever stands in its entries. -/
theorem isMarkup_of_mem_render (kind : SectionKind) (title : String) (entries : List Entry)
    (body : List String) : ∀ line ∈ kind.render title entries body, IsMarkup line := by
  have hflatMap : ∀ {lines : Entry → List String}, (∀ e, ∀ line ∈ lines e, IsMarkup line) →
      ∀ line ∈ entries.flatMap lines, IsMarkup line := by
    intro lines h line hline
    obtain ⟨e, -, hline⟩ := List.mem_flatMap.mp hline
    exact h e line hline
  unfold SectionKind.render
  rw [List.forall_mem_append]
  refine ⟨?_, List.forall_mem_singleton.mpr isMarkup_empty⟩
  split
  · refine hflatMap fun e => List.forall_mem_append.mpr ⟨isMarkup_of_mem_fieldLines _ _, ?_⟩
    refine isMarkup_of_mem_typeLine ⟨':', by decide, ?_⟩ _
    rw [String.append_assoc, String.toList_append]
    rfl
  · exact hflatMap isMarkup_of_mem_attributeLines
  · exact List.forall_mem_append.mpr
      ⟨isMarkup_of_mem_fieldLines _ _, isMarkup_of_mem_typeLine ⟨':', by decide, rfl⟩ _⟩
  · exact isMarkup_of_mem_fieldLines _ _
  · exact isMarkup_of_mem_fieldLines _ _
  · exact hflatMap fun e => isMarkup_of_mem_fieldLines _ _
  · exact List.forall_mem_cons.mpr ⟨isMarkup_append ⟨'.', by decide, rfl⟩ _,
      List.forall_mem_cons.mpr ⟨isMarkup_empty, isMarkup_of_mem_map_indented⟩⟩

/-! ## Layout -/

section Layout

variable {entry : SectionKind → String → List String → Entry}

variable (entry) in
/-- A section adds rendered lines. -/
theorem exists_layoutStep_titled (out : List String) (title : String) (body : List String) :
    ∃ markup, layoutStep entry out (.titled title body) = out ++ markup ∧
      ∀ line ∈ markup, IsMarkup line := by
  have hsection : ∀ line ∈ renderTitled entry title body, IsMarkup line := by
    unfold renderTitled
    exact isMarkup_of_mem_render _ _ _ _
  have hapart : ∀ line ∈ if out.getLast?.any (!·.isEmpty) then [""] else [], IsMarkup line := by
    split
    · exact List.forall_mem_singleton.mpr isMarkup_empty
    · exact fun _ h => nomatch h
  exact ⟨_, by rw [layoutStep, List.append_assoc], List.forall_mem_append.mpr ⟨hapart, hsection⟩⟩

theorem mem_foldl_layoutStep {segs : List Segment} {out : List String} {line : String}
    (h : line ∈ segs.foldl (layoutStep entry) out) :
    line ∈ out ∨ .text line ∈ segs ∨ IsMarkup line := by
  induction segs generalizing out with
  | nil => exact .inl h
  | cons seg segs ih =>
    rcases ih h with hout | htext | hmarkup
    · cases seg with
      | text l =>
        rcases List.mem_append.mp hout with hout | hl
        · exact .inl hout
        · exact .inr (.inl (List.mem_singleton.mp hl ▸ List.mem_cons_self))
      | titled title body =>
        obtain ⟨markup, hstep, hall⟩ := exists_layoutStep_titled entry out title body
        rw [hstep] at hout
        rcases List.mem_append.mp hout with hout | hl
        · exact .inl hout
        · exact .inr (.inr (hall line hl))
    · exact .inr (.inl (List.mem_cons_of_mem _ htext))
    · exact .inr (.inr hmarkup)

/-- **The lines of field markup** are plain lines of the text and rendered ones. -/
theorem mem_layout {segs : List Segment} {line : String} (h : line ∈ layout entry segs) :
    .text line ∈ segs ∨ IsMarkup line :=
  (mem_foldl_layoutStep h).resolve_left List.not_mem_nil

/-- Plain lines stay as they are. -/
theorem foldl_layoutStep_text (out ls : List String) :
    (ls.map Segment.text).foldl (layoutStep entry) out = out ++ ls := by
  induction ls generalizing out with
  | nil => exact (List.append_nil out).symm
  | cons line ls ih =>
    rw [List.map_cons, List.foldl_cons, ih, layoutStep, List.append_assoc, List.singleton_append]

theorem layout_text (ls : List String) : layout entry (ls.map .text) = ls := by
  rw [layout, foldl_layoutStep_text, List.nil_append]

variable (entry) in
/-- Sections add rendered lines only. -/
theorem exists_foldl_layoutStep_titled {segs : List Segment}
    (h : ∀ seg ∈ segs, ∃ title body, seg = .titled title body) (out : List String) :
    ∃ markup, segs.foldl (layoutStep entry) out = out ++ markup ∧
      ∀ line ∈ markup, IsMarkup line := by
  induction segs generalizing out with
  | nil => exact ⟨[], (List.append_nil out).symm, fun _ h => nomatch h⟩
  | cons seg segs ih =>
    obtain ⟨⟨title, body, rfl⟩, hrest⟩ := List.forall_mem_cons.mp h
    obtain ⟨first, hfirst, hmarkup⟩ := exists_layoutStep_titled entry out title body
    obtain ⟨more, hmore, hmarkups⟩ := ih hrest (out ++ first)
    refine ⟨first ++ more, ?_, List.forall_mem_append.mpr ⟨hmarkup, hmarkups⟩⟩
    rw [List.foldl_cons, hfirst, hmore, List.append_assoc]

end Layout

/-! ## The underlined dialect -/

namespace Numpy

/-- No line is the title of a section that the next line underlines. -/
def Headless (ls : List String) : Prop :=
  ls.IsChain fun title under => isHeader title under = false

theorem not_isUnderline_of_isMarkup {line : String} (h : IsMarkup line) :
    isUnderline line = false := by
  by_contra hunder
  obtain ⟨c, cs, hline, hc⟩ := exists_cons_of_isUnderline (by simpa using hunder)
  have hstart := h c (by rw [hline]; rfl)
  simp only [List.mem_cons, List.not_mem_nil, or_false] at hstart
  rcases hstart with rfl | rfl | rfl <;> cases hc

/-- Rendered lines underline nothing. -/
theorem Headless.append_markup {ls markup : List String} (hls : Headless ls)
    (hmarkup : ∀ line ∈ markup, IsMarkup line) : Headless (ls ++ markup) := by
  have hunder : ∀ (title : String), ∀ under ∈ markup, isHeader title under = false := by
    intro title under hmem
    rw [isHeader, not_isUnderline_of_isMarkup (hmarkup under hmem), Bool.and_false]
  refine List.isChain_append.mpr ⟨hls, ?_, fun title _ under hhead =>
    hunder title under (List.mem_of_mem_head? hhead)⟩
  clear hls hmarkup
  induction markup with
  | nil => exact .nil
  | cons line markup ih =>
    refine List.isChain_cons.mpr ⟨fun under hhead => ?_, ih fun title under hmem =>
      hunder title under (List.mem_cons_of_mem _ hmem)⟩
    exact hunder line under (List.mem_cons_of_mem _ (List.mem_of_mem_head? hhead))

/-- Without a header, all lines are plain. -/
theorem segmentsFrom_of_headless : ∀ {ls : List String}, Headless ls →
    segmentsFrom none ls = ls.map .text
  | [], _ => rfl
  | [_], _ => rfl
  | title :: under :: rest, h => by
    obtain ⟨hheader, hrest⟩ := List.isChain_cons_cons.mp h
    rw [segmentsFrom, hheader, if_neg Bool.false_ne_true]
    change [.text title] ++ segmentsFrom none (under :: rest) = _
    rw [segmentsFrom_of_headless hrest]
    rfl

/-- A section reaches to the next one. -/
theorem titled_of_mem_segmentsFrom : ∀ {ls : List String} {current : String × List String},
    ∀ seg ∈ segmentsFrom (some current) ls, ∃ title body, seg = .titled title body
  | [], current, seg, h => ⟨_, _, List.mem_singleton.mp h⟩
  | [line], current, seg, h => ⟨_, _, List.mem_singleton.mp h⟩
  | title :: under :: rest, current, seg, h => by
    rw [segmentsFrom] at h
    split at h
    · rcases List.mem_append.mp h with h | h
      · exact ⟨_, _, List.mem_singleton.mp h⟩
      · exact titled_of_mem_segmentsFrom seg h
    · exact titled_of_mem_segmentsFrom seg h

/-- **Plain lines stand in front of the first section only.** -/
theorem exists_segmentsFrom : ∀ ls : List String, ∃ above sections, above <+: ls ∧ Headless above ∧
    segmentsFrom none ls = above.map .text ++ sections ∧
    ∀ seg ∈ sections, ∃ title body, seg = .titled title body
  | [] => ⟨[], [], List.nil_prefix, .nil, rfl, fun _ h => nomatch h⟩
  | [line] => ⟨[line], [], List.prefix_refl _, .singleton line, rfl, fun _ h => nomatch h⟩
  | title :: under :: rest => by
    rw [segmentsFrom]
    cases hheader : isHeader title under with
    | true => exact ⟨[], _, List.nil_prefix, .nil, rfl, titled_of_mem_segmentsFrom⟩
    | false =>
      obtain ⟨above, sections, hprefix, habove, hsegs, hsections⟩ :=
        exists_segmentsFrom (under :: rest)
      refine ⟨title :: above, sections, (List.prefix_cons_inj title).mpr hprefix, ?_, ?_, hsections⟩
      · refine List.isChain_cons.mpr ⟨fun next hnext => ?_, habove⟩
        cases above with
        | nil => cases hnext
        | cons first above =>
          -- The line below the title is the first one of the rest.
          obtain rfl := Option.some.inj hnext
          rwa [(List.cons_prefix_cons.mp hprefix).1]
      · change [.text title] ++ segmentsFrom none (under :: rest) = _
        rw [hsegs]
        rfl

/-- **The field markup has no headers.** -/
theorem toFields_headless (ls : List String) : Headless (toFields ls) := by
  obtain ⟨above, sections, -, habove, hsegs, hsections⟩ := exists_segmentsFrom ls
  obtain ⟨markup, hlayout, hmarkup⟩ := exists_foldl_layoutStep_titled entry hsections above
  rw [toFields, layout, hsegs, List.foldl_append, foldl_layoutStep_text, List.nil_append, hlayout]
  exact habove.append_markup hmarkup

end Numpy

/-! ## The indented dialect -/

namespace Google

/-- No line is the title of a section. -/
def Headless (ls : List String) : Prop := ∀ line ∈ ls, title? line = none

theorem title?_of_isMarkup {line : String} (h : IsMarkup line) : title? line = none := by
  have hstart : line.toList.head?.any Char.isAlpha = false := by
    cases hline : line.toList with
    | nil => rfl
    | cons c cs =>
      have hc := h c (by rw [hline]; rfl)
      simp only [List.mem_cons, List.not_mem_nil, or_false] at hc
      rcases hc with rfl | rfl | rfl <;> rfl
  unfold title?
  dsimp only
  rw [hstart]
  split <;> rfl

theorem segmentsFrom_of_headless {ls : List String} (h : Headless ls) :
    segmentsFrom none ls = ls.map .text := by
  induction ls with
  | nil => rfl
  | cons line ls ih =>
    obtain ⟨hline, hrest⟩ := List.forall_mem_cons.mp h
    rw [segmentsFrom, hline]
    exact congrArg (Segment.text line :: ·) (ih hrest)

/-- The plain lines are not titles. -/
theorem title?_of_mem_segmentsFrom {line : String} {ls : List String}
    {current : Option (String × List String)} (h : .text line ∈ segmentsFrom current ls) :
    title? line = none := by
  have hopen : ∀ current : Option (String × List String), .text line ∉ Segment.ofOpen current := by
    rintro (_ | current) hmem
    · cases hmem
    · cases List.mem_singleton.mp hmem
  induction ls generalizing current with
  | nil => exact absurd h (hopen current)
  | cons l ls ih =>
    rw [segmentsFrom] at h
    split at h
    · exact ih h
    · rcases List.mem_append.mp h with h | h
      · exact absurd h (hopen current)
      · split at h
        · exact ih h
        · next hnone =>
          rcases List.mem_cons.mp h with heq | h
          · rw [Segment.text.inj heq, hnone]
          · exact ih h

/-- **The field markup has no headers.** -/
theorem toFields_headless (ls : List String) : Headless (toFields ls) := fun _ hline =>
  (mem_layout hline).elim title?_of_mem_segmentsFrom title?_of_isMarkup

end Google

/-! ## All styles -/

namespace Style

/-- No section of the dialect begins in these lines. -/
def Headless : Style → List String → Prop
  | rst, _ => True
  | numpy, ls => Numpy.Headless ls
  | google, ls => Google.Headless ls

/-- **Lines without a header are their own field markup.** -/
theorem toFields_of_headless {style : Style} {ls : List String} (h : style.Headless ls) :
    style.toFields ls = ls := by
  cases style with
  | rst => rfl
  | numpy =>
    rw [toFields, Numpy.toFields, Numpy.segmentsFrom_of_headless h, layout_text]
  | google =>
    rw [toFields, Google.toFields, Google.segmentsFrom_of_headless h, layout_text]

theorem headless_toFields (style : Style) (ls : List String) :
    style.Headless (style.toFields ls) := by
  cases style with
  | rst => trivial
  | numpy => exact Numpy.toFields_headless ls
  | google => exact Google.toFields_headless ls

/-- **Making field markup is a projection**: nothing in field markup is taken for a header of the
dialect again, so that doing it twice gives the same lines. -/
theorem toFields_toFields (style : Style) (ls : List String) :
    style.Headless (style.toFields ls) ∧
      style.toFields (style.toFields ls) = style.toFields ls :=
  ⟨style.headless_toFields ls, toFields_of_headless (style.headless_toFields ls)⟩

end Style

end DocTree
