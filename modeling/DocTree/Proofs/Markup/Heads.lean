import DocTree.Proofs.Markup.ParamLines
import DocTree.Proofs.Text.Scans

/-!
# Heads of any kind

The head of an entry may be any text. Which heads of a parameter section end up as fields that
document a parameter depends on the name that the dialect reads off the head, and on nothing else.

* `isSetApart`: the names that a marker line can repeat;
* `Numpy.isOneLine_entry`, `Google.isOneLine_entry`: no part of a head is longer than its line;
* **`paramNames_of_heads`**: the fields of a section, head by head. A head whose name has a colon
  with more of the name right behind it is lost to a paragraph.
-/

namespace DocTree

open Text

/-! ## Names -/

/-- Whether a name has no colon, or a blank behind its first colon. -/
def isSetApart (name : String) : Bool :=
  match name.toList.dropWhile (· != ':') with
  | [] => true
  | _ :: behind => behind.head?.any isHardBlank

/-- **A marker line shows a name exactly if the first colon of the name is set apart.** -/
theorem isSome_shownName?_param (name : String) :
    (shownName? ("param " ++ name)).isSome = isSetApart name := by
  have hkeyword : ∀ c ∈ "param ".toList, (c != ':') = true := List.all_eq_true.mp rfl
  rw [shownName?, isSetApart, String.toList_append, List.dropWhile_append_of_pos hkeyword]
  cases name.toList.dropWhile (· != ':') with
  | nil => rfl
  | cons colon behind =>
    dsimp only
    split
    · next hblank => exact hblank.symm
    · next hblank => exact (Bool.eq_false_iff.mpr hblank).symm

/-! ## Heads on one line -/

theorem mem_of_mem_trim {s : String} {c : Char} (h : c ∈ (trim s).toList) : c ∈ s.toList := by
  rw [trim, String.toList_ofList] at h
  exact mem_of_mem_stripWhile h

namespace EntryText

/-- The head and each line below it are single lines. -/
structure IsOneLine (e : EntryText) : Prop where
  head : '\n' ∉ e.head.toList
  below : ∀ line ∈ e.below, '\n' ∉ line.toList

/-- The lines below the head stay single lines. -/
theorem IsOneLine.dedent {e : EntryText} (h : e.IsOneLine) :
    ∀ line ∈ dropEndWhile (·.isEmpty) (dedent e.below), '\n' ∉ line.toList := by
  intro line hline hmem
  obtain ⟨l, hl, rfl⟩ := List.mem_map.mp (mem_of_mem_dropEndWhile hline)
  exact h.below l hl (mem_of_mem_dropMargin hmem)

end EntryText

theorem Numpy.isOneLine_entry {head : String} {below : List String} (hhead : '\n' ∉ head.toList)
    (hbelow : ∀ line ∈ below, '\n' ∉ line.toList) : (entry .params head below).IsOneLine := by
  have hfirst : ∀ first ∈ below.head?, '\n' ∉ first.toList := fun first h =>
    hbelow first (List.mem_of_mem_head? h)
  rw [entry]
  split
  · next name type hcut =>
    obtain ⟨hsplit, -⟩ := cutColon_eq_some hcut
    have hparts : '\n' ∉ name ∧ '\n' ∉ type := by
      rw [hsplit] at hhead
      simpa [not_or] using hhead
    have hname : '\n' ∉ (trim (.ofList name)).toList := fun hmem =>
      hparts.1 (by simpa using mem_of_mem_trim hmem)
    have htype : '\n' ∉ (trim (.ofList type)).toList := fun hmem =>
      hparts.2 (by simpa using mem_of_mem_trim hmem)
    exact ⟨hname, htype, hfirst⟩
  · have hempty : '\n' ∉ "".toList := by simp
    exact ⟨hhead, hempty, hfirst⟩

namespace Google

/-- The characters of a name are characters of the text, and so are those behind it. -/
theorem mem_of_name? {cs name behind : List Char} (h : name? cs = some (name, behind)) :
    (∀ c ∈ name, c ∈ cs) ∧ ∀ c ∈ behind, c ∈ cs := by
  have hbehind : ∀ c ∈ cs.dropWhile (· == '*'), c ∈ cs := fun c hc =>
    (List.dropWhile_sublist _).mem hc
  rw [name?] at h
  split at h
  · next first rest hdrop =>
    split at h
    · simp only [Option.some.injEq, Prod.mk.injEq] at h
      obtain ⟨rfl, rfl⟩ := h
      refine ⟨List.forall_mem_append.mpr ⟨fun c hc => ?_, fun c hc => ?_⟩, fun c hc => ?_⟩
      · exact (List.takeWhile_sublist _).mem hc
      · exact hbehind c ((List.takeWhile_sublist _).mem hc)
      · exact hbehind c ((List.dropWhile_sublist _).mem hc)
    · cases h
  · cases h

theorem mem_of_nameAndType? {lead : List Char} {name type : String}
    (h : nameAndType? lead = some (name, type)) :
    (∀ c ∈ name.toList, c ∈ lead) ∧ ∀ c ∈ type.toList, c ∈ lead := by
  rw [nameAndType?] at h
  split at h
  · next start behind hname =>
    obtain ⟨hstart, hbehind⟩ := mem_of_name? hname
    split at h
    · next text hdrop =>
      split at h
      · simp only [Option.some.injEq, Prod.mk.injEq] at h
        obtain ⟨rfl, rfl⟩ := h
        refine ⟨by simpa using hstart, fun c hc => hbehind c ?_⟩
        have htext : c ∈ text := List.dropLast_subset _ (by simpa using mem_of_mem_trim hc)
        have hmem : c ∈ behind.dropWhile isSpace := by
          rw [hdrop]
          exact List.mem_cons_of_mem _ htext
        exact (List.dropWhile_sublist isSpace).mem hmem
      · cases h
    · cases h
  · cases h

/-- The entries that may be made of the texts in front of and behind the colon of a head. -/
theorem isOneLine_of_parts {lead first : String} {below : List String} (hlead : '\n' ∉ lead.toList)
    (hfirst : '\n' ∉ first.toList) (hbelow : ∀ line ∈ below, '\n' ∉ line.toList) :
    (∀ name type, nameAndType? lead.toList = some (name, type) →
      (Entry.mk name type (if first.isEmpty then below else first :: below)).IsOneLine) ∧
    (Entry.mk lead "" (if first.isEmpty then below else first :: below)).IsOneLine := by
  have hempty : '\n' ∉ "".toList := by simp
  have hdescription : ∀ line ∈ (if first.isEmpty then below else first :: below).head?,
      '\n' ∉ line.toList := by
    intro line hline
    split at hline
    · exact hbelow line (List.mem_of_mem_head? hline)
    · obtain rfl : first = line := by simpa using hline
      exact hfirst
  refine ⟨fun name type hread => ?_, ⟨hlead, hempty, hdescription⟩⟩
  obtain ⟨hname, htype⟩ := mem_of_nameAndType? hread
  exact ⟨fun hmem => hlead (hname _ hmem), fun hmem => hlead (htype _ hmem), hdescription⟩

theorem isOneLine_entry {head : String} {below : List String} (hhead : '\n' ∉ head.toList)
    (hbelow : ∀ line ∈ below, '\n' ∉ line.toList) : (entry .params head below).IsOneLine := by
  cases hcut : cutColon head.toList with
  | none =>
    have hempty : '\n' ∉ "".toList := by simp
    obtain ⟨htyped, huntyped⟩ := isOneLine_of_parts hhead hempty hbelow
    simp only [entry, hcut, SectionKind.isResult, Bool.false_eq_true, if_false]
    split
    · next hread => exact htyped _ _ hread
    · exact huntyped
  | some cut =>
    obtain ⟨lead, first⟩ := cut
    obtain ⟨hsplit, -⟩ := cutColon_eq_some hcut
    have hchars : '\n' ∉ lead ∧ '\n' ∉ first := by
      rw [hsplit] at hhead
      simpa [not_or] using hhead
    have hlead : '\n' ∉ (trim (.ofList lead)).toList := fun hmem =>
      hchars.1 (by simpa using mem_of_mem_trim hmem)
    have hfirst : '\n' ∉ (trim (.ofList first)).toList := fun hmem =>
      hchars.2 (by simpa using mem_of_mem_trim hmem)
    obtain ⟨htyped, huntyped⟩ := isOneLine_of_parts hlead hfirst hbelow
    simp only [entry, hcut, SectionKind.isResult, Bool.false_eq_true, if_false]
    split
    · next hread => exact htyped _ _ hread
    · exact huntyped

end Google

/-! ## The fields of a section -/

/-- The lines are read as a document with the names that the heads of the entries show, in their
order; and these are as many as there are heads exactly if each name is set apart. -/
def ShowsHeads (entry : SectionKind → String → List String → Entry) (entries : List EntryText)
    (ls : List String) : Prop :=
  ∃ doc, Document.ofLines ls = .ok doc ∧
    doc.paramNames = entries.filterMap (fun e => shownName? ("param " ++ (e.read entry).name)) ∧
    (doc.paramNames.length = entries.length ↔
      ∀ e ∈ entries, isSetApart (e.read entry).name = true)

theorem showsHeads_of_isOneLine {entry : SectionKind → String → List String → Entry}
    {entries : List EntryText} (h : ∀ e ∈ entries, (e.read entry).IsOneLine) :
    ShowsHeads entry entries
      ((entries.map (EntryText.read entry)).flatMap Entry.paramLines ++ [""]) := by
  obtain ⟨doc, hdoc, hnames⟩ := Entry.paramNames_of_paramLines (List.forall_mem_map.mpr h)
  rw [List.filterMap_map] at hnames
  refine ⟨doc, hdoc, hnames, ?_⟩
  rw [hnames, List.filterMap_length_eq_length]
  simp only [Function.comp_apply, isSome_shownName?_param]

/-- **A parameter section is read without an error, and its fields are those that its heads show.**
One field per head is what there is only if no name has a colon with more of the name right behind
it. -/
theorem paramNames_of_heads {entries : List EntryText} (hline : ∀ e ∈ entries, e.IsOneLine) :
    ((∀ e ∈ entries, e.IsAt 0 ∧ Numpy.isUnderline e.head = false) →
      ShowsHeads Numpy.entry entries (Numpy.toFields (Numpy.paramSection entries))) ∧
    ∀ base, 0 < base → (∀ e ∈ entries, e.IsAt base) →
      ShowsHeads Google.entry entries (Google.toFields (Google.paramSection base entries)) := by
  constructor
  · intro hat
    rw [Numpy.toFields_paramSection (fun e he => (hat e he).1) fun e he => (hat e he).2]
    exact showsHeads_of_isOneLine fun e he =>
      Numpy.isOneLine_entry (hline e he).head (hline e he).dedent
  · intro base hbase hat
    rw [Google.toFields_paramSection hbase hat]
    exact showsHeads_of_isOneLine fun e he =>
      Google.isOneLine_entry (hline e he).head (hline e he).dedent

/-- A head with a blank on both sides of its colon, and one without any. -/
def spaced : EntryText := ⟨"n : int", ["    How many."]⟩

def unspaced : EntryText := ⟨"x:int", ["    The x."]⟩

theorem spaced_isAt : spaced.IsAt 0 ∧ spaced.IsOneLine :=
  ⟨⟨by decide, by decide⟩, ⟨by decide, by decide⟩⟩

theorem unspaced_isAt : unspaced.IsAt 0 ∧ unspaced.IsOneLine :=
  ⟨⟨by decide, by decide⟩, ⟨by decide, by decide⟩⟩

/-- **The parameter `x:int` becomes a paragraph.** -/
theorem unspaced_lost :
    Document.ofLines (Numpy.toFields ["Parameters", "----------", "x:int", "    The x."]) =
      .ok ⟨[.paragraph ":param x:int: The x."]⟩ ∧
    ¬ ∀ entries : List EntryText,
      (∀ e ∈ entries, e.IsAt 0 ∧ e.IsOneLine ∧ Numpy.isUnderline e.head = false) →
      ∀ doc, Document.ofLines (Numpy.toFields (Numpy.paramSection entries)) = .ok doc →
        doc.paramNames.length = entries.length := by
  have hdoc : Document.ofLines (Numpy.toFields ["Parameters", "----------", "x:int", "    The x."]) =
      .ok ⟨[.paragraph ":param x:int: The x."]⟩ := rfl
  refine ⟨hdoc, fun hall => ?_⟩
  have hlength := hall [unspaced]
    (List.forall_mem_singleton.mpr ⟨unspaced_isAt.1, unspaced_isAt.2, by decide⟩) _ hdoc
  exact absurd hlength (by decide)

/-- Of the two heads, the first one is read as a parameter. -/
theorem paramNames_of_spaced :
    (∃ doc, Document.ofLines (Numpy.toFields
        ["Parameters", "----------", "n : int", "    How many.", "x:int", "    The x."]) = .ok doc ∧
      doc.paramNames = ["param n"]) ∧
    ∃ doc, Document.ofLines (Google.toFields ["Args:", "  n (int): How many."]) = .ok doc ∧
      doc.paramNames = ["param n"] := by
  have hlines : ∀ e ∈ [spaced, unspaced], e.IsOneLine := by
    simp [spaced_isAt.2, unspaced_isAt.2]
  have hat : ∀ e ∈ [spaced, unspaced], e.IsAt 0 ∧ Numpy.isUnderline e.head = false := by
    refine List.forall_mem_cons.mpr ⟨⟨spaced_isAt.1, by decide⟩, ?_⟩
    exact List.forall_mem_singleton.mpr ⟨unspaced_isAt.1, by decide⟩
  obtain ⟨doc, hdoc, hnames, -⟩ := (paramNames_of_heads hlines).1 hat
  have hline : ∀ e ∈ [EntryText.mk "n (int): How many." []], e.IsOneLine :=
    List.forall_mem_singleton.mpr ⟨by decide, by decide⟩
  obtain ⟨doc', hdoc', hnames', -⟩ := (paramNames_of_heads hline).2 2 (by omega)
    (List.forall_mem_singleton.mpr ⟨by decide, by decide⟩)
  exact ⟨⟨doc, hdoc, hnames⟩, doc', hdoc', hnames'⟩

end DocTree
