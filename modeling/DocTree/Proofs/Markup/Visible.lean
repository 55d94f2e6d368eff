import DocTree.Proofs.Markup.Chunks
import DocTree.Proofs.Text.Visible

/-!
# Documents lose no text

Written out again, the blocks of a document have all characters of its lines but the white space, in
the order of the lines. Attributes are left out, since they are read from their content again.

* `Marker.source`, `Marker.visible_source`: a marker has the text of its line;
* `Chunk.lines`, `visible_chunks`: **the lines that belong to no chunk are blank**;
* `Chunk.IsRead`, `isRead_of_mem_chunks`: the marker of a chunk is that of its first line;
* `Block.source?`, `Chunk.IsRead.exists_block`: the block of a chunk has the text of its lines;
* **`ofLines_visible`**: so has a document.
-/

namespace DocTree

open Text

/-! ## Marker lines -/

namespace Marker

/-- The line of a marker, up to white space. -/
def source : Marker → String
  | field name text => ":" ++ name ++ ":" ++ text
  | directive kind title => ".." ++ kind ++ "::" ++ title

theorem isSpace_colon : isSpace ':' = false := rfl

theorem isSpace_of_isHardBlank {c : Char} (h : isHardBlank c = true) : isSpace c = true := by
  simp only [isHardBlank, Bool.or_eq_true, beq_iff_eq] at h
  rcases h with rfl | rfl <;> rfl

theorem visible_textBehind? {cs text : List Char} (h : textBehind? cs = some text) :
    cs.filter (!isSpace ·) = text.filter (!isSpace ·) := by
  cases cs with
  | nil =>
    cases h
    rfl
  | cons c cs =>
    rw [textBehind?, Option.ite_none_right_eq_some] at h
    obtain ⟨hblank, ⟨⟩⟩ := h
    have hspace := isSpace_of_isHardBlank (Bool.and_eq_true_iff.mp hblank).1
    rw [List.filter_cons_of_neg (by simp [hspace])]

theorem visible_field? {line : List Char} {marker : Marker} (h : field? line = some marker) :
    visible marker.source = line.filter (!isSpace ·) := by
  unfold field? at h
  split at h
  · next cs =>
    split at h
    · next c name colon behind hname hbehind =>
      split at h
      · cases h
      · obtain ⟨text, htext, rfl⟩ := Option.map_eq_some_iff.mp h
        have hcolon : colon = ':' := by
          have hfirst := List.head?_dropWhile_not (· != ':') cs
          rw [hbehind] at hfirst
          simpa using hfirst
        have hcs : c :: name ++ ':' :: behind = cs := by
          rw [← hcolon, ← hname, ← hbehind, List.takeWhile_append_dropWhile]
        have hmark : visible ":" = [':'] := rfl
        rw [source, ← hcs]
        generalize c :: name = chars
        simp [hmark, isSpace_colon, visible_textBehind? htext]
    · cases h
  · cases h

theorem visible_directive? {line : List Char} {marker : Marker} (h : directive? line = some marker) :
    visible marker.source = line.filter (!isSpace ·) := by
  unfold directive? at h
  split at h
  · next blank cs =>
    dsimp only at h
    split at h
    · next c kind title hkind htitle =>
      rw [Option.ite_none_right_eq_some] at h
      obtain ⟨hguard, ⟨⟩⟩ := h
      have hblank : isSpace blank = true := isSpace_of_isHardBlank (by simp_all)
      have hcs : c :: kind ++ ':' :: ':' :: title = cs.dropWhile isHardBlank := by
        rw [← hkind, ← htitle, List.takeWhile_append_dropWhile]
      have hfilter : cs.filter (!isSpace ·) =
          (c :: kind ++ ':' :: ':' :: title).filter (!isSpace ·) := by
        rw [hcs, filter_dropWhile fun _ => isSpace_of_isHardBlank]
      have hdots : visible ".." = ['.', '.'] := rfl
      have hcolons : visible "::" = [':', ':'] := rfl
      rw [source, List.filter_cons_of_pos rfl, List.filter_cons_of_pos rfl,
        List.filter_cons_of_neg (by simp [hblank]), hfilter]
      generalize c :: kind = chars
      simp [hdots, hcolons, isSpace_colon]
    · cases h
  · cases h

/-- **A marker has the text of its line.** -/
theorem visible_source {line : String} {marker : Marker} (h : ofLine? line = some marker) :
    visible marker.source = visible line := by
  rcases Option.or_eq_some_iff.mp h with hfield | ⟨-, hdirective⟩
  · exact visible_field? hfield
  · exact visible_directive? hdirective

end Marker

/-! ## Chunks -/

namespace Chunk

/-- The lines of a chunk. -/
def lines : Chunk → List String
  | marked _ line _ below => line :: below
  | prose ls => ls

theorem lines_push (line : String) (c : Chunk) : (c.push line).lines = c.lines ++ [line] := by
  cases c <;> rfl

theorem lines_start? (number : Nat) (line : String) :
    ((start? number line).toList.flatMap lines).flatMap visible = visible line := by
  unfold start?
  split
  · next hblank => rw [visible_of_blank hblank]; rfl
  · split <;> simp [lines]

/-- The marker of a chunk is that of its first line. -/
def IsRead : Chunk → Prop
  | marked _ line marker _ => Marker.ofLine? line = some marker
  | prose _ => True

theorem IsRead.push {c : Chunk} (h : c.IsRead) (line : String) : (c.push line).IsRead := by
  cases c <;> exact h

theorem isRead_of_start? {number : Nat} {line : String} {c : Chunk}
    (h : start? number line = some c) : c.IsRead := by
  unfold start? at h
  split at h
  · cases h
  · split at h
    · next hmarker =>
      cases h
      exact hmarker
    · cases h
      trivial

end Chunk

theorem visible_chunksFrom (number : Nat) (current : Option Chunk) (ls : List String) :
    ((chunksFrom number current ls).flatMap Chunk.lines).flatMap visible =
      (current.toList.flatMap Chunk.lines ++ ls).flatMap visible := by
  induction ls generalizing number current with
  | nil => rw [List.append_nil]; rfl
  | cons line rest ih =>
    rw [chunksFrom]
    split
    · next habsorbs =>
      cases current with
      | none => cases habsorbs
      | some c => simp [ih, Chunk.lines_push]
    · rw [List.flatMap_append, List.flatMap_append, ih, List.flatMap_append, Chunk.lines_start?,
        List.flatMap_append, List.flatMap_cons]

/-- **The lines that belong to no chunk are blank.** -/
theorem visible_chunks (ls : List String) :
    ((chunks ls).flatMap Chunk.lines).flatMap visible = ls.flatMap visible :=
  visible_chunksFrom 1 none ls

theorem isRead_of_mem_chunksFrom {c : Chunk} {number : Nat} {current : Option Chunk}
    {ls : List String} (hcurrent : ∀ d ∈ current, d.IsRead) (h : c ∈ chunksFrom number current ls) :
    c.IsRead := by
  induction ls generalizing number current with
  | nil => exact hcurrent c (Option.mem_toList.mp h)
  | cons line rest ih =>
    rw [chunksFrom] at h
    split at h
    · refine ih (fun d hd => ?_) h
      obtain ⟨e, he, rfl⟩ := Option.map_eq_some_iff.mp hd
      exact (hcurrent e he).push line
    · rcases List.mem_append.mp h with h | h
      · exact hcurrent c (Option.mem_toList.mp h)
      · exact ih (fun d hd => Chunk.isRead_of_start? hd) h

theorem isRead_of_mem_chunks {c : Chunk} {ls : List String} (h : c ∈ chunks ls) : c.IsRead :=
  isRead_of_mem_chunksFrom (by rintro _ ⟨⟩) h

/-! ## Blocks -/

/-- A block as it is written, up to white space. -/
def Block.source? : Block → Option String
  | paragraph text => some text
  | field name body => some (":" ++ name ++ ":" ++ body)
  | directive kind title body => some (".." ++ kind ++ "::" ++ title ++ body)
  | attr .. | see .. => none

/-- **The block of a chunk has the text of its lines**, unless it is an attribute. -/
theorem Chunk.IsRead.exists_block {c : Chunk} (h : c.IsRead)
    (hkind : ∀ title, c.marker? ≠ some (.directive "attribute" title))
    (readContent : List String → Except MarkupError (List Block)) :
    ∃ b text, c.block readContent = .ok b ∧ b.source? = some text ∧
      visible text = c.lines.flatMap visible := by
  match c with
  | .prose ls => exact ⟨_, _, rfl, rfl, visible_unlines ls⟩
  | .marked _ line (.field name text) below =>
    have hline := Marker.visible_source h
    refine ⟨_, _, rfl, rfl, ?_⟩
    rw [lines, List.flatMap_cons, ← hline, Marker.source]
    simp [visible_joinTrimmed, visible_dedent]
  | .marked number line (.directive kind title) below =>
    have hline := Marker.visible_source h
    have hother : kind ≠ "attribute" := by
      rintro rfl
      exact hkind title rfl
    refine ⟨.directive kind title (joinTrimmed (dedent below)), _, if_pos hother, rfl, ?_⟩
    rw [lines, List.flatMap_cons, ← hline, Marker.source]
    simp [visible_joinTrimmed, visible_dedent]

theorem exists_blocks {cs : List Chunk} (h : ∀ c ∈ cs, c.IsRead)
    (hkind : ∀ c ∈ cs, ∀ title, c.marker? ≠ some (.directive "attribute" title))
    (readContent : List String → Except MarkupError (List Block)) :
    ∃ (blocks : List Block) (texts : List String), cs.mapM (Chunk.block readContent) = .ok blocks ∧
      blocks.map Block.source? = texts.map some ∧
      texts.flatMap visible = (cs.flatMap Chunk.lines).flatMap visible := by
  induction cs with
  | nil => exact ⟨[], [], rfl, rfl, rfl⟩
  | cons c cs ih =>
    obtain ⟨hc, hcs⟩ := List.forall_mem_cons.mp h
    obtain ⟨hckind, hcskind⟩ := List.forall_mem_cons.mp hkind
    obtain ⟨b, text, hblock, hsource, hvisible⟩ := hc.exists_block hckind readContent
    obtain ⟨blocks, texts, hblocks, hsources, hrest⟩ := ih hcs hcskind
    refine ⟨b :: blocks, text :: texts, ?_, ?_, ?_⟩
    · rw [List.mapM_cons, hblock, hblocks]
      rfl
    · rw [List.map_cons, List.map_cons, hsource, hsources]
    · rw [List.flatMap_cons, List.flatMap_cons, List.flatMap_append, hvisible, hrest]

/-! ## Documents -/

/-- **Reading a document loses and invents no text.** If no line is an attribute, then the lines are
a document, and the blocks of it have the characters of the lines, apart from white space. -/
theorem ofLines_visible {ls : List String}
    (h : ∀ line ∈ ls, ∀ title, Marker.ofLine? line ≠ some (.directive "attribute" title)) :
    ∃ (doc : Document) (texts : List String), Document.ofLines ls = .ok doc ∧
      doc.blocks.map Block.source? = texts.map some ∧
      texts.flatMap visible = ls.flatMap visible := by
  have hkind : ∀ c ∈ chunks ls, ∀ title, c.marker? ≠ some (.directive "attribute" title) := by
    intro c hc title hmarker
    obtain ⟨line, hline, hmarker⟩ := exists_line_of_marker? hc hmarker
    exact h line hline title hmarker
  obtain ⟨blocks, texts, hblocks, htexts, hvisible⟩ :=
    exists_blocks (fun c hc => isRead_of_mem_chunks hc) hkind (blocksWithin (ls.length - 1))
  refine ⟨⟨blocks⟩, texts, (ofLines_eq_ok_iff (by omega)).mpr hblocks, htexts, ?_⟩
  rw [hvisible, visible_chunks]

namespace Sample

/-- Lines with blank ones and indented ones in each kind of block. -/
def notes : List String :=
  ["  Some.", ":param a : The", "", "    value.", ".. rubric:: Notes", "  :more: text ", "", "End."]

theorem ofLines_visible_of_notes :
    (∀ line ∈ notes, ∀ title, Marker.ofLine? line ≠ some (.directive "attribute" title)) ∧
    ∃ (doc : Document) (texts : List String), Document.ofLines notes = .ok doc ∧
      doc.blocks.map Block.source? = texts.map some ∧
      texts.flatMap visible = notes.flatMap visible := by
  have hmarkers : notes.filterMap Marker.ofLine? =
      [.field "param a" "The", .directive "rubric" "Notes"] := rfl
  have hnone : ∀ line ∈ notes, ∀ title,
      Marker.ofLine? line ≠ some (.directive "attribute" title) := by
    intro line hline title hmarker
    have hmem : Marker.directive "attribute" title ∈ notes.filterMap Marker.ofLine? :=
      List.mem_filterMap.mpr ⟨line, hline, hmarker⟩
    rw [hmarkers] at hmem
    simp at hmem
  exact ⟨hnone, ofLines_visible hnone⟩

/-- The blocks of these lines. -/
example : Document.ofLines notes = .ok ⟨[.paragraph "  Some.", .field "param a" "The\n\nvalue.",
    .directive "rubric" "Notes" ":more: text", .paragraph "End."]⟩ := rfl

end Sample

end DocTree
