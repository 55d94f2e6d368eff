import DocTree.Markup.Normalize
import DocTree.Proofs.Markup.Chunks

/-!
# Lists of fields

A docstring that consists of fields, each on a line of its own, is the document of these fields.

* `FieldText`, `FieldText.line`: a field as it is written down;
* `IsPlain.isRead`: such a line is a marker;
* **`normalize_lines`**: the whole docstring.
-/

namespace DocTree

open Text

/-- A field with a name and a text on the same line. -/
structure FieldText where
  name : String
  text : String

namespace FieldText

/-- The line of a field. -/
def line (f : FieldText) : String := ":" ++ f.name ++ ": " ++ f.text

/-- The field as a block. -/
def block (f : FieldText) : Block := .field f.name f.text

/-- The name and the text have no white space around them and fit on a line, and the colon behind
the name is the first one. -/
structure IsPlain (f : FieldText) : Prop where
  name : PlainLine f.name
  text : PlainLine f.text
  noColon : ':' ∉ f.name.toList

variable {f : FieldText}

theorem toList_line (f : FieldText) :
    f.line.toList = [':'] ++ ((f.name.toList ++ [':', ' ']) ++ f.text.toList) := by
  rw [line, String.toList_append, String.toList_append, String.toList_append]
  simp

theorem IsPlain.plainLine (hf : f.IsPlain) : PlainLine f.line where
  tight := by
    have hcolon : Tight isSpace [':'] := by decide
    rw [toList_line]
    exact hcolon.append _ hf.text.tight
  noTab := by
    rw [toList_line]
    simp [hf.name.noTab, hf.text.noTab]
  noNewline := by
    rw [toList_line]
    simp [hf.name.noNewline, hf.text.noNewline]

/-- The field with the line that it is written on. -/
def single (f : FieldText) : FieldLines := ⟨f.name, f.text, f.line, []⟩

/-- **The line of a field is a marker.** -/
theorem IsPlain.isRead (hf : f.IsPlain) : f.single.IsRead where
  head := by
    simp only [single, line]
    rw [Marker.ofLine?_text hf.name.tight hf.noColon hf.text.noNewline,
      trim_of_tight hf.text.tight]
  below := by simp [single]

theorem block_single (htext : Tight isSpace f.text.toList) : f.single.block = f.block := by
  change Block.field f.name (joinTrimmed [f.text]) = _
  rw [joinTrimmed_singleton htext]
  rfl

/-- **A docstring of fields is the document of these fields.** -/
theorem normalize_lines {fields : List FieldText} (hfields : ∀ f ∈ fields, f.IsPlain) :
    normalize .rst (unlines (fields.map line)) = .ok ⟨fields.map block⟩ := by
  have hlines : ∀ l ∈ fields.map line, PlainLine l := by
    intro l hl
    obtain ⟨f, hf, rfl⟩ := List.mem_map.mp hl
    exact (hfields f hf).plainLine
  have hread : ∀ f ∈ fields.map single, f.IsRead := by
    intro f hf
    obtain ⟨g, hg, rfl⟩ := List.mem_map.mp hf
    exact (hfields g hg).isRead
  have hdoc := FieldLines.ofLines_lines hread
  have hmap : fields.map line = (fields.map single).flatMap FieldLines.lines := by
    rw [List.flatMap_map]
    exact List.map_eq_flatMap
  have hblocks : (fields.map single).map FieldLines.block = fields.map block := by
    rw [List.map_map]
    exact List.map_congr_left fun f hf => block_single (hfields f hf).text.tight
  rw [normalize, prepare_unlines hlines]
  change Document.ofLines (fields.map line) = _
  rw [hmap, hdoc, hblocks]

end FieldText

end DocTree
