import DocTree.Markup.Document
import DocTree.Proofs.Results
import DocTree.Proofs.Text.Margins

/-!
# What opens a block

Where the blocks of a document begin is decided line by line.

* `Marker.ofLine?_field`, `Marker.ofLine?_text`: when a line is read as a field, and as which one;
* `markers_chunks`: **the markers of the chunks are those of the lines**. No marker line is taken for
  a part of what stands above it, and nothing else is taken for a marker;
* `fieldNames_of_ofLines`, `exists_ofLines`: so the fields of a document are its field lines, and
  only directives can make it unreadable;
* `FieldLines`, **`FieldLines.ofLines_lines`**: fields that are written below each other, with
  their bodies.
-/

namespace DocTree

open Text

/-! ## Marker lines -/

namespace Marker

/-- The name of a field marker. -/
def fieldName? : Marker → Option String
  | field name _ => some name
  | directive .. => none

/-- A marker starts at column zero, with a colon or a dot. -/
theorem exists_cons_of_ofLine? {line : String} {marker : Marker}
    (h : ofLine? line = some marker) :
    ∃ c cs, line.toList = c :: cs ∧ (c = ':' ∨ c = '.') := by
  cases hline : line.toList with
  | nil => simp [ofLine?, hline, field?, directive?] at h
  | cons c cs =>
    refine ⟨c, cs, rfl, ?_⟩
    by_contra hc
    obtain ⟨hcolon, hdot⟩ := not_or.mp hc
    simp [ofLine?, hline, field?, directive?, hcolon, hdot] at h

theorem not_isBlank_of_ofLine? {line : String} {marker : Marker}
    (h : ofLine? line = some marker) : isBlank line = false := by
  obtain ⟨c, cs, hline, rfl | rfl⟩ := exists_cons_of_ofLine? h <;> simp [isBlank, hline, isSpace]

theorem indent_of_ofLine? {line : String} {marker : Marker} (h : ofLine? line = some marker) :
    indent line = 0 := by
  obtain ⟨c, cs, hline, rfl | rfl⟩ := exists_cons_of_ofLine? h <;> simp [indent, hline]

/-- A line that may belong to a marker above it is no marker. -/
theorem ofLine?_of_below {line : String} (h : isBlank line = true ∨ 0 < indent line) :
    ofLine? line = none := by
  cases hmarker : ofLine? line with
  | none => rfl
  | some marker =>
    rcases h with hblank | hindent
    · rw [not_isBlank_of_ofLine? hmarker] at hblank
      cases hblank
    · rw [indent_of_ofLine? hmarker] at hindent
      omega

/-- **A line is a field if its text is set apart from the colon that ends its name.** -/
theorem ofLine?_field {line : String} {c : Char} {name behind : List Char}
    (hline : line.toList = ':' :: (c :: name ++ ':' :: behind)) (hc : isSpace c = false)
    (hname : ':' ∉ c :: name) :
    ofLine? line =
      (textBehind? behind).map fun text =>
        .field (trim (.ofList (c :: name))) (trim (.ofList text)) := by
  have hdirective : directive? (':' :: (c :: name ++ ':' :: behind)) = none := rfl
  rw [ofLine?, hline, hdirective, Option.or_none, field?, takeWhile_ne hname, dropWhile_ne hname]
  simp [hc]

theorem exists_field_of_field? {cs : List Char} {marker : Marker} (h : field? cs = some marker) :
    ∃ name text, marker = .field name text := by
  unfold field? at h
  split at h
  · split at h
    · split at h
      · cases h
      · obtain ⟨text, -, rfl⟩ := Option.map_eq_some_iff.mp h
        exact ⟨_, _, rfl⟩
    · cases h
  · cases h

/-- A line that starts with a colon is no directive. -/
theorem not_directive_of_colon {line : String} {cs : List Char} (hline : line.toList = ':' :: cs)
    (kind title : String) : ofLine? line ≠ some (.directive kind title) := by
  intro h
  have hdirective : directive? (':' :: cs) = none := rfl
  rw [ofLine?, hline, hdirective, Option.or_none] at h
  obtain ⟨name, text, hmarker⟩ := exists_field_of_field? h
  cases hmarker

/-- The line of a field with a text. -/
theorem ofLine?_text {name text : String} (hname : Tight isSpace name.toList)
    (hcolon : ':' ∉ name.toList) (htext : '\n' ∉ text.toList) :
    ofLine? (":" ++ name ++ ": " ++ text) = some (.field name (trim text)) := by
  obtain ⟨c, tail, hcons, hc⟩ := hname.exists_cons
  have hline : (":" ++ name ++ ": " ++ text).toList =
      ':' :: (c :: tail ++ ':' :: ' ' :: text.toList) := by
    simp [hcons]
  have hbehind : textBehind? (' ' :: text.toList) = some text.toList := by
    simpa [textBehind?, isHardBlank] using htext
  rw [ofLine?_field hline hc (hcons ▸ hcolon), hbehind, ← hcons]
  simp [trim_of_tight hname]

/-- The line of a field without a text. -/
theorem ofLine?_empty {name : String} (hname : Tight isSpace name.toList)
    (hcolon : ':' ∉ name.toList) : ofLine? (":" ++ name ++ ":") = some (.field name "") := by
  obtain ⟨c, tail, hcons, hc⟩ := hname.exists_cons
  have hline : (":" ++ name ++ ":").toList = ':' :: (c :: tail ++ ':' :: []) := by simp [hcons]
  have htrim : trim (.ofList []) = "" := rfl
  rw [ofLine?_field hline hc (hcons ▸ hcolon), textBehind?, ← hcons]
  simp [trim_of_tight hname, htrim]

end Marker

/-! ## Chunks -/

/-- The marker of a chunk. -/
def Chunk.marker? : Chunk → Option Marker
  | marked _ _ marker _ => some marker
  | prose _ => none

theorem Chunk.marker?_push (line : String) (c : Chunk) : (c.push line).marker? = c.marker? := by
  cases c <;> rfl

theorem Chunk.ofLine?_of_absorbs {line : String} {c : Chunk} (h : c.absorbs line = true) :
    Marker.ofLine? line = none := by
  cases c with
  | prose ls =>
    simp only [absorbs, Bool.and_eq_true] at h
    simpa using h.2
  | marked number head marker below =>
    exact Marker.ofLine?_of_below (by simpa [absorbs] using h)

theorem Chunk.marker?_start? (number : Nat) (line : String) :
    (start? number line).bind marker? = Marker.ofLine? line := by
  cases hmarker : Marker.ofLine? line with
  | some marker => simp [start?, Marker.not_isBlank_of_ofLine? hmarker, hmarker, Chunk.marker?]
  | none =>
    rw [start?, hmarker]
    split <;> rfl

/-- A marker opens a chunk. -/
theorem Chunk.start?_marked {head : String} {marker : Marker}
    (h : Marker.ofLine? head = some marker) (number : Nat) :
    start? number head = some (.marked number head marker []) := by
  rw [start?, Marker.not_isBlank_of_ofLine? h, h]
  rfl

theorem markers_chunksFrom (number : Nat) (current : Option Chunk) (ls : List String) :
    (chunksFrom number current ls).filterMap Chunk.marker? =
      (current.bind Chunk.marker?).toList ++ ls.filterMap Marker.ofLine? := by
  have htoList : ∀ open? : Option Chunk,
      open?.toList.filterMap Chunk.marker? = (open?.bind Chunk.marker?).toList := by
    rintro (_ | c)
    · rfl
    · cases h : c.marker? <;> simp [h]
  induction ls generalizing number current with
  | nil => simp [chunksFrom, htoList]
  | cons line rest ih =>
    rw [chunksFrom]
    split
    · next habsorbs =>
      cases current with
      | none => simp at habsorbs
      | some c =>
        have hline := Chunk.ofLine?_of_absorbs (by simpa using habsorbs)
        simp [ih, Chunk.marker?_push, hline]
    · rw [List.filterMap_append, ih, htoList, Chunk.marker?_start?]
      cases hline : Marker.ofLine? line <;> simp [hline]

/-- **The markers of the chunks are those of the lines.** -/
theorem markers_chunks (ls : List String) :
    (chunks ls).filterMap Chunk.marker? = ls.filterMap Marker.ofLine? := by
  rw [chunks, markers_chunksFrom]
  rfl

theorem exists_line_of_marker? {c : Chunk} {ls : List String} {marker : Marker} (hc : c ∈ chunks ls)
    (h : c.marker? = some marker) : ∃ line ∈ ls, Marker.ofLine? line = some marker := by
  have hmem : marker ∈ ls.filterMap Marker.ofLine? := by
    rw [← markers_chunks]
    exact List.mem_filterMap.mpr ⟨c, hc, h⟩
  exact List.mem_filterMap.mp hmem

theorem length_chunksFrom_le (number : Nat) (current : Option Chunk) (ls : List String) :
    (chunksFrom number current ls).length ≤
      current.toList.length + (ls.filter (!isBlank ·)).length := by
  induction ls generalizing number current with
  | nil => simp [chunksFrom]
  | cons line rest ih =>
    rw [chunksFrom, List.filter_cons]
    split
    · have hrest := ih (number + 1) (current.map (·.push line))
      have hopen : (current.map (·.push line)).toList.length = current.toList.length := by
        cases current <;> rfl
      split <;> simp_all
      omega
    · have hrest := ih (number + 1) (Chunk.start? number line)
      rw [List.length_append]
      cases hblank : isBlank line with
      | true =>
        have hnone : Chunk.start? number line = none := by simp [Chunk.start?, hblank]
        rw [hnone] at hrest ⊢
        simp only [Option.toList_none, List.length_nil] at hrest
        simp only [Bool.not_true, Bool.false_eq_true, if_false]
        omega
      | false =>
        have hone : (Chunk.start? number line).toList.length ≤ 1 := by
          cases Chunk.start? number line <;> simp
        simp only [Bool.not_false, if_true, List.length_cons]
        omega

/-! ## The fields of a document -/

/-- The name of a field. -/
def Block.fieldName? : Block → Option String
  | field name _ => some name
  | _ => none

/-- The names of the fields. -/
def Document.fieldNames (doc : Document) : List String := doc.blocks.filterMap Block.fieldName?

/-- The names of the field lines. -/
def fieldNames (ls : List String) : List String :=
  ls.filterMap fun line => (Marker.ofLine? line).bind Marker.fieldName?

/-- The blocks of a document are those of its chunks, with any bound that is large enough. -/
theorem ofLines_eq_of_le {ls : List String} {depth : Nat} (h : ls.length ≤ depth + 1) :
    Document.ofLines ls =
      ((chunks ls).mapM (Chunk.block (blocksWithin depth))).map Document.mk := by
  rw [Document.ofLines, blocksWithin_eq le_rfl h]
  rfl

theorem ofLines_eq_ok_iff {ls : List String} {depth : Nat} (h : ls.length ≤ depth + 1)
    {doc : Document} :
    Document.ofLines ls = .ok doc ↔
      (chunks ls).mapM (Chunk.block (blocksWithin depth)) = .ok doc.blocks := by
  rw [ofLines_eq_of_le h]
  cases (chunks ls).mapM (Chunk.block (blocksWithin depth)) with
  | error e => exact ⟨(nomatch ·), (nomatch ·)⟩
  | ok blocks =>
    constructor
    · rintro ⟨⟩
      rfl
    · rintro ⟨⟩
      rfl

theorem ofLines_eq_error_iff {ls : List String} {depth : Nat} (h : ls.length ≤ depth + 1)
    {e : MarkupError} :
    Document.ofLines ls = .error e ↔
      (chunks ls).mapM (Chunk.block (blocksWithin depth)) = .error e := by
  rw [ofLines_eq_of_le h]
  cases (chunks ls).mapM (Chunk.block (blocksWithin depth)) with
  | error e' =>
    constructor
    · rintro ⟨⟩
      rfl
    · rintro ⟨⟩
      rfl
  | ok blocks => exact ⟨(nomatch ·), (nomatch ·)⟩

theorem ofLines_eq (ls : List String) :
    Document.ofLines ls =
      ((chunks ls).mapM (Chunk.block (blocksWithin (ls.length - 1)))).map Document.mk :=
  ofLines_eq_of_le (by omega)

theorem blocks_of_ofLines {ls : List String} {doc : Document} (h : Document.ofLines ls = .ok doc) :
    (chunks ls).mapM (Chunk.block (blocksWithin (ls.length - 1))) = .ok doc.blocks :=
  (ofLines_eq_ok_iff (by omega)).mp h

theorem length_blocks_le {ls : List String} {doc : Document} (h : Document.ofLines ls = .ok doc) :
    doc.blocks.length ≤ (ls.filter (!isBlank ·)).length := by
  have hle := length_chunksFrom_le 1 none ls
  rw [length_of_mapM (blocks_of_ofLines h), chunks]
  simpa using hle

/-- **An attribute needs a type field, and nothing else.** -/
theorem attributeBlock_eq_ok_iff {name : String} {content : List Block} {b : Block} :
    attributeBlock name content = .ok b ↔
      ∃ typeBody, content.findSome? Block.typeBody? = some typeBody ∧
        b = .attr name typeBody (unlines (content.filterMap Block.prose?)) := by
  rw [attributeBlock]
  cases content.findSome? Block.typeBody? with
  | none => simp
  | some typeBody => simp [eq_comm]

/-- What a directive is read as. -/
theorem directiveBlock_cases {readContent : List String → Except MarkupError (List Block)}
    {number : Nat} {line kind title : String} {content : List String} {b : Block}
    (h : directiveBlock readContent number line kind title content = .ok b) :
    kind ≠ "attribute" ∧ b = .directive kind title (joinTrimmed content) ∨
      kind = "attribute" ∧ ((∃ target, b = .see target) ∨ ∃ name type body, b = .attr name type body) := by
  unfold directiveBlock at h
  split at h
  · next hkind =>
    cases h
    exact .inl ⟨hkind, rfl⟩
  · next hkind =>
    refine .inr ⟨not_not.mp hkind, ?_⟩
    split at h
    · cases h
    · cases h
    · split at h
      · cases h
      · cases h
        exact .inl ⟨_, rfl⟩
    · obtain ⟨inner, -, hblock⟩ := ok_of_bind h
      obtain ⟨typeBody, -, rfl⟩ := attributeBlock_eq_ok_iff.mp hblock
      exact .inr ⟨_, _, _, rfl⟩
    · cases h

theorem fieldName?_block {readContent : List String → Except MarkupError (List Block)} {c : Chunk}
    {b : Block} (h : c.block readContent = .ok b) :
    b.fieldName? = c.marker?.bind Marker.fieldName? := by
  match c with
  | .prose ls => cases h; rfl
  | .marked _ _ (.field name text) below => cases h; rfl
  | .marked _ _ (.directive kind title) below =>
    rcases directiveBlock_cases h with ⟨-, rfl⟩ | ⟨-, ⟨_, rfl⟩ | ⟨_, _, _, rfl⟩⟩ <;> rfl

/-- **The fields of a document are its field lines.** -/
theorem fieldNames_of_ofLines {ls : List String} {doc : Document}
    (h : Document.ofLines ls = .ok doc) : doc.fieldNames = fieldNames ls := by
  rw [Document.fieldNames, filterMap_of_mapM (fun _ _ => fieldName?_block) (blocks_of_ofLines h),
    fieldNames, ← List.filterMap_filterMap, markers_chunks, List.filterMap_filterMap]

/-- **Only directives can make a document unreadable.** -/
theorem exists_ofLines {ls : List String}
    (h : ∀ line ∈ ls, ∀ kind title, Marker.ofLine? line ≠ some (.directive kind title)) :
    ∃ doc, Document.ofLines ls = .ok doc := by
  have hblock : ∀ c ∈ chunks ls, ∃ b, c.block (blocksWithin (ls.length - 1)) = .ok b := by
    intro c hc
    match c with
    | .prose ls => exact ⟨_, rfl⟩
    | .marked _ _ (.field name text) below => exact ⟨_, rfl⟩
    | .marked _ _ (.directive kind title) below =>
      obtain ⟨line, hline, hmarker⟩ := exists_line_of_marker? hc rfl
      exact absurd hmarker (h line hline kind title)
  obtain ⟨blocks, hblocks⟩ := exists_mapM hblock
  exact ⟨⟨blocks⟩, by rw [ofLines_eq, hblocks]; rfl⟩

/-! ## Fields below each other -/

/-- A field as it is written down: the line of its marker, and the lines that belong to it. -/
structure FieldLines where
  name : String
  text : String
  head : String
  below : List String

namespace FieldLines

variable {f : FieldLines} {fields : List FieldLines}

def lines (f : FieldLines) : List String := f.head :: f.below

def block (f : FieldLines) : Block := .field f.name (joinTrimmed (f.text :: dedent f.below))

/-- The chunk that begins on the line with this number. -/
def chunk (number : Nat) (f : FieldLines) : Chunk :=
  .marked number f.head (.field f.name f.text) f.below

/-- The first line is the marker of the field, and the others belong to it. -/
structure IsRead (f : FieldLines) : Prop where
  head : Marker.ofLine? f.head = some (.field f.name f.text)
  below : ∀ line ∈ f.below, isBlank line = true ∨ 0 < indent line

/-- Lines that belong to the marker above them. -/
theorem chunksFrom_below {below : List String}
    (h : ∀ line ∈ below, isBlank line = true ∨ 0 < indent line) (number start : Nat) (head : String)
    (marker : Marker) (above rest : List String) :
    chunksFrom number (some (.marked start head marker above)) (below ++ rest) =
      chunksFrom (number + below.length) (some (.marked start head marker (above ++ below)))
        rest := by
  induction below generalizing number above with
  | nil => simp
  | cons line below ih =>
    obtain ⟨hline, hbelow⟩ := List.forall_mem_cons.mp h
    have habsorbs : (Chunk.marked start head marker above).absorbs line = true := by
      simpa [Chunk.absorbs] using hline
    have hstep := ih hbelow (number + 1) (above ++ [line])
    simp only [List.append_assoc, List.singleton_append] at hstep
    rw [List.cons_append, chunksFrom, Option.any_some, habsorbs, if_pos rfl, Option.map_some,
      Chunk.push, hstep, List.length_cons]
    congr 1
    omega

/-- The line of a marker belongs to no chunk above it. -/
theorem IsRead.not_absorbs (hf : f.IsRead) (current : Option Chunk) :
    current.any (·.absorbs f.head) = false := by
  by_contra habsorbs
  obtain ⟨c, -, hc⟩ := (Option.any_eq_true _ _).mp (by simpa using habsorbs)
  have hnone := Chunk.ofLine?_of_absorbs hc
  rw [hf.head] at hnone
  cases hnone

/-- The chunks of fields on the lines from `number` on. -/
def chunksOf (number : Nat) : List FieldLines → List Chunk
  | [] => []
  | f :: fields => f.chunk number :: chunksOf (number + 1 + f.below.length) fields

theorem chunksFrom_lines (hfields : ∀ f ∈ fields, f.IsRead) (number : Nat)
    (current : Option Chunk) :
    chunksFrom number current (fields.flatMap lines) =
      current.toList ++ chunksOf number fields := by
  induction fields generalizing number current with
  | nil => simp [chunksFrom, chunksOf]
  | cons f fields ih =>
    obtain ⟨hf, hrest⟩ := List.forall_mem_cons.mp hfields
    rw [List.flatMap_cons, lines, List.cons_append, chunksFrom, hf.not_absorbs,
      if_neg Bool.false_ne_true, Chunk.start?_marked hf.head, chunksFrom_below hf.below, ih hrest]
    simp [chunksOf, chunk]

/-- **Fields below each other are read with their names and their bodies.** -/
theorem ofLines_lines (hfields : ∀ f ∈ fields, f.IsRead) :
    Document.ofLines (fields.flatMap lines) = .ok ⟨fields.map block⟩ := by
  have hblocks : ∀ number readContent,
      (chunksOf number fields).mapM (Chunk.block readContent) = .ok (fields.map block) := by
    intro number readContent
    induction fields generalizing number with
    | nil => rfl
    | cons f fields ih =>
      rw [chunksOf, List.mapM_cons, ih (List.forall_mem_cons.mp hfields).2]
      rfl
  rw [ofLines_eq, chunks, chunksFrom_lines hfields, Option.toList_none, List.nil_append, hblocks]
  rfl

end FieldLines

end DocTree
