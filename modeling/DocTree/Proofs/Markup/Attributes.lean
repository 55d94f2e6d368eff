import DocTree.Proofs.Markup.Param
import DocTree.Proofs.Markup.ParamLines

/-!
# Attributes as directives

What the field markup of documented attributes is read as. The type of an attribute and its
description stand below one marker line, and what stands there is a document of its own.

* `groupEntries_trimmed`: how the lines of a description end;
* `ofLines_directive`: **the directive of an attribute**, given the document of its content;
* `Entry.IsAttribute`, `Entry.ofLines_content`: **the content of an attribute** is its type field,
  followed by the description;
* `Entry.ofLines_attributeLines`, **`ofLines_render_attributes`**: the attributes of a section.
-/

namespace DocTree

open Text

/-! ## Descriptions -/

/-- The lines below a head have no white space at their ends. -/
theorem groupEntries_trimmed {body description : List String} {head : String}
    (h : (head, description) ∈ groupEntries body) : ∀ line ∈ description, dropMargin 0 line = line := by
  obtain ⟨⟨_, below⟩, -, heq⟩ := List.mem_map.mp h
  obtain ⟨-, rfl⟩ := Prod.mk.inj heq
  intro line hline
  obtain ⟨l, -, rfl⟩ := List.mem_map.mp (mem_of_mem_dropEndWhile hline)
  exact dropMargin_zero_dropMargin _ l

/-! ## Directives -/

/-- **A line is a directive if two colons stand behind its kind**, which starts with a letter. -/
theorem Marker.ofLine?_directive {line : String} {c : Char} {kind title : List Char}
    (hline : line.toList = '.' :: '.' :: ' ' :: (c :: kind ++ ':' :: ':' :: title))
    (hc : c.isAlpha = true) (hkind : ∀ d ∈ c :: kind, isKindChar d = true)
    (htitle : '\n' ∉ title) :
    ofLine? line = some (.directive (.ofList (c :: kind)) (trim (.ofList title))) := by
  have hfield : field? ('.' :: '.' :: ' ' :: (c :: kind ++ ':' :: ':' :: title)) = none := rfl
  have hblank : isHardBlank c = false := by
    by_contra hblank
    have hcases : c = ' ' ∨ c = '\t' := by simpa [isHardBlank, or_iff_not_imp_left] using hblank
    rcases hcases with rfl | rfl <;> cases hc
  have hcolon : ¬ isKindChar ':' = true := by decide +kernel
  have htake : (c :: kind ++ ':' :: ':' :: title).takeWhile isKindChar = c :: kind := by
    rw [List.takeWhile_append_of_pos hkind, List.takeWhile_cons_of_neg hcolon, List.append_nil]
  have hdrop : (c :: kind ++ ':' :: ':' :: title).dropWhile isKindChar = ':' :: ':' :: title := by
    rw [List.dropWhile_append_of_pos hkind, List.dropWhile_cons_of_neg hcolon]
  have hcontains : title.contains '\n' = false := by simpa using htitle
  have hspace : isHardBlank ' ' = true := rfl
  rw [ofLine?, hline, hfield, Option.none_or, directive?]
  simp only [List.cons_append, List.dropWhile_cons_of_neg (Bool.eq_false_iff.mp hblank)] at htake hdrop ⊢
  simp only [htake, hdrop, hspace, hc, hcontains]
  rfl

/-- A chunk that is all lines. -/
theorem chunks_marked {head : String} {marker : Marker} {below : List String}
    (hhead : Marker.ofLine? head = some marker)
    (hbelow : ∀ line ∈ below, isBlank line = true ∨ 0 < indent line) :
    chunks (head :: below) = [.marked 1 head marker below] := by
  have hrest := FieldLines.chunksFrom_below hbelow 2 1 head marker [] []
  rw [List.append_nil] at hrest
  rw [chunks, chunksFrom, Option.any_none, if_neg Bool.false_ne_true, Chunk.start?_marked hhead,
    hrest]
  rfl

theorem startsUnindented_cons {head : String} {marker : Marker}
    (hhead : Marker.ofLine? head = some marker) (rest : List String) :
    StartsUnindented (head :: rest) := by
  intro line hline
  rw [List.find?_cons_of_pos (by rw [Marker.not_isBlank_of_ofLine? hhead]; rfl)] at hline
  obtain rfl := Option.some.inj hline
  obtain ⟨c, cs, hcons, hc⟩ := Marker.exists_cons_of_ofLine? hhead
  rw [hcons, List.head?_cons]
  rcases hc with rfl | rfl <;> simp

/-- A single name that is not the word for links: the content is read as a document. -/
theorem directiveBlock_attribute (readContent : List String → Except MarkupError (List Block))
    {title name : String} (htitle : words title = [name]) (hsee : name ≠ "see") (number : Nat)
    (line : String) (content : List String) :
    directiveBlock readContent number line "attribute" title content =
      readContent content >>= attributeBlock name := by
  rw [directiveBlock, if_neg (fun h => h rfl), htitle]
  split
  · next h => cases h
  · next h => exact absurd (List.cons_eq_cons.mp h).1 hsee
  · next h => exact absurd (List.cons_eq_cons.mp h).1 hsee
  · next h => rw [(List.cons_eq_cons.mp h).1]
  · next hsingle => exact (hsingle name rfl).elim

/-- **The document of an attribute's directive**, given that of its content. -/
theorem ofLines_directive {head title name : String} {below : List String}
    (hhead : Marker.ofLine? head = some (.directive "attribute" title))
    (htitle : words title = [name]) (hsee : name ≠ "see")
    (hbelow : ∀ line ∈ below, isBlank line = true ∨ 0 < indent line) :
    Document.ofLines (head :: below) =
      (Document.ofLines (dedent below)).bind fun inner =>
        (attributeBlock name inner.blocks).map fun b => ⟨[b]⟩ := by
  have hdepth : (head :: below).length ≤ (dedent below).length + 1 := by simp [length_dedent]
  rw [ofLines_eq_of_le hdepth, chunks_marked hhead hbelow, List.mapM_cons, Chunk.block,
    directiveBlock_attribute _ htitle hsee, Document.ofLines]
  cases blocksWithin (dedent below).length (dedent below) with
  | error e => rfl
  | ok inner =>
    change ((attributeBlock name inner >>= _).map _ : Except MarkupError Document) =
      (attributeBlock name inner).map _
    cases attributeBlock name inner <;> rfl

theorem ofLines_directive_eq_ok_iff {head title name : String} {below : List String}
    (hhead : Marker.ofLine? head = some (.directive "attribute" title))
    (htitle : words title = [name]) (hsee : name ≠ "see")
    (hbelow : ∀ line ∈ below, isBlank line = true ∨ 0 < indent line) {doc : Document} :
    Document.ofLines (head :: below) = .ok doc ↔
      ∃ inner typeBody, Document.ofLines (dedent below) = .ok inner ∧
        inner.blocks.findSome? Block.typeBody? = some typeBody ∧
        doc.blocks = [.attr name typeBody (unlines (inner.blocks.filterMap Block.prose?))] := by
  rw [ofLines_directive hhead htitle hsee hbelow]
  constructor
  · intro h
    obtain ⟨inner, hinner, h⟩ := ok_of_bind h
    obtain ⟨b, hb, rfl⟩ := ok_of_map h
    obtain ⟨typeBody, htype, rfl⟩ := attributeBlock_eq_ok_iff.mp hb
    exact ⟨inner, typeBody, hinner, htype, rfl⟩
  · rintro ⟨inner, typeBody, hinner, htype, hblocks⟩
    rw [hinner, Except.bind, attributeBlock_eq_ok_iff.mpr ⟨typeBody, htype, rfl⟩, Except.map,
      ← hblocks]

section Directive

variable {name : String} (hname : isIdentifier name = true)

include hname

/-- The marker line of an attribute. -/
theorem ofLine?_attribute :
    Marker.ofLine? (".. attribute:: " ++ name) = some (.directive "attribute" name) := by
  have hline : (".. attribute:: " ++ name).toList =
      '.' :: '.' :: ' ' :: ('a' :: ['t', 't', 'r', 'i', 'b', 'u', 't', 'e'] ++
        ':' :: ':' :: ' ' :: name.toList) := by
    rw [String.toList_append]
    rfl
  have hkind : ∀ d ∈ 'a' :: ['t', 't', 'r', 'i', 'b', 'u', 't', 'e'],
      Marker.isKindChar d = true := by decide +kernel
  have hnewline : '\n' ∉ ' ' :: name.toList := by
    have hname : '\n' ∉ name.toList := fun hmem =>
      absurd ((chars_of_isIdentifier hname).2 _ hmem).1 (by decide)
    simpa using hname
  have hshift : String.ofList (' ' :: name.toList) = shift 1 name := by
    rw [← String.toList_inj, toList_shift, String.toList_ofList]
    rfl
  have hattribute : String.ofList ('a' :: ['t', 't', 'r', 'i', 'b', 'u', 't', 'e']) =
      "attribute" := rfl
  rw [Marker.ofLine?_directive hline (by decide) hkind hnewline, hshift,
    trim_shift 1 (tight_of_isIdentifier hname), hattribute]

theorem ofLines_attribute (hsee : name ≠ "see") {content : List String}
    (hcontent : dedent content = content) {doc : Document} :
    Document.ofLines ((".. attribute:: " ++ name) :: content.map (indented 3)) = .ok doc ↔
      ∃ inner typeBody, Document.ofLines content = .ok inner ∧
        inner.blocks.findSome? Block.typeBody? = some typeBody ∧
        doc.blocks = [.attr name typeBody (unlines (inner.blocks.filterMap Block.prose?))] := by
  obtain ⟨hne, hchars⟩ := chars_of_isIdentifier hname
  have hwords : words name = [name] := words_eq_singleton hne fun c hc => (hchars c hc).1
  have hbelow : ∀ line ∈ content.map (indented 3), isBlank line = true ∨ 0 < indent line :=
    (movesRight_indented 3).right_of (by omega)
  rw [ofLines_directive_eq_ok_iff (ofLine?_attribute hname) hwords hsee hbelow,
    (movesRight_indented 3).dedent_map, hcontent]

end Directive

/-! ## Entries -/

/-- An attribute as the body of a section documents it. Its name is an identifier and not the word
for links, its type is a line without white space around it, and its description is what a body has
below a head. -/
structure Entry.IsAttribute (e : Entry) : Prop where
  isIdentifier : isIdentifier e.name = true
  notSee : e.name ≠ "see"
  type : Tight isSpace e.type.toList
  oneLine : '\n' ∉ e.type.toList
  description : ∃ head body, (head, e.description) ∈ groupEntries body

namespace Entry

/-- The lines below the marker of an attribute. -/
def content (e : Entry) : List String :=
  (":type: " ++ e.type) :: if e.description.isEmpty then [] else "" :: e.description

/-- The attribute as a block, with the prose of its description. -/
def IsShownAs (e : Entry) (b : Block) : Prop :=
  ∃ inner, Document.ofLines e.description = .ok inner ∧
    b = .attr e.name e.type (unlines (inner.blocks.filterMap Block.prose?))

variable {e : Entry} {entries : List Entry}

theorem attributeLines_eq (htype : e.type ≠ "") :
    attributeLines e =
      ((".. attribute:: " ++ e.name) :: e.content.map (indented 3)) ++ [""] := by
  have hne : e.type.isEmpty = false := by simpa using htype
  have hfirst : indented 3 (":type: " ++ e.type) = "   :type: " ++ e.type := by
    rw [indented, if_neg (by simp), ← String.append_assoc]
    rfl
  rw [attributeLines, typeLine, hne, if_neg Bool.false_ne_true, content, List.map_cons, hfirst]
  split <;> rfl

/-- The line of the type field. -/
theorem ofLines_type (htype : Tight isSpace e.type.toList) (hline : '\n' ∉ e.type.toList) :
    Document.ofLines [":type: " ++ e.type] = .ok ⟨[.field "type" e.type]⟩ := by
  have hmarker : Marker.ofLine? (":type: " ++ e.type) = some (.field "type" e.type) := by
    have hname : Tight isSpace "type".toList := by decide
    have hread := Marker.ofLine?_text hname (by decide) hline
    rwa [trim_of_tight htype] at hread
  have hread : ∀ f ∈ [FieldLines.mk "type" e.type (":type: " ++ e.type) []], f.IsRead :=
    List.forall_mem_singleton.mpr ⟨hmarker, fun _ h => nomatch h⟩
  have hbody : joinTrimmed (e.type :: dedent []) = e.type := joinTrimmed_singleton htype
  have hdoc := FieldLines.ofLines_lines hread
  rw [List.map_singleton, FieldLines.block, hbody] at hdoc
  exact hdoc

namespace IsAttribute

variable (he : e.IsAttribute)

include he

theorem dedent_content : dedent e.content = e.content := by
  have htight : Tight isSpace (":type: " ++ e.type).toList := by
    have hcolon : Tight isSpace ":type:".toList := by decide
    have hsplit : (":type: " ++ e.type).toList = ":type:".toList ++ ([' '] ++ e.type.toList) := by
      rw [String.toList_append]
      rfl
    rw [hsplit]
    exact hcolon.append _ he.type
  obtain ⟨head, body, hgroup⟩ := he.description
  have hmargin : margin e.content ≤ 0 := by
    rw [← indent_of_tight htight]
    exact margin_le List.mem_cons_self (not_isBlank_of_tight htight)
  refine dedent_eq_self (Nat.le_zero.mp hmargin)
    (List.forall_mem_cons.mpr ⟨dropMargin_zero_of_tight htight, ?_⟩)
  split
  · exact fun _ h => nomatch h
  · exact List.forall_mem_cons.mpr ⟨rfl, groupEntries_trimmed hgroup⟩

/-- **The content of an attribute** is its type field, followed by the description. -/
theorem ofLines_content (hstarts : StartsUnindented e.description) {doc : Document} :
    Document.ofLines e.content = .ok doc ↔
      ∃ inner, Document.ofLines e.description = .ok inner ∧
        doc.blocks = .field "type" e.type :: inner.blocks := by
  have htype := ofLines_type he.type he.oneLine
  rw [content]
  cases hdescription : e.description with
  | nil =>
    have hnil : Document.ofLines [] = .ok ⟨[]⟩ := rfl
    change Document.ofLines [":type: " ++ e.type] = .ok doc ↔ _
    rw [htype, hnil]
    constructor
    · rintro ⟨⟩
      exact ⟨_, rfl, rfl⟩
    · rintro ⟨_, ⟨⟩, hblocks⟩
      rw [← hblocks]
  | cons first rest =>
    rw [hdescription] at hstarts
    change Document.ofLines ([":type: " ++ e.type] ++ "" :: (first :: rest)) = .ok doc ↔ _
    rw [ofLines_append_eq_ok_iff hstarts, htype]
    constructor
    · rintro ⟨_, inner, ⟨⟩, hinner, hblocks⟩
      exact ⟨inner, hinner, hblocks⟩
    · rintro ⟨inner, hinner, hblocks⟩
      exact ⟨_, inner, rfl, hinner, hblocks⟩

/-- The markup of one attribute. -/
theorem ofLines_markup (hstarts : StartsUnindented e.description) {doc : Document} :
    Document.ofLines ((".. attribute:: " ++ e.name) :: e.content.map (indented 3)) = .ok doc ↔
      ∃ b, e.IsShownAs b ∧ doc.blocks = [b] := by
  rw [ofLines_attribute he.isIdentifier he.notSee he.dedent_content]
  constructor
  · rintro ⟨inner, typeBody, hinner, htype, hblocks⟩
    obtain ⟨description, hdescription, hcontent⟩ := (he.ofLines_content hstarts).mp hinner
    rw [hcontent] at htype hblocks
    cases htype
    exact ⟨_, ⟨description, hdescription, rfl⟩, hblocks⟩
  · rintro ⟨_, ⟨inner, hinner, rfl⟩, hblocks⟩
    have hcontent : Document.ofLines e.content = .ok ⟨.field "type" e.type :: inner.blocks⟩ :=
      (he.ofLines_content hstarts).mpr ⟨inner, hinner, rfl⟩
    exact ⟨_, e.type, hcontent, rfl, hblocks⟩

end IsAttribute

theorem startsUnindented_attributeLines (h : ∀ e ∈ entries, e.IsAttribute) :
    StartsUnindented (entries.flatMap attributeLines ++ [""]) := by
  cases entries with
  | nil => exact fun _ hline => nomatch hline
  | cons e entries =>
    have he := h e List.mem_cons_self
    exact startsUnindented_cons (ofLine?_attribute he.isIdentifier) _

/-- **Attributes below each other are read one by one.** -/
theorem ofLines_attributeLines (h : ∀ e ∈ entries, e.IsAttribute)
    (hstarts : ∀ e ∈ entries, StartsUnindented e.description) {doc : Document} :
    Document.ofLines (entries.flatMap attributeLines ++ [""]) = .ok doc ↔
      List.Forall₂ IsShownAs entries doc.blocks := by
  induction entries generalizing doc with
  | nil =>
    have hempty : Document.ofLines [""] = .ok ⟨[]⟩ := rfl
    change Document.ofLines [""] = .ok doc ↔ _
    rw [hempty, List.forall₂_nil_left_iff]
    constructor
    · rintro ⟨⟩
      rfl
    · intro hblocks
      rw [← hblocks]
  | cons e entries ih =>
    obtain ⟨he, hrest⟩ := List.forall_mem_cons.mp h
    obtain ⟨hstart, hstarts⟩ := List.forall_mem_cons.mp hstarts
    rw [List.flatMap_cons, attributeLines_eq (by simpa using he.type.ne_nil), List.append_assoc,
      List.append_assoc, List.singleton_append,
      ofLines_append_eq_ok_iff (startsUnindented_attributeLines hrest),
      List.forall₂_cons_left_iff]
    constructor
    · rintro ⟨first, second, hfirst, hsecond, hblocks⟩
      obtain ⟨b, hb, hsingle⟩ := (he.ofLines_markup hstart).mp hfirst
      exact ⟨b, second.blocks, hb, (ih hrest hstarts).mp hsecond, by rw [hblocks, hsingle]; rfl⟩
    · rintro ⟨b, bs, hb, hbs, hblocks⟩
      exact ⟨⟨[b]⟩, ⟨bs⟩, (he.ofLines_markup hstart).mpr ⟨b, hb, rfl⟩,
        (ih hrest hstarts).mpr hbs, hblocks⟩

end Entry

/-- **The attributes of a section are read back.** Each description is a document in the directive of
its attribute. If it begins at its margin, the markup is a document exactly if all descriptions are;
there is one block for each attribute then, with its name, its type and the prose of its
description. -/
theorem ofLines_render_attributes {entries : List Entry} (h : ∀ e ∈ entries, e.IsAttribute)
    (hstarts : ∀ e ∈ entries, StartsUnindented e.description) (title : String)
    (body : List String) :
    ((∃ doc, Document.ofLines (SectionKind.render .attributes title entries body) = .ok doc) ↔
      ∀ e ∈ entries, ∃ inner, Document.ofLines e.description = .ok inner) ∧
    ∀ doc, Document.ofLines (SectionKind.render .attributes title entries body) = .ok doc →
      List.Forall₂ Entry.IsShownAs entries doc.blocks := by
  have hread : ∀ doc, Document.ofLines (SectionKind.render .attributes title entries body) = .ok doc ↔
      List.Forall₂ Entry.IsShownAs entries doc.blocks := fun doc =>
    Entry.ofLines_attributeLines h hstarts
  refine ⟨⟨fun ⟨doc, hdoc⟩ e he => ?_, fun hinner => ?_⟩, fun doc => (hread doc).mp⟩
  · obtain ⟨b, inner, hinner, -⟩ := exists_forall₂_iff.mp ⟨_, (hread doc).mp hdoc⟩ e he
    exact ⟨inner, hinner⟩
  · obtain ⟨blocks, hblocks⟩ : ∃ blocks, List.Forall₂ Entry.IsShownAs entries blocks :=
      exists_forall₂_iff.mpr fun e he => (hinner e he).imp' _ fun inner h => ⟨inner, h, rfl⟩
    exact ⟨⟨blocks⟩, (hread _).mpr hblocks⟩

namespace Sample

/-- Two attributes, the first with a paragraph that stands further right. -/
def attributes : List Entry :=
  [⟨"x", "int = 3", ["The x:", "", "    more."]⟩, ⟨"y", "str", []⟩]

theorem ofLines_render_attributes_of_two :
    (∀ e ∈ attributes, e.IsAttribute) ∧
    (∀ e ∈ attributes, StartsUnindented e.description) ∧
    Document.ofLines (SectionKind.render .attributes "Attributes" attributes []) =
      .ok ⟨[.attr "x" "int = 3" "The x:\n    more.", .attr "y" "str" ""]⟩ ∧
    List.Forall₂ Entry.IsShownAs attributes
      [.attr "x" "int = 3" "The x:\n    more.", .attr "y" "str" ""] := by
  have h : ∀ e ∈ attributes, e.IsAttribute := by
    refine List.forall_mem_cons.mpr ⟨?_, List.forall_mem_singleton.mpr ?_⟩
    · exact ⟨by decide +kernel, by decide, by decide, by decide,
        "x : int = 3", ["x : int = 3", "  The x:", "", "      more."], by decide⟩
    · exact ⟨by decide +kernel, by decide, by decide, by decide, "y : str", ["y : str"], by decide⟩
  have hstarts : ∀ e ∈ attributes, StartsUnindented e.description := by
    refine List.forall_mem_cons.mpr ⟨?_, List.forall_mem_singleton.mpr ?_⟩
    · rintro line ⟨⟩
      decide
    · exact fun _ hline => nomatch hline
  have hdoc : Document.ofLines (SectionKind.render .attributes "Attributes" attributes []) =
      .ok ⟨[.attr "x" "int = 3" "The x:\n    more.", .attr "y" "str" ""]⟩ := rfl
  exact ⟨h, hstarts, hdoc, (ofLines_render_attributes h hstarts "Attributes" []).2 _ hdoc⟩

/-- A description with a directive that names nothing is no document, and one that begins further
right goes on the type field. -/
theorem attributes_not_read_back :
    (Entry.mk "x" "int" [".. attribute::"]).IsAttribute ∧
    Document.ofLines
        (SectionKind.render .attributes "Attributes" [⟨"x", "int", [".. attribute::"]⟩] []) =
      .error (.malformedDirective 3 ".. attribute::") ∧
    (Entry.mk "x" "int" ["    Deeper.", "Shallower."]).IsAttribute ∧
    Document.ofLines
        (SectionKind.render .attributes "Attributes"
          [⟨"x", "int", ["    Deeper.", "Shallower."]⟩] []) =
      .ok ⟨[.attr "x" "int\n\nDeeper." "Shallower."]⟩ := by
  refine ⟨⟨by decide +kernel, by decide, by decide, by decide, "x : int", ?_⟩, rfl,
    ⟨by decide +kernel, by decide, by decide, by decide, "x : int", ?_⟩, rfl⟩
  · exact ⟨["x : int", "    .. attribute::"], by decide⟩
  · exact ⟨["x : int", "        Deeper.", "    Shallower."], by decide⟩

end Sample

end DocTree
