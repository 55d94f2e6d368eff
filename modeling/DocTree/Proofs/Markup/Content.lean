import Mathlib.Data.List.Perm.Basic
import DocTree.Proofs.Markup.Attributes
import DocTree.Proofs.Markup.Visible

/-!
# What an attribute keeps of its content

The content of an attribute is a document of its own. Its first type field and its prose are kept,
and all other blocks of it are dropped.

* `ofLines_append_of_ends`: **lines are read piece by piece** where the second piece begins with a
  line that belongs to no chunk of the first;
* `ofLines_around_attribute`: the document around an attribute;
* `Block.Shows`, `exists_texts`, `exists_others`: the text of a document is that of its prose and
  that of its other blocks;
* `Block.AccountsFor`, **`accountsFor_iff`**: an attribute has all the text of its content exactly if
  that is prose and one type field;
* **`ofLines_attribute_keeps`**: when an attribute is read, and what it keeps.
-/

namespace DocTree

open Text

/-! ## Pieces -/

theorem chunksFrom_append {xs ys : List String} {number : Nat} {current : Option Chunk}
    (h : ∀ line ∈ ys.head?, ∀ c ∈ chunksFrom number current xs, c.absorbs line = false) :
    chunksFrom number current (xs ++ ys) =
      chunksFrom number current xs ++ chunksFrom (number + xs.length) none ys := by
  induction xs generalizing number current with
  | nil =>
    cases current with
    | none => rfl
    | some c => exact chunksFrom_some (fun line hline => h line hline c List.mem_cons_self) number
  | cons line xs ih =>
    have hnumber : number + (line :: xs).length = number + 1 + xs.length := by
      rw [List.length_cons]
      omega
    rw [chunksFrom] at h
    rw [List.cons_append, chunksFrom, chunksFrom, hnumber]
    split
    · next habsorbs =>
      rw [if_pos habsorbs] at h
      exact ih h
    · next habsorbs =>
      rw [if_neg habsorbs] at h
      rw [ih fun l hl c hc => h l hl c (List.mem_append_right _ hc), List.append_assoc]

/-- **Lines are read piece by piece** where a line begins that belongs to none of the chunks above. -/
theorem ofLines_append_of_ends {xs ys : List String}
    (h : ∀ line ∈ ys.head?, ∀ c ∈ chunks xs, c.absorbs line = false) {doc : Document} :
    Document.ofLines (xs ++ ys) = .ok doc ↔
      ∃ first second, Document.ofLines xs = .ok first ∧ Document.ofLines ys = .ok second ∧
        doc.blocks = first.blocks ++ second.blocks := by
  have hpadded : List.Forall₂ Chunk.Padded (chunks xs) (chunks xs) :=
    List.forall₂_same.mpr fun c _ => .refl c
  refine ofLines_eq_ok_iff_of_chunks (k := xs.length) hpadded ?_ (by simp)
  rw [chunks, chunksFrom_append h, Nat.add_comm 1 xs.length, chunks, chunks, Nat.add_comm xs.length,
    ← chunksFrom_moveDown, Option.map_none]

/-- **The document around an attribute.** The lines below the marker end at a line that is neither
blank nor indented. -/
theorem ofLines_around_attribute {below after : List String} {head title name : String}
    (hhead : Marker.ofLine? head = some (.directive "attribute" title))
    (htitle : words title = [name]) (hsee : name ≠ "see")
    (hbelow : ∀ line ∈ below, isBlank line = true ∨ 0 < indent line)
    (hafter : ∀ line ∈ after.head?, isBlank line = false ∧ indent line = 0) (before : List String)
    (doc : Document) :
    Document.ofLines (before ++ (head :: below ++ after)) = .ok doc ↔
      ∃ first inner typeBody second, Document.ofLines before = .ok first ∧
        Document.ofLines (dedent below) = .ok inner ∧
        inner.blocks.findSome? Block.typeBody? = some typeBody ∧
        Document.ofLines after = .ok second ∧
        doc.blocks = first.blocks ++
          .attr name typeBody (unlines (inner.blocks.filterMap Block.prose?)) :: second.blocks := by
  have hmarker : ∀ line ∈ (head :: below ++ after).head?, ∀ c ∈ chunks before,
      c.absorbs line = false := by
    rintro line ⟨⟩ c -
    by_contra habsorbs
    have hnone := Chunk.ofLine?_of_absorbs (by simpa using habsorbs)
    rw [hhead] at hnone
    cases hnone
  have hends : ∀ line ∈ after.head?, ∀ c ∈ chunks (head :: below), c.absorbs line = false := by
    intro line hline c hc
    rw [chunks_marked hhead hbelow, List.mem_singleton] at hc
    obtain ⟨hblank, hindent⟩ := hafter line hline
    simp [hc, Chunk.absorbs, hblank, hindent]
  rw [ofLines_append_of_ends hmarker]
  constructor
  · rintro ⟨first, rest, hfirst, hrest, hblocks⟩
    obtain ⟨single, second, hattribute, hsecond, hrest⟩ := (ofLines_append_of_ends hends).mp hrest
    obtain ⟨inner, typeBody, hinner, htype, hsingle⟩ :=
      (ofLines_directive_eq_ok_iff hhead htitle hsee hbelow).mp hattribute
    exact ⟨first, inner, typeBody, second, hfirst, hinner, htype, hsecond,
      by rw [hblocks, hrest, hsingle, List.singleton_append]⟩
  · rintro ⟨first, inner, typeBody, second, hfirst, hinner, htype, hsecond, hblocks⟩
    set b := Block.attr name typeBody (unlines (inner.blocks.filterMap Block.prose?))
    have hattribute : Document.ofLines (head :: below) = .ok ⟨[b]⟩ :=
      (ofLines_directive_eq_ok_iff hhead htitle hsee hbelow).mpr ⟨inner, typeBody, hinner, htype, rfl⟩
    have hrest : Document.ofLines (head :: below ++ after) = .ok ⟨b :: second.blocks⟩ :=
      (ofLines_append_of_ends hends).mpr ⟨_, second, hattribute, hsecond, rfl⟩
    exact ⟨first, _, hfirst, hrest, hblocks⟩

/-! ## The text of a document -/

/-- The text is that of the block, if it is written out again; there is some, unless it is prose. -/
structure Block.Shows (b : Block) (text : List Char) : Prop where
  source : ∀ source, b.source? = some source → visible source = text
  nonempty : b.prose? = none → text ≠ []

/-- The block of a chunk has its text. -/
theorem Chunk.IsRead.shows {readContent : List String → Except MarkupError (List Block)} {c : Chunk}
    {b : Block} (h : c.IsRead) (hb : c.block readContent = .ok b) :
    b.Shows (c.lines.flatMap visible) := by
  constructor
  · intro source hsource
    have hkind : ∀ title, c.marker? ≠ some (.directive "attribute" title) := by
      intro title hmarker
      match c with
      | .marked _ _ (.directive _ _) below =>
        cases hmarker
        rcases directiveBlock_cases hb with ⟨hother, -⟩ | ⟨-, ⟨_, rfl⟩ | ⟨_, _, _, rfl⟩⟩
        · exact hother rfl
        · cases hsource
        · cases hsource
    obtain ⟨b', text, hb', hsource', hvisible⟩ := h.exists_block hkind readContent
    rw [hb'] at hb
    cases hb
    rw [hsource'] at hsource
    cases hsource
    exact hvisible
  · intro hprose
    match c with
    | .prose ls =>
      cases hb
      cases hprose
    | .marked number line marker below =>
      rw [Chunk.lines, List.flatMap_cons]
      exact List.append_ne_nil_of_left_ne_nil (visible_ne_nil (Marker.not_isBlank_of_ofLine? h)) _

theorem exists_texts {ls : List String} {doc : Document} (h : Document.ofLines ls = .ok doc) :
    ∃ texts, List.Forall₂ Block.Shows doc.blocks texts ∧ texts.flatten = ls.flatMap visible := by
  refine ⟨(chunks ls).map fun c => c.lines.flatMap visible, ?_, ?_⟩
  · have hread : ∀ c ∈ chunks ls, c.IsRead := fun c hc => isRead_of_mem_chunks hc
    have hblocks := mapM_eq_ok_iff.mp (blocks_of_ofLines h)
    rw [List.forall₂_map_right_iff]
    exact ((List.forall₂_and_left _ _).mpr ⟨hread, hblocks⟩).flip.imp
      fun b c ⟨hc, hb⟩ => hc.shows hb
  · rw [← List.flatMap_def, ← List.flatMap_assoc, visible_chunks]

/-- The text is that of the prose and that of the other blocks. -/
theorem exists_others {blocks : List Block} {texts : List (List Char)}
    (h : List.Forall₂ Block.Shows blocks texts) :
    ∃ others, List.Forall₂ Block.Shows (blocks.filter (·.prose?.isNone)) others ∧
      texts.flatten.Perm ((blocks.filterMap Block.prose?).flatMap visible ++ others.flatten) := by
  induction h with
  | nil => exact ⟨[], .nil, .nil⟩
  | @cons b text blocks texts hb hrest ih =>
    obtain ⟨others, hothers, hperm⟩ := ih
    cases hprose : b.prose? with
    | none =>
      refine ⟨text :: others, ?_, ?_⟩
      · rw [List.filter_cons_of_pos (by rw [hprose]; rfl)]
        exact .cons hb hothers
      · rw [List.filterMap_cons_none hprose, List.flatten_cons, List.flatten_cons]
        exact (hperm.append_left text).trans (List.perm_append_comm_assoc ..)
    | some prose =>
      refine ⟨others, ?_, ?_⟩
      · rw [List.filter_cons_of_neg (by rw [hprose]; exact Bool.false_ne_true)]
        exact hothers
      · have htext : visible prose = text := by
          cases b <;> cases hprose
          exact hb.source _ rfl
        rw [List.filterMap_cons_some hprose, List.flatten_cons, List.flatMap_cons, htext,
          List.append_assoc]
        exact hperm.append_left _

theorem eq_nil_of_flatten {blocks : List Block} {texts : List (List Char)}
    (h : List.Forall₂ Block.Shows blocks texts) (hprose : ∀ b ∈ blocks, b.prose? = none)
    (hflatten : texts.flatten = []) : blocks = [] := by
  cases h with
  | nil => rfl
  | cons hb _ =>
    rw [List.flatten_cons, List.append_eq_nil_iff] at hflatten
    exact absurd hflatten.1 (hb.nonempty (hprose _ List.mem_cons_self))

/-- Blocks other than prose are a single one if they have no more text than it. -/
theorem eq_singleton_of_perm {blocks : List Block} {others : List (List Char)}
    (h : List.Forall₂ Block.Shows blocks others) (hprose : ∀ b ∈ blocks, b.prose? = none)
    {b : Block} (hb : b ∈ blocks) {source : String} (hsource : b.source? = some source) :
    (visible source).Perm others.flatten ↔ blocks = [b] := by
  constructor
  · intro hperm
    obtain ⟨above, below, rfl⟩ := List.append_of_mem hb
    have habove := (List.forall₂_take_append _ _ _ h.flip).flip
    have hrest := (List.forall₂_drop_append _ _ _ h.flip).flip
    rw [← List.take_append_drop above.length others, List.flatten_append] at hperm
    cases hdrop : others.drop above.length with
    | nil =>
      rw [hdrop] at hrest
      cases hrest
    | cons text behind =>
      rw [hdrop] at hrest hperm
      cases hrest with
      | cons htext hbehind =>
        rw [htext.source source hsource] at hperm
        have hlength := hperm.length_eq
        simp only [List.length_append, List.flatten_cons] at hlength
        have hnone := eq_nil_of_flatten habove (fun b hb => hprose b (List.mem_append_left _ hb))
          (List.length_eq_zero_iff.mp (by omega))
        have hnone' := eq_nil_of_flatten hbehind
          (fun b hb => hprose b (List.mem_append_right _ (List.mem_cons_of_mem _ hb)))
          (List.length_eq_zero_iff.mp (by omega))
        rw [hnone, hnone', List.nil_append]
  · rintro rfl
    cases h with
    | cons htext hnil =>
      cases hnil
      rw [htext.source source hsource, List.flatten_cons, List.flatten_nil, List.append_nil]

/-! ## What is kept -/

/-- The attribute has the characters of the content, in whatever order, apart from white space. -/
def Block.AccountsFor (content : List String) : Block → Prop
  | attr _ typeBody body => (visible (":type:" ++ typeBody ++ body)).Perm (content.flatMap visible)
  | _ => False

/-- The document is prose and one type field. -/
def Document.IsAttributeContent (doc : Document) : Prop :=
  ∃ typeBody, doc.blocks.filter (·.prose?.isNone) = [.field "type" typeBody]

theorem mem_of_findSome?_typeBody? {blocks : List Block} {typeBody : String}
    (h : blocks.findSome? Block.typeBody? = some typeBody) : .field "type" typeBody ∈ blocks := by
  obtain ⟨b, hb, htype⟩ := List.exists_of_findSome?_eq_some h
  unfold Block.typeBody? at htype
  split at htype
  · cases htype
    exact hb
  · cases htype

/-- **An attribute has all the text of its content exactly if that is prose and one type field.** -/
theorem accountsFor_iff {content : List String} {inner : Document} {typeBody : String}
    (h : Document.ofLines content = .ok inner)
    (htype : inner.blocks.findSome? Block.typeBody? = some typeBody) (name : String) :
    (Block.attr name typeBody (unlines (inner.blocks.filterMap Block.prose?))).AccountsFor content ↔
      inner.IsAttributeContent := by
  obtain ⟨texts, hshows, htexts⟩ := exists_texts h
  obtain ⟨others, hothers, hperm⟩ := exists_others hshows
  have hprose : ∀ b ∈ inner.blocks.filter (·.prose?.isNone), b.prose? = none := by simp
  have hmem : .field "type" typeBody ∈ inner.blocks.filter (·.prose?.isNone) :=
    List.mem_filter.mpr ⟨mem_of_findSome?_typeBody? htype, rfl⟩
  have hone := eq_singleton_of_perm hothers hprose hmem rfl
  have hcancel : (Block.attr name typeBody (unlines (inner.blocks.filterMap Block.prose?))).AccountsFor
      content ↔ (visible (":type:" ++ typeBody)).Perm others.flatten := by
    rw [Block.AccountsFor, ← htexts, visible_append, visible_unlines, hperm.congr_right,
      List.perm_append_comm.congr_left, List.perm_append_left_iff]
  rw [hcancel, Document.IsAttributeContent]
  constructor
  · intro hall
    exact ⟨typeBody, hone.mp hall⟩
  · rintro ⟨typeBody', hsingle⟩
    have hfield := List.mem_singleton.mp (hsingle ▸ hmem)
    exact hone.mpr (hsingle.trans (by rw [hfield]))

theorem exists_typeBody_iff {blocks : List Block} :
    (∃ typeBody, blocks.findSome? Block.typeBody? = some typeBody) ↔
      ∃ typeBody, .field "type" typeBody ∈ blocks := by
  constructor
  · rintro ⟨typeBody, htype⟩
    exact ⟨typeBody, mem_of_findSome?_typeBody? htype⟩
  · rintro ⟨typeBody, hmem⟩
    exact Option.isSome_iff_exists.mp (List.findSome?_isSome_iff.mpr ⟨_, hmem, rfl⟩)

/-- **When an attribute is read, and what it keeps.** All that it needs is a type field in its
content, whatever else is there, so the lines around it can be read if its content has one and they
are documents themselves. The first type and the prose become its block. This is all of the text of
the content, in any order, exactly if the content is prose and one type field. -/
theorem ofLines_attribute_keeps {before below after : List String} {head title name : String}
    (hhead : Marker.ofLine? head = some (.directive "attribute" title))
    (htitle : words title = [name]) (hsee : name ≠ "see")
    (hbelow : ∀ line ∈ below, isBlank line = true ∨ 0 < indent line)
    (hafter : ∀ line ∈ after.head?, isBlank line = false ∧ indent line = 0) :
    ((∃ doc, Document.ofLines (before ++ (head :: below ++ after)) = .ok doc) ↔
      (∃ first, Document.ofLines before = .ok first) ∧
      (∃ inner, Document.ofLines (dedent below) = .ok inner ∧
        ∃ typeBody, .field "type" typeBody ∈ inner.blocks) ∧
      ∃ second, Document.ofLines after = .ok second) ∧
    ∀ doc, Document.ofLines (before ++ (head :: below ++ after)) = .ok doc →
      ∃ first inner second typeBody body, Document.ofLines before = .ok first ∧
        Document.ofLines (dedent below) = .ok inner ∧ Document.ofLines after = .ok second ∧
        inner.blocks.findSome? Block.typeBody? = some typeBody ∧
        body = unlines (inner.blocks.filterMap Block.prose?) ∧
        doc.blocks = first.blocks ++ .attr name typeBody body :: second.blocks ∧
        ((Block.attr name typeBody body).AccountsFor (dedent below) ↔ inner.IsAttributeContent) := by
  have hread := ofLines_around_attribute hhead htitle hsee hbelow hafter before
  constructor
  · constructor
    · rintro ⟨doc, hdoc⟩
      obtain ⟨first, inner, typeBody, second, hfirst, hinner, htype, hsecond, -⟩ := (hread doc).mp hdoc
      exact ⟨⟨first, hfirst⟩, ⟨inner, hinner, exists_typeBody_iff.mp ⟨typeBody, htype⟩⟩,
        ⟨second, hsecond⟩⟩
    · rintro ⟨⟨first, hfirst⟩, ⟨inner, hinner, hfield⟩, ⟨second, hsecond⟩⟩
      obtain ⟨typeBody, htype⟩ := exists_typeBody_iff.mpr hfield
      exact ⟨⟨_⟩, (hread ⟨_⟩).mpr ⟨first, inner, typeBody, second, hfirst, hinner, htype, hsecond, rfl⟩⟩
  · intro doc hdoc
    obtain ⟨first, inner, typeBody, second, hfirst, hinner, htype, hsecond, hblocks⟩ :=
      (hread doc).mp hdoc
    exact ⟨first, inner, second, typeBody, _, hfirst, hinner, hsecond, htype, rfl, hblocks,
      accountsFor_iff hinner htype name⟩

namespace Sample

/-- An attribute between other blocks. Its content has a field that is no type. -/
theorem ofLines_attribute_keeps_of_unit :
    let head := ".. attribute:: width"
    let below := ["   :type: int", "   :unit: mm", "", "   The width."]
    let after := [":returns: Nothing."]
    Marker.ofLine? head = some (.directive "attribute" "width") ∧
    words "width" = ["width"] ∧ "width" ≠ "see" ∧
    (∀ line ∈ below, isBlank line = true ∨ 0 < indent line) ∧
    (∀ line ∈ after.head?, isBlank line = false ∧ indent line = 0) ∧
    Document.ofLines (["Sizes."] ++ (head :: below ++ after)) =
      .ok ⟨[.paragraph "Sizes.", .attr "width" "int" "The width.", .field "returns" "Nothing."]⟩ ∧
    ¬ (Block.attr "width" "int" "The width.").AccountsFor (dedent below) := by
  intro head below after
  have hhead : Marker.ofLine? head = some (.directive "attribute" "width") := by decide +kernel
  have hwords : words "width" = ["width"] := rfl
  have hsee : "width" ≠ "see" := by decide
  have hbelow : ∀ line ∈ below, isBlank line = true ∨ 0 < indent line := by decide
  have hafter : ∀ line ∈ after.head?, isBlank line = false ∧ indent line = 0 := by decide
  have hdoc : Document.ofLines (["Sizes."] ++ (head :: below ++ after)) =
      .ok ⟨[.paragraph "Sizes.", .attr "width" "int" "The width.", .field "returns" "Nothing."]⟩ := by
    decide +kernel
  have hcontent : Document.ofLines (dedent below) =
      .ok ⟨[.field "type" "int", .field "unit" "mm", .paragraph "The width."]⟩ := by
    decide +kernel
  refine ⟨hhead, hwords, hsee, hbelow, hafter, hdoc, fun h => ?_⟩
  obtain ⟨first, inner, second, typeBody, body, -, hinner, -, htype, rfl, -, haccounts⟩ :=
    (ofLines_attribute_keeps hhead hwords hsee hbelow hafter).2 _ hdoc
  rw [hcontent] at hinner
  cases hinner
  cases htype
  obtain ⟨typeBody, hsingle⟩ := haccounts.mp h
  cases hsingle

/-- The second type of an attribute is dropped. -/
theorem second_type_dropped :
    Document.ofLines [":type: int", ":type: str"] =
      .ok ⟨[.field "type" "int", .field "type" "str"]⟩ ∧
    Document.ofLines [".. attribute:: a", "   :type: int", "   :type: str"] =
      .ok ⟨[.attr "a" "int" ""]⟩ ∧
    ¬ (Block.attr "a" "int" "").AccountsFor [":type: int", ":type: str"] :=
  ⟨rfl, rfl, fun h => absurd h.length_eq (by decide +kernel)⟩

end Sample

end DocTree
