import DocTree.Proofs.Markup.Visible

/-!
# The lines that errors name

Where the directive stands that an error complains of. The lines of a document count from one, and
so do those of the content of an attribute, so the number that is reported counts from the beginning
of the innermost content.

* `Chunk.EndsWith`, `exists_split_of_mem_chunks`: **where a chunk stands**, and with which number;
* `HasContent`: the content of an attribute at any depth, with the number of lines above it;
* `HasContent.exists_getElem?`: its lines are lines of the document;
* `malformedDirective_cases`: where the error comes from, one step;
* `exists_content_of_malformedDirective`: and all the steps;
* **`ofLines_malformedDirective`**: the line in the content, and the line in the document.
-/

namespace DocTree

open Text

/-! ## Where a chunk stands -/

/-- The chunk is the last of the lines, and has the number of the line that it begins with. -/
def Chunk.EndsWith (ls : List String) : Chunk → Prop
  | marked number line _ below =>
    (∃ before, ls = before ++ line :: below ∧ number = before.length + 1) ∧
      ∀ l ∈ below, isBlank l = true ∨ 0 < indent l
  | prose lines => ∃ before, ls = before ++ lines

section Place

variable {c : Chunk} {seen ls : List String} {line : String}

theorem Chunk.EndsWith.push (h : c.EndsWith ls) (habsorbs : c.absorbs line = true) :
    (c.push line).EndsWith (ls ++ [line]) := by
  cases c with
  | marked number head marker below =>
    obtain ⟨⟨before, rfl, hnumber⟩, hbelow⟩ := h
    refine ⟨⟨before, by simp, hnumber⟩, List.forall_mem_append.mpr ⟨hbelow, ?_⟩⟩
    exact List.forall_mem_singleton.mpr (by simpa [absorbs] using habsorbs)
  | prose lines =>
    obtain ⟨before, rfl⟩ := h
    exact ⟨before, List.append_assoc _ _ _⟩

theorem Chunk.endsWith_of_start? (h : start? (seen.length + 1) line = some c) :
    c.EndsWith (seen ++ [line]) := by
  unfold start? at h
  split at h
  · cases h
  · split at h
    · cases h
      exact ⟨⟨seen, rfl, rfl⟩, nofun⟩
    · cases h
      exact ⟨seen, rfl⟩

/-- The lines up to the end of a chunk, and those behind it. -/
theorem exists_split_of_mem_chunksFrom (seen : List String) {current : Option Chunk}
    (hcurrent : ∀ d ∈ current, d.EndsWith seen) (h : c ∈ chunksFrom (seen.length + 1) current ls) :
    ∃ front after, seen ++ ls = front ++ after ∧ c.EndsWith front ∧
      ∀ l ∈ after.head?, c.absorbs l = false := by
  induction ls generalizing seen current with
  | nil => exact ⟨seen, [], rfl, hcurrent c (Option.mem_toList.mp h), nofun⟩
  | cons line rest ih =>
    have hlength : seen.length + 1 + 1 = (seen ++ [line]).length + 1 := by simp
    rw [List.append_cons]
    rw [chunksFrom, hlength] at h
    split at h
    · next habsorbs =>
      refine ih (seen ++ [line]) (fun d hd => ?_) h
      obtain ⟨e, he, rfl⟩ := Option.map_eq_some_iff.mp hd
      rw [he] at habsorbs
      exact (hcurrent e he).push habsorbs
    · next habsorbs =>
      rcases List.mem_append.mp h with h | h
      · have hc := Option.mem_toList.mp h
        refine ⟨seen, line :: rest, by simp, hcurrent c hc, ?_⟩
        rintro _ ⟨⟩
        rw [hc] at habsorbs
        simpa using habsorbs
      · exact ih (seen ++ [line]) (fun d hd => Chunk.endsWith_of_start? hd) h

/-- **Where a chunk stands** among the lines. -/
theorem exists_split_of_mem_chunks (h : c ∈ chunks ls) :
    ∃ front after, ls = front ++ after ∧ c.EndsWith front ∧
      ∀ l ∈ after.head?, c.absorbs l = false :=
  exists_split_of_mem_chunksFrom [] (by rintro _ ⟨⟩) h

end Place

/-! ## Contents -/

/-- The lines `inner` are the document itself, or the content of an attribute in it, at any depth;
`offset` lines stand above them. -/
inductive HasContent : List String → Nat → List String → Prop where
  | self (ls : List String) : HasContent ls 0 ls
  | inside {before below after inner : List String} {head title name : String} {offset : Nat}
      (hhead : Marker.ofLine? head = some (.directive "attribute" title))
      (htitle : words title = [name]) (hname : name ≠ "see")
      (hbelow : ∀ line ∈ below, isBlank line = true ∨ 0 < indent line)
      (hafter : ∀ line ∈ after.head?, isBlank line = false ∧ indent line = 0)
      (h : HasContent (dedent below) offset inner) :
      HasContent (before ++ head :: (below ++ after)) (before.length + 1 + offset) inner

namespace HasContent

variable {ls inner : List String} {offset : Nat}

theorem length_le (h : HasContent ls offset inner) : offset + inner.length ≤ ls.length := by
  induction h with
  | self ls => rw [Nat.zero_add]
  | inside _ _ _ _ _ _ ih =>
    rw [length_dedent] at ih
    simp only [List.length_append, List.length_cons]
    omega

/-- Only the document itself has no lines above. -/
theorem offset_eq_zero_iff (h : HasContent ls offset inner) : offset = 0 ↔ inner = ls := by
  constructor
  · intro hzero
    cases h with
    | self => rfl
    | inside => omega
  · rintro rfl
    have := h.length_le
    omega

/-- **The lines of a content are lines of the document**, up to white space around them. -/
theorem exists_getElem? (h : HasContent ls offset inner) {i : Nat} {text : String}
    (htext : inner[i]? = some text) :
    ∃ line, ls[offset + i]? = some line ∧ trim line = trim text := by
  induction h with
  | self ls => exact ⟨text, by rwa [Nat.zero_add], rfl⟩
  | @inside before below after inner head title name offset _ _ _ _ _ _ ih =>
    obtain ⟨moved, hmoved, htrim⟩ := ih htext
    obtain ⟨line, hline, hsame⟩ := exists_getElem?_of_dedent hmoved
    refine ⟨line, ?_, hsame.trans htrim⟩
    obtain ⟨hlt, -⟩ := List.getElem?_eq_some_iff.mp hline
    have hindex : before.length + 1 + offset + i - before.length = offset + i + 1 := by omega
    rw [List.getElem?_append_right (by omega), hindex, List.getElem?_cons_succ,
      List.getElem?_append_left hlt, hline]

end HasContent

/-! ## The error -/

/-- The line is a directive for an attribute, without a name. -/
def IsNameless (line : String) : Prop :=
  ∃ title, Marker.ofLine? line = some (.directive "attribute" title) ∧ words title = []

theorem attributeBlock_ne_malformedDirective (name : String) (content : List Block) (line : Nat)
    (text : String) : attributeBlock name content ≠ .error (.malformedDirective line text) := by
  rw [attributeBlock]
  cases content.findSome? Block.typeBody? <;> rintro ⟨⟩

section Malformed

variable {ls : List String} {line : Nat} {text : String}
  {readContent : List String → Except MarkupError (List Block)}

/-- A directive is malformed itself, or its content has one that is. -/
theorem malformedDirective_cases {number : Nat} {head kind title : String} {content : List String}
    (h : directiveBlock readContent number head kind title content =
      .error (.malformedDirective line text)) :
    kind = "attribute" ∧ (words title = [] ∧ line = number ∧ text = head ∨
      ∃ name, words title = [name] ∧ name ≠ "see" ∧
        readContent content = .error (.malformedDirective line text)) := by
  unfold directiveBlock at h
  split at h
  · cases h
  · next hkind =>
    refine ⟨not_not.mp hkind, ?_⟩
    split at h
    · next htitle =>
      cases h
      exact .inl ⟨htitle, rfl, rfl⟩
    · cases h
    · split at h <;> cases h
    · next name hname htitle =>
      rcases error_of_bind h with h | ⟨blocks, -, h⟩
      · exact .inr ⟨name, htitle, hname, h⟩
      · exact absurd h (attributeBlock_ne_malformedDirective _ _ _ _)
    · cases h

/-- **Where a malformed directive stands**: in the document itself, or in the content of an
attribute. The number that is reported is its place there. -/
theorem exists_content_of_malformedDirective {depth : Nat}
    (h : blocksWithin depth ls = .error (.malformedDirective line text)) :
    ∃ offset inner, HasContent ls offset inner ∧ 0 < line ∧ inner[line - 1]? = some text ∧
      IsNameless text := by
  induction depth generalizing ls with
  | zero => cases h
  | succ depth ih =>
    obtain ⟨c, hc, herror⟩ := error_of_mapM h
    obtain ⟨front, after, rfl, hplace, hafter⟩ := exists_split_of_mem_chunks hc
    have hmarker := isRead_of_mem_chunks hc
    cases c with
    | prose => cases herror
    | marked number head marker below =>
      cases marker with
      | field => cases herror
      | directive kind title =>
        obtain ⟨⟨before, rfl, hnumber⟩, hbelow⟩ := hplace
        obtain ⟨rfl, ⟨htitle, rfl, rfl⟩ | ⟨name, htitle, hname, hcontent⟩⟩ :=
          malformedDirective_cases herror
        · refine ⟨0, _, .self _, by omega, ?_, title, hmarker, htitle⟩
          rw [hnumber, Nat.add_sub_cancel, List.append_assoc, List.getElem?_append_right le_rfl,
            Nat.sub_self]
          rfl
        · obtain ⟨offset, inner, hinner, hrest⟩ := ih hcontent
          refine ⟨before.length + 1 + offset, inner, ?_, hrest⟩
          rw [List.append_assoc, List.cons_append]
          refine .inside hmarker htitle hname hbelow (fun l hl => ?_) hinner
          simpa [Chunk.absorbs] using hafter l hl

/-- **The line that the error of a malformed directive names** is the line of the directive, counted
from the beginning of the content that it stands in. In the document, it stands as many lines
further down as there are above this content: none exactly if it stands in no attribute. -/
theorem ofLines_malformedDirective
    (h : Document.ofLines ls = .error (.malformedDirective line text)) :
    IsNameless text ∧ 1 ≤ line ∧ line ≤ ls.length ∧
      ∃ offset inner, HasContent ls offset inner ∧ inner[line - 1]? = some text ∧
        (offset = 0 ↔ inner = ls) ∧
        ∃ l, ls[offset + line - 1]? = some l ∧ trim l = trim text := by
  obtain ⟨offset, inner, hinner, hpos, htext, hnameless⟩ :=
    exists_content_of_malformedDirective (error_of_map h)
  obtain ⟨l, hl, htrim⟩ := hinner.exists_getElem? htext
  rw [← Nat.add_sub_assoc hpos] at hl
  obtain ⟨hlt, -⟩ := List.getElem?_eq_some_iff.mp hl
  exact ⟨hnameless, hpos, by omega, offset, inner, hinner, htext, hinner.offset_eq_zero_iff, l, hl,
    htrim⟩

end Malformed

namespace Sample

/-- An attribute without a name, in the content of another one. -/
def unnamedWithin : List String :=
  ["Intro.", ".. attribute:: a", "   :type: int", "   .. attribute::"]

theorem ofLines_malformedDirective_of_unnamedWithin :
    Document.ofLines unnamedWithin = .error (.malformedDirective 2 ".. attribute::") ∧
    IsNameless ".. attribute::" ∧ 1 ≤ 2 ∧ 2 ≤ unnamedWithin.length ∧
      ∃ offset inner, HasContent unnamedWithin offset inner ∧
        inner[2 - 1]? = some ".. attribute::" ∧ (offset = 0 ↔ inner = unnamedWithin) ∧
        ∃ l, unnamedWithin[offset + 2 - 1]? = some l ∧ trim l = trim ".. attribute::" := by
  have herror : Document.ofLines unnamedWithin =
      .error (.malformedDirective 2 ".. attribute::") := rfl
  exact ⟨herror, ofLines_malformedDirective herror⟩

/-- **The line in the content is reported**, not the line in the document: the directive stands on
the fourth line, and the second one is another. -/
theorem line_of_content_reported :
    Document.ofLines unnamedWithin = .error (.malformedDirective 2 ".. attribute::") ∧
    unnamedWithin[3]? = some "   .. attribute::" ∧
    ¬ ∀ (ls : List String) (line : Nat) (text : String),
      Document.ofLines ls = .error (.malformedDirective line text) →
        1 ≤ line ∧ line ≤ ls.length ∧ ∃ l, ls[line - 1]? = some l ∧ trim l = trim text := by
  have herror : Document.ofLines unnamedWithin =
      .error (.malformedDirective 2 ".. attribute::") := rfl
  refine ⟨herror, rfl, fun hall => ?_⟩
  obtain ⟨-, -, l, hl, htrim⟩ := hall _ _ _ herror
  obtain rfl : ".. attribute:: a" = l := Option.some.inj hl
  exact absurd htrim (by decide +kernel)

end Sample

end DocTree
