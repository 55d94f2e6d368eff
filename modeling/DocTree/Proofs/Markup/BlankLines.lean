import DocTree.Proofs.Markup.Chunks

/-!
# Documents across a blank line

A blank line ends what stands above it, unless an indented line follows. So the lines on both sides
of it are read as if they stood alone: what stands above gets blank lines at its end, and what stands
below gets other line numbers, and neither shows in a block.

* `Chunk.Padded`, `Chunk.Padded.block_eq`: a chunk with blank lines at its end has the same block;
* `Chunk.moveDown`, `Chunk.block_moveDown`: so has a chunk further down, if it has one;
* `exists_chunks_append`: **the chunks on both sides of a blank line**;
* `blocksWithin_append_blank`: blank lines at the end make no blocks;
* `ofLines_append_eq_ok_iff`, **`ofLines_append`**: the blocks on both sides of an empty line.
-/

namespace DocTree

open Text

/-! ## Blank lines at the end of a chunk -/

/-- The second chunk is the first one with blank lines below its marker. -/
inductive Chunk.Padded : Chunk → Chunk → Prop where
  | prose (ls : List String) : Padded (.prose ls) (.prose ls)
  | marked (number : Nat) (line : String) (marker : Marker) (below : List String)
      {blank : List String} (h : ∀ l ∈ blank, isBlank l = true) :
      Padded (.marked number line marker below) (.marked number line marker (below ++ blank))

theorem Chunk.Padded.refl (c : Chunk) : c.Padded c := by
  cases c with
  | prose ls => exact .prose ls
  | marked number line marker below =>
    have h : ∀ l ∈ ([] : List String), isBlank l = true := fun _ h => nomatch h
    have hpadded := Padded.marked number line marker below h
    rwa [List.append_nil] at hpadded

section Blocks

variable {readContent : List String → Except MarkupError (List Block)}

theorem directiveBlock_append_blank {content blank : List String}
    (hblank : ∀ l ∈ blank, isBlank l = true)
    (hread : readContent (content ++ blank) = readContent content) (number : Nat)
    (line kind title : String) :
    directiveBlock readContent number line kind title (content ++ blank) =
      directiveBlock readContent number line kind title content := by
  have hnone : blank.any (!isBlank ·) = false := by simpa using hblank
  unfold directiveBlock
  rw [joinTrimmed_append_blank _ hblank, List.any_append, hnone, Bool.or_false, hread]

/-- **Blank lines at the end of a chunk do not show in its block.** -/
theorem Chunk.Padded.block_eq {c c' : Chunk} (h : c.Padded c')
    (hread : ∀ content blank, (∀ l ∈ blank, isBlank l = true) →
      readContent (content ++ blank) = readContent content) :
    c'.block readContent = c.block readContent := by
  cases h with
  | prose ls => rfl
  | marked number line marker below hblank =>
    have hempty := fun n => isBlank_of_mem_replicate_empty n
    cases marker with
    | field name text =>
      rw [Chunk.block, dedent_append_blank _ hblank, ← List.cons_append,
        joinTrimmed_append_blank _ (hempty _), Chunk.block]
    | directive kind title =>
      rw [Chunk.block, dedent_append_blank _ hblank,
        directiveBlock_append_blank (hempty _) (hread _ _ (hempty _)), Chunk.block]

/-! ## Chunks further down -/

/-- The chunk with its marker further down. -/
def Chunk.moveDown (k : Nat) : Chunk → Chunk
  | marked number line marker below => .marked (number + k) line marker below
  | prose ls => .prose ls

theorem directiveBlock_number {number : Nat} {line kind title : String} {content : List String}
    {b : Block} (h : directiveBlock readContent number line kind title content = .ok b)
    (number' : Nat) : directiveBlock readContent number' line kind title content = .ok b := by
  unfold directiveBlock at h ⊢
  revert h
  split
  · exact id
  · split
    · exact fun h => nomatch h
    all_goals exact id

/-- **The number of a line shows in an error only.** -/
theorem Chunk.block_moveDown {c : Chunk} {b : Block} (h : c.block readContent = .ok b) (k : Nat) :
    (c.moveDown k).block readContent = .ok b := by
  match c with
  | .prose ls => exact h
  | .marked _ _ (.field ..) _ => exact h
  | .marked _ _ (.directive ..) _ => exact directiveBlock_number h _

theorem Chunk.block_moveDown_iff {c : Chunk} {b : Block} {k : Nat} :
    (c.moveDown k).block readContent = .ok b ↔ c.block readContent = .ok b := by
  refine ⟨fun h => ?_, fun h => block_moveDown h k⟩
  match c with
  | .prose ls => exact h
  | .marked _ _ (.field ..) _ => exact h
  | .marked _ _ (.directive ..) _ => exact directiveBlock_number h _

end Blocks

theorem chunksFrom_moveDown (k number : Nat) (current : Option Chunk) (ls : List String) :
    chunksFrom (number + k) (current.map (Chunk.moveDown k)) ls =
      (chunksFrom number current ls).map (Chunk.moveDown k) := by
  have habsorbs : ∀ (line : String) (c : Chunk), (c.moveDown k).absorbs line = c.absorbs line := by
    rintro line (_ | _) <;> rfl
  have hpush : ∀ (line : String) (c : Chunk),
      (c.moveDown k).push line = (c.push line).moveDown k := by
    rintro line (_ | _) <;> rfl
  have hstart : ∀ (number : Nat) (line : String),
      Chunk.start? (number + k) line = (Chunk.start? number line).map (Chunk.moveDown k) := by
    intro number line
    unfold Chunk.start?
    split
    · rfl
    · split <;> rfl
  have htoList : ∀ open? : Option Chunk,
      (open?.map (Chunk.moveDown k)).toList = open?.toList.map (Chunk.moveDown k) := by
    rintro (_ | _) <;> rfl
  induction ls generalizing number current with
  | nil => exact htoList current
  | cons line rest ih =>
    have hany : (current.map (Chunk.moveDown k)).any (·.absorbs line) =
        current.any (·.absorbs line) := by
      cases current with
      | none => rfl
      | some c => exact habsorbs line c
    have hopen : (current.map (Chunk.moveDown k)).map (·.push line) =
        (current.map (·.push line)).map (Chunk.moveDown k) := by
      cases current with
      | none => rfl
      | some c => exact congrArg some (hpush line c)
    have hnumber : number + k + 1 = number + 1 + k := Nat.add_right_comm number k 1
    rw [chunksFrom, chunksFrom, hany, hnumber]
    split
    · rw [hopen, ih]
    · rw [htoList, hstart, ih, List.map_append]

/-! ## Chunks on both sides of a blank line -/

/-- The first line that is not blank, if there is one, does not start with a space. -/
def StartsUnindented (ls : List String) : Prop :=
  ∀ line, ls.find? (fun line => !isBlank line) = some line → line.toList.head? ≠ some ' '

theorem indent_of_head? {line : String} (h : line.toList.head? ≠ some ' ') : indent line = 0 := by
  rw [indent]
  cases hline : line.toList with
  | nil => rfl
  | cons c cs =>
    have hc : c ≠ ' ' := by simpa [hline] using h
    rw [List.takeWhile_cons_of_neg (by simpa using hc), List.length_nil]

/-- Behind the blank lines at the beginning, there is nothing or a line at column zero. -/
theorem StartsUnindented.exists_blank {ls : List String} (h : StartsUnindented ls) :
    ∃ above rest, ls = above ++ rest ∧ (∀ line ∈ above, isBlank line = true) ∧
      ∀ line ∈ rest.head?, isBlank line = false ∧ indent line = 0 := by
  refine ⟨ls.takeWhile isBlank, ls.dropWhile isBlank, List.takeWhile_append_dropWhile.symm,
    fun line hline => List.mem_takeWhile_imp hline, fun line hline => ?_⟩
  have hfind : ls.find? (fun line => !isBlank line) = some line := by
    rw [List.find?_eq_head?_dropWhile_not]
    simpa using hline
  exact ⟨by simpa using List.find?_some hfind, indent_of_head? (h line hfind)⟩

theorem chunksFrom_none_blank {blank : List String} (h : ∀ l ∈ blank, isBlank l = true)
    (number : Nat) (rest : List String) :
    chunksFrom number none (blank ++ rest) = chunksFrom (number + blank.length) none rest := by
  induction blank generalizing number with
  | nil => rfl
  | cons line blank ih =>
    obtain ⟨hline, hblank⟩ := List.forall_mem_cons.mp h
    have hnone : Chunk.start? number line = none := by simp [Chunk.start?, hline]
    rw [List.cons_append, chunksFrom, Option.any_none, if_neg Bool.false_ne_true, hnone,
      Option.toList_none, List.nil_append, ih hblank, List.length_cons]
    congr 1
    omega

/-- A chunk ends where the next line does not belong to it. -/
theorem chunksFrom_some {c : Chunk} {rest : List String}
    (h : ∀ line ∈ rest.head?, c.absorbs line = false) (number : Nat) :
    chunksFrom number (some c) rest = c :: chunksFrom number none rest := by
  cases rest with
  | nil => rfl
  | cons line rest =>
    have hline : c.absorbs line = false := h line rfl
    rw [chunksFrom, Option.any_some, hline, if_neg Bool.false_ne_true, chunksFrom, Option.any_none,
      if_neg Bool.false_ne_true]
    rfl

section Blank

variable {blank : String} (hblank : isBlank blank = true) {ys : List String}
  (hys : StartsUnindented ys)

include hblank hys

/-- **A blank line ends the chunk above it**, which gets the blank lines if it has a marker. -/
theorem exists_chunksFrom_blank (number : Nat) (current : Option Chunk) :
    ∃ cs, List.Forall₂ Chunk.Padded current.toList cs ∧
      chunksFrom number current (blank :: ys) = cs ++ chunksFrom (number + 1) none ys := by
  have hnone : ∀ number, chunksFrom number none (blank :: ys) = chunksFrom (number + 1) none ys :=
    fun number => chunksFrom_none_blank (List.forall_mem_singleton.mpr hblank) number ys
  match current with
  | none => exact ⟨[], .nil, hnone number⟩
  | some (.prose ls) =>
    refine ⟨[.prose ls], .cons (.refl _) .nil, ?_⟩
    have hends : ∀ line ∈ (blank :: ys).head?, (Chunk.prose ls).absorbs line = false := by
      simp [Chunk.absorbs, hblank]
    rw [chunksFrom_some hends, hnone]
    rfl
  | some (.marked start head marker below) =>
    obtain ⟨above, rest, rfl, habove, hrest⟩ := hys.exists_blank
    have hall : ∀ l ∈ blank :: above, isBlank l = true :=
      List.forall_mem_cons.mpr ⟨hblank, habove⟩
    have hends : ∀ line ∈ rest.head?,
        (Chunk.marked start head marker (below ++ blank :: above)).absorbs line = false := by
      intro line hline
      obtain ⟨hline, hindent⟩ := hrest line hline
      simp [Chunk.absorbs, hline, hindent]
    refine ⟨[.marked start head marker (below ++ blank :: above)],
      .cons (.marked _ _ _ _ hall) .nil, ?_⟩
    rw [← List.cons_append, FieldLines.chunksFrom_below fun l hl => .inl (hall l hl),
      chunksFrom_some hends, chunksFrom_none_blank habove, List.length_cons,
      List.singleton_append, Nat.add_right_comm, Nat.add_assoc]

theorem exists_chunksFrom_append (xs : List String) (number : Nat) (current : Option Chunk) :
    ∃ cs, List.Forall₂ Chunk.Padded (chunksFrom number current xs) cs ∧
      chunksFrom number current (xs ++ blank :: ys) =
        cs ++ chunksFrom (number + xs.length + 1) none ys := by
  induction xs generalizing number current with
  | nil => exact exists_chunksFrom_blank hblank hys number current
  | cons line xs ih =>
    have hnumber : number + (line :: xs).length + 1 = number + 1 + xs.length + 1 := by
      rw [List.length_cons]
      omega
    rw [List.cons_append, chunksFrom, chunksFrom, hnumber]
    split
    · exact ih (number + 1) _
    · obtain ⟨cs, hcs, heq⟩ := ih (number + 1) (Chunk.start? number line)
      have hcurrent : List.Forall₂ Chunk.Padded current.toList current.toList :=
        List.forall₂_same.mpr fun c _ => .refl c
      exact ⟨current.toList ++ cs, List.rel_append hcurrent hcs, by rw [heq, List.append_assoc]⟩

/-- **The chunks on both sides of a blank line.** -/
theorem exists_chunks_append (xs : List String) :
    ∃ cs, List.Forall₂ Chunk.Padded (chunks xs) cs ∧
      chunks (xs ++ blank :: ys) = cs ++ (chunks ys).map (Chunk.moveDown (xs.length + 1)) := by
  obtain ⟨cs, hcs, heq⟩ := exists_chunksFrom_append hblank hys xs 1 none
  refine ⟨cs, hcs, ?_⟩
  rw [chunks, heq, chunks, ← chunksFrom_moveDown]
  rfl

end Blank

/-! ## Documents -/

/-- **Blank lines at the end make no blocks**, however deep they are nested. -/
theorem blocksWithin_append_blank (n : Nat) (ls blank : List String)
    (h : ∀ l ∈ blank, isBlank l = true) : blocksWithin n (ls ++ blank) = blocksWithin n ls := by
  induction n generalizing ls blank with
  | zero => rfl
  | succ n ih =>
    cases blank with
    | nil => rw [List.append_nil]
    | cons first blank =>
      obtain ⟨hfirst, hblank⟩ := List.forall_mem_cons.mp h
      have hstarts : StartsUnindented blank := by
        intro line hline
        have hnot := List.find?_some hline
        rw [hblank line (List.mem_of_find?_eq_some hline)] at hnot
        cases hnot
      obtain ⟨cs, hcs, heq⟩ := exists_chunks_append hfirst hstarts ls
      have hnone : chunks blank = [] := by
        have hend := chunksFrom_none_blank hblank 1 []
        rwa [List.append_nil] at hend
      rw [hnone, List.map_nil, List.append_nil] at heq
      rw [blocksWithin, blocksWithin, heq]
      exact mapM_congr_forall₂ (hcs.imp fun _ _ hpadded => hpadded.block_eq ih)

/-- Blank lines at the end do not show in a document. -/
theorem ofLines_append_blank (ls : List String) {blank : List String}
    (h : ∀ l ∈ blank, isBlank l = true) :
    Document.ofLines (ls ++ blank) = Document.ofLines ls := by
  rw [Document.ofLines, blocksWithin_append_blank _ _ _ h, Document.ofLines,
    blocksWithin_eq (by simp) le_rfl]

/-- The document of lines whose chunks are those of two pieces, up to blank lines and line numbers. -/
theorem ofLines_eq_ok_iff_of_chunks {ls xs ys : List String} {cs : List Chunk} {k : Nat}
    (hcs : List.Forall₂ Chunk.Padded (chunks xs) cs)
    (hchunks : chunks ls = cs ++ (chunks ys).map (Chunk.moveDown k))
    (hlength : xs.length + ys.length ≤ ls.length) {doc : Document} :
    Document.ofLines ls = .ok doc ↔
      ∃ first second, Document.ofLines xs = .ok first ∧ Document.ofLines ys = .ok second ∧
        doc.blocks = first.blocks ++ second.blocks := by
  -- One bound serves for the whole and for both pieces.
  have habove : xs.length ≤ ls.length + 1 := by omega
  have hbelow : ys.length ≤ ls.length + 1 := by omega
  have hfirst : cs.mapM (Chunk.block (blocksWithin ls.length)) =
      (chunks xs).mapM (Chunk.block (blocksWithin ls.length)) :=
    mapM_congr_forall₂ (hcs.imp fun _ _ h => h.block_eq (blocksWithin_append_blank _))
  have hsecond : ∀ blocks, ((chunks ys).map (Chunk.moveDown k)).mapM
        (Chunk.block (blocksWithin ls.length)) = .ok blocks ↔
      (chunks ys).mapM (Chunk.block (blocksWithin ls.length)) = .ok blocks := by
    intro blocks
    rw [mapM_eq_ok_iff, mapM_eq_ok_iff, List.forall₂_map_left_iff]
    simp only [Chunk.block_moveDown_iff]
  rw [ofLines_eq_ok_iff (Nat.le_succ ls.length), hchunks, mapM_append_eq_ok_iff, hfirst]
  constructor
  · rintro ⟨first, second, h, h', hblocks⟩
    rw [hsecond] at h'
    exact ⟨⟨first⟩, ⟨second⟩, (ofLines_eq_ok_iff habove).mpr h, (ofLines_eq_ok_iff hbelow).mpr h',
      hblocks⟩
  · rintro ⟨first, second, h, h', hblocks⟩
    refine ⟨first.blocks, second.blocks, (ofLines_eq_ok_iff habove).mp h, ?_, hblocks⟩
    rw [hsecond]
    exact (ofLines_eq_ok_iff hbelow).mp h'

/-- **Lines on both sides of an empty line are a document exactly if both pieces are**, and its
blocks are those of the pieces. -/
theorem ofLines_append_eq_ok_iff {xs ys : List String} (hys : StartsUnindented ys)
    {doc : Document} :
    Document.ofLines (xs ++ "" :: ys) = .ok doc ↔
      ∃ first second, Document.ofLines xs = .ok first ∧ Document.ofLines ys = .ok second ∧
        doc.blocks = first.blocks ++ second.blocks := by
  have hempty : isBlank "" = true := rfl
  obtain ⟨cs, hcs, hchunks⟩ := exists_chunks_append hempty hys xs
  exact ofLines_eq_ok_iff_of_chunks hcs hchunks (by simp)

/-- **A document is read piece by piece.** An empty line parts the lines in two. If both pieces are
documents, then the blocks of the whole are those of the one, followed by those of the other; and if
the first piece is none, then the whole fails with the same error. -/
theorem ofLines_append {xs ys : List String} (hys : StartsUnindented ys) :
    (∀ doc doc', Document.ofLines xs = .ok doc → Document.ofLines ys = .ok doc' →
      Document.ofLines (xs ++ [""] ++ ys) = .ok ⟨doc.blocks ++ doc'.blocks⟩) ∧
    ∀ e, Document.ofLines xs = .error e → Document.ofLines (xs ++ [""] ++ ys) = .error e := by
  have hempty : isBlank "" = true := rfl
  obtain ⟨cs, hcs, hchunks⟩ := exists_chunks_append hempty hys xs
  -- One bound serves for the whole and for both pieces.
  have habove : xs.length ≤ xs.length + ys.length + 1 := by omega
  have hbelow : ys.length ≤ xs.length + ys.length + 1 := by omega
  have hall : (xs ++ [""] ++ ys).length ≤ xs.length + ys.length + 1 := by
    simp only [List.length_append, List.length_singleton]
    omega
  have hfirst : cs.mapM (Chunk.block (blocksWithin (xs.length + ys.length))) =
      (chunks xs).mapM (Chunk.block (blocksWithin (xs.length + ys.length))) :=
    mapM_congr_forall₂ (hcs.imp fun _ _ h => h.block_eq (blocksWithin_append_blank _))
  constructor
  · intro doc doc' h h'
    rw [ofLines_eq_ok_iff habove] at h
    rw [ofLines_eq_ok_iff hbelow, mapM_eq_ok_iff] at h'
    have hsecond : ((chunks ys).map (Chunk.moveDown (xs.length + 1))).mapM
        (Chunk.block (blocksWithin (xs.length + ys.length))) = .ok doc'.blocks :=
      mapM_eq_ok_iff.mpr (List.forall₂_map_left_iff.mpr
        (h'.imp fun _ _ hb => Chunk.block_moveDown hb _))
    rw [ofLines_eq_ok_iff hall, List.append_assoc, List.singleton_append, hchunks,
      List.mapM_append, hfirst, h, hsecond]
    rfl
  · intro e h
    rw [ofLines_eq_error_iff habove] at h
    rw [ofLines_eq_error_iff hall, List.append_assoc, List.singleton_append, hchunks,
      List.mapM_append, hfirst, h]
    rfl

namespace Sample

/-- A field that goes on below its line, and a directive behind one more empty line. -/
theorem ofLines_append_of_field :
    StartsUnindented ["", ".. rubric:: Notes", "  More."] ∧
    Document.ofLines ["Some.", ":param a: One", "    or two."] =
      .ok ⟨[.paragraph "Some.", .field "param a" "One\nor two."]⟩ ∧
    Document.ofLines ["", ".. rubric:: Notes", "  More."] =
      .ok ⟨[.directive "rubric" "Notes" "More."]⟩ ∧
    Document.ofLines (["Some.", ":param a: One", "    or two."] ++ [""] ++
        ["", ".. rubric:: Notes", "  More."]) =
      .ok ⟨[.paragraph "Some.", .field "param a" "One\nor two."] ++
        [.directive "rubric" "Notes" "More."]⟩ ∧
    Document.ofLines ["Some.", ".. attribute::"] =
      .error (.malformedDirective 2 ".. attribute::") ∧
    Document.ofLines (["Some.", ".. attribute::"] ++ [""] ++
        ["", ".. rubric:: Notes", "  More."]) =
      .error (.malformedDirective 2 ".. attribute::") := by
  have hstarts : StartsUnindented ["", ".. rubric:: Notes", "  More."] := by
    rintro line ⟨⟩
    decide
  have habove : Document.ofLines ["Some.", ":param a: One", "    or two."] =
      .ok ⟨[.paragraph "Some.", .field "param a" "One\nor two."]⟩ := rfl
  have hbelow : Document.ofLines ["", ".. rubric:: Notes", "  More."] =
      .ok ⟨[.directive "rubric" "Notes" "More."]⟩ := rfl
  have herror : Document.ofLines ["Some.", ".. attribute::"] =
      .error (.malformedDirective 2 ".. attribute::") := rfl
  exact ⟨hstarts, habove, hbelow, (ofLines_append hstarts).1 _ _ habove hbelow, herror,
    (ofLines_append hstarts).2 _ herror⟩

end Sample

end DocTree
