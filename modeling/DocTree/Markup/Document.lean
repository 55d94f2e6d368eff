import DocTree.Markup.Error
import DocTree.Markup.Marker
import DocTree.Text.Margin

/-!
# Documents

A docstring as a sequence of blocks: paragraphs of prose, fields, attributes and other directives.

* `Block`, `Document`: the result;
* `Chunk`, `chunks`: the lines grouped by the block they belong to. A marker line owns the blank
  and the indented lines below it; a paragraph ends at a blank line or a marker;
* `blocksWithin`: the blocks of a list of lines. The content of an attribute is a document of its
  own, so reading nests. Content is shorter than the lines it stands in, hence the nesting is at
  most as deep as there are lines (`blocksWithin_eq`);
* `Document.ofLines`: **reading a document**.
-/

namespace DocTree

open Text

/-- A part of a document. -/
inductive Block where
  /-- Prose; its lines are kept as they stand. -/
  | paragraph (text : String)
  /-- The field `:name: body`. -/
  | field (name body : String)
  /-- The directive `.. attribute:: name` with the body of its type field and its prose. -/
  | attr (name typeBody body : String)
  /-- The directive `.. attribute:: see target…`. -/
  | see (target : List String)
  /-- Any other directive, such as `.. rubric:: Notes`. -/
  | directive (kind title body : String)
  deriving DecidableEq, Repr

namespace Block

/-- Whether a block documents something, as fields and attributes do. -/
def isStructured : Block → Bool
  | field .. | attr .. | see .. => true
  | paragraph .. | directive .. => false

/-- The text of a paragraph. -/
def prose? : Block → Option String
  | paragraph text => some text
  | _ => none

/-- The body of a type field. -/
def typeBody? : Block → Option String
  | field "type" body => some body
  | _ => none

end Block

/-- A docstring as a sequence of blocks. -/
structure Document where
  blocks : List Block
  deriving DecidableEq, Repr

/-! ## Chunks -/

/-- The lines of one block. -/
inductive Chunk where
  /-- A marker, its line with its number, and the lines below that belong to it. -/
  | marked (number : Nat) (line : String) (marker : Marker) (below : List String)
  | prose (lines : List String)
  deriving DecidableEq, Repr

namespace Chunk

/-- The chunk that a line opens; a blank line opens none. -/
def start? (number : Nat) (line : String) : Option Chunk :=
  if isBlank line then none
  else match Marker.ofLine? line with
    | some marker => some (.marked number line marker [])
    | none => some (.prose [line])

/-- Whether the next line belongs to the chunk. -/
def absorbs (line : String) : Chunk → Bool
  | marked .. => isBlank line || indent line > 0
  | prose _ => !isBlank line && (Marker.ofLine? line).isNone

/-- The number of its lines. -/
def size : Chunk → Nat
  | marked _ _ _ below => below.length + 1
  | prose ls => ls.length

/-- The chunk with one more line. -/
def push (line : String) : Chunk → Chunk
  | marked number head marker below => .marked number head marker (below ++ [line])
  | prose ls => .prose (ls ++ [line])

theorem size_push (line : String) (c : Chunk) : (c.push line).size = c.size + 1 := by
  cases c <;> simp [push, size]

theorem size_of_start? {number : Nat} {line : String} {c : Chunk}
    (h : start? number line = some c) : c.size = 1 := by
  simp only [start?] at h
  split at h
  · simp at h
  · split at h <;> (cases h; rfl)

end Chunk

/-- The chunks of the lines from line `number` on, given the chunk that is still open. -/
def chunksFrom (number : Nat) (current : Option Chunk) : List String → List Chunk
  | [] => current.toList
  | line :: rest =>
    if current.any (·.absorbs line) then
      chunksFrom (number + 1) (current.map (·.push line)) rest
    else current.toList ++ chunksFrom (number + 1) (Chunk.start? number line) rest

/-- The lines grouped by block; they count from one. -/
def chunks (ls : List String) : List Chunk := chunksFrom 1 none ls

theorem size_of_mem_chunksFrom {c : Chunk} :
    ∀ {ls : List String} {number : Nat} {current : Option Chunk},
      c ∈ chunksFrom number current ls → c.size ≤ ls.length + (current.map Chunk.size).getD 0
  | [], _, current, h => by
    obtain rfl : current = some c := by simpa [chunksFrom] using h
    simp
  | line :: rest, number, current, h => by
    simp only [chunksFrom] at h
    split at h
    · have ih := size_of_mem_chunksFrom h
      cases current with
      | none => simp at ih ⊢; omega
      | some d => simp [Chunk.size_push] at ih ⊢; omega
    · rcases List.mem_append.1 h with h | h
      · obtain rfl : current = some c := by simpa using h
        simp
      · have ih := size_of_mem_chunksFrom h
        cases hs : Chunk.start? number line with
        | none => simp [hs] at ih ⊢; omega
        | some d => simp [hs, Chunk.size_of_start? hs] at ih ⊢; omega

/-- A chunk has at most as many lines as there are. -/
theorem size_of_mem_chunks {c : Chunk} {ls : List String} (h : c ∈ chunks ls) :
    c.size ≤ ls.length := by
  simpa using size_of_mem_chunksFrom h

/-! ## Blocks -/

/-- An attribute block, from the blocks of its content: the first type field and the prose. -/
def attributeBlock (name : String) (content : List Block) : Except MarkupError Block :=
  match content.findSome? Block.typeBody? with
  | none => .error (.missingAttributeType name)
  | some typeBody => .ok (.attr name typeBody (unlines (content.filterMap Block.prose?)))

/-- The block of a directive. `readContent` reads the content of an attribute. -/
def directiveBlock (readContent : List String → Except MarkupError (List Block)) (number : Nat)
    (line kind title : String) (content : List String) : Except MarkupError Block :=
  if kind ≠ "attribute" then .ok (.directive kind title (joinTrimmed content))
  else match words title with
    | [] => .error (.malformedDirective number line)
    | ["see"] => .error (.missingLinkTarget title)
    | "see" :: target =>
      if content.any (!isBlank ·) then .error (.linkWithBody (" ".intercalate target))
      else .ok (.see target)
    | [name] => readContent content >>= attributeBlock name
    | _ => .error (.ambiguousFieldName title)

theorem directiveBlock_congr {f g : List String → Except MarkupError (List Block)}
    {content : List String} (h : f content = g content) (number : Nat) (line kind title : String) :
    directiveBlock f number line kind title content =
      directiveBlock g number line kind title content := by
  unfold directiveBlock
  split
  · rfl
  · split <;> simp only [h]

/-- The block of a chunk. -/
def Chunk.block (readContent : List String → Except MarkupError (List Block)) :
    Chunk → Except MarkupError Block
  | .prose ls => .ok (.paragraph (unlines ls))
  | .marked _ _ (.field name text) below => .ok (.field name (joinTrimmed (text :: dedent below)))
  | .marked number line (.directive kind title) below =>
    directiveBlock readContent number line kind title (dedent below)

/-- The blocks of the lines, with attributes nested at most `depth` deep. -/
def blocksWithin : Nat → List String → Except MarkupError (List Block)
  | 0, _ => .ok []
  | depth + 1, ls => (chunks ls).mapM (Chunk.block (blocksWithin depth))

/-- Content is read with fewer lines than the chunk has. -/
theorem Chunk.block_congr {f g : List String → Except MarkupError (List Block)} {c : Chunk}
    (h : ∀ content : List String, content.length < c.size → f content = g content) :
    c.block f = c.block g := by
  match c with
  | .prose ls => rfl
  | .marked _ _ (.field ..) _ => rfl
  | .marked number line (.directive kind title) below =>
    exact directiveBlock_congr (h _ (by simp [size, length_dedent])) number line kind title

theorem mapM_congr_mem {ε α β : Type} {f g : α → Except ε β} :
    ∀ {l : List α}, (∀ a ∈ l, f a = g a) → l.mapM f = l.mapM g
  | [], _ => rfl
  | a :: l, h => by
    rw [List.mapM_cons, List.mapM_cons, h a List.mem_cons_self,
      mapM_congr_mem fun b hb => h b (List.mem_cons_of_mem a hb)]

/-- **Any bound that is not below the number of lines gives the same blocks.** -/
theorem blocksWithin_eq : ∀ {n m : Nat} {ls : List String},
    ls.length ≤ n → ls.length ≤ m → blocksWithin n ls = blocksWithin m ls
  | 0, 0, _, _, _ => rfl
  | 0, m + 1, ls, hn, _ => by
    obtain rfl : ls = [] := List.length_eq_zero_iff.1 (Nat.le_zero.1 hn)
    rfl
  | n + 1, 0, ls, _, hm => by
    obtain rfl : ls = [] := List.length_eq_zero_iff.1 (Nat.le_zero.1 hm)
    rfl
  | n + 1, m + 1, ls, hn, hm => by
    refine mapM_congr_mem fun c hc => Chunk.block_congr fun content h => ?_
    have hs := size_of_mem_chunks hc
    exact blocksWithin_eq (by omega) (by omega)

namespace Document

/-- **Reading a document** from lines of field markup. -/
def ofLines (ls : List String) : Except MarkupError Document :=
  (blocksWithin ls.length ls).map Document.mk

/-- The prose that the document starts with, up to the first block of another kind. -/
def description (doc : Document) : Option String :=
  match (doc.blocks.takeWhile (·.prose?.isSome)).filterMap Block.prose? with
  | [] => none
  | texts => some (unlines texts)

def hasFields (doc : Document) : Bool := doc.blocks.any Block.isStructured

end Document

end DocTree
